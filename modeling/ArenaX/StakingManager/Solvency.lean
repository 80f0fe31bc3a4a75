/-
Where the staking manager's tokens are. Five facilities deposit into one account: what the contract holds is the
principal of all positions and the reserves for rewards and fees, through every operation, in every order. Only
validator penalties move tokens that no position gives up.
-/
import ArenaX.StakingManager.Contract

namespace ArenaX.StakingManager

open Machine Exec Sample
open Host (Address Holdings)
open Table (total_remove_of_some total_set total_set_of_some)

namespace State

variable (s : State)

/-- What the contract holds of the token that is staked. -/
def held (account : Address) : ℤ := (s.axToken.map fun token => s.tokens token account).getD 0

/-- What users have deposited and can claim back. -/
def principal : ℤ :=
  s.tournament.stake.total (fun info => (info.amount : ℤ)) + s.reward.position.total (fun pos => (pos.amount : ℤ)) +
    s.flexible.position.total (fun pos => (pos.amount : ℤ)) + s.votingLock.total (fun lock => (lock.amount : ℤ)) +
    s.lp.position.total (fun pos => (pos.amount : ℤ))

/-- What is set aside for fees and rewards. -/
def reserves : ℤ := s.lp.pool.total (fun pool => (pool.feeReserve : ℤ)) + s.reward.pool

/-- What the contract holds beyond the principal and the reserves. -/
def surplus (account : Address) : ℤ := s.held account - s.principal - s.reserves

end State

/-- The facts that the payments rest on: the admin is another address, the token is set, and neither a reserve nor
a position with a penalty is negative. -/
structure State.Sound (account : Address) (s : State) : Prop where
  admin : ∃ admin, s.admin = some admin ∧ admin ≠ account
  token : s.axToken ≠ none
  pool : 0 ≤ (s.reward.pool : ℤ)
  fees : s.lp.pool.All fun _ pool => 0 ≤ (pool.feeReserve : ℤ)
  flexible : s.flexible.position.All fun _ pos => 0 ≤ (pos.amount : ℤ)
  locks : s.votingLock.All fun _ lock => 0 ≤ (lock.amount : ℤ)

/-- A step that keeps these facts, and the books balanced. -/
structure Keeps (account : Address) (s s' : State) : Prop where
  sound : s'.Sound account
  surplus : s'.surplus account = s.surplus account

theorem Keeps.of_flow {account token : Address} {s s' : State} (hs : s'.Sound account) (htoken : s.axToken = some token)
    (htoken' : s'.axToken = some token) (hflow : s'.tokens token account - s'.principal - s'.reserves =
      s.tokens token account - s.principal - s.reserves) : Keeps account s s' := by
  refine ⟨hs, ?_⟩
  simp only [State.surplus, State.held, htoken, htoken', Option.map_some, Option.getD_some, hflow]

/-! ## Reward staking, flexible pools and voting locks -/

section Deposits

variable {env : Env} {s s' : State} {user : Address} {amount x : I128} {poolId : U32} (hs : s.Sound env.currentContract)
  {tournamentId : BytesN32}
include hs

theorem fundRewardPool_keeps (h : (fundRewardPool env s user amount).run .exact = some s') :
    Keeps env.currentContract s s' := by
  obtain ⟨huser, hpos, hfits, token, htoken, rfl⟩ := fundRewardPool_spec h
  have hpool := wrap_of_fits (hfits rfl)
  have hold := hs.pool
  refine .of_flow { hs with pool := by dsimp only; omega } htoken htoken ?_
  simp only [State.principal, State.reserves, hpool, Holdings.move_in (ne_currentContract huser)]
  omega

theorem stakeForRewards_keeps
    (h : (stakeForRewards env s user amount).run .exact = some s') : Keeps env.currentContract s s' := by
  obtain ⟨huser, -, cfg, token, position, -, htoken, hposition, -, rfl⟩ := stakeForRewards_spec h
  have hamount := rewardPosition_amount hposition
  have htotal := total_set (fun pos => (pos.amount : ℤ)) s.reward.position user position
  refine .of_flow { hs with } htoken htoken ?_
  simp only [State.principal, State.reserves, Holdings.move_in (ne_currentContract huser)]
  omega

theorem claimRewards_keeps (h : (claimRewards env s user).run .exact = some (x, s')) :
    Keeps env.currentContract s s' := by
  obtain ⟨huser, cfg, pos, accrued, token, -, hget, -, -, rfl, hfits, htoken, rfl⟩ := claimRewards_spec h
  have hpool := wrap_of_fits (hfits rfl)
  rw [toInt_min] at hpool
  refine .of_flow { hs with pool := by dsimp only; rw [toInt_min]; omega } htoken htoken ?_
  simp only [State.principal, State.reserves, toInt_min, hpool, total_set_of_some hget,
    Holdings.move_out (ne_currentContract huser)]
  omega

theorem unstakeRewards_keeps (h : (unstakeRewards env s user).run .exact = some s') :
    Keeps env.currentContract s s' := by
  obtain ⟨huser, cfg, pos, accrued, token, -, hget, -, htoken, hfits, rfl⟩ := unstakeRewards_spec h
  have hpool := wrap_of_fits (hfits rfl).1
  have hold := hs.pool
  rw [toInt_min] at hpool
  refine .of_flow { hs with pool := by dsimp only; rw [toInt_min]; omega } htoken htoken ?_
  simp only [State.principal, State.reserves, toInt_min, hpool, total_remove_of_some hget,
    Holdings.move_out (ne_currentContract huser)]
  omega

theorem stakeFlexible_keeps
    (h : (stakeFlexible env s user poolId amount).run .exact = some s') : Keeps env.currentContract s s' := by
  obtain ⟨huser, hpos, pool, token, position, -, htoken, hposition, -, rfl⟩ := stakeFlexible_spec h
  have hamount := flexiblePosition_amount hposition
  have htotal := total_set (fun pos => (pos.amount : ℤ)) s.flexible.position (user, poolId) position
  refine .of_flow { hs with flexible := hs.flexible.set_add hpos.le hamount } htoken htoken ?_
  simp only [State.principal, State.reserves, Holdings.move_in (ne_currentContract huser)]
  omega

theorem claimFlexibleRewards_keeps
    (h : (claimFlexibleRewards env s user poolId).run .exact = some (x, s')) : Keeps env.currentContract s s' := by
  obtain ⟨huser, pool, pos, accrued, token, -, hget, -, -, rfl, hfits, htoken, rfl⟩ := claimFlexibleRewards_spec h
  have hpool := wrap_of_fits (hfits rfl)
  rw [toInt_min] at hpool
  refine .of_flow { hs with
    pool := by dsimp only; rw [toInt_min]; omega
    flexible := hs.flexible.set (hs.flexible _ pos hget) } htoken htoken ?_
  simp only [State.principal, State.reserves, toInt_min, hpool, total_set_of_some hget,
    Holdings.move_out (ne_currentContract huser)]
  omega

theorem unstakeFlexible_keeps
    (h : (unstakeFlexible env s user poolId).run .exact = some s') : Keeps env.currentContract s s' := by
  obtain ⟨huser, pool, pos, accrued, penalty, token, -, hget, -, hpenalty, hout, htoken, hfits, rfl⟩ :=
    unstakeFlexible_spec h
  obtain ⟨admin, hadmin, hne⟩ := hs.admin
  have hpool := wrap_of_fits (hfits rfl).1
  have hout := wrap_of_fits (hout rfl)
  have hold := hs.pool
  have hnonneg := earlyExitPenalty_nonneg hpenalty (hs.flexible _ pos hget)
  simp only [toInt_min, toInt_max, toInt_zero] at hpool
  refine .of_flow { hs with
    pool := by simp only [toInt_min, toInt_max, toInt_zero]; omega
    flexible := hs.flexible.remove _ } htoken htoken ?_
  simp only [State.principal, State.reserves, toInt_min, toInt_max, toInt_zero, hpool, hout,
    hadmin, Option.getD_some, total_remove_of_some hget, Holdings.move_out hne,
    Holdings.move_out (ne_currentContract huser)]
  omega

theorem createVotingLock_keeps {duration : U64}
    (h : (createVotingLock env s user amount duration).run .exact = some (x, s')) : Keeps env.currentContract s s' := by
  obtain ⟨huser, hpos, hnone, token, htoken, -, rfl⟩ := createVotingLock_spec h
  refine .of_flow { hs with locks := hs.locks.set hpos.le } htoken htoken ?_
  simp only [State.principal, State.reserves, Table.total_set_of_none _ _ hnone,
    Holdings.move_in (ne_currentContract huser)]
  omega

theorem withdrawVotingLock_keeps
    (h : (withdrawVotingLock env s user).run .exact = some (x, s')) : Keeps env.currentContract s s' := by
  obtain ⟨huser, lock, penalty, token, hget, hpenalty, rfl, hfits, htoken, rfl⟩ := withdrawVotingLock_spec h
  obtain ⟨admin, hadmin, hne⟩ := hs.admin
  have hout := wrap_of_fits (hfits rfl)
  have hnonneg := earlyUnlockPenalty_nonneg hpenalty (hs.locks _ lock hget)
  refine .of_flow { hs with locks := hs.locks.remove _ } htoken htoken ?_
  simp only [State.principal, State.reserves, hout, hadmin, Option.getD_some, total_remove_of_some hget,
    Holdings.move_out hne, Holdings.move_out (ne_currentContract huser)]
  omega

/-! ## Tournament stakes -/

theorem stake_keeps
    (h : (stake env s user tournamentId amount).run .exact = some s') : Keeps env.currentContract s s' := by
  obtain ⟨huser, -, hnone, token, info, htoken, -, rfl⟩ := stake_spec h
  refine .of_flow { hs with } htoken htoken ?_
  simp only [State.principal, State.reserves, Table.total_set_of_none _ _ hnone,
    Holdings.move_in (ne_currentContract huser)]
  omega

theorem withdraw_keeps
    (h : (withdraw env s user tournamentId).run .exact = some s') : Keeps env.currentContract s s' := by
  obtain ⟨huser, info, token, hget, -, htoken, rfl⟩ := withdraw_spec h
  refine .of_flow { hs with } htoken htoken ?_
  simp only [State.principal, State.reserves, total_remove_of_some hget,
    Holdings.move_out (ne_currentContract huser)]
  omega

omit hs in
/-- A slash takes its amount out of the stake, whether it removes the stake or not. -/
theorem total_remaining {stakes : Table (BytesN32 × Address) StakeInfo} {key : BytesN32 × Address} {info : StakeInfo}
    (hget : stakes.get key = some info) (rest : I128) :
    (info.remaining stakes key rest).total (fun info => (info.amount : ℤ)) =
      stakes.total (fun info => (info.amount : ℤ)) - info.amount + rest := by
  unfold StakeInfo.remaining
  split
  · rename_i hzero
    rw [total_remove_of_some hget, hzero, add_zero]
  · exact total_set_of_some hget _

theorem slash_keeps {slashedBy : Address}
    (h : (slash env s user tournamentId amount slashedBy).run .exact = some s') : Keeps env.currentContract s s' := by
  obtain ⟨hpos, admin, info, token, t, t', hadmin, -, hget, hle, htoken, -, -, rfl⟩ := slash_spec h
  obtain ⟨_, hadmin', hne⟩ := hs.admin
  cases hadmin.symm.trans hadmin'
  refine .of_flow { hs with } htoken htoken ?_
  simp only [State.principal, State.reserves, total_remaining hget, StakeInfo.rest_eq hpos hle, Holdings.move_out hne]
  omega

/-! ## Liquidity -/

theorem addLiquidity_keeps {priceA priceB : I128}
    (h : (addLiquidity env s user poolId amount priceA priceB).run .exact = some s') :
    Keeps env.currentContract s s' := by
  obtain ⟨huser, -, pool, token, position, hpool, htoken, hposition, -, rfl⟩ := addLiquidity_spec h
  have hamount := lpPosition_amount hposition
  have htotal := total_set (fun pos => (pos.amount : ℤ)) s.lp.position (user, poolId) position
  refine .of_flow { hs with fees := hs.fees.set (hs.fees _ pool hpool) } htoken htoken ?_
  simp only [State.principal, State.reserves, total_set_of_some hpool,
    Holdings.move_in (ne_currentContract huser)]
  omega

theorem removeLiquidity_keeps {priceA priceB : I128}
    (h : (removeLiquidity env s user poolId priceA priceB).run .exact = some s') :
    Keeps env.currentContract s s' := by
  obtain ⟨huser, pool, pos, reward, fees, protection, il, token, history, hpool, hget, hdue, -, hil, htoken, hfits,
    rfl⟩ := removeLiquidity_spec h
  obtain ⟨hfitReward, -, hfitFees, -⟩ := hfits rfl
  obtain ⟨hreward, hreward', hfees, hfees'⟩ := due_bounds hdue hs.pool (hs.fees _ pool hpool)
  have hrest : (i128.saturate (pool.feeReserve - fees) : ℤ) = pool.feeReserve - fees :=
    saturate_of_fits ⟨i128.min_le.trans (by omega), by have := pool.feeReserve.hi; omega⟩
  have hilMax : max (il : ℤ) 0 ≤ pool.feeReserve - fees := by
    rw [hil, toInt_min]
    omega
  have hpool' := wrap_of_fits hfitReward
  have hfees'' := wrap_of_fits hfitFees
  refine .of_flow { hs with
    pool := by dsimp only; omega
    fees := hs.fees.set (by dsimp only; omega) } htoken htoken ?_
  simp only [State.principal, State.reserves, total_set_of_some hpool, total_remove_of_some hget, hpool',
    hfees'', Holdings.move_out (ne_currentContract huser)]
  omega

theorem claimLpRewards_keeps {reward fees : I128}
    (h : (claimLpRewards env s user poolId).run .exact = some ((reward, fees), s')) :
    Keeps env.currentContract s s' := by
  obtain ⟨huser, pool, pos, token, history, hpool, hget, hdue, htoken, hfits, rfl⟩ := claimLpRewards_spec h
  obtain ⟨hfitReward, hfitFees⟩ := hfits rfl
  obtain ⟨hreward, hreward', hfees, hfees'⟩ := due_bounds hdue hs.pool (hs.fees _ pool hpool)
  have hpool' := wrap_of_fits hfitReward
  have hfees'' := wrap_of_fits hfitFees
  refine .of_flow { hs with
    pool := by dsimp only; omega
    fees := hs.fees.set (by dsimp only; omega) } htoken htoken ?_
  simp only [State.principal, State.reserves, total_set_of_some hpool, total_set_of_some hget, hpool',
    hfees'', Holdings.move_out (ne_currentContract huser)]
  omega

theorem depositLpFees_keeps
    (h : (depositLpFees env s user poolId amount).run .exact = some s') : Keeps env.currentContract s s' := by
  obtain ⟨huser, hpos, token, pool, htoken, hpool, hfits, rfl⟩ := depositLpFees_spec h
  have hreserve := wrap_of_fits (hfits rfl).1
  have hold := hs.fees _ pool hpool
  refine .of_flow { hs with fees := hs.fees.set (by dsimp only; omega) } htoken htoken ?_
  simp only [State.principal, State.reserves, total_set_of_some hpool, hreserve,
    Holdings.move_in (ne_currentContract huser)]
  omega

end Deposits

/-! ## Settings -/

section Settings

variable {m : Mode} {env : Env} {s s' : State} {c : Call} {account : Address} {poolId : U32}

/-- A pool may be rewritten, as long as its fee reserve stays. -/
theorem Keeps.of_lpPool {pool pool' : LpPoolConfig} (hs : s.Sound account) (hget : s.lp.pool.get poolId = some pool)
    (hfee : pool'.feeReserve = pool.feeReserve) :
    Keeps account s { s with lp.pool := s.lp.pool.set poolId pool' } where
  sound := { hs with fees := hs.fees.set (hfee ▸ hs.fees _ pool hget) }
  surplus := by
    simp only [State.surplus, State.held, State.principal, State.reserves, total_set_of_some hget, hfee]
    omega

theorem createLpPool_keeps {rate protection id : U32} (hs : s.Sound account)
    (hfresh : s.lp.pool.get s.lp.counter = none) (h : (createLpPool env s rate protection).run m = some (id, s')) :
    Keeps account s s' := by
  obtain ⟨-, -, rfl⟩ := createLpPool_spec h
  refine ⟨{ hs with fees := hs.fees.set le_rfl }, ?_⟩
  simp only [State.surplus, State.held, State.principal, State.reserves, Table.total_set_of_none _ _ hfresh,
    toInt_zero]
  omega

theorem setAxToken_keeps {token : Address} (hs : s.Sound account) (htoken : s.axToken = some token)
    (h : (setAxToken env s token).run m = some s') : Keeps account s s' := by
  obtain ⟨-, rfl⟩ := run_then_pure h
  refine ⟨{ hs with token := by simp }, ?_⟩
  simp only [State.surplus, State.held, State.principal, State.reserves, htoken]

end Settings

/-! ## Runs -/

section Runs

variable {m : Mode} {env : Env} {s s' : State} {c : Call}

/-- The calls that move tokens without a position or a reserve to account for them. -/
def Call.isPenalty : Call → Bool
  | .slashValidator .. | .resolveAppeal .. => true
  | _ => false

/-- The staked token stays the same, and a new liquidity pool takes an identifier that is free. -/
def Call.Regular (s : State) : Call → Prop
  | .setAxToken axToken => s.axToken = some axToken
  | .createLpPool .. => s.lp.pool.get s.lp.counter = none
  | _ => True

instance (s : State) (c : Call) : Decidable (c.Regular s) := by
  apply Call.casesOn (motive := fun c => Decidable (c.Regular s)) c <;> intros <;> dsimp only [Call.Regular] <;>
    infer_instance

theorem execute_keeps (hs : s.Sound env.currentContract) (hc : c.isPenalty = false) (hregular : c.Regular s)
    (h : (execute env s c).run .exact = some s') : Keeps env.currentContract s s' := by
  cases c with
  | setAxToken => exact setAxToken_keeps hs hregular h
  | fundRewardPool => exact fundRewardPool_keeps hs h
  | stakeForRewards => exact stakeForRewards_keeps hs h
  | claimRewards => obtain ⟨_, h⟩ := run_snd_map h; exact claimRewards_keeps hs h
  | unstakeRewards => exact unstakeRewards_keeps hs h
  | stake => exact stake_keeps hs h
  | withdraw => exact withdraw_keeps hs h
  | slash => exact slash_keeps hs h
  | stakeFlexible => exact stakeFlexible_keeps hs h
  | claimFlexibleRewards => obtain ⟨_, h⟩ := run_snd_map h; exact claimFlexibleRewards_keeps hs h
  | unstakeFlexible => exact unstakeFlexible_keeps hs h
  | createVotingLock => obtain ⟨_, h⟩ := run_snd_map h; exact createVotingLock_keeps hs h
  | withdrawVotingLock => obtain ⟨_, h⟩ := run_snd_map h; exact withdrawVotingLock_keeps hs h
  | slashValidator | resolveAppeal => cases hc
  | createLpPool => obtain ⟨_, h⟩ := run_snd_map h; exact createLpPool_keeps hs hregular h
  | setLpRewardRate => obtain ⟨-, _, hpool, rfl⟩ := setLpRewardRate_spec h; exact .of_lpPool hs hpool rfl
  | updateLpDynamicRate => obtain ⟨-, _, _, hpool, -, rfl⟩ := updateLpDynamicRate_spec h; exact .of_lpPool hs hpool rfl
  | setLpPoolActive => obtain ⟨-, _, hpool, rfl⟩ := setLpPoolActive_spec h; exact .of_lpPool hs hpool rfl
  | addLiquidity => exact addLiquidity_keeps hs h
  | removeLiquidity => exact removeLiquidity_keeps hs h
  | claimLpRewards => obtain ⟨⟨_, _⟩, h⟩ := run_snd_map h; exact claimLpRewards_keeps hs h
  | depositLpFees => exact depositLpFees_keeps hs h
  | _ =>
    -- the calls that configure the contract without touching its books
    revert s' h
    show Ensures .exact _ _
    try refine .map (f := Prod.snd) ?_
    repeat refine Ensures.bind fun _ _ => ?_
    exact .pure ⟨{ hs with }, rfl⟩

/-- A contract that has just been initialized has nothing and owes nothing. -/
theorem sound_deployed {e : Env} (h : (contract m).init e s) :
    s.Sound e.currentContract ∧ s.surplus e.currentContract = 0 := by
  obtain ⟨tokens, _, axToken, config, hzero, hadmin, -, rfl⟩ := contract_init h
  refine ⟨⟨⟨_, rfl, ne_currentContract hadmin⟩, by simp, le_rfl, .empty, .empty, .empty⟩, ?_⟩
  simp [State.surplus, State.held, State.principal, State.reserves, Table.total_eq_finsum, hzero]

/-- The calls of one contract, other than validator penalties. -/
def Ordinary : Rule := fun e e' s c =>
  e'.currentContract = e.currentContract ∧ c.isPenalty = false ∧ c.Regular s
deriving Decidable

/-- In every run of deposits, claims, withdrawals and slashes by any users in any order, in which no `i128`
overflows, what the contract holds is the principal of all positions and the reserves for fees and rewards, and no
reserve is negative. -/
theorem principal_is_never_spent {e : Env} (h : (contract .exact).Reach Ordinary e s) :
    s.held e.currentContract = s.principal + s.reserves ∧ 0 ≤ (s.reward.pool : ℤ) ∧
      ∀ id pool, s.lp.pool.get id = some pool → 0 ≤ (pool.feeReserve : ℤ) := by
  have hinv : s.Sound e.currentContract ∧ s.surplus e.currentContract = 0 := by
    refine h.invariant (P := fun e s => s.Sound e.currentContract ∧ s.surplus e.currentContract = 0) sound_deployed ?_
    rintro e e' s c s' ⟨hs, hzero⟩ ⟨hcontract, hc, hregular⟩ hstep
    rw [← hcontract] at hs hzero
    have hkeeps := execute_keeps hs hc hregular hstep
    exact ⟨hkeeps.sound, hkeeps.surplus.trans hzero⟩
  obtain ⟨hs, hzero⟩ := hinv
  refine ⟨?_, hs.pool, hs.fees⟩
  unfold State.surplus at hzero
  omega

/-- Every facility in use: rewards paid, a tournament stake slashed, a flexible position and a voting lock left
early, and a liquidity provider paid rewards and fees and gone. -/
def stakingDay : List (Env × Call) :=
  [signed 10 (.fundRewardPool admin 5000),
    signed 10 (.stakeForRewards alice 20000),
    signed 10 (.createTournament 7 100),
    signed 10 (.updateTournamentState 7 TournamentState.active.code),
    signed 10 (.stake bob 7 400),
    signed 10 (.createRewardPool 1500 1000000 1000),
    signed 10 (.stakeFlexible bob 0 3000),
    signed 10 (.createVotingLock alice 800 31536000),
    signed 10 (.createLpPool 2000 0),
    signed 10 (.addLiquidity alice 0 6000 0 0),
    signed 10 (.addLiquidity bob 0 2000 0 0),
    signed 20 (.depositLpFees admin 0 400),
    signed 900000 (.claimRewards alice),
    signed 900000 (.slash bob 7 150 admin),
    signed 900000 (.unstakeFlexible bob 0),
    signed 900000 (.withdrawVotingLock alice),
    signed 900000 (.claimLpRewards bob 0),
    signed 900000 (.removeLiquidity alice 0 0 0)]

theorem books_after_stakingDay : ∃ r, (deployment .exact).after Ordinary stakingDay = some r ∧
    r.2.principal = 22250 ∧ 0 < r.2.reserves ∧ r.2.held r.1.currentContract = r.2.principal + r.2.reserves := by
  refine ⟨_, evaluated, by decide +kernel, by decide +kernel, ?_⟩
  exact (principal_is_never_spent (reach_after (evaluated _))).1

end Runs

end ArenaX.StakingManager
