/-
Changes of rates. Rewards accrue when they are looked at, from a position's last settlement on and at the rate of the
moment, and a change of the rate settles no position: it changes what was earned before it, unless the remainder of the
division takes the difference up, as it does where a position has just been settled or the rate stays what it was.
-/
import ArenaX.Lib.Quotients
import ArenaX.StakingManager.Frame

namespace ArenaX.StakingManager

open Machine Exec Sample Quotients
open Host (Address)

section Accrual

variable {amount pending : I128} {rate rate' : U32} {since now year : U64}

/-- The numerator of an accrual, as the code multiplies it. -/
def numerator (amount : I128) (rate : U32) (since now : U64) : ℤ :=
  i128.wrap (i128.wrap (amount * rate) * u64.saturate (now - since))

/-- What a new rate changes of the numerator is taken up by the remainder. -/
def Unaffected (amount : I128) (rate rate' : U32) (since now : U64) : Prop :=
  SameOf (numerator amount rate since now) (numerator amount rate' since now) (secsPerYear * 10000)
deriving Decidable

variable (amount rate since now) in
theorem run_accrue : ∃ reward : I128, (accrue amount rate since now secsPerYear).run .wrapping = some reward ∧
    (reward : ℤ) = (numerator amount rate since now).tdiv (secsPerYear * 10000) := by
  have hfits := fits_tdiv (i128.wrap (i128.wrap (amount * rate) * u64.saturate (now - since)))
    (d := secsPerYear * 10000) (by decide)
  refine ⟨i128.wrap ((numerator amount rate since now).tdiv (secsPerYear * 10000)), ?_, wrap_of_fits hfits⟩
  simp only [accrue, run_bind, unchecked_wrapping, Option.bind_some]
  exact (run_quot _ _ _ _ _).2 ⟨by decide, wrap_of_fits hfits⟩

theorem accrue_eq_iff : (accrue amount rate' since now secsPerYear).run .wrapping =
    (accrue amount rate since now secsPerYear).run .wrapping ↔ Unaffected amount rate rate' since now := by
  obtain ⟨reward, hrun, hreward⟩ := run_accrue amount rate since now
  obtain ⟨reward', hrun', hreward'⟩ := run_accrue amount rate' since now
  rw [hrun, hrun', Option.some_inj, IntType.Val.ext_iff, hreward, hreward']
  exact tdiv_eq_tdiv_iff_of (by decide)

/-- What is pending on top of it does not hide a change. -/
theorem wrap_add_inj {x y c : I128} : i128.wrap (x + c) = i128.wrap (y + c) ↔ x = y := by
  refine ⟨fun h => ?_, fun h => by rw [h]⟩
  have := congrArg (fun z : I128 => i128.wrap (z - c)) h
  simpa only [IntType.wrap_wrap_sub, add_sub_cancel_right, wrap_toInt] using this

/-- Rewards that are added to what is pending. -/
theorem accrued_eq_iff :
    (accrue amount rate' since now secsPerYear >>= fun reward => unchecked i128 (reward + pending)).run .wrapping =
      (accrue amount rate since now secsPerYear >>= fun reward => unchecked i128 (reward + pending)).run .wrapping ↔
    Unaffected amount rate rate' since now := by
  obtain ⟨reward, hrun, -⟩ := run_accrue amount rate since now
  obtain ⟨reward', hrun', -⟩ := run_accrue amount rate' since now
  rw [← accrue_eq_iff, run_bind, run_bind, hrun, hrun', Option.bind_some, Option.bind_some, unchecked_wrapping,
    unchecked_wrapping, Option.some_inj, Option.some_inj, wrap_add_inj]

end Accrual

/-! ## What is pending -/

section Pending

variable {m : Mode} {env : Env} {s s' : State} {c : Call} {u : Address} {id : U32}

theorem run_pendingRewards {cfg : RewardConfig} (hcfg : s.reward.config = some cfg) : (pendingRewards env s u).run m =
    (s.reward.position.get u).elim (some 0) fun pos => (pos.accrued cfg env.timestamp).run m := by
  unfold pendingRewards
  rw [hcfg, run_bind, run_unwrap, Option.bind_some]
  cases s.reward.position.get u with
  | none => exact run_pure m 0
  | some pos => rfl

theorem run_pendingFlexibleRewards : (pendingFlexibleRewards env s u id).run m =
    (s.flexible.pool.get id).bind fun pool => (s.flexible.position.get (u, id)).elim (some 0) fun pos =>
      (pos.accrued pool.apyBps env.timestamp).run m := by
  unfold pendingFlexibleRewards State.getRewardPool
  rw [run_bind, run_okOr]
  congr 1
  funext pool
  cases s.flexible.position.get (u, id) with
  | none => exact run_pure m 0
  | some pos => rfl

theorem run_pendingLpRewards : (pendingLpRewards env s u id).run m =
    (s.lp.pool.get id).bind fun pool => (s.lp.position.get (u, id)).elim (some 0) fun pos =>
      (pos.accrued pool env.timestamp).run m := by
  unfold pendingLpRewards State.loadLpPool
  rw [run_bind, run_okOr]
  congr 1
  funext pool
  cases s.lp.position.get (u, id) with
  | none => exact run_pure m 0
  | some pos => rfl

end Pending

/-! ## Changes of rates -/

section Changes

variable {m : Mode} {env : Env} {s s' : State} {c : Call} {u : Address} {id poolId rate : U32}

/-- The calls that change a rate. -/
def Call.changesRate : Call → Bool
  | .setRewardConfig .. | .setRewardPoolRate .. | .setLpRewardRate .. | .updateLpDynamicRate .. => true
  | _ => false

/-- A new rate of a liquidity pool does not affect a user. -/
def State.LpUnaffected (env : Env) (u : Address) (poolId rate : U32) (s : State) : Prop :=
  ∀ pool ∈ s.lp.pool.get poolId, ∀ pos ∈ s.lp.position.get (u, poolId), (pool.totalLiquidity : ℤ) ≤ 0 ∨
    (pos.amount : ℤ) ≤ 0 ∨ Unaffected pos.amount pool.rewardRateBps rate pos.lastRewardTs env.timestamp

/-- A change of a rate that affects no position of a user. -/
def Call.SparesRewards (env : Env) (u : Address) (s : State) : Call → Prop
  | .setRewardConfig annualRateBps _ => ∀ cfg ∈ s.reward.config, ∀ pos ∈ s.reward.position.get u,
      Unaffected pos.amount cfg.annualRateBps annualRateBps pos.lastRewardTs env.timestamp
  | .setRewardPoolRate poolId apyBps =>
    ∀ pool ∈ s.flexible.pool.get poolId, ∀ pos ∈ s.flexible.position.get (u, poolId),
      Unaffected pos.amount pool.apyBps apyBps pos.lastRewardTs env.timestamp
  | .setLpRewardRate poolId newRateBps => s.LpUnaffected env u poolId newRateBps
  | .updateLpDynamicRate poolId targetLiquidity baseRateBps minRateBps => ∀ pool ∈ s.lp.pool.get poolId,
      ∀ rate ∈ (dynamicRate pool.totalLiquidity targetLiquidity baseRateBps minRateBps).run .wrapping,
        s.LpUnaffected env u poolId rate
  | _ => True

/-- All that is pending for a user, in the moment of a call. -/
def SamePending (env : Env) (u : Address) (s s' : State) : Prop :=
  (pendingRewards env s' u).run .wrapping = (pendingRewards env s u).run .wrapping ∧
    ∀ id, (pendingFlexibleRewards env s' u id).run .wrapping = (pendingFlexibleRewards env s u id).run .wrapping ∧
      (pendingLpRewards env s' u id).run .wrapping = (pendingLpRewards env s u id).run .wrapping

theorem setRewardConfig_pending {minStake : I128}
    (hyear : ∀ cfg ∈ s.reward.config, cfg.secsPerYear = secsPerYear)
    (hset : s.reward.config ≠ none) (h : (setRewardConfig env s rate minStake).run m = some s') :
    SamePending env u s s' ↔ (Call.setRewardConfig rate minStake).SparesRewards env u s := by
  obtain ⟨-, rfl⟩ := setRewardConfig_spec h
  obtain ⟨cfg, hcfg⟩ := Option.ne_none_iff_exists'.1 hset
  have hothers (P : Prop) : (P ∧ ∀ id, (pendingFlexibleRewards env s u id).run .wrapping = _ ∧
      (pendingLpRewards env s u id).run .wrapping = _) ↔ P := and_iff_left fun _ => ⟨rfl, rfl⟩
  refine (hothers _).trans ?_
  rw [run_pendingRewards hcfg, run_pendingRewards rfl, Call.SparesRewards, hcfg]
  cases hpos : s.reward.position.get u with
  | none => simp
  | some pos =>
    simp only [Option.elim_some, RewardStakePosition.accrued, RewardStakePosition.calcPending, hyear cfg hcfg,
      Option.mem_some_iff, forall_eq']
    exact accrued_eq_iff

theorem setRewardPoolRate_pending (h : (setRewardPoolRate env s poolId rate).run m = some s') :
    SamePending env u s s' ↔ (Call.setRewardPoolRate poolId rate).SparesRewards env u s := by
  obtain ⟨-, pool, hpool, rfl⟩ := setRewardPoolRate_spec h
  constructor
  · intro hsame pool' hpool' pos hpos
    cases hpool.symm.trans hpool'
    have hpending := (hsame.2 poolId).1
    rw [run_pendingFlexibleRewards, run_pendingFlexibleRewards, Table.get_set_self, hpool, hpos] at hpending
    exact accrued_eq_iff.1 hpending
  · refine fun hspares => ⟨rfl, fun id => ⟨?_, rfl⟩⟩
    rw [run_pendingFlexibleRewards, run_pendingFlexibleRewards, Table.get_set]
    split
    · rename_i hid
      subst hid
      rw [hpool]
      cases hpos : s.flexible.position.get (u, id) with
      | none => rfl
      | some pos => exact accrued_eq_iff.2 (hspares pool hpool pos hpos)
    · rfl

theorem LpPosition.accrued_eq_iff {pos : LpPosition} {pool : LpPoolConfig} {now : U64} :
    (pos.accrued { pool with rewardRateBps := rate } now).run .wrapping = (pos.accrued pool now).run .wrapping ↔
      (pool.totalLiquidity : ℤ) ≤ 0 ∨ (pos.amount : ℤ) ≤ 0 ∨
        Unaffected pos.amount pool.rewardRateBps rate pos.lastRewardTs now := by
  unfold accrued calcLpRewards
  by_cases hempty : (pool.totalLiquidity : ℤ) ≤ 0 ∨ (pos.amount : ℤ) ≤ 0
  · simp only [if_pos hempty, true_iff]
    exact or_assoc.1 (.inl hempty)
  · simp only [if_neg hempty, ← or_assoc]
    exact StakingManager.accrued_eq_iff.trans (or_iff_right hempty).symm

/-- A liquidity pool gets a new rate. -/
theorem setLpRate_pending {pool : LpPoolConfig} (hpool : s.lp.pool.get poolId = some pool) :
    SamePending env u s { s with lp.pool := s.lp.pool.set poolId { pool with rewardRateBps := rate } } ↔
      s.LpUnaffected env u poolId rate := by
  constructor
  · intro hsame pool' hpool' pos hpos
    cases hpool.symm.trans hpool'
    have hpending := (hsame.2 poolId).2
    rw [run_pendingLpRewards, run_pendingLpRewards, Table.get_set_self, hpool, hpos] at hpending
    exact LpPosition.accrued_eq_iff.1 hpending
  · refine fun hspares => ⟨rfl, fun id => ⟨rfl, ?_⟩⟩
    rw [run_pendingLpRewards, run_pendingLpRewards, Table.get_set]
    split
    · rename_i hid
      subst hid
      rw [hpool]
      cases hpos : s.lp.position.get (u, id) with
      | none => rfl
      | some pos => exact LpPosition.accrued_eq_iff.2 (hspares pool hpool pos hpos)
    · rfl

/-- The configuration of rewards is set and has a year of 365 days. -/
theorem config_of_reach {ok : Rule} {e : Env} (h : (contract m).Reach ok e s) :
    s.reward.config ≠ none ∧ ∀ cfg ∈ s.reward.config, cfg.secsPerYear = secsPerYear := by
  refine h.invariant
    (P := fun _ s => s.reward.config ≠ none ∧ ∀ cfg ∈ s.reward.config, cfg.secsPerYear = secsPerYear) ?_ ?_
  · intro e s hinit
    obtain ⟨_, _, _, config, -, -, hyear, rfl⟩ := contract_init hinit
    simpa using hyear
  · intro e e' s c s' hs _ hstep
    by_cases hf : c.facility = .reward
    · cases c with
      | setRewardConfig =>
        obtain ⟨-, rfl⟩ := setRewardConfig_spec hstep
        simp
      | fundRewardPool => obtain ⟨-, -, -, _, -, rfl⟩ := fundRewardPool_spec hstep; exact hs
      | stakeForRewards => obtain ⟨-, -, _, _, _, -, -, -, -, rfl⟩ := stakeForRewards_spec hstep; exact hs
      | claimRewards =>
        obtain ⟨_, hstep⟩ := run_snd_map hstep
        obtain ⟨-, _, _, _, _, -, -, -, -, -, -, -, rfl⟩ := claimRewards_spec hstep
        exact hs
      | unstakeRewards => obtain ⟨-, _, _, _, _, -, -, -, -, -, rfl⟩ := unstakeRewards_spec hstep; exact hs
      | _ => cases hf
    · rwa [(execute_frame hstep).rewardConfig hf]

/-- A stake of 10000 in a pool that pays 10% a year. -/
def stakedFlexibly : List (Env × Call) :=
  [signed 10 (.createRewardPool 1000 0 0),
    signed 10 (.stakeFlexible alice 0 10000)]

end Changes

end ArenaX.StakingManager
