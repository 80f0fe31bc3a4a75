/-
The books of the staking contract against the tokens it holds. Deposits go to the positions, penalties and funds to the
reward pool, and what an epoch was given is on record: where nothing overflows, the three add up to the contract's
tokens, and none of it is negative.
-/
import ArenaX.StakingRewards.Contract

namespace ArenaX.StakingRewards

open Machine Exec Sample
open Host (Address Holdings)

/-- Any calls of one contract. -/
def OneContract : Rule := fun e e' _ _ => e'.currentContract = e.currentContract
deriving Decidable

def StakingPosition.staked (position : StakingPosition) : ℤ := position.amount

/-- The books of a contract at an address. -/
structure State.Accounted (account : Address) (s : State) : Prop where
  total : (s.totalStaked : ℤ) = Table.total StakingPosition.staked s.stake
  held : ∃ token, s.token = some token ∧
    s.tokens token account = s.totalStaked + s.rewardPool + Table.total IntType.Val.toInt s.epochDistributed
  rewardPool : 0 ≤ (s.rewardPool : ℤ)
  positions : s.stake.All fun _ p => 0 ≤ p.staked ∧ 0 ≤ (p.pendingRewards : ℤ)
  penalty : ∃ params, s.params = some params ∧ (params.earlyUnstakePenaltyBps : ℤ) ≤ 10000

section Steps

variable {env : Env} {s s' : State} {c : Call} {user : Address} {amount : I128} {lockPeriod : U64} {account : Address}
  {params : RewardParams} {position position' : StakingPosition}

theorem State.Accounted.staked_le_total (hs : s.Accounted account)
    (hget : s.stake.get user = some position) : position.staked ≤ s.totalStaked := by
  rw [hs.total, ← Table.share_some StakingPosition.staked position, ← hget]
  refine Table.share_le_total _ (fun k => ?_) user
  cases hk : s.stake.get k with
  | none => exact le_rfl
  | some p => exact (hs.positions k p hk).1

/-- A snapshot of rewards that are not negative. -/
theorem snapshot_nonneg {rewards pending : I128} (hstaked : 0 ≤ position.staked)
    (hpending : 0 ≤ (position.pendingRewards : ℤ))
    (hrewards : (calculatePositionRewards position params env.timestamp).run .exact = some rewards)
    (h : (unchecked i128 (position.pendingRewards + rewards) : Result I128).run .exact = some pending) :
    0 ≤ (pending : ℤ) := by
  have := calculatePositionRewards_nonneg hstaked hrewards
  rw [run_unchecked_exact.1 h]
  omega

theorem deposited_staked (hs : s.Accounted account) (hpos : 0 < (amount : ℤ))
    (h : (deposited env s params user amount lockPeriod).run .exact = some position) :
    position.staked = Table.share StakingPosition.staked (s.stake.get user) + amount ∧
      0 ≤ position.staked ∧ 0 ≤ (position.pendingRewards : ℤ) := by
  cases hget : s.stake.get user with
  | none =>
    obtain ⟨hamount, hpending, -⟩ := deposited_of_none hget h
    rw [StakingPosition.staked, hamount, hpending]
    exact ⟨(zero_add _).symm, hpos.le, le_rfl⟩
  | some current =>
    have htopped := deposited_of_some hget h
    obtain ⟨hstaked, hpending⟩ := hs.positions user current hget
    obtain ⟨rewards, hrewards, hsum⟩ := htopped.pendingRewards
    have hamount : position.staked = current.staked + amount := run_unchecked_exact.1 htopped.amount
    exact ⟨hamount, by omega, snapshot_nonneg hstaked hpending hrewards hsum⟩

theorem stakeTokens_accounted (hs : s.Accounted env.currentContract)
    (h : (stakeTokens env s user amount lockPeriod).run .exact = some s') : s'.Accounted env.currentContract := by
  obtain ⟨hsigned, hpos, params, _, position, total, -, htoken, hposition, htotal, rfl⟩ := stakeTokens_spec h
  obtain ⟨hstaked, hnonneg⟩ := deposited_staked hs hpos hposition
  obtain ⟨token', htoken', hheld⟩ := hs.held
  cases htoken.symm.trans htoken'
  have htotal := run_unchecked_exact.1 htotal
  have hset := Table.total_set StakingPosition.staked s.stake user position
  refine ⟨?_, ⟨_, htoken, ?_⟩, hs.rewardPool, hs.positions.set hnonneg, hs.penalty⟩
  · have := hs.total
    dsimp only
    omega
  · dsimp only
    rw [Holdings.move_in (ne_currentContract hsigned)]
    omega

/-- A penalty is a part of what is withdrawn. -/
theorem penaltyOf_bounds {penalty : I128} (hpos : 0 < (amount : ℤ))
    (hbps : (params.earlyUnstakePenaltyBps : ℤ) ≤ 10000)
    (h : (penaltyOf env params position amount).run .exact = some penalty) :
    0 ≤ (penalty : ℤ) ∧ (penalty : ℤ) ≤ amount := by
  unfold penaltyOf at h
  split at h
  · simp only [earlyPenalty, run_iff, run_unchecked_exact, run_quot] at h
    obtain ⟨product, hproduct, -, hpenalty⟩ := h
    have hnonneg : 0 ≤ (product : ℤ) := by
      rw [hproduct]
      exact mul_nonneg hpos.le params.earlyUnstakePenaltyBps.bounds.1
    have hle : (product : ℤ) ≤ amount * 10000 := by
      rw [hproduct]
      exact mul_le_mul_of_nonneg_left hbps hpos.le
    rw [hpenalty, Int.tdiv_eq_ediv_of_nonneg hnonneg]
    omega
  · rw [run_pure] at h
    cases h
    exact ⟨le_rfl, hpos.le⟩

theorem collected_eq {penalty rewardPool : I128} (hnonneg : 0 ≤ (penalty : ℤ))
    (h : (s.collected penalty).run .exact = some rewardPool) : (rewardPool : ℤ) = s.rewardPool + penalty := by
  unfold State.collected at h
  split at h
  · exact run_unchecked_exact.1 h
  · rw [run_pure] at h
    cases h
    omega

/-- What a withdrawal leaves counts for the total whether it is kept or, being nothing, removed. -/
theorem total_store (hget : s.stake.get user = some position) : Table.total StakingPosition.staked
    (s.store user position') = Table.total StakingPosition.staked s.stake - position.staked + position'.staked := by
  unfold State.store
  split
  · rename_i hzero
    rw [Table.total_remove_of_some hget, StakingPosition.staked, StakingPosition.staked, hzero, add_zero]
  · exact Table.total_set_of_some hget position'

theorem unstakeTokens_accounted (hs : s.Accounted env.currentContract)
    (h : (unstakeTokens env s user amount).run .exact = some s') : s'.Accounted env.currentContract := by
  obtain ⟨hsigned, hpos, params, _, position, left, penalty, payout, total, pool, hparams, htoken, hget, hle,
    hleft, hpenalty, hpayout, htotal, hpool, rfl⟩ := unstakeTokens_spec h
  obtain ⟨token', htoken', hheld⟩ := hs.held
  cases htoken.symm.trans htoken'
  obtain ⟨params', hparams', hbps⟩ := hs.penalty
  cases hparams.symm.trans hparams'
  obtain ⟨hstaked, hpending⟩ := hs.positions user position hget
  obtain ⟨hpenalty0, hpenaltyLe⟩ := penaltyOf_bounds hpos hbps hpenalty
  have hpayout := run_unchecked_exact.1 hpayout
  have htotal := run_unchecked_exact.1 htotal
  have hpool := collected_eq hpenalty0 hpool
  have hrest : left.staked = position.staked - amount := hleft.amount_eq hpos hle
  have htop : position.staked ≤ s.totalStaked := hs.staked_le_total hget
  have hle : amount ≤ position.staked := hle
  -- the clamp does nothing: what is withdrawn is part of the total
  have hclamp : ((total.max 0 : I128) : ℤ) = s.totalStaked - amount := by
    rw [toInt_max, toInt_zero, htotal]
    exact max_eq_left (by omega)
  obtain ⟨rewards, hrewards, hsum⟩ := hleft.pendingRewards
  refine ⟨?_, ⟨_, htoken, ?_⟩, ?_, ?_, hs.penalty⟩
  · dsimp only
    rw [total_store hget, ← hs.total]
    omega
  · dsimp only
    rw [Holdings.move_out (ne_currentContract hsigned)]
    omega
  · have := hs.rewardPool
    dsimp only
    omega
  · dsimp only
    unfold State.store
    split
    · exact hs.positions.remove user
    · exact hs.positions.set ⟨by omega, snapshot_nonneg hstaked hpending hrewards hsum⟩

theorem distributeRewards_accounted {epoch : U64} (hs : s.Accounted account)
    (h : (distributeRewards env s epoch).run .exact = some s') : s'.Accounted account := by
  obtain ⟨hnew, share, pool, hshare, hpool, rfl⟩ := distributeRewards_spec h
  have hpool := run_unchecked_exact.1 hpool
  rw [toInt_min] at hpool
  obtain ⟨_, htoken, hheld⟩ := hs.held
  refine ⟨hs.total, ⟨_, htoken, ?_⟩, ?_, hs.positions, hs.penalty⟩
  · dsimp only
    rw [hheld, Table.total_set_of_none _ _ hnew, toInt_min, hpool]
    ring
  · dsimp only
    omega

theorem claimRewards_accounted {payout : I128} (hs : s.Accounted env.currentContract)
    (h : (claimRewards env s user).run .exact = some (payout, s')) : s'.Accounted env.currentContract := by
  obtain ⟨hsigned, params, _, position, accrued, rewards, pending, pool, -, htoken, hget, -, -, hpayout, hpos,
    hpending, hpool, rfl⟩ := claimRewards_spec h
  obtain ⟨token', htoken', hheld⟩ := hs.held
  cases htoken.symm.trans htoken'
  have hpending := run_unchecked_exact.1 hpending
  have hpool := run_unchecked_exact.1 hpool
  have hmin : payout = min (rewards : ℤ) s.rewardPool := by rw [hpayout, toInt_min]
  refine ⟨?_, ⟨_, htoken, ?_⟩, ?_, ?_, hs.penalty⟩
  · rw [Table.total_set_of_some hget, hs.total]
    exact (sub_add_cancel _ _).symm
  · dsimp only
    rw [Holdings.move_out (ne_currentContract hsigned)]
    omega
  · dsimp only
    omega
  · exact hs.positions.set ⟨(hs.positions user position hget).1, by dsimp only; omega⟩

theorem fundRewardPool_accounted {funder : Address} (hs : s.Accounted env.currentContract)
    (h : (fundRewardPool env s funder amount).run .exact = some s') : s'.Accounted env.currentContract := by
  obtain ⟨hsigned, hpos, _, pool, htoken, hpool, rfl⟩ := fundRewardPool_spec h
  obtain ⟨token', htoken', hheld⟩ := hs.held
  cases htoken.symm.trans htoken'
  have hpool := run_unchecked_exact.1 hpool
  have hrewardPool := hs.rewardPool
  refine ⟨hs.total, ⟨_, htoken, ?_⟩, ?_, hs.positions, hs.penalty⟩
  · dsimp only
    rw [Holdings.move_in (ne_currentContract hsigned)]
    omega
  · dsimp only
    omega

theorem execute_accounted (hs : s.Accounted env.currentContract) (h : (execute env s c).run .exact = some s') :
    s'.Accounted env.currentContract := by
  cases c with
  | stakeTokens => exact stakeTokens_accounted hs h
  | unstakeTokens => exact unstakeTokens_accounted hs h
  | distributeRewards => exact distributeRewards_accounted hs h
  | claimRewards =>
    obtain ⟨_, h⟩ := run_snd_map h
    exact claimRewards_accounted hs h
  | updateRewardParameters newParams =>
    obtain ⟨hbps, rfl⟩ := updateRewardParameters_spec h
    exact { hs with penalty := ⟨newParams, rfl, hbps⟩ }
  | fundRewardPool => exact fundRewardPool_accounted hs h
  | setPaused | setGlobalPauseContract => obtain ⟨-, rfl⟩ := run_then_pure h; exact { hs with }

end Steps

/-! ## Runs -/

section Runs

variable {e : Env} {s : State}

theorem reach_accounted (h : (contract .exact).Reach OneContract e s) : s.Accounted e.currentContract := by
  induction h with
  | init hinit =>
    obtain ⟨tokens, admin, token, hzero, rfl⟩ := contract_init hinit
    exact ⟨rfl, ⟨token, rfl, hzero token⟩, le_rfl, .empty, _, rfl, by decide⟩
  | step _ hok hstep ih =>
    rw [← show _ = _ from hok] at ih
    exact execute_accounted ih hstep

/-- Where nothing overflows, the total is the sum of the positions, the contract's tokens are the positions, the reward
pool and what the epochs were given, and neither the pool nor a position nor its rewards are negative. -/
theorem staking_books_balance (h : (contract .exact).Reach OneContract e s) :
    (s.totalStaked : ℤ) = ∑ᶠ user, Table.share (fun p => (p.amount : ℤ)) (s.stake.get user) ∧
    (∃ token, s.token = some token ∧ s.tokens token e.currentContract =
      s.totalStaked + s.rewardPool + ∑ᶠ epoch, Table.share IntType.Val.toInt (s.epochDistributed.get epoch)) ∧
    0 ≤ (s.rewardPool : ℤ) ∧
    s.stake.All fun _ position => 0 ≤ (position.amount : ℤ) ∧ 0 ≤ (position.pendingRewards : ℤ) := by
  have hs := reach_accounted h
  refine ⟨?_, ?_, hs.rewardPool, hs.positions⟩
  · rw [hs.total, Table.total_eq_finsum]
    rfl
  · obtain ⟨token, htoken, hheld⟩ := hs.held
    exact ⟨token, htoken, by rw [hheld, Table.total_eq_finsum]⟩

/-- Bob funds the pool, and Alice stakes for a year, leaves with a part after half of it and claims. -/
def Sample.halfYear : List (Env × Call) :=
  [signed 10 (.fundRewardPool bob 50000),
    signed 10 (.stakeTokens alice 100000 31536000),
    signed 15768010 (.unstakeTokens alice 40000),
    signed 15768010 (.distributeRewards 1),
    signed 15768010 (.claimRewards alice)]

/-- A penalty of 2000 went to the pool, 600 to the epoch and 9000 to Alice. -/
theorem books_after_half_a_year : ∃ r, (deployment .exact).after OneContract halfYear = some r ∧
    (r.2.totalStaked : ℤ) = 60000 ∧ (r.2.rewardPool : ℤ) = 42400 ∧ r.2.tokens token ⟨0⟩ = 103000 ∧
    (r.2.tokens token ⟨0⟩ = r.2.totalStaked + r.2.rewardPool +
      ∑ᶠ epoch, Table.share IntType.Val.toInt (r.2.epochDistributed.get epoch)) := by
  have hreach := reach_after (evaluated (o := (deployment .exact).after OneContract halfYear))
  obtain ⟨-, ⟨token', htoken, hbooks⟩, -, -⟩ := staking_books_balance hreach
  cases htoken.symm.trans (show _ = some token by decide +kernel)
  exact ⟨_, (evaluated _), by decide +kernel, by decide +kernel, by decide +kernel, hbooks⟩

end Runs

end ArenaX.StakingRewards
