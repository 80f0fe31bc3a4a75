/-
Accrued rewards. Every operation of a user on their position takes a snapshot of what has accrued since the last one and
adds it to the rewards the position still has to get; claims pay from these. Nothing is lost on the way, but for what is
removed with a position that is emptied.
-/
import ArenaX.StakingRewards.Contract
import Mathlib.Algebra.Group.Prod

namespace ArenaX.StakingRewards

open Machine Exec Sample
open Host (Address Holdings)
open Table (get_set_self share share_some)

/-- What has accrued on a user's position since the last snapshot. -/
def accrued (user : Address) (env : Env) (s : State) : ℤ :=
  match s.stake.get user, s.params with
  | some position, some params =>
    share IntType.Val.toInt ((calculatePositionRewards position params env.timestamp).run .wrapping)
  | _, _ => 0

/-- What the user has still to get. -/
def pending (user : Address) (s : State) : ℤ := share (fun p => (p.pendingRewards : ℤ)) (s.stake.get user)

/-- What a call snapshots for the user. -/
def snapshotted (user : Address) (env : Env) (s : State) (c : Call) : ℤ :=
  if c.staker = some user then accrued user env s else 0

/-- What a call pays out in rewards to the user. -/
def rewardsPaid (user : Address) (env : Env) (s : State) : Call → ℤ
  | .claimRewards staker =>
    if staker = user then share (fun r => (r.1 : ℤ)) ((claimRewards env s user).run .wrapping) else 0
  | _ => 0

/-- What a call pays in rewards and what it snapshots. -/
def rewards (user : Address) (env : Env) (s : State) (c : Call) : ℤ × ℤ :=
  (rewardsPaid user env s c, snapshotted user env s c)

/-- The call takes out all of a position. -/
def Call.empties (position : StakingPosition) : Call → Prop
  | .unstakeTokens _ amount => (amount : ℤ) = position.amount
  | _ => False

instance (position : StakingPosition) (c : Call) : Decidable (c.empties position) := by
  apply Call.casesOn (motive := fun c => Decidable (c.empties position)) c <;> intros <;>
    dsimp only [Call.empties] <;> infer_instance

/-- The user empties a position only when it has no more rewards to get, and these stay in their range. -/
def NoForfeit (user : Address) : Rule := fun _ e s c => c.staker = some user →
  i128.Fits (pending user s + accrued user e s) ∧
  ∀ position ∈ s.stake.get user, c.empties position → pending user s + accrued user e s = 0
deriving Decidable

section Steps

variable {env : Env} {s s' : State} {c : Call} {user : Address} {amount : I128} {lockPeriod : U64}
  {params : RewardParams} {position : StakingPosition}

theorem accrued_eq {rewards : I128} (hget : s.stake.get user = some position) (hparams : s.params = some params)
    (h : (calculatePositionRewards position params env.timestamp).run .wrapping = some rewards) :
    accrued user env s = rewards := by
  unfold accrued
  rw [hget, hparams]
  dsimp only
  rw [h, share_some]

/-- A snapshot in range adds what has accrued to what the user has still to get. -/
theorem snapshot_eq {x : I128} (hget : s.stake.get user = some position) (hparams : s.params = some params)
    (hfits : i128.Fits (pending user s + accrued user env s))
    (h : ∃ rewards, (calculatePositionRewards position params env.timestamp).run .wrapping = some rewards ∧
      (unchecked i128 (position.pendingRewards + rewards) : Result I128).run .wrapping = some x) :
    x = pending user s + accrued user env s := by
  obtain ⟨rewards, hrewards, hsum⟩ := h
  have hpending : pending user s = position.pendingRewards := by rw [pending, hget, share_some]
  rw [accrued_eq hget hparams hrewards, hpending] at hfits ⊢
  rw [run_unchecked_wrapping.1 hsum]
  exact wrap_of_fits hfits

theorem stakeTokens_pending (hfits : i128.Fits (pending user s + accrued user env s))
    (h : (stakeTokens env s user amount lockPeriod).run .wrapping = some s') :
    pending user s' = pending user s + accrued user env s := by
  obtain ⟨-, -, params, token, position, total, hparams, -, hposition, -, rfl⟩ := stakeTokens_spec h
  have hset : pending user { s with
      tokens := s.tokens.move token user env.currentContract amount
      stake := s.stake.set user position
      totalStaked := total } = position.pendingRewards := by
    rw [pending, get_set_self, share_some]
  rw [hset]
  cases hget : s.stake.get user with
  | none =>
    obtain ⟨-, hpending, -⟩ := deposited_of_none hget hposition
    simp [pending, accrued, hget, hpending]
  | some current => exact snapshot_eq hget hparams hfits (deposited_of_some hget hposition).pendingRewards

theorem unstakeTokens_pending (hok : NoForfeit user env env s (.unstakeTokens user amount))
    (h : (unstakeTokens env s user amount).run .wrapping = some s') :
    pending user s' = pending user s + accrued user env s := by
  obtain ⟨-, hpos, params, token, position, left, penalty, payout, total, pool, hparams, -, hget, hle, hleft, -, -, -,
    -, rfl⟩ := unstakeTokens_spec h
  obtain ⟨hfits, hempty⟩ := hok rfl
  have hrest := hleft.amount_eq hpos hle
  unfold pending State.store
  split
  · rename_i hzero
    rw [Table.get_remove_self]
    exact (hempty position hget (show (amount : ℤ) = position.amount by omega)).symm
  · rw [get_set_self]
    exact snapshot_eq hget hparams hfits hleft.pendingRewards

/-- A claim pays from what the user has to get, and leaves the rest. -/
theorem claimRewards_pending (hfits : i128.Fits (pending user s + accrued user env s))
    (h : (execute env s (.claimRewards user)).run .wrapping = some s') :
    rewardsPaid user env s (.claimRewards user) + pending user s' = pending user s + accrued user env s := by
  obtain ⟨payout, h⟩ := run_snd_map h
  have hpaid : rewardsPaid user env s (.claimRewards user) = payout := by
    rw [rewardsPaid, if_pos rfl, h, share_some]
  obtain ⟨-, params, token, position, _, rewards, pending', pool, hparams, -, hget, haccrued, hrewards, hpayout,
    hpos, hpending, -, rfl⟩ := claimRewards_spec h
  have htotal := snapshot_eq hget hparams hfits ⟨_, haccrued, hrewards⟩
  have hle : (payout : ℤ) ≤ rewards := by
    rw [hpayout, toInt_min]
    exact min_le_left _ _
  have hrest : (pending' : ℤ) = rewards - payout := by
    rw [run_unchecked_wrapping.1 hpending]
    have := rewards.hi
    exact wrap_of_nonneg (by omega) (by omega)
  rw [pending, get_set_self, share_some]
  dsimp only
  omega

/-- What a call pays and leaves to get is what there was to get and what it snapshotted. -/
theorem execute_pending (hok : NoForfeit user env env s c) (h : (execute env s c).run .wrapping = some s') :
    rewardsPaid user env s c + pending user s' = pending user s + snapshotted user env s c := by
  by_cases hc : c.staker = some user
  · rw [snapshotted, if_pos hc]
    have hfits := (hok hc).1
    cases c with
    | stakeTokens =>
      cases hc
      rw [stakeTokens_pending hfits h]
      exact zero_add _
    | unstakeTokens =>
      cases hc
      rw [unstakeTokens_pending hok h]
      exact zero_add _
    | claimRewards =>
      cases hc
      exact claimRewards_pending hfits h
    | _ => cases hc
  · have hpaid : rewardsPaid user env s c = 0 := by
      cases c with
      | claimRewards => exact if_neg fun e => hc (congrArg some e)
      | _ => rfl
    rw [hpaid, snapshotted, if_neg hc, pending, execute_stake hc h, zero_add, add_zero]
    rfl

/-- Right after an operation of the user on a position, its last snapshot is the time of the operation. -/
theorem execute_lastRewardAt {m : Mode} (hc : c.staker = some user) (h : (execute env s c).run m = some s')
    (hget : s'.stake.get user = some position) : position.lastRewardAt = env.timestamp := by
  cases c with
  | stakeTokens =>
    cases hc
    obtain ⟨-, -, params, token, position', total, -, -, hposition, -, rfl⟩ := stakeTokens_spec h
    rw [get_set_self] at hget
    cases hget
    cases hold : s.stake.get user with
    | none =>
      obtain ⟨-, -, -, -, hlast⟩ := deposited_of_none hold hposition
      exact hlast
    | some current => exact (deposited_of_some hold hposition).lastRewardAt
  | unstakeTokens =>
    cases hc
    obtain ⟨-, -, _, _, _, left, _, _, _, _, -, -, -, -, hleft, -, -, -, -, rfl⟩ := unstakeTokens_spec h
    unfold State.store at hget
    split at hget
    · rw [Table.get_remove_self] at hget
      cases hget
    · rw [get_set_self] at hget
      cases hget
      exact hleft.lastRewardAt
  | claimRewards =>
    cases hc
    obtain ⟨_, h⟩ := run_snd_map h
    obtain ⟨-, _, _, _, _, _, _, _, -, -, -, -, -, -, -, -, -, rfl⟩ := claimRewards_spec h
    rw [get_set_self] at hget
    cases hget
    rfl
  | _ => cases hc

/-- The parameters stay set. -/
theorem execute_params {m : Mode} (hs : s.params ≠ none) (h : (execute env s c).run m = some s') :
    s'.params ≠ none := by
  cases c with
  | stakeTokens => obtain ⟨-, -, _, _, _, _, -, -, -, -, rfl⟩ := stakeTokens_spec h; exact hs
  | unstakeTokens =>
    obtain ⟨-, -, _, _, _, _, _, _, _, _, -, -, -, -, -, -, -, -, -, rfl⟩ := unstakeTokens_spec h
    exact hs
  | distributeRewards => obtain ⟨-, _, _, -, -, rfl⟩ := distributeRewards_spec h; exact hs
  | claimRewards =>
    obtain ⟨_, h⟩ := run_snd_map h
    obtain ⟨-, _, _, _, _, _, _, _, -, -, -, -, -, -, -, -, -, rfl⟩ := claimRewards_spec h
    exact hs
  | updateRewardParameters => obtain ⟨-, rfl⟩ := updateRewardParameters_spec h; exact Option.some_ne_none _
  | fundRewardPool => obtain ⟨-, -, _, _, -, -, rfl⟩ := fundRewardPool_spec h; exact hs
  | setPaused | setGlobalPauseContract => obtain ⟨-, rfl⟩ := run_then_pure h; exact hs

/-- What a user is shown as claimable right after a snapshot is what they have still to get. -/
theorem getStakingInfo_now (hparams : s.params ≠ none)
    (hnow : ∀ position, s.stake.get user = some position → position.lastRewardAt = env.timestamp) :
    ∃ info, (getStakingInfo env s user).run .wrapping = some info ∧ info.claimableRewards = pending user s := by
  unfold getStakingInfo pending
  cases hget : s.stake.get user with
  | none => exact ⟨_, run_pure _ _, rfl⟩
  | some position =>
    obtain ⟨params, hparams⟩ := Option.ne_none_iff_exists'.1 hparams
    refine ⟨⟨some position, position.pendingRewards, s.rewardPool, s.totalStaked⟩, ?_, rfl⟩
    simp only [run_bind, run_getParams, hparams, Option.bind_some,
      run_calculatePositionRewards_now (hnow position hget), unchecked_wrapping, run_pure, toInt_zero, zero_add,
      wrap_toInt]

end Steps

/-! ## Runs -/

section Runs

variable {e e' : Env} {s s' : State} {c : Call} {user : Address} {n : ℤ × ℤ}

theorem tally_pending (h : (contract .wrapping).Tally (NoForfeit user) (rewards user) n e s) :
    n.1 + pending user s = n.2 := by
  refine h.invariant (P := fun n _ s => n.1 + pending user s = n.2) ?_ ?_
  · intro e s hinit
    obtain ⟨tokens, admin, token, -, rfl⟩ := contract_init hinit
    simp [pending]
  · intro n e e' s c s' _ ih hok hstep
    have := execute_pending hok hstep
    show n.1 + rewardsPaid user e' s c + pending user s' = n.2 + snapshotted user e' s c
    omega

theorem reach_params {m : Mode} {ok : Rule} (h : (contract m).Reach ok e s) : s.params ≠ none := by
  refine h.invariant (P := fun _ s => s.params ≠ none) ?_ ?_
  · intro e s hinit
    obtain ⟨tokens, admin, token, -, rfl⟩ := contract_init hinit
    exact Option.some_ne_none _
  · intro e e' s c s' hs _ hstep
    exact execute_params hs hstep

/-- As long as a user empties their position only when it has no more rewards to get, after each of their operations the
rewards paid so far and those shown as claimable are together all that was snapshotted. -/
theorem no_rewards_are_lost (h : (contract .wrapping).Tally (NoForfeit user) (rewards user) n e s)
    (hok : NoForfeit user e e' s c) (hc : c.staker = some user)
    (hstep : (execute e' s c).run .wrapping = some s') :
    ∃ info, (getStakingInfo e' s' user).run .wrapping = some info ∧
      n.1 + rewardsPaid user e' s c + info.claimableRewards = n.2 + snapshotted user e' s c := by
  have htally := tally_pending (h.step hok hstep)
  obtain ⟨info, hinfo, hclaimable⟩ := getStakingInfo_now (reach_params (h.reach.step hok hstep))
    fun position hget => execute_lastRewardAt hc hstep hget
  refine ⟨info, hinfo, ?_⟩
  rw [hclaimable]
  exact htally

/-- Bob funds the pool, and Alice stakes 100000 for a year and is there for half of it. -/
def Sample.staked : List (Env × Call) :=
  [signed 10 (.fundRewardPool bob 50000),
    signed 10 (.stakeTokens alice 100000 31536000)]

/-- What Alice is paid and what she still can claim after taking out a part is what was snapshotted. -/
theorem rewards_after_a_partial_exit : ∃ n e s s' info,
    (contract .wrapping).Tally (NoForfeit alice) (rewards alice) n e s ∧
    (execute (signedAt 15768010) s (.unstakeTokens alice 40000)).run .wrapping = some s' ∧
    (getStakingInfo (signedAt 15768010) s' alice).run .wrapping = some info ∧
    n.1 + rewardsPaid alice (signedAt 15768010) s (.unstakeTokens alice 40000) + info.claimableRewards =
      n.2 + snapshotted alice (signedAt 15768010) s (.unstakeTokens alice 40000) := by
  have hrun : (((deployment .wrapping).after (NoForfeit alice) staked).bind fun r =>
      if NoForfeit alice r.1 (signedAt 15768010) r.2 (.unstakeTokens alice 40000) then
        (execute (signedAt 15768010) r.2 (.unstakeTokens alice 40000)).run .wrapping
      else none).isSome = true := by
    decide +kernel
  obtain ⟨s', hs'⟩ := Option.isSome_iff_exists.1 hrun
  obtain ⟨r, hr, hs'⟩ := Option.bind_eq_some_iff.1 hs'
  obtain ⟨hok, hs'⟩ := Option.ite_none_right_eq_some.1 hs'
  have htally := tally_after (rewards alice) hr
  obtain ⟨info, hinfo, hsum⟩ := no_rewards_are_lost htally hok rfl hs'
  exact ⟨_, r.1, r.2, s', info, htally, hs', hinfo, hsum⟩

/-- Calls in order of time. -/
abbrev Ordered : Rule := TransitionSystem.Ordered fun e => (e.timestamp : ℤ)

/-- A year after the deposit Alice takes everything out. -/
def Sample.fullExit : List (Env × Call) := staked ++ [signed 31536010 (.unstakeTokens alice 100000)]

/-- By then 18000 were snapshotted, none are paid, and there is no position left to claim them from. -/
theorem full_exit_loses_rewards : ∃ n e s, (contract .wrapping).Tally Ordered (rewards alice) n e s ∧
    n = (0, 18000) ∧ (s.rewardPool : ℤ) = 50000 ∧
    ((getStakingInfo e s alice).run .wrapping).map (fun info => (info.claimableRewards : ℤ)) = some 0 ∧
    ((claimRewards e s alice).run .wrapping).isNone = true := by
  have htally := tally_after (rewards alice)
    (evaluated (o := (deployment .wrapping).after Ordered fullExit))
  exact ⟨_, _, _, htally, by decide +kernel⟩

end Runs

end ArenaX.StakingRewards
