/-
Who can touch a stake. Every call that changes what a user has staked, in any facility, was signed by that user or by
the admin, with one exception: a slash of a tournament stake needs nobody's signature, only the address of the admin
or of the dispute contract as an argument.
-/
import ArenaX.StakingManager.Bookkeeping

namespace ArenaX.StakingManager

open Machine Exec Sample
open Host (Address)

/-- What a user has staked: in each tournament, for rewards, in each flexible pool, in a voting lock and in each
liquidity pool, and the summary that validator penalties take from. -/
@[ext] structure Principal where
  stakes : BytesN32 → ℤ
  reward : ℤ
  flexible : U32 → ℤ
  lock : ℤ
  lp : U32 → ℤ
  validator : ℤ

def State.principalOf (s : State) (user : Address) : Principal where
  stakes t := Table.share (fun info => (info.amount : ℤ)) (s.tournament.stake.get (t, user))
  reward := Table.share (fun pos => (pos.amount : ℤ)) (s.reward.position.get user)
  flexible poolId := Table.share (fun pos => (pos.amount : ℤ)) (s.flexible.position.get (user, poolId))
  lock := Table.share (fun lock => (lock.amount : ℤ)) (s.votingLock.get user)
  lp poolId := Table.share (fun pos => (pos.amount : ℤ)) (s.lp.position.get (user, poolId))
  validator := (s.getUserStakeInfo user).totalStaked

/-- The user, the admin or the dispute contract has signed. -/
def Authorized (env : Env) (s : State) (user : Address) : Prop :=
  user ∈ env.signers ∨ env.AdminSigned s.admin ∨ ∃ dispute, s.disputeContract = some dispute ∧ dispute ∈ env.signers

def Call.isSlash : Call → Bool
  | .slash .. => true
  | _ => false

section Calls

variable {m : Mode} {env : Env} {s s' : State} {c : Call} {user u : Address}

/-- A call that its user signs and that leaves the stakes of the others alone. -/
theorem authorized_of_own (huser : user ∈ env.signers) (hmoved : s'.principalOf u ≠ s.principalOf u)
    (hsame : u ≠ user → s'.principalOf u = s.principalOf u := by
      intro hu
      simp [State.principalOf, State.getUserStakeInfo, Table.get_set, Table.get_remove, hu]) : Authorized env s u := by
  by_cases hu : u = user
  · exact .inl (hu ▸ huser)
  · exact absurd (hsame hu) hmoved

theorem adminSigned_of_run {α : Type} {f : Unit → Result α} {a : α} (h : (requireAdmin env s >>= f).run m = some a) :
    env.AdminSigned s.admin := by
  obtain ⟨_, hadmin, -⟩ := (run_bind_iff m).1 h
  exact (run_requireAdmin ..).1 hadmin

theorem execute_authorized (hc : c.isSlash = false) (h : (execute env s c).run m = some s')
    (hmoved : s'.principalOf u ≠ s.principalOf u) : Authorized env s u := by
  cases c with
  | setAxToken | setTournamentContract | setDisputeContract | setPaused | setRewardConfig
  | setRewardPoolActive | setRewardPoolRate | configureSlashing | resolveAppeal | setLpRewardRate
  | updateLpDynamicRate | setLpPoolActive | recordLpPerformance => exact .inr (.inl (adminSigned_of_run h))
  | createRewardPool | slashValidator | createLpPool =>
    obtain ⟨_, h⟩ := run_snd_map h
    exact .inr (.inl (adminSigned_of_run h))
  | createTournament => exact .inr (.inl (createTournament_spec h).1)
  | updateTournamentState => exact .inr (.inl (updateTournamentState_spec h).1)
  | slash => cases hc
  | _ =>
    -- the user has signed, and the stakes of the others are left alone
    revert hmoved
    revert s' h
    show Ensures m _ fun s' : State => s'.principalOf u ≠ s.principalOf u → Authorized env s u
    try refine .map (f := Prod.snd) ?_
    repeat' first
      | refine Ensures.seq (α := State) ?_
      | refine Ensures.seq (α := I128 × State) ?_
      | refine Ensures.bind fun _ _ => ?_
      | refine Ensures.ite (fun _ => ?_) fun _ => ?_
      | refine Ensures.pure ?_
    all_goals
      intro hmoved
      exact authorized_of_own ((run_requireAuth ..).1 ‹(env.requireAuth _).run m = _›) hmoved

/-- A slash does not look at who has signed. -/
theorem slash_ignores_signers {env' : Env} {tournamentId : BytesN32} {amount : I128} {slashedBy : Address}
    (hcontract : env'.currentContract = env.currentContract) (haccepts : env'.accepts = env.accepts) :
    slash env' s user tournamentId amount slashedBy = slash env s user tournamentId amount slashedBy := by
  simp only [slash, payOut, transfer, hcontract, haccepts]

/-- A call that changes what a user has staked, and is not a slash of a tournament stake, was signed by the user, the
admin or the dispute contract; a slash that succeeds does so whoever has signed. -/
theorem staking_is_authorized (h : (execute env s c).run m = some s') (hmoved : s'.principalOf u ≠ s.principalOf u) :
    (c.isSlash = false → Authorized env s u) ∧
    (c.isSlash = true → ∀ env' : Env, env'.currentContract = env.currentContract → env'.accepts = env.accepts →
      (execute env' s c).run m = some s') := by
  refine ⟨fun hc => execute_authorized hc h hmoved, fun hc env' hcontract haccepts => ?_⟩
  cases c with
  | slash => rw [← h]; exact congrArg _ (slash_ignores_signers hcontract haccepts)
  | _ => cases hc

end Calls

/-- A user unstakes, and has signed. -/
theorem unstaking_is_authorized : ∃ s s', (execute (signedAt 20) s (.unstakeRewards alice)).run .wrapping = some s' ∧
    s'.principalOf alice ≠ s.principalOf alice ∧ Authorized (signedAt 20) s alice := by
  have hrun : ((execute (signedAt 10) deployed (.stakeForRewards alice 5000)).run .wrapping).bind
      (fun s => ((execute (signedAt 20) s (.unstakeRewards alice)).run .wrapping).map fun s' =>
        ((s.principalOf alice).reward, (s'.principalOf alice).reward)) = some (5000, 0) := by
    decide +kernel
  obtain ⟨s, -, h⟩ := Option.bind_eq_some_iff.1 hrun
  obtain ⟨s', hstep, hvalues⟩ := Option.map_eq_some_iff.1 h
  rw [Prod.mk.injEq] at hvalues
  have hmoved : s'.principalOf alice ≠ s.principalOf alice := by
    intro heq
    rw [heq] at hvalues
    omega
  exact ⟨s, s', hstep, hmoved, (staking_is_authorized hstep hmoved).1 rfl⟩

/-- A call that nobody has signed. -/
def unsignedAt (time : ℤ) : Env := { signedAt time with
  signers := []
  notSigned := List.not_mem_nil }

/-- Whoever names the admin can slash a stake. -/
theorem slash_without_signature : ∃ e s s', (contract .wrapping).Reach Unrestricted e s ∧
    (execute (unsignedAt 20) s (.slash alice 7 150 admin)).run .wrapping = some s' ∧
    (s.principalOf alice).stakes 7 = 1000 ∧ (s'.principalOf alice).stakes 7 = 850 ∧
    ¬ Authorized (unsignedAt 20) s alice := by
  have hreach := reach_after (evaluated (o := (deployment .wrapping).after Unrestricted twoTournaments))
  refine ⟨_, _, _, hreach, evaluated, by decide +kernel, by decide +kernel, ?_⟩
  rintro (huser | ⟨_, -, hadmin⟩ | ⟨_, -, hdispute⟩)
  · cases huser
  · cases hadmin
  · cases hdispute

end ArenaX.StakingManager
