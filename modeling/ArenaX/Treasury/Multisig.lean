/-
The multi-signature on spending proposals. An execution counts the approvals a proposal has collected, each by a
signer at the time; whoever was removed since is still counted. The approvals are those of present signers where
nobody is removed who has approved a proposal that is still active.
-/
import ArenaX.Treasury.Contract

namespace ArenaX.Treasury

open Machine Exec Sample
open Host (Address)

/-- Nobody is removed whose approval of an active proposal would stay, and a time lock ends before time does. -/
def Call.Guarded (env : Env) (s : State) : Call → Prop
  | .removeSigner _ signer => s.spendingProposal.All fun _ proposal => proposal.Active → signer ∉ proposal.approvals
  | .createSpendingProposal .. => (env.timestamp : ℤ) + s.timeLockDuration ≤ u64.max
  | _ => True

instance (env : Env) (s : State) (c : Call) : Decidable (c.Guarded env s) := by
  apply Call.casesOn (motive := fun c => Decidable (c.Guarded env s)) c <;> intros <;> dsimp only [Call.Guarded] <;>
    infer_instance

/-- The approvals of a proposal are by different people, present signers while it is active, and its time lock is
the one of the treasury. -/
structure SpendingProposal.Guarded (s : State) (proposal : SpendingProposal) : Prop where
  nodup : proposal.approvals.Nodup
  signers : proposal.Active → ∀ a ∈ proposal.approvals, a ∈ s.signers
  timeLock : (proposal.executeAfter : ℤ) = proposal.createdAt + s.timeLockDuration

section Steps

variable {m : Mode} {env : Env} {s s' : State} {c : Call} {proposal : SpendingProposal}

theorem SpendingProposal.Guarded.mono (h : proposal.Guarded s)
    (hsigners : proposal.Active → ∀ a ∈ proposal.approvals, a ∈ s.signers → a ∈ s'.signers)
    (hlock : s'.timeLockDuration = s.timeLockDuration) : proposal.Guarded s' := by
  refine ⟨h.nodup, fun hactive a ha => hsigners hactive a ha (h.signers hactive a ha), ?_⟩
  rw [hlock]
  exact h.timeLock

/-- One proposal is written; signers and time lock stay. -/
theorem guarded_set {id : U64} (hs : s.spendingProposal.All fun _ proposal => proposal.Guarded s)
    (hset : s'.spendingProposal = s.spendingProposal.set id proposal) (hsigners : s'.signers = s.signers)
    (hlock : s'.timeLockDuration = s.timeLockDuration) (hp : proposal.Guarded s') :
    s'.spendingProposal.All fun _ proposal => proposal.Guarded s' := by
  have hkept : s.spendingProposal.All fun _ proposal => proposal.Guarded s' :=
    hs.imp fun _ _ hp => hp.mono (fun _ _ _ hmem => hsigners ▸ hmem) hlock
  rw [hset]
  exact hkept.set hp

/-- A call keeps the approvals of present signers. -/
theorem execute_guarded (hs : s.spendingProposal.All fun _ proposal => proposal.Guarded s) (hok : c.Guarded env s)
    (h : (execute env s c).run m = some s') : s'.spendingProposal.All fun _ proposal => proposal.Guarded s' := by
  cases c with
  | addSigner =>
    obtain ⟨-, -, rfl⟩ := addSigner_spec h
    exact hs.imp fun _ _ hp => hp.mono (fun _ _ _ => List.mem_append_left _) rfl
  | removeSigner _ signer =>
    obtain ⟨-, -, -, rfl⟩ := removeSigner_spec h
    intro id proposal hget
    refine (hs id proposal hget).mono (fun hactive a ha hmem => ?_) rfl
    rw [List.mem_filter]
    refine ⟨hmem, decide_eq_true ?_⟩
    rintro rfl
    exact hok id proposal hget hactive ha
  | createSpendingProposal proposer =>
    obtain ⟨_, h⟩ := run_snd_map h
    obtain ⟨⟨-, hsigner⟩, -, -, rfl⟩ := createSpendingProposal_spec h
    refine guarded_set hs rfl rfl rfl ⟨List.nodup_singleton _, ?_, ?_⟩
    · rintro - a ha
      cases List.mem_singleton.1 ha
      exact hsigner
    · have hnow := env.timestamp.lo
      have hduration := s.timeLockDuration.lo
      exact wrap_of_fits ⟨add_nonneg hnow hduration, hok⟩
  | approveProposal signer id =>
    obtain ⟨⟨-, hsigner⟩, proposal, hget, hactive, hnew, rfl⟩ := approveProposal_spec h
    have hp := hs id proposal hget
    refine guarded_set hs rfl rfl rfl ⟨?_, ?_, hp.timeLock⟩
    · exact hp.nodup.append (List.nodup_singleton _) (by simpa using hnew)
    · rintro - a ha
      rcases List.mem_append.1 ha with ha | ha
      · exact hp.signers hactive a ha
      · cases List.mem_singleton.1 ha
        exact hsigner
  | revokeApproval signer id =>
    obtain ⟨-, proposal, hget, hactive, -, rfl⟩ := revokeApproval_spec h
    have hp := hs id proposal hget
    exact guarded_set hs rfl rfl rfl
      ⟨hp.nodup.filter _, fun _ a ha => hp.signers hactive a (List.mem_of_mem_filter ha), hp.timeLock⟩
  | executeProposal _ id =>
    obtain ⟨-, proposal, _, hget, -, -, -, -, -, -, -, rfl⟩ := executeProposal_spec h
    have hp := hs id proposal hget
    refine guarded_set hs rfl rfl rfl ⟨hp.nodup, ?_, hp.timeLock⟩
    rintro ⟨hexecuted, -⟩
    cases hexecuted
  | cancelProposal _ id =>
    obtain ⟨-, proposal, hget, -, -, rfl⟩ := cancelProposal_spec h
    have hp := hs id proposal hget
    refine guarded_set hs rfl rfl rfl ⟨hp.nodup, ?_, hp.timeLock⟩
    rintro ⟨-, hcancelled⟩
    cases hcancelled
  | updateThreshold =>
    obtain ⟨-, -, -, rfl⟩ := updateThreshold_spec h
    exact hs.imp fun _ _ hp => hp.mono (fun _ _ _ hmem => hmem) rfl
  | _ =>
    have hframe := execute_frame h
    rw [hframe.spendingProposal (by rintro ⟨⟩) (by rintro ⟨⟩)]
    have hsigners := hframe.signers (by rintro ⟨⟩)
    exact hs.imp fun _ _ hp => hp.mono (fun _ _ _ hmem => hsigners ▸ hmem) hframe.timeLockDuration

end Steps

/-! ## Runs -/

section Runs

variable {m : Mode} {env e : Env} {s s' : State} {caller : Address} {proposalId : U64}

def Guarded : Rule := fun _ e' s c => c.Guarded e' s

instance (e e' : Env) (s : State) (c : Call) : Decidable (Guarded e e' s c) :=
  inferInstanceAs (Decidable (c.Guarded e' s))

theorem Guarded.proposals (h : (contract m).Reach Guarded e s) :
    s.spendingProposal.All fun _ proposal => proposal.Guarded s := by
  refine h.invariant (P := fun _ s => s.spendingProposal.All fun _ proposal => proposal.Guarded s) ?_ ?_
  · intro e s hinit
    obtain ⟨_, _, _, _, _, _, _, -, rfl⟩ := contract_init hinit
    exact .empty
  · intro e e' s c s' hs hok hstep
    exact execute_guarded hs hok hstep

/-- How often a call executes or cancels a proposal. -/
def Call.settles (proposalId : U64) (c : Call) : ℕ := if c.executes proposalId || c.cancels proposalId then 1 else 0

/-- A proposal that is active was neither executed nor cancelled since it was created. -/
theorem active_unsettled {ok : Rule} {proposal : SpendingProposal}
    (hget : s.spendingProposal.get proposalId = some proposal) (hactive : proposal.Active) {n : ℕ}
    (h : (contract m).TallySince ok (Creates proposalId) (fun _ _ c => c.settles proposalId) n e s) : n = 0 := by
  refine h.invariant (P := fun n _ s => ∀ p, s.spendingProposal.get proposalId = some p → p.Active → n = 0) ?_ ?_
    proposal hget hactive
  · intros
    rfl
  · intro n e e' s c s' _ ih _ hc hstep p hp hactive
    obtain ⟨p₀, hp₀, hbecomes⟩ := execute_becomes hc hstep hp
    have hexecuted := hbecomes.executed.symm.trans hactive.1
    have hcancelled := hbecomes.cancelled.symm.trans hactive.2
    rw [Bool.or_eq_false_iff] at hexecuted hcancelled
    rw [ih p₀ hp₀ ⟨hexecuted.1, hcancelled.1⟩, Call.settles, hexecuted.2, hcancelled.2]
    rfl

/-- Where nobody is removed who has approved an active proposal, an execution has the approval of as many different
present signers as the threshold asks for, its time lock has passed, and the proposal was neither executed nor
cancelled since it was created. -/
theorem execution_is_approved (h : (contract m).Reach Guarded e s)
    (hexecute : (executeProposal env s caller proposalId).run m = some s') :
    ∃ proposal, s.spendingProposal.get proposalId = some proposal ∧
      (∃ approvers : Finset Address, (s.threshold : ℤ) ≤ approvers.card ∧
        ∀ a ∈ approvers, a ∈ s.signers ∧ a ∈ proposal.approvals) ∧
      (proposal.createdAt : ℤ) + s.timeLockDuration ≤ env.timestamp ∧
      ∀ n, (contract m).TallySince Guarded (Creates proposalId) (fun _ _ c => c.settles proposalId) n e s ↔ n = 0 := by
  obtain ⟨-, proposal, _, hget, -, hactive, happrovals, htime, -, -, -, -⟩ := executeProposal_spec hexecute
  have hp := Guarded.proposals h proposalId proposal hget
  refine ⟨proposal, hget, ⟨proposal.approvals.toFinset, ?_, ?_⟩, ?_, ?_⟩
  · rwa [List.toFinset_card_of_nodup hp.nodup]
  · intro a ha
    rw [List.mem_toFinset] at ha
    exact ⟨hp.signers hactive a ha, ha⟩
  · rw [← hp.timeLock]
    exact htime
  · exact TransitionSystem.iff_eq_of_exists (tallySince_creation _ h hget) (active_unsettled hget hactive)

/-- A payment proposed at 10 and approved by two signers is executed at 110, though a third signer has left. -/
theorem execution_after_rotation : ∃ r s', (deployment .wrapping (some token)).after Guarded
      (proposed ++ [signed 20 (.removeSigner admin carol)]) = some r ∧
    (executeProposal (signedAt 110) r.2 alice 1).run .wrapping = some s' ∧
    (r.2.threshold : ℤ) = 2 ∧ r.2.signers = [alice, bob] ∧
    ∃ proposal, r.2.spendingProposal.get 1 = some proposal ∧
      (∃ approvers : Finset Address, (r.2.threshold : ℤ) ≤ approvers.card ∧
        ∀ a ∈ approvers, a ∈ r.2.signers ∧ a ∈ proposal.approvals) := by
  have hrun : ((deployment .wrapping (some token)).after Guarded (proposed ++
    [signed 20 (.removeSigner admin carol)])).isSome = true := by
    decide +kernel
  have hexecute : ((executeProposal (signedAt 110) (Option.get _ hrun).2 alice 1).run .wrapping).isSome = true := by
    decide +kernel +revert
  refine ⟨_, _, (evaluated hrun), (evaluated hexecute), by decide +kernel +revert,
    by decide +kernel +revert, ?_⟩
  obtain ⟨proposal, hget, happroved, -, -⟩ := execution_is_approved (reach_after (evaluated hrun))
    (evaluated hexecute)
  exact ⟨proposal, hget, happroved⟩

/-- Bob approves and is removed: the execution counts two approvals, one of them by a present signer. -/
theorem removed_signer_still_counts : ∃ e s s' proposal, (contract .exact).Reach Unrestricted e s ∧
    (executeProposal (signedAt 110) s alice 1).run .exact = some s' ∧ (s.threshold : ℤ) = 2 ∧
    s.spendingProposal.get 1 = some proposal ∧ proposal.approvals.filter (· ∈ s.signers) = [alice] := by
  have hreach := reach_after (evaluated
    (o := (deployment .exact (some token)).after Unrestricted (proposed ++ [signed 20 (.removeSigner admin bob)])))
  exact ⟨_, _, _, _, hreach, evaluated, by decide +kernel,
    evaluated, by decide +kernel⟩

end Runs

end ArenaX.Treasury
