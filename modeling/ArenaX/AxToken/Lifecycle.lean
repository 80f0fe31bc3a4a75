/-
The life of a proposal, from its creation on: it takes effect at most once, after its voting has closed and only
if it has passed. Voting and execution never overlap; voting and expiry do at one instant, the end of the voting.
-/
import ArenaX.AxToken.Snapshot

namespace ArenaX.AxToken

open Machine Exec Sample FlashLoanGuard
open Host (Address)

/-- A call by which a proposal takes effect. -/
def Call.takesEffect (id : U64) : Call → Bool
  | .unpauseViaGovernance proposalId | .adjustCapViaGovernance proposalId _ | .executeProposal proposalId =>
    proposalId = id
  | _ => false

/-- A call that creates the proposal with an identifier. -/
def Call.creates (s : State) (id : U64) : Call → Bool
  | .createProposal .. => u64.wrap (s.governance.proposalCounter + 1) = id
  | _ => false

/-- The states of a proposal's life, from its creation until another one has its identifier, with the number of
times it has taken effect. -/
inductive Lifetime (ok : Rule) (id : U64) : ℕ → Env → State → Prop where
  | created {e env s s' proposer description duration} : (contract .wrapping).Reach ok e s →
      ok e env s (.createProposal proposer description duration) →
      (createProposal env s proposer description duration).run .wrapping = some (id, s') → Lifetime ok id 0 env s'
  | step {n e env s c s'} : Lifetime ok id n e s → ok e env s c → c.creates s id = false →
      (execute env s c).run .wrapping = some s' → Lifetime ok id (n + (c.takesEffect id).toNat) env s'

section Steps

variable {m : Mode} {env env' : Env} {s s' s₁ s₂ : State} {c : Call} {id : U64} {p p' : Proposal}

/-- A proposal takes effect only if it is stored, closed and passed, and has not done so before. -/
theorem ready_of_takesEffect (hc : c.takesEffect id = true) (h : (execute env s c).run m = some s') :
    ∃ p, s.governance.proposal.get id = some p ∧ p.Ready env.timestamp := by
  cases c with
  | unpauseViaGovernance =>
    obtain ⟨p, _, hp, hready, -⟩ := unpauseViaGovernance_spec h
    cases of_decide_eq_true hc
    exact ⟨p, hp, hready⟩
  | adjustCapViaGovernance =>
    obtain ⟨-, -, p, hp, hready, -⟩ := adjustCapViaGovernance_spec h
    cases of_decide_eq_true hc
    exact ⟨p, hp, hready⟩
  | executeProposal =>
    obtain ⟨_, hp, hready, -⟩ := executeProposal_spec h
    cases of_decide_eq_true hc
    exact ⟨_, hp, hready⟩
  | _ => cases hc

/-- Marking one proposal as executed. -/
theorem markExecuted_executed {i : U64} (hi : s.governance.proposal.get i = some p)
    (h : (s.markExecuted i p).governance.proposal.get id = some p') :
    ∃ q, s.governance.proposal.get id = some q ∧ p'.executed = (q.executed || decide (i = id)) := by
  simp only [State.markExecuted, Table.get_set] at h
  split at h
  · rename_i hid
    cases h
    exact ⟨p, hid ▸ hi, by simp [hid]⟩
  · rename_i hid
    exact ⟨p', h, by simp [Ne.symm hid]⟩

/-- Through a call that does not create it anew, a proposal that is still stored is executed if it was before or has
just taken effect. -/
theorem execute_executed (hc : c.creates s id = false) (h : (execute env s c).run m = some s')
    (hp' : s'.governance.proposal.get id = some p') :
    ∃ p, s.governance.proposal.get id = some p ∧ p'.executed = (p.executed || c.takesEffect id) := by
  cases c with
  | createProposal =>
    obtain ⟨i, h⟩ := run_snd_map h
    obtain ⟨hi, p, -, -, -, -, rfl⟩ := createProposal_spec h
    have hne : id ≠ i := fun heq => of_decide_eq_false hc (hi ▸ heq.symm)
    rw [Table.get_set_of_ne _ _ hne] at hp'
    exact ⟨p', hp', by simp [Call.takesEffect]⟩
  | voteOnProposal voter i =>
    obtain ⟨p, power, counted, _, hp, -, -, -, hpos, hcount, rfl⟩ := voteOnProposal_spec h
    obtain ⟨-, -, hexecuted, -⟩ := count_spec hpos hcount
    simp only [Table.get_set] at hp'
    split at hp'
    · rename_i hid
      cases hp'
      exact ⟨p, hid ▸ hp, by simp [hexecuted, Call.takesEffect]⟩
    · exact ⟨p', hp', by simp [Call.takesEffect]⟩
  | expireProposal i =>
    obtain ⟨_, -, -, rfl⟩ := expireProposal_spec h
    simp only [Table.get_remove] at hp'
    split at hp'
    · cases hp'
    · exact ⟨p', hp', by simp [Call.takesEffect]⟩
  | executeProposal =>
    obtain ⟨p, hp, -, rfl⟩ := executeProposal_spec h
    exact markExecuted_executed hp hp'
  | unpauseViaGovernance =>
    obtain ⟨_, _, hp, -, rfl⟩ := unpauseViaGovernance_spec h
    exact markExecuted_executed hp hp'
  | adjustCapViaGovernance =>
    obtain ⟨-, -, _, hp, -, rfl⟩ := adjustCapViaGovernance_spec h
    exact markExecuted_executed (s := { s with supplyCap := _ }) hp hp'
  | _ =>
    rw [((execute_frame s' h).proposals rfl).1] at hp'
    exact ⟨p', hp', by simp [Call.takesEffect]⟩

/-- A vote and an expiry or an effect of one proposal are accepted at the same time only at the end of its voting. -/
theorem endTime_of_overlap {voter : Address} {support : Bool} (hc : c = .expireProposal id ∨ c.takesEffect id = true)
    (h : (execute env s c).run m = some s₁) (htime : env'.timestamp = env.timestamp)
    (hvote : (voteOnProposal env' s voter id support).run m = some s₂) :
    ∃ p, s.governance.proposal.get id = some p ∧ env.timestamp = p.endTime := by
  obtain ⟨_, _, _, _, hp, hopen, -⟩ := voteOnProposal_spec hvote
  rw [htime] at hopen
  refine ⟨_, hp, IntType.Val.ext ?_⟩
  rcases hc with rfl | hc
  · obtain ⟨_, hq, hend, -⟩ := expireProposal_spec h
    cases hp.symm.trans hq
    exact le_antisymm hopen hend
  · obtain ⟨_, hq, hready⟩ := ready_of_takesEffect hc h
    cases hp.symm.trans hq
    exact absurd hopen hready.closed.not_ge

end Steps

section Runs

variable {ok : Rule} {e : Env} {s : State} {id : U64} {n : ℕ}

/-- A proposal has taken effect at most once, and is marked if it has. -/
theorem Lifetime.effects (h : Lifetime ok id n e s) :
    n ≤ 1 ∧ (n = 1 → ∀ p, s.governance.proposal.get id = some p → p.executed = true) := by
  induction h with
  | created => exact ⟨zero_le_one, fun h => by cases h⟩
  | @step n e env s c s' _ _ hc h ih =>
    obtain ⟨hle, hmarked⟩ := ih
    cases heffect : c.takesEffect id with
    | false =>
      refine ⟨hle, fun hn p' hp' => ?_⟩
      obtain ⟨p, hp, hexecuted⟩ := execute_executed hc h hp'
      rw [hexecuted, hmarked hn p hp, Bool.true_or]
    | true =>
      obtain ⟨p, hp, hready⟩ := ready_of_takesEffect heffect h
      have hzero : n = 0 := by
        by_contra hne
        have := hmarked (by omega) p hp
        rw [hready.pending] at this
        cases this
      subst hzero
      refine ⟨le_rfl, fun _ p' hp' => ?_⟩
      obtain ⟨_, -, hexecuted⟩ := execute_executed hc h hp'
      rw [hexecuted, heffect, Bool.or_true]

/-- In a run of non-decreasing times a proposal takes effect at most once, and only when it has passed and its voting
is closed. At a time other than the end of its voting at which it could expire or take effect, no vote on it is
accepted. -/
theorem proposal_lifecycle (h : Lifetime Ordered id n e s) :
    n ≤ 1 ∧
    (∀ env c s', c.takesEffect id = true → (execute env s c).run .wrapping = some s' →
      ∃ p, s.governance.proposal.get id = some p ∧ (p.votesAgainst : ℤ) < p.votesFor ∧
        (p.endTime : ℤ) < env.timestamp ∧ p.executed = false) ∧
    ∀ env env' c s' voter support, (∀ p, s.governance.proposal.get id = some p → env.timestamp ≠ p.endTime) →
      (c = .expireProposal id ∨ c.takesEffect id = true) → (execute env s c).run .wrapping = some s' →
      env'.timestamp = env.timestamp → (voteOnProposal env' s voter id support).run .wrapping = none := by
  refine ⟨h.effects.1, fun env c s' hc hrun => ?_, fun env env' c s' voter support hne hc hrun htime => ?_⟩
  · obtain ⟨p, hp, hready⟩ := ready_of_takesEffect hc hrun
    exact ⟨p, hp, hready.passed, hready.closed, hready.pending⟩
  · refine Option.eq_none_iff_forall_ne_some.2 fun s₂ hvote => ?_
    obtain ⟨p, hp, hend⟩ := endTime_of_overlap hc hrun htime hvote
    exact hne p hp hend

/-- A proposal of a holder of 2000 tokens at time 20, open until 120. -/
def proposed : Option (U64 × State) :=
  ((execute (signedAt 2 10) deployed (.mint alice 2000)).run .wrapping).bind fun s =>
    (createProposal (signedAt 3 20) s alice "raise the cap" 100).run .wrapping

theorem lifetime_of_proposed {r : U64 × State} (h : proposed = some r) :
    Lifetime Ordered r.1 0 (signedAt 3 20) r.2 := by
  obtain ⟨s, hmint, hcreate⟩ := Option.bind_eq_some_iff.1 h
  have hstep : (contract .wrapping).step (signedAt 2 10) deployed (.mint alice 2000) = some s := hmint
  have hreach : (contract .wrapping).Reach Ordered (signedAt 2 10) s :=
    .step (.init (deployment .wrapping).starts) (And.intro (by decide) (by decide)) hstep
  exact .created hreach (And.intro (by decide) (by decide)) hcreate

/-- The proposal passes, takes effect, and cannot again. -/
theorem proposal_takes_effect_once : ∃ id e s, Lifetime Ordered id 1 e s ∧
    (executeProposal (signedAt 6 300) s id).run .wrapping = none ∧
    ∀ env env' c s' voter support, (∀ p, s.governance.proposal.get id = some p → env.timestamp ≠ p.endTime) →
      (c = .expireProposal id ∨ c.takesEffect id = true) → (execute env s c).run .wrapping = some s' →
      env'.timestamp = env.timestamp → (voteOnProposal env' s voter id support).run .wrapping = none := by
  have hrun : (proposed.bind fun r =>
      ((execute (signedAt 4 30) r.2 (.voteOnProposal alice r.1 true)).run .wrapping).bind fun s =>
        ((execute (signedAt 5 200) s (.executeProposal r.1)).run .wrapping).map fun s =>
          (executeProposal (signedAt 6 300) s r.1).run .wrapping |>.isNone) = some true := by decide +kernel
  obtain ⟨r, hr, h⟩ := Option.bind_eq_some_iff.1 hrun
  obtain ⟨s₁, h₁, h⟩ := Option.bind_eq_some_iff.1 h
  obtain ⟨s₂, h₂, hnone⟩ := Option.map_eq_some_iff.1 h
  have hvoted := (lifetime_of_proposed hr).step (And.intro (by decide) (by decide)) rfl h₁
  have hdone := hvoted.step (And.intro (by decide) (by decide)) rfl h₂
  have hcount : (Call.executeProposal r.1).takesEffect r.1 = true := decide_eq_true rfl
  rw [hcount] at hdone
  exact ⟨r.1, _, s₂, hdone, Option.isNone_iff_eq_none.1 hnone, (proposal_lifecycle hdone).2.2⟩

/-- At the end of its voting a proposal can both be voted on and be expired. -/
theorem vote_and_expiry_overlap : ∃ id s p s₁ s₂, Lifetime Ordered id 0 (signedAt 3 20) s ∧
    s.governance.proposal.get id = some p ∧ p.endTime = u64.wrap 120 ∧
    (expireProposal (signedAt 4 120) s id).run .wrapping = some s₁ ∧
    (voteOnProposal (signedAt 4 120) s alice id true).run .wrapping = some s₂ := by
  have hlife := lifetime_of_proposed (evaluated (o := proposed))
  exact ⟨_, _, _, _, _, hlife, evaluated, by decide +kernel,
    evaluated, evaluated⟩

end Runs

end ArenaX.AxToken
