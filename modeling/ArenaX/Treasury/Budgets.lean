/-
The budgets of the treasury. What is spent in a category stays within what was allocated to it, the totals are the
sums over the categories, the balance is what was paid in and not spent, a signer votes once on an allocation, and an
allocation is credited once.
-/
import ArenaX.Treasury.Contract

namespace ArenaX.Treasury

open Machine Exec Sample
open Host (Address)
open Table (get_set get_set_self share total)

variable {proposal p : AllocationProposal}

/-! ## Votes -/

def AllocationProposal.votes (proposal : AllocationProposal) : List Address :=
  proposal.votesFor ++ proposal.votesAgainst

theorem AllocationProposal.votes_voted (proposal : AllocationProposal) (signer : Address) (support : Bool) :
    (proposal.voted signer support).votes.Perm (signer :: proposal.votes) := by
  unfold voted votes
  cases support with
  | true =>
    simp only [if_true, List.append_assoc, List.singleton_append]
    exact List.perm_middle
  | false =>
    simp only [Bool.false_eq_true, if_false]
    rw [← List.append_assoc]
    exact List.perm_append_singleton _ _

@[simp] theorem AllocationProposal.voted_amount (proposal : AllocationProposal) (signer : Address) (support : Bool) :
    (proposal.voted signer support).amount = proposal.amount := by
  cases support <;> rfl

@[simp] theorem AllocationProposal.voted_finalized (proposal : AllocationProposal) (signer : Address)
    (support : Bool) : (proposal.voted signer support).finalized = proposal.finalized := by
  cases support <;> rfl

/-- The voters of a proposal differ, and each has a vote on record. -/
structure AllocationProposal.Balloted (votes : Table (U64 × Address) Bool) (id : U64) (proposal : AllocationProposal) :
    Prop where
  nodup : proposal.votes.Nodup
  recorded : ∀ a ∈ proposal.votes, votes.get (id, a) ≠ none

theorem AllocationProposal.Balloted.record {votes : Table (U64 × Address) Bool} {id : U64}
    (h : proposal.Balloted votes id) (key : U64 × Address) :
    proposal.Balloted (votes.set key true) id := by
  refine ⟨h.nodup, fun a ha => ?_⟩
  rw [get_set]
  split
  · exact Option.some_ne_none true
  · exact h.recorded a ha

/-- Who has no vote on record can vote once. -/
theorem AllocationProposal.Balloted.voted {votes : Table (U64 × Address) Bool} {id : U64}
    (h : proposal.Balloted votes id) {signer : Address} (hnew : votes.get (id, signer) = none) (support : Bool) :
    (proposal.voted signer support).Balloted (votes.set (id, signer) true) id := by
  have hperm := proposal.votes_voted signer support
  constructor
  · rw [hperm.nodup_iff, List.nodup_cons]
    exact ⟨fun hmem => h.recorded signer hmem hnew, h.nodup⟩
  · intro a ha
    rcases List.mem_cons.1 (hperm.mem_iff.1 ha) with rfl | ha
    · rw [get_set_self]
      exact Option.some_ne_none true
    · exact (h.record _).recorded a ha

/-! ## The life of an allocation -/

/-- The call proposes an allocation under an id. -/
def Proposes (allocationId : U64) (s : State) : Call → Prop
  | .proposeBudgetAllocation .. => u64.wrap (s.allocationProposalCounter + 1) = allocationId
  | _ => False

/-- An allocation is proposed under an id that is free. -/
def Call.NewId (s : State) : Call → Prop
  | .proposeBudgetAllocation .. => s.allocationProposal.get (u64.wrap (s.allocationProposalCounter + 1)) = none
  | _ => True

def Call.finalizes (allocationId : U64) : Call → Bool
  | .finalizeBudgetAllocation _ id => decide (id = allocationId)
  | _ => false

section Allocations

variable {m : Mode} {env : Env} {s s' : State} {c : Call} {allocationId : U64}

/-- A proposed allocation is open and about a positive amount. -/
theorem execute_proposes (hc : Proposes allocationId s c) (h : (execute env s c).run m = some s')
    (hp : s'.allocationProposal.get allocationId = some p) :
    0 < (p.amount : ℤ) ∧ p.finalized = false := by
  cases c with
  | proposeBudgetAllocation =>
    obtain ⟨_, h⟩ := run_snd_map h
    obtain ⟨-, hpos, hid, rfl⟩ := proposeBudgetAllocation_spec h
    cases hid.trans hc
    rw [get_set_self] at hp
    cases hp
    exact ⟨hpos, rfl⟩
  | _ => cases hc

/-- A stored allocation was stored before with the same amount, unless the call proposed it, and is finalized once. -/
theorem execute_finalized (hc : ¬ Proposes allocationId s c) (h : (execute env s c).run m = some s')
    (hp : s'.allocationProposal.get allocationId = some p) :
    ∃ p₀, s.allocationProposal.get allocationId = some p₀ ∧ p.amount = p₀.amount ∧
      (if p.finalized then 1 else 0) = (if p₀.finalized then 1 else 0) + if c.finalizes allocationId then 1 else 0 := by
  cases c with
  | proposeBudgetAllocation =>
    obtain ⟨_, h⟩ := run_snd_map h
    obtain ⟨-, -, rfl, rfl⟩ := proposeBudgetAllocation_spec h
    rw [Table.get_set_of_ne _ _ (Ne.symm hc)] at hp
    exact ⟨p, hp, rfl, rfl⟩
  | voteBudgetAllocation =>
    obtain ⟨-, -, proposal, hget, -, rfl⟩ := voteBudgetAllocation_spec h
    rw [get_set] at hp
    split at hp
    · rename_i hid
      cases hp
      exact ⟨proposal, hid ▸ hget, proposal.voted_amount _ _, by rw [AllocationProposal.voted_finalized]; rfl⟩
    · exact ⟨p, hp, rfl, rfl⟩
  | finalizeBudgetAllocation _ id =>
    obtain ⟨-, proposal, _, hget, -, hopen, -, -, rfl⟩ := finalizeBudgetAllocation_spec h
    rw [get_set] at hp
    split at hp
    · rename_i hid
      cases hp
      exact ⟨proposal, hid ▸ hget, rfl, by simp [hopen, Call.finalizes, hid]⟩
    · rename_i hid
      exact ⟨p, hp, rfl, by simp [Call.finalizes, Ne.symm hid]⟩
  | _ =>
    rw [(execute_frame h).allocationProposal (by rintro ⟨⟩) (by rintro ⟨⟩)] at hp
    exact ⟨p, hp, rfl, rfl⟩

theorem reach_credits {ok : Rule} {e : Env} (h : (contract m).Reach ok e s) :
    s.allocationProposal.All fun _ p => 0 < (p.amount : ℤ) := by
  refine h.invariant (P := fun _ s => s.allocationProposal.All fun _ p => 0 < (p.amount : ℤ)) ?_ ?_
  · intro e s hinit
    obtain ⟨_, _, _, _, _, _, _, -, rfl⟩ := contract_init hinit
    exact .empty
  · intro e e' s c s' hs _ hstep id p hp
    by_cases hc : Proposes id s c
    · exact (execute_proposes hc hstep hp).1
    · obtain ⟨p₀, hp₀, hamount, -⟩ := execute_finalized hc hstep hp
      rw [hamount]
      exact hs id p₀ hp₀

end Allocations

/-! ## The books -/

/-- Budgets are not overdrawn and add up to the totals, and every signer has voted at most once. -/
structure State.Budgeted (s : State) : Prop where
  budgets : s.budgetAllocation.All fun _ budget => 0 ≤ (budget.spent : ℤ) ∧ (budget.spent : ℤ) ≤ budget.allocated
  spent : (s.totalSpent : ℤ) = total (fun budget => (budget.spent : ℤ)) s.budgetAllocation
  allocated : (s.totalAllocated : ℤ) = total (fun budget => (budget.allocated : ℤ)) s.budgetAllocation
  balance : 0 ≤ (s.balance : ℤ)
  ballots : s.allocationProposal.All fun id proposal => proposal.Balloted s.allocationVote id

/-- What a call pays in. -/
def Call.deposited : Call → ℤ
  | .deposit _ amount => amount
  | _ => 0

/-- What a call credits to a budget. -/
def credited (_ : Env) (s : State) : Call → ℤ
  | .finalizeBudgetAllocation _ allocationId =>
    share (fun proposal => (proposal.amount : ℤ)) (s.allocationProposal.get allocationId)
  | _ => 0

/-- What an allocation was credited with: its amount, once it is finalized. -/
def AllocationProposal.credit (proposal : AllocationProposal) : ℤ := if proposal.finalized then proposal.amount else 0

section Steps

variable {m : Mode} {env : Env} {s s' : State} {c : Call} {caller : Address} {id : U64} {category : Symbol}

theorem share_budget (q : BudgetAllocation → ℤ) (hq : q ⟨category, 0, 0⟩ = 0) :
    share q (s.budgetAllocation.get category) = q (s.getBudgetAllocation category) := by
  unfold State.getBudgetAllocation
  cases s.budgetAllocation.get category with
  | none => exact hq.symm
  | some budget => rfl

/-- A rewritten budget changes a total by the difference. -/
theorem total_budget_set (q : BudgetAllocation → ℤ) (hq : q ⟨category, 0, 0⟩ = 0) (budget : BudgetAllocation) :
    total q (s.budgetAllocation.set category budget) =
      total q s.budgetAllocation + (q budget - q (s.getBudgetAllocation category)) := by
  have hset := Table.total_set q s.budgetAllocation category budget
  rw [share_budget q hq] at hset
  omega

theorem State.Budgeted.within (hs : s.Budgeted) (category : Symbol) :
    0 ≤ ((s.getBudgetAllocation category).spent : ℤ) ∧
      ((s.getBudgetAllocation category).spent : ℤ) ≤ (s.getBudgetAllocation category).allocated := by
  unfold State.getBudgetAllocation
  cases hget : s.budgetAllocation.get category with
  | none => exact ⟨le_rfl, le_rfl⟩
  | some budget => exact hs.budgets category budget hget

theorem executeProposal_budgeted (hs : s.Budgeted)
    (hpositive : s.spendingProposal.All fun _ p => 0 < (p.amount : ℤ))
    (h : (executeProposal env s caller id).run .exact = some s') : s'.Budgeted := by
  obtain ⟨-, proposal, budget, hget, rfl, -, -, -, hbalance, havailable, hfits, rfl⟩ := executeProposal_spec h
  obtain ⟨havailable', hbalance', hspent, htotal⟩ := hfits rfl
  rw [wrap_of_fits havailable'] at havailable
  have hpos := hpositive id proposal hget
  obtain ⟨hlo, hhi⟩ := hs.within proposal.category
  have hspent' := wrap_of_fits hspent
  refine ⟨hs.budgets.set ?_, ?_, ?_, ?_, hs.ballots⟩
  · dsimp only
    omega
  · dsimp only
    rw [total_budget_set _ rfl, hspent', wrap_of_fits htotal, ← hs.spent, add_sub_cancel_left]
  · dsimp only
    rw [total_budget_set _ rfl, sub_self, add_zero]
    exact hs.allocated
  · dsimp only
    rw [wrap_of_fits hbalance']
    omega

theorem finalizeBudgetAllocation_budgeted (hs : s.Budgeted)
    (hcredits : s.allocationProposal.All fun _ p => 0 < (p.amount : ℤ))
    (h : (finalizeBudgetAllocation env s caller id).run .exact = some s') : s'.Budgeted := by
  obtain ⟨-, proposal, budget, hget, rfl, -, -, hfits, rfl⟩ := finalizeBudgetAllocation_spec h
  obtain ⟨hallocated, htotal⟩ := hfits rfl
  have hpos := hcredits id proposal hget
  obtain ⟨hlo, hhi⟩ := hs.within proposal.category
  have hallocated' := wrap_of_fits hallocated
  refine ⟨hs.budgets.set ?_, ?_, ?_, hs.balance, hs.ballots.set ?_⟩
  · dsimp only
    omega
  · dsimp only
    rw [total_budget_set _ rfl, sub_self, add_zero]
    exact hs.spent
  · dsimp only
    rw [total_budget_set _ rfl, hallocated', wrap_of_fits htotal, ← hs.allocated, add_sub_cancel_left]
  · exact ⟨(hs.ballots id proposal hget).nodup, (hs.ballots id proposal hget).recorded⟩

theorem State.Budgeted.frame {f : Facility} (hs : s.Budgeted) (h : Frame f s s') (hfunds : f ≠ .funds)
    (hexecution : f ≠ .execution) (hballots : f ≠ .ballots) (hcredit : f ≠ .credit) : s'.Budgeted := by
  have hbudgets := h.budgetAllocation hexecution hcredit
  constructor
  · rw [hbudgets]
    exact hs.budgets
  · rw [hbudgets, h.totalSpent hexecution]
    exact hs.spent
  · rw [hbudgets, h.totalAllocated hcredit]
    exact hs.allocated
  · rw [h.balance hfunds hexecution]
    exact hs.balance
  · rw [h.allocationProposal hballots hcredit, h.allocationVote hballots]
    exact hs.ballots

theorem execute_budgeted (hs : s.Budgeted) (hpositive : s.spendingProposal.All fun _ p => 0 < (p.amount : ℤ))
    (hcredits : s.allocationProposal.All fun _ p => 0 < (p.amount : ℤ))
    (h : (execute env s c).run .exact = some s') : s'.Budgeted := by
  cases c with
  | deposit =>
    obtain ⟨-, hpos, _, -, hfits, rfl⟩ := deposit_spec h
    have hbalance := hs.balance
    refine { hs with balance := ?_ }
    rw [wrap_of_fits (hfits rfl)]
    omega
  | executeProposal => exact executeProposal_budgeted hs hpositive h
  | proposeBudgetAllocation =>
    obtain ⟨_, h⟩ := run_snd_map h
    obtain ⟨-, -, -, rfl⟩ := proposeBudgetAllocation_spec h
    refine { hs with ballots := (hs.ballots.imp fun _ _ hp => hp.record _).set ⟨List.nodup_singleton _, ?_⟩ }
    intro a ha
    cases List.mem_singleton.1 ha
    rw [get_set_self]
    exact Option.some_ne_none true
  | voteBudgetAllocation signer id support =>
    obtain ⟨-, hnew, proposal, hget, -, rfl⟩ := voteBudgetAllocation_spec h
    exact { hs with
      ballots := (hs.ballots.imp fun _ _ hp => hp.record _).set ((hs.ballots id proposal hget).voted hnew support) }
  | finalizeBudgetAllocation => exact finalizeBudgetAllocation_budgeted hs hcredits h
  | _ => exact hs.frame (execute_frame h) (by rintro ⟨⟩) (by rintro ⟨⟩) (by rintro ⟨⟩) (by rintro ⟨⟩)

/-- What is held and what was spent grow by what is paid in. -/
theorem execute_deposited (h : (execute env s c).run .exact = some s') :
    s'.balance + s'.totalSpent = s.balance + s.totalSpent + c.deposited := by
  cases c with
  | deposit =>
    obtain ⟨-, -, _, -, hfits, rfl⟩ := deposit_spec h
    dsimp only [Call.deposited]
    rw [wrap_of_fits (hfits rfl)]
    ring
  | executeProposal =>
    obtain ⟨-, proposal, _, -, -, -, -, -, -, -, hfits, rfl⟩ := executeProposal_spec h
    obtain ⟨-, hbalance, -, htotal⟩ := hfits rfl
    dsimp only [Call.deposited]
    rw [wrap_of_fits hbalance, wrap_of_fits htotal]
    ring
  | _ =>
    have hframe := execute_frame h
    rw [hframe.balance (by rintro ⟨⟩) (by rintro ⟨⟩), hframe.totalSpent (by rintro ⟨⟩)]
    exact (add_zero _).symm

theorem execute_credited (h : (execute env s c).run .exact = some s') :
    s'.totalAllocated = s.totalAllocated + credited env s c := by
  cases c with
  | finalizeBudgetAllocation =>
    obtain ⟨-, proposal, _, hget, -, -, -, hfits, rfl⟩ := finalizeBudgetAllocation_spec h
    dsimp only [credited]
    rw [wrap_of_fits (hfits rfl).2, hget, Table.share_some]
  | _ =>
    rw [(execute_frame h).totalAllocated (by rintro ⟨⟩)]
    exact (add_zero _).symm

/-- Where no id is given out twice, the credits on record follow the credits made. -/
theorem execute_credits (hc : c.NewId s) (h : (execute env s c).run m = some s') :
    total AllocationProposal.credit s'.allocationProposal =
      total AllocationProposal.credit s.allocationProposal + credited env s c := by
  cases c with
  | proposeBudgetAllocation =>
    obtain ⟨_, h⟩ := run_snd_map h
    obtain ⟨-, -, rfl, rfl⟩ := proposeBudgetAllocation_spec h
    rw [Table.total_set_of_none _ _ hc, add_comm]
    rfl
  | voteBudgetAllocation =>
    obtain ⟨-, -, _, hget, -, rfl⟩ := voteBudgetAllocation_spec h
    rw [Table.total_set_of_some hget, AllocationProposal.credit, AllocationProposal.credit,
      AllocationProposal.voted_finalized, AllocationProposal.voted_amount, sub_add_cancel]
    exact (add_zero _).symm
  | finalizeBudgetAllocation =>
    obtain ⟨-, _, _, hget, -, hopen, -, -, rfl⟩ := finalizeBudgetAllocation_spec h
    dsimp only [credited]
    rw [Table.total_set_of_some hget, hget]
    simp [AllocationProposal.credit, hopen]
  | _ =>
    rw [(execute_frame h).allocationProposal (by rintro ⟨⟩) (by rintro ⟨⟩)]
    exact (add_zero _).symm

end Steps

/-! ## Runs -/

section Runs

variable {m : Mode} {ok : Rule} {e : Env} {s : State} {allocationId : U64}

/-- Allocations get ids of their own. -/
def NewIds : Rule := fun _ _ s c => c.NewId s

theorem reach_budgeted (h : (contract .exact).Reach ok e s) : s.Budgeted := by
  induction h with
  | init hinit =>
    obtain ⟨_, _, _, _, _, _, _, -, rfl⟩ := contract_init hinit
    exact ⟨.empty, rfl, rfl, le_rfl, .empty⟩
  | step hreach _ hstep ih => exact execute_budgeted ih (reach_positive hreach) (reach_credits hreach) hstep

theorem deposited_eq {n : ℤ} (h : (contract .exact).Tally ok (fun _ _ c => c.deposited) n e s) :
    n = s.balance + s.totalSpent := by
  refine h.invariant (P := fun n _ s => n = (s.balance : ℤ) + s.totalSpent) ?_ ?_
  · intro e s hinit
    obtain ⟨_, _, _, _, _, _, _, -, rfl⟩ := contract_init hinit
    rfl
  · intro n e e' s c s' _ ih _ hstep
    rw [execute_deposited hstep, ih]

theorem credited_eq {n : ℤ} (h : (contract .exact).Tally ok credited n e s) : n = s.totalAllocated := by
  refine h.invariant (P := fun n _ s => n = s.totalAllocated) ?_ ?_
  · intro e s hinit
    obtain ⟨_, _, _, _, _, _, _, -, rfl⟩ := contract_init hinit
    rfl
  · intro n e e' s c s' _ ih _ hstep
    rw [execute_credited hstep, ih]

theorem NewIds.credits_eq (h : (contract .exact).Reach NewIds e s) :
    s.totalAllocated = total AllocationProposal.credit s.allocationProposal := by
  induction h with
  | init hinit =>
    obtain ⟨_, _, _, _, _, _, _, -, rfl⟩ := contract_init hinit
    rfl
  | @step e e' s c s' _ hok hstep ih =>
    have hrun : (execute e' s c).run .exact = some s' := hstep
    rw [execute_credited hrun, execute_credits hok hrun, ih]

/-- An allocation is finalized as often as its mark says. -/
theorem finalizes_eq {n : ℕ}
    (h : (contract m).TallySince ok (Proposes allocationId) (fun _ _ c => if c.finalizes allocationId then 1 else 0)
      n e s) (hget : s.allocationProposal.get allocationId = some proposal) :
    n = if proposal.finalized then 1 else 0 := by
  refine h.invariant (P := fun n _ s => ∀ p, s.allocationProposal.get allocationId = some p →
    n = if p.finalized then 1 else 0) ?_ ?_ proposal hget
  · intro e₀ e s₀ c s _ _ hc hstep p hp
    rw [(execute_proposes hc hstep hp).2]
    rfl
  · intro n e e' s c s' _ ih _ hc hstep p hp
    obtain ⟨p₀, hp₀, -, hfinalized⟩ := execute_finalized hc hstep hp
    rw [hfinalized, ih p₀ hp₀]

theorem tallySince_proposal {A : Type} [AddMonoid A] (q : Env → State → Call → A)
    (h : (contract m).Reach ok e s) (hp : s.allocationProposal.get allocationId = some p) :
    ∃ n, (contract m).TallySince ok (Proposes allocationId) q n e s := by
  refine h.tallySince (P := fun s => ∃ p, s.allocationProposal.get allocationId = some p) q ?_ ?_ ⟨p, hp⟩
  · intro e s hinit
    obtain ⟨_, _, _, _, _, _, _, -, rfl⟩ := contract_init hinit
    rintro ⟨_, hnone⟩
    cases hnone
  · rintro e e' s c s' - - hc hstep ⟨p, hp⟩
    obtain ⟨_, hp₀, -⟩ := execute_finalized hc hstep hp
    exact ⟨_, hp₀⟩

theorem total_eq_sum (q : BudgetAllocation → ℤ) (hq : ∀ category, q ⟨category, 0, 0⟩ = 0) :
    total q s.budgetAllocation = ∑ᶠ category, q (s.getBudgetAllocation category) := by
  rw [Table.total_eq_finsum]
  exact finsum_congr fun category => share_budget q (hq category)

/-- In every run without overflow: what is spent in a category is within what was allocated to it, the totals are the
sums over the categories, the total allocated is what allocations were credited with, the balance is what was paid in
and not spent, every signer has voted at most once on an allocation, and an allocation is credited at most once. -/
theorem budgets_add_up (h : (contract .exact).Reach Unrestricted e s) :
    (∀ category, 0 ≤ ((s.getBudgetAllocation category).spent : ℤ) ∧
      ((s.getBudgetAllocation category).spent : ℤ) ≤ (s.getBudgetAllocation category).allocated) ∧
    (s.totalSpent : ℤ) = ∑ᶠ category, ((s.getBudgetAllocation category).spent : ℤ) ∧
    (s.totalAllocated : ℤ) = ∑ᶠ category, ((s.getBudgetAllocation category).allocated : ℤ) ∧
    (∀ n, (contract .exact).Tally Unrestricted credited n e s ↔ n = s.totalAllocated) ∧
    ((contract .exact).Reach NewIds e s → (s.totalAllocated : ℤ) = ∑ᶠ allocationId, share
      (fun proposal : AllocationProposal => if proposal.finalized then (proposal.amount : ℤ) else 0)
      (s.allocationProposal.get allocationId)) ∧
    (∀ n, (contract .exact).Tally Unrestricted (fun _ _ c => c.deposited) n e s ↔ n = s.balance + s.totalSpent) ∧
    0 ≤ (s.balance : ℤ) ∧
    s.allocationProposal.All fun allocationId proposal => (proposal.votesFor ++ proposal.votesAgainst).Nodup ∧
      ∀ n, (contract .exact).TallySince Unrestricted (Proposes allocationId)
        (fun _ _ c => if c.finalizes allocationId then 1 else 0) n e s ↔ n = if proposal.finalized then 1 else 0 := by
  have hs := reach_budgeted h
  refine ⟨hs.within, ?_, ?_, ?_, ?_, ?_, hs.balance, ?_⟩
  · rw [hs.spent, total_eq_sum _ fun _ => rfl]
  · rw [hs.allocated, total_eq_sum _ fun _ => rfl]
  · exact TransitionSystem.iff_eq_of_exists (h.tally _) credited_eq
  · intro hnew
    rw [NewIds.credits_eq hnew, Table.total_eq_finsum]
    rfl
  · exact TransitionSystem.iff_eq_of_exists (h.tally _) deposited_eq
  · intro allocationId proposal hget
    refine ⟨(hs.ballots allocationId proposal hget).nodup, ?_⟩
    exact TransitionSystem.iff_eq_of_exists (tallySince_proposal _ h hget) fun hn => finalizes_eq hn hget

/-- After a payment of 300 from a budget of 500 and a balance of 1000. -/
theorem budgets_after_payment : ∃ r, (deployment .exact (some token)).after Unrestricted
      (proposed ++ [signed 110 (.executeProposal alice 1)]) = some r ∧
    (∑ᶠ category, ((r.2.getBudgetAllocation category).spent : ℤ)) = 300 ∧
    (∑ᶠ category, ((r.2.getBudgetAllocation category).allocated : ℤ)) = 500 ∧
    (contract .exact).Tally Unrestricted (fun _ _ c => c.deposited) 1000 r.1 r.2 ∧
    (contract .exact).Tally Unrestricted credited 500 r.1 r.2 := by
  obtain ⟨-, hspent, hallocated, hcredited, -, hdeposited, -, -⟩ := budgets_add_up (reach_after (evaluated
    (o := (deployment .exact (some token)).after Unrestricted (proposed ++ [signed 110 (.executeProposal alice 1)]))))
  refine ⟨_, (evaluated _), hspent.symm.trans (by decide +kernel), hallocated.symm.trans (by decide +kernel), ?_, ?_⟩
  · rw [hdeposited]
    decide +kernel
  · rw [hcredited]
    decide +kernel

end Runs

end ArenaX.Treasury
