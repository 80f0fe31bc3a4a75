/-
Budgets: signers vote on allocating an amount to a category, and an allocation with enough votes is credited to the
category, from which executed spending proposals draw.
-/
import ArenaX.Treasury.Storage

namespace ArenaX.Treasury

open Machine Exec
open Host (Address)

/-- The proposer votes for the new allocation. -/
def proposeBudgetAllocation (env : Env) (s : State) (proposer : Address) (category : Symbol) (amount : I128) :
    Result (U64 × State) := do
  requireNotPaused s
  requireSigner env s proposer
  requirePositive amount
  let counter := u64.wrap (s.allocationProposalCounter + 1)
  let proposal : AllocationProposal :=
    ⟨counter, proposer, category, amount, [proposer], [], env.timestamp, false, false⟩
  pure (counter, { s with
    allocationProposal := s.allocationProposal.set counter proposal
    allocationProposalCounter := counter
    allocationVote := s.allocationVote.set (counter, proposer) true })

/-- A proposal with one more vote. -/
def AllocationProposal.voted (proposal : AllocationProposal) (signer : Address) (support : Bool) :
    AllocationProposal :=
  if support then { proposal with votesFor := proposal.votesFor ++ [signer] }
  else { proposal with votesAgainst := proposal.votesAgainst ++ [signer] }

def voteBudgetAllocation (env : Env) (s : State) (signer : Address) (allocationId : U64) (support : Bool) :
    Result State := do
  requireNotPaused s
  requireSigner env s signer
  reject ((s.allocationVote.get (allocationId, signer)).isSome = true) "already voted"
  let proposal ← okOr (s.getAllocationProposal allocationId) "allocation proposal not found"
  reject (proposal.finalized = true) "allocation already finalized"
  pure { s with
    allocationVote := s.allocationVote.set (allocationId, signer) true
    allocationProposal := s.allocationProposal.set allocationId (proposal.voted signer support) }

def finalizeBudgetAllocation (env : Env) (s : State) (caller : Address) (allocationId : U64) : Result State := do
  requireNotPaused s
  requireSigner env s caller
  let proposal ← okOr (s.getAllocationProposal allocationId) "allocation proposal not found"
  reject (proposal.finalized = true) "already finalized"
  reject ((proposal.votesFor.length : Int) < s.threshold) "insufficient votes for quorum"
  let allocation := s.getBudgetAllocation proposal.category
  let allocated ← unchecked i128 (allocation.allocated + proposal.amount)
  let totalAllocated ← unchecked i128 (s.totalAllocated + proposal.amount)
  pure { s with
    allocationProposal := s.allocationProposal.set allocationId { proposal with finalized := true, approved := true }
    budgetAllocation := s.budgetAllocation.set proposal.category
      { allocation with category := proposal.category, allocated := allocated }
    totalAllocated := totalAllocated }

/-! ## What the operations do -/

section Specs

variable {m : Mode} {env : Env} {s s' : State} {caller : Address} {allocationId : U64}

theorem proposeBudgetAllocation_spec {category : Symbol} {amount : I128}
    (h : (proposeBudgetAllocation env s caller category amount).run m = some (allocationId, s')) :
    SignerSigned env s caller ∧ 0 < (amount : ℤ) ∧ allocationId = u64.wrap (s.allocationProposalCounter + 1) ∧
      s' = { s with
        allocationProposal := s.allocationProposal.set allocationId
          ⟨allocationId, caller, category, amount, [caller], [], env.timestamp, false, false⟩
        allocationProposalCounter := allocationId
        allocationVote := s.allocationVote.set (allocationId, caller) true } := by
  simp only [proposeBudgetAllocation, run_iff, run_requireNotPaused, run_requireSigner, run_requirePositive,
    Prod.mk.injEq] at h
  obtain ⟨-, -, -, hsigner, -, hpos, rfl, rfl⟩ := h
  exact ⟨hsigner, hpos, rfl, rfl⟩

theorem voteBudgetAllocation_spec {support : Bool}
    (h : (voteBudgetAllocation env s caller allocationId support).run m = some s') :
    SignerSigned env s caller ∧ s.allocationVote.get (allocationId, caller) = none ∧
      ∃ proposal, s.allocationProposal.get allocationId = some proposal ∧ proposal.finalized = false ∧ s' = { s with
        allocationVote := s.allocationVote.set (allocationId, caller) true
        allocationProposal := s.allocationProposal.set allocationId (proposal.voted caller support) } := by
  simp only [voteBudgetAllocation, State.getAllocationProposal, run_iff, run_requireNotPaused, run_requireSigner,
    Bool.not_eq_true, Option.isSome_eq_false_iff, Option.isNone_iff_eq_none] at h
  obtain ⟨-, -, -, hsigner, -, hnew, _, hget, -, hopen, rfl⟩ := h
  exact ⟨hsigner, hnew, _, hget, hopen, rfl⟩

theorem finalizeBudgetAllocation_spec (h : (finalizeBudgetAllocation env s caller allocationId).run m = some s') :
    SignerSigned env s caller ∧ ∃ proposal allocation, s.allocationProposal.get allocationId = some proposal ∧
      allocation = s.getBudgetAllocation proposal.category ∧ proposal.finalized = false ∧
      (s.threshold : ℤ) ≤ proposal.votesFor.length ∧
      (m = .exact → i128.Fits (allocation.allocated + proposal.amount) ∧
        i128.Fits (s.totalAllocated + proposal.amount)) ∧ s' = { s with
        allocationProposal := s.allocationProposal.set allocationId
          { proposal with finalized := true, approved := true }
        budgetAllocation := s.budgetAllocation.set proposal.category { allocation with
          category := proposal.category
          allocated := i128.wrap (allocation.allocated + proposal.amount) }
        totalAllocated := i128.wrap (s.totalAllocated + proposal.amount) } := by
  simp only [finalizeBudgetAllocation, State.getAllocationProposal, run_iff, run_requireNotPaused, run_requireSigner,
    run_unchecked, not_lt, Bool.not_eq_true] at h
  obtain ⟨-, -, -, hsigner, _, hget, -, hopen, -, hquorum, _, ⟨rfl, hallocated⟩, _, ⟨rfl, htotal⟩, rfl⟩ := h
  exact ⟨hsigner, _, _, hget, rfl, hopen, hquorum, fun hm => ⟨hallocated hm, htotal hm⟩, rfl⟩

end Specs

end ArenaX.Treasury
