/-
The records the treasury stores, its storage, the environment of a call, and the checks and token transfers that its
entry points share. Amounts are `i128` and tracked for overflow; times and counters are unsigned and wrap around. The
texts are those of the contract's panics.
-/
import ArenaX.Lib.Holdings
import ArenaX.Lib.Ledger

namespace ArenaX.Treasury

open Machine Exec
open Host (Address Holdings)

/-- What a function of the contract returns, or the text it panics with. -/
abbrev Result (α : Type) := Exec String α

/-- A short name, as the categories of a budget have. -/
abbrev Symbol := String

/-- The environment of a call, with the transfers that the token contracts accept. -/
structure Env extends Host.Env where
  accepts : Host.TokenPolicy

/-! ## Records -/

structure SpendingProposal where
  id : U64
  proposer : Address
  recipient : Address
  amount : I128
  category : Symbol
  description : String
  approvals : List Address
  createdAt : U64
  executeAfter : U64
  executed : Bool
  cancelled : Bool
deriving DecidableEq

/-- Neither executed nor cancelled. -/
def SpendingProposal.Active (proposal : SpendingProposal) : Prop :=
  proposal.executed = false ∧ proposal.cancelled = false
deriving Decidable

structure BudgetAllocation where
  category : Symbol
  allocated : I128
  spent : I128
deriving DecidableEq

structure AllocationProposal where
  id : U64
  proposer : Address
  category : Symbol
  amount : I128
  votesFor : List Address
  votesAgainst : List Address
  createdAt : U64
  finalized : Bool
  approved : Bool
deriving DecidableEq

/-- An entry of the log of executed proposals. -/
structure TreasuryTxLog where
  proposalId : U64
  recipient : Address
  amount : I128
  category : Symbol
  executedAt : U64
  executedBy : Address
deriving DecidableEq

/-! ## Storage -/

/-- The contract's storage under the names of its keys, and what everyone holds at the token contracts; the defaults
are what the contract reads before anything is stored. `token` is the token of deposits, `tokenAddress` that of
payments. -/
structure State where
  tokens : Holdings
  admin : Option Address := none
  token : Option Address := none
  tokenAddress : Option Address := none
  signers : List Address := []
  threshold : U32 := 0
  timeLockDuration : U64 := 0
  balance : I128 := 0
  spendingProposalCounter : U64 := 0
  spendingProposal : Table U64 SpendingProposal := ∅
  allocationProposalCounter : U64 := 0
  allocationProposal : Table U64 AllocationProposal := ∅
  allocationVote : Table (U64 × Address) Bool := ∅
  budgetAllocation : Table Symbol BudgetAllocation := ∅
  totalAllocated : I128 := 0
  totalSpent : I128 := 0
  paused : Bool := false
  transactionLog : List TreasuryTxLog := []

namespace State

variable (s : State)

def getToken : Result Address := okOr s.token "not initialized"

def getSpendingProposal (proposalId : U64) : Option SpendingProposal := s.spendingProposal.get proposalId

def getAllocationProposal (allocationId : U64) : Option AllocationProposal := s.allocationProposal.get allocationId

/-- A category nobody has allocated to has an empty budget. -/
def getBudgetAllocation (category : Symbol) : BudgetAllocation :=
  (s.budgetAllocation.get category).getD ⟨category, 0, 0⟩

end State

/-! ## Shared checks and transfers -/

section

variable (env : Env) (s : State)

def requireAdmin (caller : Address) : Result Unit := do
  let admin ← okOr s.admin "not initialized"
  reject (caller ≠ admin) "caller is not admin"
  env.requireAuth caller

def requireNotPaused (s : State) : Result Unit := reject (s.paused = true) "contract is paused"

def requireSigner (caller : Address) : Result Unit := do
  env.requireAuth caller
  reject (caller ∉ s.signers) "caller is not a signer"

def requirePositive (amount : I128) : Result Unit := reject ((amount : Int) ≤ 0) "amount must be positive"

/-- A transfer at a token contract. -/
def transfer (token sender recipient : Address) (amount : I128) : Result State := do
  let tokens ← s.tokens.transfer env.accepts token sender recipient amount
  pure { s with tokens := tokens }

/-- A payment is made in the token set for payments; while there is none, nothing moves. -/
def pay (recipient : Address) (amount : I128) : Result State :=
  match s.tokenAddress with
  | some tokenAddress => transfer env s tokenAddress env.currentContract recipient amount
  | none => pure s

/-- What everyone holds after a payment. -/
def State.paid (recipient : Address) (amount : I128) : Holdings :=
  s.tokenAddress.elim s.tokens fun token => s.tokens.move token env.currentContract recipient amount

/-- The caller is the admin and has signed. -/
def AdminSigned (caller : Address) : Prop := s.admin = some caller ∧ caller ∈ env.signers

/-- The caller is a signer of the treasury and has signed. -/
def SignerSigned (caller : Address) : Prop := caller ∈ env.signers ∧ caller ∈ s.signers

end

section Runs

variable (m : Mode) (env : Env) (s s' : State) (caller token sender recipient : Address) (amount : I128) (u : Unit)

@[simp] theorem run_requireAdmin : (requireAdmin env s caller).run m = some u ↔ AdminSigned env s caller := by
  simp only [requireAdmin, AdminSigned, run_bind, run_iff, Option.bind_eq_some_iff, ne_eq, not_not, run_requireAuth]
  constructor
  · rintro ⟨admin, hadmin, -, rfl, hsigned⟩
    exact ⟨hadmin, hsigned⟩
  · rintro ⟨hadmin, hsigned⟩
    exact ⟨caller, hadmin, (), rfl, hsigned⟩

@[simp] theorem run_requireNotPaused : (requireNotPaused s).run m = some u ↔ s.paused = false := by
  simp [requireNotPaused]

@[simp] theorem run_requireSigner : (requireSigner env s caller).run m = some u ↔ SignerSigned env s caller := by
  simp [requireSigner, SignerSigned, Option.bind_eq_some_iff]

@[simp] theorem run_requirePositive : (requirePositive amount).run m = some u ↔ 0 < (amount : ℤ) := by
  simp [requirePositive]

@[simp] theorem run_transfer : (transfer env s token sender recipient amount).run m = some s' ↔
    env.accepts s.tokens token sender recipient amount = true ∧
      { s with tokens := s.tokens.move token sender recipient amount } = s' :=
  Holdings.run_transfer_then m _

end Runs

section Pay

variable {m : Mode} {env : Env} {s s' : State} {recipient token : Address} {amount : I128}

theorem State.paid_of_none (h : s.tokenAddress = none) : s.paid env recipient amount = s.tokens := by
  rw [State.paid, h, Option.elim_none]

theorem State.paid_of_some (h : s.tokenAddress = some token) :
    s.paid env recipient amount = s.tokens.move token env.currentContract recipient amount := by
  rw [State.paid, h, Option.elim_some]

theorem pay_spec (h : (pay env s recipient amount).run m = some s') :
    s' = { s with tokens := s.paid env recipient amount } := by
  unfold pay at h
  obtain htoken | ⟨token, htoken⟩ := Option.eq_none_or_eq_some s.tokenAddress
  · simp only [htoken, run_pure_iff] at h
    rw [State.paid_of_none htoken, h]
  · simp only [htoken, run_transfer] at h
    rw [State.paid_of_some htoken, ← h.2, htoken]

end Pay

end ArenaX.Treasury
