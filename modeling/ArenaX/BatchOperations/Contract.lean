/-
The token functions of the batch operations contract: minting to several addresses and transfers from one address to
several. The sender's balance is read once before the loop over the recipients and written once after it. Amounts are
`i128` and tracked for overflow; the counters of the analytics wrap around.
-/
import ArenaX.Lib.Host
import ArenaX.Lib.Ledger
import ArenaX.Lib.Runs

namespace ArenaX.BatchOperations

open Machine Exec
open Host (Address)

/-- The errors of the functions below. -/
inductive BatchError where
  | notInitialized
  | lengthMismatch
  | emptyBatch
  | batchTooLarge
  | invalidAmount
  | insufficientBalance
  | alreadyInitialized
  | invalidAddress
deriving DecidableEq

abbrev Result (α : Type) := Exec BatchError α

/-- The environment of a call, and how addresses are written. -/
structure Env extends Host.Env where
  strkey : Address → String

def maxBatchSize : ℕ := 100

def gasOptimizationThreshold : ℕ := 10

def zeroAccount : String := "GAAAAAAAAAAAAAAAAAAAAAAAAAAAAAAAAAAAAAAAAAAAAAAAAAAABZKY"

/-- The part of the contract's storage that is about tokens and analytics. -/
structure State where
  admin : Option Address := none
  balance : Table Address I128 := ∅
  totalSupply : I128 := 0
  totalBatchOps : U64 := 0
  totalGasSaved : U64 := 0
  opCount : Table U32 U32 := ∅

/-! ## Checks -/

/-- Accounts are written with a G in front, contracts with a C. -/
def requireValidAddress (env : Env) (address : Address) : Result Unit := do
  reject ((env.strkey address).toList.head? ≠ some 'G') .invalidAddress
  reject (env.strkey address = zeroAccount) .invalidAddress

def requireInitialized (s : State) : Result Unit := reject (s.admin.isNone = true) .notInitialized

def requireAdmin (env : Env) (s : State) : Result Unit := do
  let admin ← okOr s.admin .notInitialized
  env.requireAuth admin

def validateBatch (lenA lenB : ℕ) : Result Unit := do
  reject (lenA = 0) .emptyBatch
  reject (lenA ≠ lenB) .lengthMismatch
  reject (lenA > maxBatchSize) .batchTooLarge

def State.recordAnalytics (s : State) (batchSize : ℕ) (opType : U32) : State :=
  let gasSaved : ℤ := if batchSize ≥ gasOptimizationThreshold then (batchSize - 1) * 5000 else 0
  { s with
    totalBatchOps := u64.wrap (s.totalBatchOps + 1)
    totalGasSaved := u64.wrap (s.totalGasSaved + gasSaved)
    opCount := s.opCount.set opType (u32.wrap ((Machine.balance s.opCount opType : U32) + 1)) }

/-! ## Tokens -/

def initializeContract (env : Env) (s : State) (admin : Address) : Result State := do
  reject (s.admin.isSome = true) .alreadyInitialized
  requireValidAddress env admin
  pure { s with admin := some admin, totalSupply := 0, totalBatchOps := 0, totalGasSaved := 0 }

/-- An amount is added to a balance. -/
def credit (balances : Table Address I128) (item : Address × I128) : Result (Table Address I128) := do
  let balance ← unchecked i128 (Machine.balance balances item.1 + item.2)
  pure (balances.set item.1 balance)

/-- Self-transfers are skipped. -/
def creditOther (sender : Address) (balances : Table Address I128) (item : Address × I128) :
    Result (Table Address I128) :=
  if item.1 = sender then pure balances else credit balances item

/-- One more amount of a sum; it must be positive. -/
def addAmount (total amount : I128) : Result I128 := do
  reject ((amount : Int) ≤ 0) .invalidAmount
  okOr (i128.checked (total + amount)) .invalidAmount

def totalDeduction (amounts : List I128) : Result I128 := amounts.foldlM addAmount 0

def batchTransfer (env : Env) (s : State) (sender : Address) (recipients : List Address) (amounts : List I128) :
    Result State := do
  requireInitialized s
  env.requireAuth sender
  validateBatch recipients.length amounts.length
  let senderBalance := Machine.balance s.balance sender
  let total ← totalDeduction amounts
  reject ((senderBalance : Int) < total) .insufficientBalance
  let senderBalance ← unchecked i128 (senderBalance - total)
  let balances ← (recipients.zip amounts).foldlM (creditOther sender) s.balance
  pure (({ s with balance := balances.set sender senderBalance } : State).recordAnalytics recipients.length 1)

/-- An amount is added to a balance and to the supply. -/
def issue (acc : Table Address I128 × I128) (item : Address × I128) : Result (Table Address I128 × I128) := do
  let balances ← credit acc.1 item
  let supply ← unchecked i128 (acc.2 + item.2)
  pure (balances, supply)

def batchMint (env : Env) (s : State) (recipients : List Address) (amounts : List I128) : Result State := do
  requireInitialized s
  requireAdmin env s
  validateBatch recipients.length amounts.length
  amounts.forM fun amount => reject ((amount : Int) ≤ 0) .invalidAmount
  let (balances, supply) ← (recipients.zip amounts).foldlM issue (s.balance, s.totalSupply)
  pure (({ s with balance := balances, totalSupply := supply } : State).recordAnalytics recipients.length 2)

/-! ## The contract -/

inductive Call where
  | batchTransfer (sender : Address) (recipients : List Address) (amounts : List I128)
  | batchMint (recipients : List Address) (amounts : List I128)

/-- The state a call leaves behind. -/
def execute (env : Env) (s : State) : Call → Result State
  | .batchTransfer sender recipients amounts => batchTransfer env s sender recipients amounts
  | .batchMint recipients amounts => batchMint env s recipients amounts

/-- The contract from `initialize` on, in a build that reads arithmetic by a mode. -/
def contract (m : Mode) : TransitionSystem Env State Call where
  init env s := ∃ admin, (initializeContract env {} admin).run m = some s
  step env s c := (execute env s c).run m

abbrev Rule := TransitionSystem.Rule Env State Call

export TransitionSystem (Unrestricted)

/-! ## A small deployment -/

namespace Sample

export Host.Accounts (admin alice bob)
export TransitionSystem.Deployment (reach_after)

/-- A transaction signed by everyone; all addresses are accounts. -/
def signedByAll : Env where
  toEnv := .signed [admin, alice, bob] 0 0
  strkey _ := "G"

def signed (c : Call) : Env × Call := (signedByAll, c)

/-- The contract after `initialize`. -/
def deployment (m : Mode) : (contract m).Deployment where
  env := signedByAll
  state := { admin := some admin }
  starts := ⟨admin, by cases m <;> rfl⟩

end Sample

end ArenaX.BatchOperations
