/-
The game server's wallets: one ledger row for each user, with an available and an escrowed balance in each currency, and
a record of every operation under its idempotency key. An operation is one transaction: it looks for its key, reads the
ledger rows or creates them, checks one bound, writes absolute values and records what it has done. The columns round
what is written to them; what they keep is a parameter, so that the balances can also be studied in exact decimals. A
number that is too large for a column, notes, timestamps and the rows of the users are left out.
-/
import ArenaX.Lib.Rows
import ArenaX.Lib.Sessions

namespace ArenaX.ServerWallet

open Dialog

inductive Currency where
  | xlm
  | usdc
  | ax
deriving DecidableEq

def Currency.print : Currency → String
  | .xlm => "XLM"
  | .usdc => "USDC"
  | .ax => "AX"

inductive TransactionType where
  | credit
  | debit
  | escrowLock
  | escrowRelease
  | escrowSlash
  | platformFee
  | prizePoolFund
deriving DecidableEq

/-- What a column keeps of a number that is written to it. -/
class Columns where
  keep : ℚ → ℚ
  keep_keep : ∀ x, keep (keep x) = keep x
  keep_sub : ∀ {x y}, keep x = x → keep y = y → keep (x - y) = x - y

namespace Columns

/-- A number that is kept as it is. -/
def Scaled [Columns] (x : ℚ) : Prop := keep x = x
deriving Decidable

section Scaled

variable [Columns] {x y : ℚ}

theorem scaled_keep (x : ℚ) : Scaled (keep x) := keep_keep x

theorem Scaled.sub (hx : Scaled x) (hy : Scaled y) : Scaled (x - y) := keep_sub hx hy

theorem scaled_zero : Scaled 0 := by simpa using (scaled_keep 0).sub (scaled_keep 0)

theorem Scaled.add (hx : Scaled x) (hy : Scaled y) : Scaled (x + y) := by
  simpa using hx.sub (scaled_zero.sub hy)

theorem map_keep {o : Option ℚ} (h : ∀ x ∈ o, Scaled x) : o.map keep = o := by
  cases o with
  | none => rfl
  | some x => exact congrArg some (h x rfl)

end Scaled

/-- Exact decimals. -/
abbrev exact : Columns := ⟨id, fun _ => rfl, fun _ _ => rfl⟩

/-- The nearest integer, of two the one that is farther from zero. -/
def roundAway (x : ℚ) : ℤ := if 0 ≤ x then ⌊x + 1 / 2⌋ else ⌈x - 1 / 2⌉

theorem roundAway_intCast (n : ℤ) : roundAway n = n := by
  have hceil : ⌈(n : ℚ) - 1 / 2⌉ = n := by rw [Int.ceil_eq_iff]; constructor <;> linarith
  have hfloor : ⌊(n : ℚ) + 1 / 2⌋ = n := by rw [Int.floor_eq_iff]; constructor <;> linarith
  rw [roundAway, hceil, hfloor, ite_self]

/-- `DECIMAL(20, 7)`. -/
abbrev sevenDecimals : Columns where
  keep x := roundAway (x * 10 ^ 7) / 10 ^ 7
  keep_keep x := by rw [div_mul_cancel₀ _ (by norm_num), roundAway_intCast]
  keep_sub {x y} hx hy := by
    rw [← hx, ← hy, ← sub_div, div_mul_cancel₀ _ (by norm_num), ← Int.cast_sub, roundAway_intCast]

end Columns

namespace ExactDecimals

scoped instance exactColumns : Columns := .exact

end ExactDecimals

namespace SevenDecimals

scoped instance sevenDecimalColumns : Columns := .sevenDecimals

end SevenDecimals

open Columns (keep)

structure Ledger where
  userId : String
  balance : Currency → ℚ
  escrowed : Currency → ℚ

structure WalletTransaction where
  userId : String
  idempotencyKey : String
  type : TransactionType
  currency : Currency
  amount : ℚ
  balanceBefore : ℚ
  balanceAfter : ℚ
  escrowBefore : ℚ
  escrowAfter : ℚ
  matchId : Option String
deriving DecidableEq

structure Wallets where
  ledgers : List Ledger
  walletTransactions : List WalletTransaction

inductive WalletError where
  | badRequest (message : String)
  /-- a unique constraint is violated -/
  | conflict
  /-- a request that the validation of the database client refuses -/
  | invalid
deriving DecidableEq

/-- The row as its columns keep it. -/
def WalletTransaction.kept [Columns] (row : WalletTransaction) : WalletTransaction :=
  { row with
    amount := keep row.amount
    balanceBefore := keep row.balanceBefore
    balanceAfter := keep row.balanceAfter
    escrowBefore := keep row.escrowBefore
    escrowAfter := keep row.escrowAfter }

/-- What a transaction can hold: a user's ledger row, or a key, each with its entry of the unique index. -/
inductive Lock where
  | ledger (userId : String)
  | key (idempotencyKey : String)
deriving DecidableEq

abbrev Sql (α : Type) := Dialog WalletError Wallets Lock α

/-! ## Statements -/

/-- A new row has its defaults. -/
def Ledger.new (userId : String) : Ledger := ⟨userId, fun _ => 0, fun _ => 0⟩

variable [Columns]

/-- The columns of one currency that an update names get the values it gives. -/
def Ledger.put (currency : Currency) (balance escrowed : Option ℚ) (row : Ledger) : Ledger :=
  { row with
    balance := Function.update row.balance currency ((balance.map keep).getD (row.balance currency))
    escrowed := Function.update row.escrowed currency ((escrowed.map keep).getD (row.escrowed currency)) }

namespace Wallets

def findLedger (s : Wallets) (userId : String) : Option Ledger := Rows.find Ledger.userId userId s.ledgers

def findTransaction (s : Wallets) (idempotencyKey : String) : Option WalletTransaction :=
  Rows.find WalletTransaction.idempotencyKey idempotencyKey s.walletTransactions

def insertLedger (userId : String) (s : Wallets) : Wallets := { s with ledgers := s.ledgers ++ [Ledger.new userId] }

def updateLedger (userId : String) (currency : Currency) (balance escrowed : Option ℚ) (s : Wallets) : Wallets :=
  { s with ledgers := Rows.modify Ledger.userId userId (·.put currency balance escrowed) s.ledgers }

def insertTransaction (row : WalletTransaction) (s : Wallets) : Wallets :=
  { s with walletTransactions := s.walletTransactions ++ [row.kept] }

end Wallets

def createLedger (userId : String) : Sql Ledger := do
  insert (.ledger userId) (fun s => (s.findLedger userId).isSome) .conflict (Wallets.insertLedger userId)
  pure (Ledger.new userId)

def getOrCreateLedgerTx (userId : String) : Sql Ledger := do
  match ← select (·.findLedger userId) with
  | some existing => pure existing
  | none => createLedger userId

def update (userId : String) (currency : Currency) (balance escrowed : Option ℚ) : Sql Unit :=
  modify (.ledger userId) (Wallets.updateLedger userId currency balance escrowed)

def createTransaction (row : WalletTransaction) : Sql WalletTransaction := do
  insert (.key row.idempotencyKey) (fun s => (s.findTransaction row.idempotencyKey).isSome) .conflict
    (Wallets.insertTransaction row)
  pure row.kept

/-! ## Operations -/

/-- What the operations on one ledger differ in: the record's type, the bound that is checked, and the columns that are
written, from the balances and the amount. -/
structure Operation where
  type : TransactionType
  refusal : (currency : Currency) → (available escrowed amount : ℚ) → Option String
  newBalance : (available amount : ℚ) → Option ℚ
  newEscrow : (escrowed amount : ℚ) → Option ℚ

/-- The record of an operation on a ledger. -/
def Operation.record (op : Operation) (userId : String) (currency : Currency) (amount : ℚ) (matchId : Option String)
    (idempotencyKey : String) (available escrowed : ℚ) : WalletTransaction :=
  ⟨userId, idempotencyKey, op.type, currency, amount, available, (op.newBalance available amount).getD available,
    escrowed, (op.newEscrow escrowed amount).getD escrowed, matchId⟩

/-- Look for the key, read the ledger, check, write and record. -/
def Operation.apply (op : Operation) (userId : String) (currency : Currency) (amount : ℚ) (matchId : Option String)
    (idempotencyKey : String) : Sql WalletTransaction := transaction do
  match ← select (·.findTransaction idempotencyKey) with
  | some existing =>
    commit
    pure existing
  | none =>
    let ledger ← getOrCreateLedgerTx userId
    let available := ledger.balance currency
    let escrowed := ledger.escrowed currency
    match op.refusal currency available escrowed amount with
    | some message => throw (.badRequest message)
    | none =>
      update userId currency (op.newBalance available amount) (op.newEscrow escrowed amount)
      let row ← createTransaction (op.record userId currency amount matchId idempotencyKey available escrowed)
      commit
      pure row

/-- `_applyTransaction`. -/
def applied (type : TransactionType) : Operation where
  type := type
  refusal currency available _ amount := if type = .debit ∧ available < amount then
    some ("Insufficient " ++ currency.print ++ " balance") else none
  newBalance available amount := some (if type = .credit then available + amount else available - amount)
  newEscrow _ _ := none

def locking : Operation where
  type := .escrowLock
  refusal currency available _ amount := if available < amount then
    some ("Insufficient " ++ currency.print ++ " balance for escrow") else none
  newBalance available amount := some (available - amount)
  newEscrow escrowed amount := some (escrowed + amount)

def releasing : Operation where
  type := .escrowRelease
  refusal currency _ escrowed amount := if escrowed < amount then
    some ("Insufficient " ++ currency.print ++ " escrowed funds to release") else none
  newBalance available amount := some (available + amount)
  newEscrow escrowed amount := some (escrowed - amount)

def slashing : Operation where
  type := .escrowSlash
  refusal currency _ escrowed amount := if escrowed < amount then
    some ("Insufficient " ++ currency.print ++ " escrowed funds to slash") else none
  newBalance _ _ := none
  newEscrow escrowed amount := some (escrowed - amount)

def credit (userId : String) (currency : Currency) (amount : ℚ) (idempotencyKey : String) : Sql WalletTransaction :=
  (applied .credit).apply userId currency amount none idempotencyKey

def debit (userId : String) (currency : Currency) (amount : ℚ) (idempotencyKey : String) : Sql WalletTransaction :=
  (applied .debit).apply userId currency amount none idempotencyKey

def lockFundsToEscrow (userId : String) (currency : Currency) (amount : ℚ) (matchId : Option String)
    (idempotencyKey : String) : Sql WalletTransaction := locking.apply userId currency amount matchId idempotencyKey

def releaseEscrow (userId : String) (currency : Currency) (amount : ℚ) (matchId : Option String)
    (idempotencyKey : String) : Sql WalletTransaction := releasing.apply userId currency amount matchId idempotencyKey

def slashEscrow (userId : String) (currency : Currency) (amount : ℚ) (matchId : Option String)
    (idempotencyKey : String) : Sql WalletTransaction := slashing.apply userId currency amount matchId idempotencyKey

/-- Both sides are read before either is written. -/
def internalTransfer (fromUserId toUserId : String) (currency : Currency) (amount : ℚ) (type : TransactionType)
    (idempotencyKey : String) : Sql WalletTransaction := transaction do
  match ← select (·.findTransaction (idempotencyKey ++ ":debit")) with
  | some existing =>
    commit
    pure existing
  | none =>
    let fromLedger ← getOrCreateLedgerTx fromUserId
    let toLedger ← getOrCreateLedgerTx toUserId
    let fromAvailable := fromLedger.balance currency
    reject (fromAvailable < amount) (.badRequest ("Insufficient " ++ currency.print ++ " balance for transfer"))
    let fromNewBalance := fromAvailable - amount
    let toAvailable := toLedger.balance currency
    let toNewBalance := toAvailable + amount
    update fromUserId currency (some fromNewBalance) none
    update toUserId currency (some toNewBalance) none
    let _ ← createTransaction ⟨fromUserId, idempotencyKey ++ ":debit", type, currency, amount, fromAvailable,
      fromNewBalance, fromLedger.escrowed currency, fromLedger.escrowed currency, none⟩
    let row ← createTransaction ⟨toUserId, idempotencyKey ++ ":credit", .credit, currency, amount, toAvailable,
      toNewBalance, toLedger.escrowed currency, toLedger.escrowed currency, none⟩
    commit
    pure row

inductive WalletCall where
  | credit (userId : String) (currency : Currency) (amount : ℚ) (idempotencyKey : String)
  | debit (userId : String) (currency : Currency) (amount : ℚ) (idempotencyKey : String)
  | lock (userId : String) (currency : Currency) (amount : ℚ) (matchId : Option String) (idempotencyKey : String)
  | release (userId : String) (currency : Currency) (amount : ℚ) (matchId : Option String) (idempotencyKey : String)
  | slash (userId : String) (currency : Currency) (amount : ℚ) (matchId : Option String) (idempotencyKey : String)
  | transfer (fromUserId toUserId : String) (currency : Currency) (amount : ℚ) (type : TransactionType)
    (idempotencyKey : String)
deriving DecidableEq

def WalletCall.session : WalletCall → Sql WalletTransaction
  | .credit userId currency amount key => ServerWallet.credit userId currency amount key
  | .debit userId currency amount key => ServerWallet.debit userId currency amount key
  | .lock userId currency amount matchId key => lockFundsToEscrow userId currency amount matchId key
  | .release userId currency amount matchId key => releaseEscrow userId currency amount matchId key
  | .slash userId currency amount matchId key => slashEscrow userId currency amount matchId key
  | .transfer fromUserId toUserId currency amount type key =>
    internalTransfer fromUserId toUserId currency amount type key

end ArenaX.ServerWallet
