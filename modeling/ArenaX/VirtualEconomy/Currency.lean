/-
The currency: balances and total supply, single and batch operations.
-/
import ArenaX.Lib.Ledger
import ArenaX.VirtualEconomy.State

namespace ArenaX.VirtualEconomy

open Machine Exec

namespace CurrencyStore

/-- The balance of an address. -/
def get (c : CurrencyStore) (owner : Address) : I128 := Machine.balance c.balance owner

def set (c : CurrencyStore) (owner : Address) (amount : I128) : CurrencyStore :=
  { c with balance := c.balance.set owner amount }

theorem get_set (c : CurrencyStore) (a b : Address) (v : I128) :
    (c.set a v).get b = if b = a then v else c.get b := balance_set c.balance a b v

/-- The writes `CurrencyBalance(owner) = CurrencyBalance(owner) + delta` with an unchecked addition. -/
def add (c : CurrencyStore) (owner : Address) (delta : Int) : Result CurrencyStore := do
  let balance ← unchecked i128 (c.get owner + delta)
  pure (c.set owner balance)

/-- The same writes with `checked_add`. -/
def checkedAdd (c : CurrencyStore) (owner : Address) (delta : Int) : Result CurrencyStore := do
  let balance ← okOr (i128.checked (c.get owner + delta)) .overflow
  pure (c.set owner balance)

/-- Credit a list of amounts, one after another, with `checked_add`. -/
def creditAll (c : CurrencyStore) (items : List (Address × I128)) : Result CurrencyStore :=
  items.foldlM (fun c item => c.checkedAdd item.1 item.2) c

/-- Debit a list of amounts, one after another, with an unchecked subtraction. -/
def debitAll (c : CurrencyStore) (items : List (Address × I128)) : Result CurrencyStore :=
  items.foldlM (fun c item => c.add item.1 (-item.2)) c

end CurrencyStore

abbrev getCurrencyBalance (s : State) (owner : Address) : I128 := s.currency.get owner

abbrev getTotalCurrencySupply (s : State) : I128 := s.currency.totalSupply

/-! ## Single operations -/

/-- Mint currency to a recipient. -/
def mintCurrency (env : Env) (s : State) (recipient : Address) (amount : I128) : Result State := do
  requireAuthorizedMinter env s
  reject ((amount : Int) ≤ 0) .invalidAmount
  validateAddress env recipient
  let newSupply ← okOr (i128.checked (getTotalCurrencySupply s + amount)) .overflow
  reject ((newSupply : Int) > (getCurrencyConfig s).maxSupply) .supplyLimitExceeded
  let currency ← s.currency.checkedAdd recipient amount
  let minted ← unchecked i128 (s.analytics.totalCurrencyMinted + amount)
  pure { s with
    currency := { currency with totalSupply := newSupply }
    analytics.totalCurrencyMinted := minted }

/-- Transfer currency. Both balances are read before either is written. -/
def transferCurrency (env : Env) (s : State) (sender recipient : Address) (amount : I128) : Result State := do
  env.requireAuth sender
  validateAddress env sender
  validateAddress env recipient
  reject ((amount : Int) ≤ 0) .invalidAmount
  let senderBalance := getCurrencyBalance s sender
  reject ((senderBalance : Int) < amount) .insufficientBalance
  let recipientBalance := getCurrencyBalance s recipient
  let newSenderBalance ← okOr (i128.checked (senderBalance - amount)) .overflow
  let newRecipientBalance ← okOr (i128.checked (recipientBalance + amount)) .overflow
  pure { s with currency := (s.currency.set sender newSenderBalance).set recipient newRecipientBalance }

/-- Burn currency. -/
def burnCurrency (env : Env) (s : State) (owner : Address) (amount : I128) : Result State := do
  env.requireAuth owner
  validateAddress env owner
  reject ((amount : Int) ≤ 0) .invalidAmount
  let balance := getCurrencyBalance s owner
  reject ((balance : Int) < amount) .insufficientBalance
  let newBalance ← okOr (i128.checked (balance - amount)) .overflow
  let newSupply ← okOr (i128.checked (getTotalCurrencySupply s - amount)) .overflow
  let burned ← unchecked i128 (s.analytics.totalCurrencyBurned + amount)
  pure { s with
    currency := { s.currency.set owner newBalance with totalSupply := newSupply }
    analytics.totalCurrencyBurned := burned }

/-! ## Batch operations -/

structure BatchTransferItem where
  recipient : Address
  amount : I128

structure BatchResult where
  itemsProcessed : Nat
  totalAmount : I128

namespace BatchManager

def maxBatchSize : Nat := 50

def validateBatchSize (len : Nat) : Result Unit := do
  reject (len = 0) .invalidAmount
  reject (len > maxBatchSize) .invalidAmount

def validateMatchingLengths (a b : Nat) : Result Unit := reject (a ≠ b) .invalidConfig

/-- One step of `sumPositive`: the addition is unchecked. -/
def addPositive (total amount : I128) : Result I128 := do
  reject ((amount : Int) ≤ 0) .invalidAmount
  unchecked i128 (total + amount)

/-- Sum a batch of amounts, rejecting a non-positive one. -/
def sumPositive (amounts : List I128) : Result I128 := amounts.foldlM addPositive 0

end BatchManager

open BatchManager

/-- Mint currency to many recipients; the supply is read and checked once. -/
def batchMintCurrency (env : Env) (s : State) (recipients : List Address) (amounts : List I128) :
    Result (BatchResult × State) := do
  requireAuthorizedMinter env s
  validateBatchSize recipients.length
  validateMatchingLengths recipients.length amounts.length
  let totalMint ← sumPositive amounts
  recipients.forM (validateAddress env)
  let newSupply ← okOr (i128.checked (getTotalCurrencySupply s + totalMint)) .overflow
  reject ((newSupply : Int) > (getCurrencyConfig s).maxSupply) .supplyLimitExceeded
  let currency ← s.currency.creditAll (recipients.zip amounts)
  let supply ← unchecked i128 (getTotalCurrencySupply s + totalMint)
  let minted ← unchecked i128 (s.analytics.totalCurrencyMinted + totalMint)
  pure (⟨recipients.length, totalMint⟩, { s with
    currency := { currency with totalSupply := supply }
    analytics.totalCurrencyMinted := minted })

/-- Check an item of a batch transfer and add it to the running total. -/
def addTransfer (env : Env) (total : I128) (item : BatchTransferItem) : Result I128 := do
  reject ((item.amount : Int) ≤ 0) .invalidAmount
  validateAddress env item.recipient
  okOr (i128.checked (total + item.amount)) .overflow

/-- Transfer currency to many recipients. The sender's balance is read before the recipients are paid
and written after them. -/
def batchTransferCurrency (env : Env) (s : State) (sender : Address) (items : List BatchTransferItem) :
    Result (BatchResult × State) := do
  env.requireAuth sender
  validateAddress env sender
  validateBatchSize items.length
  let totalAmount ← items.foldlM (addTransfer env) 0
  let senderBalance := getCurrencyBalance s sender
  reject ((senderBalance : Int) < totalAmount) .insufficientBalance
  let currency ← s.currency.creditAll (items.map fun item => (item.recipient, item.amount))
  let newSenderBalance ← okOr (i128.checked (senderBalance - totalAmount)) .overflow
  pure (⟨items.length, totalAmount⟩, { s with currency := currency.set sender newSenderBalance })

/-- Burn currency from many owners. Every item is checked against the balance before the batch. -/
def batchBurnCurrency (env : Env) (s : State) (owners : List Address) (amounts : List I128) :
    Result (BatchResult × State) := do
  validateBatchSize owners.length
  validateMatchingLengths owners.length amounts.length
  (owners.zip amounts).forM fun item => do
    env.requireAuth item.1
    reject ((item.2 : Int) ≤ 0) .invalidAmount
    reject ((getCurrencyBalance s item.1 : Int) < item.2) .insufficientBalance
  let totalBurn ← sumPositive amounts
  let currency ← s.currency.debitAll (owners.zip amounts)
  let supply ← unchecked i128 (getTotalCurrencySupply s - totalBurn)
  let burned ← unchecked i128 (s.analytics.totalCurrencyBurned + totalBurn)
  pure (⟨owners.length, totalBurn⟩, { s with
    currency := { currency with totalSupply := supply }
    analytics.totalCurrencyBurned := burned })

/-! ## What the calls do -/

section Spec

variable {m : Mode} {env : Env} {s s' : State} {r : BatchResult}

theorem mintCurrency_spec {recipient : Address} {amount : I128}
    (h : (mintCurrency env s recipient amount).run m = some s') :
    ∃ (supply : I128) (c : CurrencyStore) (x : I128), 0 < (amount : Int) ∧
      (supply : Int) = getTotalCurrencySupply s + amount ∧
      (supply : Int) ≤ (getCurrencyConfig s).maxSupply ∧ (s.currency.checkedAdd recipient amount).run m = some c ∧
      s' = { s with currency := { c with totalSupply := supply }, analytics.totalCurrencyMinted := x } := by
  unfold mintCurrency at h
  simp only [run_iff, checked_eq_some, not_le, gt_iff_lt, not_lt] at h
  obtain ⟨-, -, -, ha, -, -, _, hs, -, hle, _, hc, _, -, rfl⟩ := h
  exact ⟨_, _, _, ha, hs, hle, hc, rfl⟩

theorem transferCurrency_spec {sender recipient : Address} {amount : I128}
    (h : (transferCurrency env s sender recipient amount).run m = some s') :
    ∃ x y : I128, 0 < (amount : Int) ∧ (amount : Int) ≤ getCurrencyBalance s sender ∧
      (x : Int) = getCurrencyBalance s sender - amount ∧ (y : Int) = getCurrencyBalance s recipient + amount ∧
      s' = { s with currency := (s.currency.set sender x).set recipient y } := by
  unfold transferCurrency at h
  simp only [run_iff, checked_eq_some, not_le, not_lt] at h
  obtain ⟨-, -, -, -, -, -, -, ha, -, hb, _, hx, _, hy, rfl⟩ := h
  exact ⟨_, _, ha, hb, hx, hy, rfl⟩

theorem burnCurrency_spec {owner : Address} {amount : I128}
    (h : (burnCurrency env s owner amount).run m = some s') :
    ∃ x supply burned : I128, 0 < (amount : Int) ∧ (amount : Int) ≤ getCurrencyBalance s owner ∧
      (x : Int) = getCurrencyBalance s owner - amount ∧ (supply : Int) = getTotalCurrencySupply s - amount ∧
      s' = { s with
        currency := { s.currency.set owner x with totalSupply := supply }
        analytics.totalCurrencyBurned := burned } := by
  unfold burnCurrency at h
  simp only [run_iff, checked_eq_some, not_le, not_lt] at h
  obtain ⟨-, -, -, -, -, ha, -, hb, _, hx, _, hs, _, -, rfl⟩ := h
  exact ⟨_, _, _, ha, hb, hx, hs, rfl⟩

/-- The sum of a list of amounts. -/
def sumAmounts (amounts : List I128) : Int := (amounts.map IntType.Val.toInt).sum

/-- The sum of the amounts listed for an address. -/
def amountFor (items : List (Address × I128)) (owner : Address) : Int :=
  ((items.filter (·.1 = owner)).map fun item => item.2.toInt).sum

@[simp] theorem sumAmounts_nil : sumAmounts [] = 0 := rfl

@[simp] theorem sumAmounts_cons (a : I128) (l : List I128) : sumAmounts (a :: l) = a + sumAmounts l := by
  simp [sumAmounts]

theorem sumAmounts_nonneg {l : List I128} (h : ∀ a ∈ l, 0 < (a : Int)) : 0 ≤ sumAmounts l := by
  refine List.sum_nonneg fun x hx => ?_
  obtain ⟨a, ha, rfl⟩ := List.mem_map.1 hx
  exact (h a ha).le

theorem run_foldlM_addPositive (m : Mode) : ∀ (amounts : List I128) (acc total : I128),
    (amounts.foldlM addPositive acc).run m = some total ↔ (∀ a ∈ amounts, 0 < (a : Int)) ∧
      total = i128.wrap (acc + sumAmounts amounts) ∧ (m = .exact → i128.Fits (acc + sumAmounts amounts))
  | [], acc, total => by
    simp [eq_comm, IntType.Val.fits]
  | a :: l, acc, total => by
    have ih := run_foldlM_addPositive m l (i128.wrap (acc + a)) total
    rw [List.foldlM_cons]
    simp only [addPositive, run_iff, run_unchecked, not_le, List.forall_mem_cons, sumAmounts_cons]
    constructor
    · rintro ⟨_, ⟨-, ha, rfl, hf⟩, h⟩
      obtain ⟨hl, ht, hfit⟩ := ih.1 h
      rw [wrap_wrap_add, add_assoc] at ht
      refine ⟨⟨ha, hl⟩, ht, fun hm => ?_⟩
      have := hfit hm
      rw [wrap_of_fits (hf hm), add_assoc] at this
      exact this
    · rintro ⟨⟨ha, hl⟩, ht, hfit⟩
      -- the running sum lies between the accumulator and the final sum
      have hpre : m = .exact → i128.Fits (acc + a) := fun hm =>
        have h0 := sumAmounts_nonneg hl
        have hlo := acc.lo
        ⟨by omega, by have := (hfit hm).2; omega⟩
      refine ⟨_, ⟨(), ha, rfl, hpre⟩, ih.2 ⟨hl, ?_, fun hm => ?_⟩⟩
      · rw [ht, wrap_wrap_add, add_assoc]
      · rw [wrap_of_fits (hpre hm), add_assoc]; exact hfit hm

/-- `sum_positive` returns the sum of positive amounts, brought back into the range. -/
theorem run_sumPositive (m : Mode) (amounts : List I128) (total : I128) :
    (sumPositive amounts).run m = some total ↔ (∀ a ∈ amounts, 0 < (a : Int)) ∧
      total = i128.wrap (sumAmounts amounts) ∧ (m = .exact → i128.Fits (sumAmounts amounts)) := by
  have := run_foldlM_addPositive m amounts 0 total
  rw [toInt_zero, zero_add] at this
  exact this

theorem batchMintCurrency_spec {recipients : List Address} {amounts : List I128}
    (h : (batchMintCurrency env s recipients amounts).run m = some (r, s')) :
    ∃ (total supply : I128) (c : CurrencyStore) (x : I128), recipients.length = amounts.length ∧
      (sumPositive amounts).run m = some total ∧ (s.currency.creditAll (recipients.zip amounts)).run m = some c ∧
      (supply : Int) = getTotalCurrencySupply s + total ∧ (supply : Int) ≤ (getCurrencyConfig s).maxSupply ∧
      s' = { s with currency := { c with totalSupply := supply }, analytics.totalCurrencyMinted := x } := by
  unfold batchMintCurrency validateMatchingLengths at h
  simp only [run_iff, checked_eq_some, run_unchecked, Prod.mk.injEq, gt_iff_lt, not_lt, not_not] at h
  obtain ⟨-, -, -, -, -, hl, _, ht, -, -, _, hs, -, hle, _, hc, _, ⟨rfl, -⟩, x, -, rfl, rfl⟩ := h
  refine ⟨_, _, _, x, hl, ht, hc, hs, hle, ?_⟩
  rw [← hs, wrap_toInt]

theorem foldlM_addTransfer : ∀ {items : List BatchTransferItem} {acc total : I128},
    (items.foldlM (addTransfer env) acc).run m = some total →
    (∀ item ∈ items, 0 < (item.amount : Int)) ∧ total = acc + sumAmounts (items.map BatchTransferItem.amount)
  | [], acc, total, h => by
    rw [List.foldlM_nil, run_pure] at h
    cases h
    simp
  | item :: l, acc, total, h => by
    rw [List.foldlM_cons] at h
    simp only [addTransfer, run_iff, checked_eq_some, not_le] at h
    obtain ⟨acc', ⟨-, hi, -, -, ha⟩, h⟩ := h
    obtain ⟨hl, ht⟩ := foldlM_addTransfer h
    refine ⟨List.forall_mem_cons.2 ⟨hi, hl⟩, ?_⟩
    rw [ht, ha, List.map_cons, sumAmounts_cons, add_assoc]

theorem batchTransferCurrency_spec {sender : Address} {items : List BatchTransferItem}
    (h : (batchTransferCurrency env s sender items).run m = some (r, s')) :
    ∃ (c : CurrencyStore) (x : I128), (∀ item ∈ items, 0 < (item.amount : Int)) ∧
      sumAmounts (items.map BatchTransferItem.amount) ≤ getCurrencyBalance s sender ∧
      (s.currency.creditAll (items.map fun item => (item.recipient, item.amount))).run m = some c ∧
      x = getCurrencyBalance s sender - sumAmounts (items.map BatchTransferItem.amount) ∧
      s' = { s with currency := c.set sender x } := by
  unfold batchTransferCurrency at h
  simp only [run_iff, checked_eq_some, Prod.mk.injEq, not_lt] at h
  obtain ⟨-, -, -, -, -, -, total, ht, -, hle, _, hc, _, hx, rfl, rfl⟩ := h
  obtain ⟨hpos, hsum⟩ := foldlM_addTransfer ht
  rw [toInt_zero, zero_add] at hsum
  exact ⟨_, _, hpos, hsum ▸ hle, hc, hsum ▸ hx, rfl⟩

theorem batchBurnCurrency_spec {owners : List Address} {amounts : List I128}
    (h : (batchBurnCurrency env s owners amounts).run m = some (r, s')) :
    ∃ (total supply : I128) (c : CurrencyStore) (x : I128), owners.length = amounts.length ∧
      (sumPositive amounts).run m = some total ∧ (s.currency.debitAll (owners.zip amounts)).run m = some c ∧
      (unchecked i128 (getTotalCurrencySupply s - total) : Result I128).run m = some supply ∧
      s' = { s with currency := { c with totalSupply := supply }, analytics.totalCurrencyBurned := x } := by
  unfold batchBurnCurrency validateMatchingLengths at h
  simp only [run_iff, Prod.mk.injEq, not_not] at h
  obtain ⟨-, -, -, hl, -, -, _, ht, _, hc, _, hs, _, -, rfl, rfl⟩ := h
  exact ⟨_, _, _, _, hl, ht, hc, hs, rfl⟩

end Spec

end ArenaX.VirtualEconomy
