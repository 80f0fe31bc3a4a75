/-
What a wallet call does when no other call overlaps it. It ends in one of three ways: with the record it finds under its
key, with an error, or with a new record; only the last changes the store, and then in the columns that the call is
about. Both new balances of a transfer are computed before either is written, so a transfer to oneself writes the
recipient's side over the sender's.
-/
import ArenaX.ServerWallet.Service

namespace ArenaX.ServerWallet

open Dialog Wallets
open Columns (keep Scaled)

/-! ## What a call does alone -/

namespace Wallets

/-- A user's ledger row, as a call finds it. -/
def ledgerOf (s : Wallets) (userId : String) : Ledger := (s.findLedger userId).getD (Ledger.new userId)

abbrev available (s : Wallets) (userId : String) (currency : Currency) : ℚ := (s.ledgerOf userId).balance currency

abbrev inEscrow (s : Wallets) (userId : String) (currency : Currency) : ℚ := (s.ledgerOf userId).escrowed currency

/-- The store once the user has a ledger row. -/
def ensureLedger (userId : String) (s : Wallets) : Wallets :=
  if (s.findLedger userId).isSome then s else s.insertLedger userId

end Wallets

section Alone

variable {s : Wallets} {userId : String}

theorem exec_getOrCreateLedgerTx (userId : String) (pending : Wallets → Wallets) (s : Wallets) :
    ∃ p, (getOrCreateLedgerTx userId).exec pending s = (.ok ((pending s).ledgerOf userId), p, s) ∧
      p s = (pending s).ensureLedger userId := by
  unfold getOrCreateLedgerTx
  rw [exec_select_bind]
  cases hfound : (pending s).findLedger userId with
  | some existing =>
    refine ⟨pending, ?_, ?_⟩
    · rw [ledgerOf, hfound]
      rfl
    · rw [ensureLedger, hfound]
      rfl
  | none =>
    have hfree : ¬ ((pending s).findLedger userId).isSome := by simp [hfound]
    refine ⟨(ensureLedger userId) ∘ pending, (exec_bind_of_ok (exec_insert_of_free hfree)).trans ?_, rfl⟩
    rw [ledgerOf, hfound]
    rfl

theorem findTransaction_ensureLedger (key : String) :
    (s.ensureLedger userId).findTransaction key = s.findTransaction key := by
  unfold ensureLedger
  split <;> rfl

/-- A row that is created has the defaults that a call assumes without it. -/
theorem ledgerOf_ensureLedger (u v : String) : (s.ensureLedger u).ledgerOf v = s.ledgerOf v := by
  unfold ensureLedger
  split
  · rfl
  · rename_i hnone
    rw [ledgerOf, findLedger, insertLedger, Rows.find_concat, ledgerOf, findLedger]
    cases hv : Rows.find Ledger.userId v s.ledgers with
    | some ledger => rfl
    | none =>
      rw [Option.none_or]
      by_cases huv : (Ledger.new u).userId = v
      · rw [if_pos huv]
        exact congrArg Ledger.new huv
      · rw [if_neg huv]

/-- Both ledgers are read. -/
theorem exec_ledgers (fromUserId toUserId : String) (s : Wallets) : ∃ p : Wallets → Wallets,
    p s = (s.ensureLedger fromUserId).ensureLedger toUserId ∧ ∀ f : Ledger → Ledger → Sql WalletTransaction, (do
      let fromLedger ← getOrCreateLedgerTx fromUserId
      let toLedger ← getOrCreateLedgerTx toUserId
      f fromLedger toLedger).exec id s = (f (s.ledgerOf fromUserId) (s.ledgerOf toUserId)).exec p s := by
  obtain ⟨p, hfrom, hp⟩ := exec_getOrCreateLedgerTx fromUserId id s
  obtain ⟨p', hto, hp'⟩ := exec_getOrCreateLedgerTx toUserId p s
  refine ⟨p', ?_, fun f => ?_⟩
  · rw [hp', hp]
    rfl
  · rw [exec_bind_of_ok hfrom, exec_bind_of_ok hto, hp, ledgerOf_ensureLedger]
    rfl

theorem debit_ne_credit (key : String) : key ++ ":debit" ≠ key ++ ":credit" := by
  intro h
  have h := congrArg String.toList h
  rw [String.toList_append, String.toList_append] at h
  exact absurd (List.append_cancel_left h) (by decide)

theorem walletTransactions_ensureLedger (s : Wallets) (u : String) :
    (s.ensureLedger u).walletTransactions = s.walletTransactions := by
  unfold ensureLedger
  split <;> rfl

theorem isSome_ensureLedger (s : Wallets) (u : String) : ((s.ensureLedger u).findLedger u).isSome := by
  unfold ensureLedger
  split
  · assumption
  · rw [findLedger, insertLedger, Rows.find_concat, if_pos (show (Ledger.new u).userId = u from rfl)]
    cases Rows.find Ledger.userId u s.ledgers <;> rfl

theorem isSome_ensureLedger_of (h : (s.findLedger u).isSome) (v : String) :
    ((s.ensureLedger v).findLedger u).isSome := by
  unfold ensureLedger
  split
  · exact h
  · rw [findLedger, insertLedger, Rows.find_concat]
    obtain ⟨ledger, hledger⟩ := Option.isSome_iff_exists.1 h
    rw [findLedger] at hledger
    rw [hledger]
    rfl

theorem available_ensureLedger : (s.ensureLedger u).available v c = s.available v c :=
  congrArg (fun ledger => ledger.balance c) (ledgerOf_ensureLedger u v)

theorem inEscrow_ensureLedger : (s.ensureLedger u).inEscrow v c = s.inEscrow v c :=
  congrArg (fun ledger => ledger.escrowed c) (ledgerOf_ensureLedger u v)

variable [Columns]

theorem exec_createTransaction (pending : Wallets → Wallets) (s : Wallets) (row : WalletTransaction)
    (h : (pending s).findTransaction row.idempotencyKey = none) :
    ∃ p, (createTransaction row).exec pending s = (.ok row.kept, p, s) ∧ p s = (pending s).insertTransaction row := by
  have hfree : ¬ ((pending s).findTransaction row.idempotencyKey).isSome := by simp [h]
  refine ⟨_, exec_bind_of_ok (exec_insert_of_free hfree), ?_⟩
  exact if_neg hfree

theorem exec_createTransaction_conflict (pending : Wallets → Wallets) (s : Wallets) (row : WalletTransaction)
    (h : ((pending s).findTransaction row.idempotencyKey).isSome) :
    ∃ p, (createTransaction row).exec pending s = (.error .conflict, p, s) := by
  exact ⟨_, exec_bind_of_error (exec_insert_of_taken h)⟩

variable {op : Operation} {currency : Currency} {amount : ℚ} {matchId : Option String} {idempotencyKey : String}

/-- What an operation on one ledger leaves behind. -/
def Operation.post (op : Operation) (userId : String) (currency : Currency) (amount : ℚ) (matchId : Option String)
    (idempotencyKey : String) (s : Wallets) : Wallets :=
  ((s.ensureLedger userId).updateLedger userId currency (op.newBalance (s.available userId currency) amount)
    (op.newEscrow (s.inEscrow userId currency) amount)).insertTransaction
      (op.record userId currency amount matchId idempotencyKey (s.available userId currency)
        (s.inEscrow userId currency))

theorem run_apply_existing {existing : WalletTransaction} (h : s.findTransaction idempotencyKey = some existing) :
    (op.apply userId currency amount matchId idempotencyKey).run s = (.ok existing, s) := by
  refine run_transaction_of_ok (p := id) ?_
  rw [exec_select_bind, id, h]
  rfl

theorem run_apply_refused {message : String} (hnone : s.findTransaction idempotencyKey = none)
    (h : op.refusal currency (s.available userId currency) (s.inEscrow userId currency) amount = some message) :
    (op.apply userId currency amount matchId idempotencyKey).run s = (.error (.badRequest message), s) := by
  obtain ⟨p, hledger, -⟩ := exec_getOrCreateLedgerTx userId id s
  refine run_transaction_of_error (p := p) ?_
  rw [exec_select_bind, id, hnone]
  refine (exec_bind_of_ok hledger).trans ?_
  dsimp only [id]
  rw [h]
  rfl

theorem run_apply_posted (hnone : s.findTransaction idempotencyKey = none)
    (h : op.refusal currency (s.available userId currency) (s.inEscrow userId currency) amount = none) :
    (op.apply userId currency amount matchId idempotencyKey).run s =
      (.ok (op.record userId currency amount matchId idempotencyKey (s.available userId currency)
        (s.inEscrow userId currency)).kept,
        op.post userId currency amount matchId idempotencyKey s) := by
  obtain ⟨p, hledger, hp⟩ := exec_getOrCreateLedgerTx userId id s
  refine run_transaction_of_ok (p := id) ?_
  rw [exec_select_bind, id, hnone]
  refine (exec_bind_of_ok hledger).trans ?_
  dsimp only [id]
  rw [h]
  refine (exec_modify_bind _ _ _).trans ?_
  have hfree : (p s).findTransaction idempotencyKey = none := by
    rw [hp, findTransaction_ensureLedger]
    exact hnone
  obtain ⟨p', hcreate, hp'⟩ := exec_createTransaction (updateLedger userId currency
    (op.newBalance (s.available userId currency) amount) (op.newEscrow (s.inEscrow userId currency) amount) ∘ p) s
    (op.record userId currency amount matchId idempotencyKey (s.available userId currency)
      (s.inEscrow userId currency)) hfree
  refine (exec_bind_of_ok hcreate).trans ?_
  show (Except.ok _, id, p' s) = _
  rw [hp', Function.comp, hp]
  rfl

/-! ### Transfers -/

section Transfer

variable {fromUserId toUserId : String} {type : TransactionType}

/-- The record of the sender's side. -/
def debitRow (fromUserId : String) (currency : Currency) (amount : ℚ) (type : TransactionType) (idempotencyKey : String)
    (ledger : Ledger) : WalletTransaction :=
  ⟨fromUserId, idempotencyKey ++ ":debit", type, currency, amount, ledger.balance currency,
    ledger.balance currency - amount, ledger.escrowed currency, ledger.escrowed currency, none⟩

/-- The record of the recipient's side. -/
def creditRow (toUserId : String) (currency : Currency) (amount : ℚ) (idempotencyKey : String) (ledger : Ledger) :
    WalletTransaction :=
  ⟨toUserId, idempotencyKey ++ ":credit", .credit, currency, amount, ledger.balance currency,
    ledger.balance currency + amount, ledger.escrowed currency, ledger.escrowed currency, none⟩

/-- The store when both balances are written, and the sender's side is recorded. -/
def debited (fromUserId toUserId : String) (currency : Currency) (amount : ℚ) (type : TransactionType)
    (idempotencyKey : String) (s : Wallets) : Wallets :=
  ((((s.ensureLedger fromUserId).ensureLedger toUserId).updateLedger fromUserId currency
    (some (s.available fromUserId currency - amount)) none).updateLedger toUserId currency
      (some (s.available toUserId currency + amount)) none).insertTransaction
        (debitRow fromUserId currency amount type idempotencyKey (s.ledgerOf fromUserId))

/-- What a transfer leaves behind. -/
def transferred (fromUserId toUserId : String) (currency : Currency) (amount : ℚ) (type : TransactionType)
    (idempotencyKey : String) (s : Wallets) : Wallets :=
  (debited fromUserId toUserId currency amount type idempotencyKey s).insertTransaction
    (creditRow toUserId currency amount idempotencyKey (s.ledgerOf toUserId))

theorem run_transfer_existing {existing : WalletTransaction}
    (h : s.findTransaction (idempotencyKey ++ ":debit") = some existing) :
    (internalTransfer fromUserId toUserId currency amount type idempotencyKey).run s = (.ok existing, s) := by
  refine run_transaction_of_ok (p := id) ?_
  rw [exec_select_bind, id, h]
  rfl

theorem run_transfer_refused (hnone : s.findTransaction (idempotencyKey ++ ":debit") = none)
    (h : s.available fromUserId currency < amount) :
    (internalTransfer fromUserId toUserId currency amount type idempotencyKey).run s =
      (.error (.badRequest ("Insufficient " ++ currency.print ++ " balance for transfer")), s) := by
  obtain ⟨p, -, hledgers⟩ := exec_ledgers fromUserId toUserId s
  refine run_transaction_of_error (p := p) ?_
  rw [exec_select_bind, id, hnone]
  refine (hledgers _).trans ?_
  exact exec_bind_of_error (exec_reject_of h)

theorem exec_debit {p : Wallets → Wallets} (currency : Currency) (amount : ℚ) (type : TransactionType)
    (hp : p s = (s.ensureLedger fromUserId).ensureLedger toUserId)
    (hnone : s.findTransaction (idempotencyKey ++ ":debit") = none) : ∃ p' : Wallets → Wallets,
    p' s = debited fromUserId toUserId currency amount type idempotencyKey s ∧
    ∀ f : WalletTransaction → Sql WalletTransaction, (do
      update fromUserId currency (some (s.available fromUserId currency - amount)) none
      update toUserId currency (some (s.available toUserId currency + amount)) none
      let row ← createTransaction (debitRow fromUserId currency amount type idempotencyKey (s.ledgerOf fromUserId))
      f row).exec p s =
        (f (debitRow fromUserId currency amount type idempotencyKey (s.ledgerOf fromUserId)).kept).exec p' s := by
  have hfree : (p s).findTransaction (idempotencyKey ++ ":debit") = none := by
    rw [hp, findTransaction_ensureLedger, findTransaction_ensureLedger]
    exact hnone
  obtain ⟨p', hcreate, hp'⟩ := exec_createTransaction
    (updateLedger toUserId currency (some (s.available toUserId currency + amount)) none ∘
    updateLedger fromUserId currency (some (s.available fromUserId currency - amount)) none ∘ p) s
    (debitRow fromUserId currency amount type idempotencyKey (s.ledgerOf fromUserId)) hfree
  refine ⟨p', ?_, fun f => ?_⟩
  · rw [hp', Function.comp, Function.comp, hp]
    rfl
  · refine (exec_modify_bind _ _ _).trans ((exec_modify_bind _ _ _).trans ?_)
    exact exec_bind_of_ok hcreate

theorem findTransaction_debited :
    (debited fromUserId toUserId currency amount type idempotencyKey s).findTransaction (idempotencyKey ++ ":credit") =
    s.findTransaction (idempotencyKey ++ ":credit") := by
  refine Rows.find_concat.trans ((congrArg _ (if_neg (debit_ne_credit _))).trans ?_)
  rw [Option.or_none]
  exact (findTransaction_ensureLedger _).trans (findTransaction_ensureLedger _)

/-- A transfer of what is there goes through, unless the recipient's side has been recorded. -/
theorem run_transfer_of_le (hnone : s.findTransaction (idempotencyKey ++ ":debit") = none)
    (h : ¬ s.available fromUserId currency < amount) :
    (internalTransfer fromUserId toUserId currency amount type idempotencyKey).run s =
      if (s.findTransaction (idempotencyKey ++ ":credit")).isSome then (.error .conflict, s)
      else (.ok (creditRow toUserId currency amount idempotencyKey (s.ledgerOf toUserId)).kept,
        transferred fromUserId toUserId currency amount type idempotencyKey s) := by
  obtain ⟨p, hp, hledgers⟩ := exec_ledgers fromUserId toUserId s
  obtain ⟨p', hp', hdebit⟩ := exec_debit currency amount type hp hnone
  have hcredit : (p' s).findTransaction (idempotencyKey ++ ":credit") =
      s.findTransaction (idempotencyKey ++ ":credit") := by
    rw [hp', findTransaction_debited]
  split
  · rename_i htaken
    obtain ⟨p'', hcreate⟩ := exec_createTransaction_conflict p' s
      (creditRow toUserId currency amount idempotencyKey (s.ledgerOf toUserId)) (hcredit ▸ htaken)
    refine run_transaction_of_error (p := p'') ?_
    rw [exec_select_bind, id, hnone]
    refine (hledgers _).trans ((exec_bind_of_ok (exec_reject_of_not h)).trans ?_)
    exact (hdebit _).trans (exec_bind_of_error hcreate)
  · rename_i hfree
    obtain ⟨p'', hcreate, hp''⟩ := exec_createTransaction p' s
      (creditRow toUserId currency amount idempotencyKey (s.ledgerOf toUserId))
      (hcredit.trans (Option.not_isSome_iff_eq_none.1 hfree))
    refine run_transaction_of_ok (p := id) ?_
    rw [exec_select_bind, id, hnone]
    refine (hledgers _).trans ((exec_bind_of_ok (exec_reject_of_not h)).trans ?_)
    refine ((hdebit _).trans (exec_bind_of_ok hcreate)).trans ?_
    show (Except.ok _, id, p'' s) = _
    rw [hp'', hp']
    rfl

end Transfer

end Alone

/-! ## What a call can do -/

namespace WalletCall

/-- The key that a call looks for. -/
def key : WalletCall → String
  | .credit _ _ _ key | .debit _ _ _ key | .lock _ _ _ _ key | .release _ _ _ _ key | .slash _ _ _ _ key => key
  | .transfer _ _ _ _ _ key => key ++ ":debit"

def amount : WalletCall → ℚ
  | .credit _ _ amount _ | .debit _ _ amount _ | .lock _ _ amount _ _ | .release _ _ amount _ _ | .slash _ _ amount _ _
  | .transfer _ _ _ amount _ _ => amount

/-- What a call finds when it goes through. -/
def Allowed (s : Wallets) : WalletCall → Prop
  | .credit _ _ _ _ => True
  | .debit userId currency amount _ | .lock userId currency amount _ _ => amount ≤ s.available userId currency
  | .release userId currency amount _ _ | .slash userId currency amount _ _ => amount ≤ s.inEscrow userId currency
  | .transfer fromUserId _ currency amount _ key =>
    amount ≤ s.available fromUserId currency ∧ s.findTransaction (key ++ ":credit") = none

/-- What a call that goes through leaves behind. -/
def post [Columns] : WalletCall → Wallets → Wallets
  | .credit userId currency amount key => (applied .credit).post userId currency amount none key
  | .debit userId currency amount key => (applied .debit).post userId currency amount none key
  | .lock userId currency amount matchId key => locking.post userId currency amount matchId key
  | .release userId currency amount matchId key => releasing.post userId currency amount matchId key
  | .slash userId currency amount matchId key => slashing.post userId currency amount matchId key
  | .transfer fromUserId toUserId currency amount type key => transferred fromUserId toUserId currency amount type key

end WalletCall

/-- What a call can end in: the record it finds under its key, an error, or a new record. -/
inductive Outcome [Columns] (call : WalletCall) (s : Wallets) :
    Except WalletError WalletTransaction × Wallets → Prop where
  | repeated {row} (hfound : s.findTransaction call.key = some row) : Outcome call s (.ok row, s)
  | refused {e} : Outcome call s (.error e, s)
  | posted {row} (hnew : s.findTransaction call.key = none) (hallowed : call.Allowed s) : Outcome call s
    (.ok row, call.post s)

section Outcomes

variable [Columns] {s : Wallets} {call : WalletCall}

theorem outcome_apply (op : Operation) {userId : String} {currency : Currency} {amount : ℚ} {matchId : Option String}
    (hsession : call.session = op.apply userId currency amount matchId call.key)
    (hpost : call.post = op.post userId currency amount matchId call.key)
    (hallowed : op.refusal currency (s.available userId currency) (s.inEscrow userId currency) amount = none →
      call.Allowed s) :
    Outcome call s (call.session.run s) := by
  rw [hsession]
  cases hfound : s.findTransaction call.key with
  | some row =>
    rw [run_apply_existing hfound]
    exact .repeated hfound
  | none =>
    cases hrefusal : op.refusal currency (s.available userId currency) (s.inEscrow userId currency) amount with
    | some message =>
      rw [run_apply_refused hfound hrefusal]
      exact .refused
    | none =>
      rw [run_apply_posted hfound hrefusal, ← hpost]
      exact .posted hfound (hallowed hrefusal)

theorem outcome_transfer (fromUserId toUserId : String) (currency : Currency) (amount : ℚ) (type : TransactionType)
    (idempotencyKey : String) (s : Wallets) :
    Outcome (.transfer fromUserId toUserId currency amount type idempotencyKey) s
      ((internalTransfer fromUserId toUserId currency amount type idempotencyKey).run s) := by
  cases hfound : s.findTransaction (idempotencyKey ++ ":debit") with
  | some row =>
    rw [run_transfer_existing hfound]
    exact .repeated hfound
  | none =>
    by_cases hshort : s.available fromUserId currency < amount
    · rw [run_transfer_refused hfound hshort]
      exact .refused
    · rw [run_transfer_of_le hfound hshort]
      split
      · exact .refused
      · rename_i hfree
        exact .posted hfound ⟨not_lt.1 hshort, Option.not_isSome_iff_eq_none.1 hfree⟩

theorem outcome (call : WalletCall) (s : Wallets) : Outcome call s (call.session.run s) := by
  -- a bound that is not refused is met
  have hmet : ∀ {c : Prop} [Decidable c] {message : String}, (if c then some message else none) = none → ¬ c := by
    intro c _ message h hc
    rw [if_pos hc] at h
    cases h
  cases call with
  | credit userId currency amount key => exact outcome_apply (applied .credit) rfl rfl fun _ => trivial
  | debit userId currency amount key =>
    exact outcome_apply (applied .debit) rfl rfl fun h => not_lt.1 fun hlt => hmet h ⟨rfl, hlt⟩
  | lock userId currency amount matchId key => exact outcome_apply locking rfl rfl fun h => not_lt.1 (hmet h)
  | release userId currency amount matchId key => exact outcome_apply releasing rfl rfl fun h => not_lt.1 (hmet h)
  | slash userId currency amount matchId key => exact outcome_apply slashing rfl rfl fun h => not_lt.1 (hmet h)
  | transfer fromUserId toUserId currency amount type key =>
    exact outcome_transfer fromUserId toUserId currency amount type key s

end Outcomes

/-! ## Records after a call -/

section Records

variable [Columns] {s : Wallets} {call : WalletCall}

/-- The records of a call that goes through. -/
def WalletCall.records (s : Wallets) : WalletCall → List WalletTransaction
  | .credit u c a k => [(applied .credit).record u c a none k (s.available u c) (s.inEscrow u c)]
  | .debit u c a k => [(applied .debit).record u c a none k (s.available u c) (s.inEscrow u c)]
  | .lock u c a m k => [locking.record u c a m k (s.available u c) (s.inEscrow u c)]
  | .release u c a m k => [releasing.record u c a m k (s.available u c) (s.inEscrow u c)]
  | .slash u c a m k => [slashing.record u c a m k (s.available u c) (s.inEscrow u c)]
  | .transfer fromUserId toUserId c a type k =>
    [debitRow fromUserId c a type k (s.ledgerOf fromUserId), creditRow toUserId c a k (s.ledgerOf toUserId)]

theorem walletTransactions_post :
    (call.post s).walletTransactions = s.walletTransactions ++ (call.records s).map (·.kept) := by
  have hone : ∀ {op : Operation} {u c a m k}, (op.post u c a m k s).walletTransactions =
      s.walletTransactions ++ [(op.record u c a m k (s.available u c) (s.inEscrow u c)).kept] := fun {op u c a m k} =>
    congrArg (· ++ [(op.record u c a m k (s.available u c) (s.inEscrow u c)).kept])
      (walletTransactions_ensureLedger s u)
  cases call with
  | transfer fromUserId toUserId c a type k =>
    have hboth : ((s.ensureLedger fromUserId).ensureLedger toUserId).walletTransactions = s.walletTransactions :=
      (walletTransactions_ensureLedger _ _).trans (walletTransactions_ensureLedger _ _)
    refine (congrArg (fun rows => (rows ++ [_]) ++ [_]) hboth).trans ?_
    rw [List.append_assoc]
    rfl
  | _ => exact hone

/-- What is recorded stays. -/
theorem recorded_post {k : String} (h : (s.findTransaction k).isSome) : ((call.post s).findTransaction k).isSome := by
  obtain ⟨row, hrow⟩ := Option.isSome_iff_exists.1 h
  rw [findTransaction, walletTransactions_post, Rows.find, List.find?_append, ← Rows.find, ← findTransaction, hrow]
  rfl

/-- A call that goes through is recorded under its key. -/
theorem recorded_key : ((call.post s).findTransaction call.key).isSome := by
  have hhead : ∃ row ∈ call.records s, row.idempotencyKey = call.key := by
    cases call <;> exact ⟨_, List.mem_cons_self, rfl⟩
  obtain ⟨_, hrow, hkey⟩ := hhead
  rw [findTransaction, walletTransactions_post, List.find?_isSome]
  exact ⟨_, List.mem_append_right _ (List.mem_map_of_mem hrow), decide_eq_true hkey⟩

end Records

/-! ## Columns that keep what is written -/

/-- The ledgers have numbers that their columns keep. -/
def Wallets.Kept [Columns] (s : Wallets) : Prop :=
  ∀ ledger ∈ s.ledgers, ∀ c, Scaled (ledger.balance c) ∧ Scaled (ledger.escrowed c)

section Kept

variable [Columns] {s : Wallets} {u : String} {c : Currency} {b e : Option ℚ} {call : WalletCall} {op : Operation}
  {amount : ℚ}
  {r : Except WalletError WalletTransaction × Wallets}

namespace Wallets.Kept

theorem ledgerOf (h : s.Kept) (u : String) (c : Currency) :
    Scaled ((s.ledgerOf u).balance c) ∧ Scaled ((s.ledgerOf u).escrowed c) := by
  unfold Wallets.ledgerOf
  cases hfound : s.findLedger u with
  | none => exact ⟨Columns.scaled_zero, Columns.scaled_zero⟩
  | some ledger => exact h ledger (List.mem_of_find?_eq_some hfound) c

theorem ensureLedger (h : s.Kept) (u : String) : (s.ensureLedger u).Kept := by
  unfold Wallets.ensureLedger
  split
  · exact h
  · exact List.forall_mem_append.2 ⟨h, List.forall_mem_singleton.2 fun _ => ⟨Columns.scaled_zero, Columns.scaled_zero⟩⟩

/-- Whatever is written to them. -/
theorem updateLedger (h : s.Kept) : (s.updateLedger u c b e).Kept := by
  have hkept {o : Option ℚ} {x : ℚ} (hx : Scaled x) : Scaled ((o.map keep).getD x) := by
    cases o with
    | none => exact hx
    | some y => exact Columns.scaled_keep y
  intro ledger hledger c'
  obtain ⟨row, hrow, rfl⟩ := List.mem_map.1 hledger
  split
  · simp only [Ledger.put, Function.update_apply]
    constructor <;> split
    exacts [hkept (h row hrow c).1, (h row hrow c').1, hkept (h row hrow c).2, (h row hrow c').2]
  · exact h row hrow c'

theorem post (h : s.Kept) (call : WalletCall) : (call.post s).Kept := by
  cases call with
  | transfer fromUserId toUserId _ _ _ _ =>
    exact ((h.ensureLedger fromUserId).ensureLedger toUserId).updateLedger.updateLedger
  | _ => exact (h.ensureLedger _).updateLedger

theorem outcome (h : s.Kept) (houtcome : Outcome call s r) : r.2.Kept := by
  cases houtcome with
  | repeated _ => exact h
  | refused => exact h
  | posted _ _ => exact h.post call

end Wallets.Kept

/-- An operation with numbers of the columns' scale writes such numbers. -/
structure Operation.Keeps [Columns] (op : Operation) : Prop where
  newBalance : ∀ {x amount : ℚ}, Scaled x → Scaled amount → ∀ y ∈ op.newBalance x amount, Scaled y
  newEscrow : ∀ {x amount : ℚ}, Scaled x → Scaled amount → ∀ y ∈ op.newEscrow x amount, Scaled y

theorem keeps_applied (type : TransactionType) : (applied type).Keeps where
  newBalance hx ha := by
    rintro _ ⟨⟩
    split
    · exact hx.add ha
    · exact hx.sub ha
  newEscrow _ _ := fun _ h => nomatch h

theorem keeps_locking : locking.Keeps where
  newBalance hx ha := by rintro _ ⟨⟩; exact hx.sub ha
  newEscrow hx ha := by rintro _ ⟨⟩; exact hx.add ha

theorem keeps_releasing : releasing.Keeps where
  newBalance hx ha := by rintro _ ⟨⟩; exact hx.add ha
  newEscrow hx ha := by rintro _ ⟨⟩; exact hx.sub ha

theorem keeps_slashing : slashing.Keeps where
  newBalance _ _ := fun _ h => nomatch h
  newEscrow hx ha := by rintro _ ⟨⟩; exact hx.sub ha

omit [Columns] in
theorem map_exact (o : Option ℚ) : o.map (@keep .exact) = o := by
  cases o <;> rfl

theorem updateLedger_exact (hb : ∀ x ∈ b, Scaled x) (he : ∀ x ∈ e, Scaled x) :
    s.updateLedger u c b e = @updateLedger .exact u c b e s := by
  simp only [updateLedger, Ledger.put, Columns.map_keep hb, Columns.map_keep he, map_exact]

theorem kept_exact (row : WalletTransaction) (ha : Scaled row.amount) (hb : Scaled row.balanceBefore)
    (hb' : Scaled row.balanceAfter) (he : Scaled row.escrowBefore) (he' : Scaled row.escrowAfter) :
    row.kept = @WalletTransaction.kept .exact row := by
  unfold WalletTransaction.kept
  rw [ha, hb, hb', he, he']
  rfl

/-- With numbers of the columns' scale an operation writes what it writes to exact columns. -/
theorem Operation.Keeps.post_exact {m : Option String} {k : String} (hop : op.Keeps) (hs : s.Kept)
    (ha : Scaled amount) : op.post u c amount m k s = @Operation.post .exact op u c amount m k s := by
  obtain ⟨hav, hes⟩ := hs.ledgerOf u c
  have hgetD {o : Option ℚ} {x : ℚ} (ho : ∀ y ∈ o, Scaled y) (hx : Scaled x) : Scaled (o.getD x) := by
    cases o with
    | none => exact hx
    | some y => exact ho y rfl
  have hb := hop.newBalance hav ha
  have he := hop.newEscrow hes ha
  unfold Operation.post Wallets.insertTransaction
  rw [updateLedger_exact hb he, kept_exact _ ha hav (hgetD hb hav) hes (hgetD he hes)]

theorem transferred_exact {fromUserId toUserId : String} {type : TransactionType} {k : String} (hs : s.Kept)
    (ha : Scaled amount) : transferred fromUserId toUserId c amount type k s =
      @transferred .exact fromUserId toUserId c amount type k s := by
  obtain ⟨hav, hes⟩ := hs.ledgerOf fromUserId c
  obtain ⟨hav', hes'⟩ := hs.ledgerOf toUserId c
  have hnone : ∀ x ∈ (none : Option ℚ), Scaled x := fun _ h => nomatch h
  have hsome {y : ℚ} (hy : Scaled y) : ∀ x ∈ some y, Scaled x := by rintro _ ⟨⟩; exact hy
  unfold transferred debited Wallets.insertTransaction
  rw [updateLedger_exact (hsome (hav.sub ha)) hnone, updateLedger_exact (hsome (hav'.add ha)) hnone,
    kept_exact (debitRow ..) ha hav (hav.sub ha) hes hes, kept_exact (creditRow ..) ha hav' (hav'.add ha) hes' hes']

/-- What a call has done with an amount of the columns' scale it could have done with exact columns. -/
theorem Outcome.exact (hs : s.Kept) (ha : Scaled call.amount) (h : Outcome call s r) : @Outcome .exact call s r := by
  cases h with
  | repeated hfound => exact @Outcome.repeated .exact _ _ _ hfound
  | refused => exact @Outcome.refused .exact _ _ _
  | posted hnew hallowed =>
    have hpost : call.post s = @WalletCall.post .exact call s := by
      cases call with
      | credit | debit => exact (keeps_applied _).post_exact hs ha
      | lock => exact keeps_locking.post_exact hs ha
      | release => exact keeps_releasing.post_exact hs ha
      | slash => exact keeps_slashing.post_exact hs ha
      | transfer => exact transferred_exact hs ha
    rw [hpost]
    exact @Outcome.posted .exact _ _ _ hnew hallowed

end Kept

/-! ## Balances after a call -/

section Balances

open ExactDecimals

variable {s : Wallets} {u v : String} {c c' : Currency} {b e : Option ℚ}

theorem findLedger_updateLedger : (s.updateLedger u c b e).findLedger v = (s.findLedger v).map fun row =>
    if row.userId = u then row.put c b e else row := Rows.find_modify fun _ => rfl

theorem ledgerOf_updateLedger (h : (s.findLedger u).isSome) :
    (s.updateLedger u c b e).ledgerOf v = if v = u then (s.ledgerOf u).put c b e else s.ledgerOf v := by
  rw [ledgerOf, findLedger_updateLedger]
  cases hv : s.findLedger v with
  | none =>
    have hne : v ≠ u := by
      rintro rfl
      rw [hv] at h
      cases h
    rw [if_neg hne, ledgerOf, hv]
    rfl
  | some row =>
    have huser : row.userId = v := Rows.key_of_find hv
    rw [Option.map_some, Option.getD_some, huser]
    split
    · rename_i hvu
      rw [ledgerOf, ← hvu, hv, Option.getD_some]
    · rw [ledgerOf, hv, Option.getD_some]

theorem available_updateLedger (h : (s.findLedger u).isSome) :
    (s.updateLedger u c b e).available v c' = if v = u ∧
    c' = c then b.getD (s.available u c) else s.available v c' := by
  rw [available, ledgerOf_updateLedger h, ite_and]
  split
  · rename_i hvu
    rw [hvu]
    refine (Function.update_apply _ _ _ _).trans ?_
    rw [map_exact]
  · rfl

theorem inEscrow_updateLedger (h : (s.findLedger u).isSome) :
    (s.updateLedger u c b e).inEscrow v c' = if v = u ∧ c' = c then e.getD (s.inEscrow u c) else s.inEscrow v c' := by
  rw [inEscrow, ledgerOf_updateLedger h, ite_and]
  split
  · rename_i hvu
    rw [hvu]
    refine (Function.update_apply _ _ _ _).trans ?_
    rw [map_exact]
  · rfl

section Post

variable {op : Operation} {amount : ℚ} {matchId : Option String} {k : String}

theorem available_post : (op.post u c amount matchId k s).available v c' =
    if v = u ∧ c' = c then (op.newBalance (s.available u c) amount).getD (s.available u c) else s.available v c' := by
  refine (available_updateLedger (isSome_ensureLedger s u)).trans ?_
  rw [available_ensureLedger, available_ensureLedger]

theorem inEscrow_post : (op.post u c amount matchId k s).inEscrow v c' =
    if v = u ∧ c' = c then (op.newEscrow (s.inEscrow u c) amount).getD (s.inEscrow u c) else s.inEscrow v c' := by
  refine (inEscrow_updateLedger (isSome_ensureLedger s u)).trans ?_
  rw [inEscrow_ensureLedger, inEscrow_ensureLedger]

variable {type : TransactionType}

theorem isSome_updateLedger (h : (s.findLedger v).isSome) : ((s.updateLedger u c b e).findLedger v).isSome := by
  rw [findLedger_updateLedger, Option.isSome_map]
  exact h

/-- The recipient's side is written last. -/
theorem available_transferred {from' to' : String} : (transferred from' to' c amount type k s).available v c' =
    if v = to' ∧ c' = c then s.available to' c + amount else
      if v = from' ∧ c' = c then s.available from' c - amount else s.available v c' := by
  have hfrom : (((s.ensureLedger from').ensureLedger to').findLedger from').isSome :=
    isSome_ensureLedger_of (isSome_ensureLedger s from') to'
  have hto : (((s.ensureLedger from').ensureLedger to').findLedger to').isSome := isSome_ensureLedger _ to'
  refine (available_updateLedger (isSome_updateLedger hto)).trans ?_
  split
  · rfl
  · rw [available_updateLedger hfrom, Option.getD_some, available_ensureLedger, available_ensureLedger]

theorem inEscrow_transferred {from' to' : String} :
    (transferred from' to' c amount type k s).inEscrow v c' = s.inEscrow v c' := by
  have hfrom : (((s.ensureLedger from').ensureLedger to').findLedger from').isSome :=
    isSome_ensureLedger_of (isSome_ensureLedger s from') to'
  have hto : (((s.ensureLedger from').ensureLedger to').findLedger to').isSome := isSome_ensureLedger _ to'
  have hkept : ∀ {t : Wallets} {u v : String}, (t.findLedger u).isSome → ∀ b,
      (t.updateLedger u c b none).inEscrow v c' = t.inEscrow v c' := by
    intro t u v h b
    rw [inEscrow_updateLedger h]
    split
    · rename_i hvc
      rw [hvc.1, hvc.2]
      rfl
    · rfl
  refine (hkept (isSome_updateLedger hto) _).trans ((hkept hfrom _).trans ?_)
  rw [inEscrow_ensureLedger, inEscrow_ensureLedger]

end Post

end Balances

end ArenaX.ServerWallet
