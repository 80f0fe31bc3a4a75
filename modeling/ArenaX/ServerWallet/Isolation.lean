/-
The wallet routes. A request is made by a user whom the session names; the escrow routes act on that user's ledger, the
transfer route on the users in the body. The fields of a body are absent or of their types, where "absent" also stands
for a value that the database client or `new Decimal` refuses. The routes for the user's Stellar key touch neither
ledgers nor records and are left out.
-/
import ArenaX.ServerWallet.Conservation

namespace ArenaX.ServerWallet

open Dialog Wallets

structure Body where
  fromUserId : Option String
  toUserId : Option String
  currency : Option Currency
  amount : Option ℚ
  type : Option TransactionType
  matchId : Option String
  idempotencyKey : Option String

inductive Request where
  | getLedger
  | getTransactions (currency : Option Currency)
  | lockEscrow (body : Body)
  | releaseEscrow (body : Body)
  | slashEscrow (body : Body)
  | internalTransfer (body : Body)

/-! ## Handlers -/

namespace Controller

def getLedger (userId : String) : Sql Ledger := transaction do
  match ← select (·.findLedger userId) with
  | some existing =>
    commit
    pure existing
  | none =>
    let ledger ← createLedger userId
    commit
    pure ledger

def getTransactions (userId : String) (currency : Option Currency) : Sql (List WalletTransaction) :=
  query fun s => s.walletTransactions.filter fun row => row.userId = userId ∧ ∀ c ∈ currency, row.currency = c

variable [Columns]

/-- What is left of a call with a field that cannot be used: it looks for its key first. -/
def unusable (idempotencyKey : String) : Sql WalletTransaction := transaction do
  match ← select (·.findTransaction idempotencyKey) with
  | some existing =>
    commit
    pure existing
  | none => throw .invalid

/-- The escrow routes differ in the operation only. -/
def escrowRoute (service : Currency → ℚ → Option String → String → Sql WalletTransaction) (body : Body) :
    Sql WalletTransaction := do
  let amount ← okOr body.amount .invalid
  let idempotencyKey ← okOr body.idempotencyKey .invalid
  match body.currency with
  | some currency => service currency amount body.matchId idempotencyKey
  | none => unusable idempotencyKey

def lockEscrow (userId : String) (body : Body) : Sql WalletTransaction := escrowRoute (lockFundsToEscrow userId) body

def releaseEscrow (userId : String) (body : Body) : Sql WalletTransaction :=
  escrowRoute (ServerWallet.releaseEscrow userId) body

def slashEscrow (userId : String) (body : Body) : Sql WalletTransaction :=
  escrowRoute (ServerWallet.slashEscrow userId) body

/-- The keys of a transfer are printed, so a body without one has the key `undefined`. -/
def internalTransfer (body : Body) : Sql WalletTransaction :=
  match body.type with
  | some .platformFee => transfer .platformFee
  | some .prizePoolFund => transfer .prizePoolFund
  | _ => throw (.badRequest "Invalid transfer type")
where
  transfer (type : TransactionType) : Sql WalletTransaction := do
    let amount ← okOr body.amount .invalid
    let idempotencyKey := body.idempotencyKey.getD "undefined"
    match body.fromUserId, body.toUserId, body.currency with
    | some fromUserId, some toUserId, some currency =>
      ServerWallet.internalTransfer fromUserId toUserId currency amount type idempotencyKey
    | _, _, _ => unusable (idempotencyKey ++ ":debit")

end Controller

/-- The store after a request of a user. -/
def serve [Columns] (userId : String) (s : Wallets) : Request → Wallets
  | .getLedger => ((Controller.getLedger userId).run s).2
  | .getTransactions currency => ((Controller.getTransactions userId currency).run s).2
  | .lockEscrow body => ((Controller.lockEscrow userId body).run s).2
  | .releaseEscrow body => ((Controller.releaseEscrow userId body).run s).2
  | .slashEscrow body => ((Controller.slashEscrow userId body).run s).2
  | .internalTransfer body => ((Controller.internalTransfer body).run s).2

/-! ## What a request can do -/

/-- The call that an escrow route makes. -/
def Body.escrow (make : Currency → ℚ → Option String → String → WalletCall) (body : Body) : Option WalletCall := do
  let amount ← body.amount
  let key ← body.idempotencyKey
  let currency ← body.currency
  some (make currency amount body.matchId key)

/-- The call that the transfer route makes. -/
def Body.transfer (body : Body) : Option WalletCall := do
  let type ← body.type
  if type = .platformFee ∨ type = .prizePoolFund then
    let amount ← body.amount
    let fromUserId ← body.fromUserId
    let toUserId ← body.toUserId
    let currency ← body.currency
    some (.transfer fromUserId toUserId currency amount type (body.idempotencyKey.getD "undefined"))
  else none

def Request.call (userId : String) : Request → Option WalletCall
  | .getLedger | .getTransactions _ => none
  | .lockEscrow body => body.escrow (.lock userId)
  | .releaseEscrow body => body.escrow (.release userId)
  | .slashEscrow body => body.escrow (.slash userId)
  | .internalTransfer body => body.transfer

/-- The calls that the routes make for a user. -/
def WalletCall.Routed (userId : String) : WalletCall → Prop
  | .credit _ _ _ _ | .debit _ _ _ _ => False
  | .lock u _ _ _ _ | .release u _ _ _ _ | .slash u _ _ _ _ => u = userId
  | .transfer _ _ _ _ _ _ => True

section Cases

open Controller (getLedger unusable escrowRoute)

variable {s : Wallets} {userId : String}

theorem routed_escrow (make : Currency → ℚ → Option String → String → WalletCall)
    (hmake : ∀ c a m k, (make c a m k).Routed userId) {body : Body} :
    ∀ call ∈ body.escrow make, call.Routed userId := by
  intro call hcall
  simp only [Body.escrow, Option.bind_eq_bind, Option.mem_def, Option.bind_eq_some_iff, Option.some.injEq] at hcall
  obtain ⟨amount, -, key, -, currency, -, rfl⟩ := hcall
  exact hmake _ _ _ _

theorem routed_transfer {body : Body} : ∀ call ∈ body.transfer, call.Routed userId := by
  intro call hcall
  obtain ⟨type, -, hcall⟩ := Option.bind_eq_some_iff.1 hcall
  obtain ⟨-, hcall⟩ := Option.ite_none_right_eq_some.1 hcall
  simp only [Option.bind_eq_bind, Option.bind_eq_some_iff, Option.some.injEq] at hcall
  obtain ⟨amount, -, fromUserId, -, toUserId, -, currency, -, rfl⟩ := hcall
  trivial

theorem routed_of_call {request : Request} : ∀ call ∈ request.call userId, call.Routed userId := by
  cases request with
  | getLedger | getTransactions _ => exact fun _ h => nomatch h
  | lockEscrow _ => exact routed_escrow (.lock userId) fun _ _ _ _ => rfl
  | releaseEscrow _ => exact routed_escrow (.release userId) fun _ _ _ _ => rfl
  | slashEscrow _ => exact routed_escrow (.slash userId) fun _ _ _ _ => rfl
  | internalTransfer _ => exact routed_transfer

theorem run_unusable (s : Wallets) (key : String) : ((unusable key).run s).2 = s := by
  cases hfound : s.findTransaction key with
  | some existing =>
    have hexec : (unusable key).run s = (.ok existing, s) := by
      refine run_transaction_of_ok (p := id) ?_
      rw [exec_select_bind, id, hfound]
      rfl
    rw [hexec]
  | none =>
    have hexec : (unusable key).run s = (.error .invalid, s) := by
      refine run_transaction_of_error (p := id) ?_
      rw [exec_select_bind, id, hfound]
      rfl
    rw [hexec]

theorem run_getLedger (userId : String) (s : Wallets) : ((getLedger userId).run s).2 = s.ensureLedger userId := by
  cases hfound : s.findLedger userId with
  | some existing =>
    have hexec : (getLedger userId).run s = (.ok existing, s) := by
      refine run_transaction_of_ok (p := id) ?_
      rw [exec_select_bind, id, hfound]
      rfl
    rw [hexec, ensureLedger, hfound]
    rfl
  | none =>
    have hfree : ¬ (s.findLedger userId).isSome := by simp [hfound]
    have hexec : (getLedger userId).run s = (.ok (Ledger.new userId), s.ensureLedger userId) := by
      refine run_transaction_of_ok (p := id) ?_
      rw [exec_select_bind, id, hfound]
      exact exec_bind_of_ok (exec_bind_of_ok (exec_insert_of_free hfree))
    rw [hexec]

variable [Columns]

theorem escrowRoute_cases (make : Currency → ℚ → Option String → String → WalletCall) (body : Body) (s : Wallets) :
    ((escrowRoute (fun c a m k => (make c a m k).session) body).run s).2 = s ∨
      ∃ call ∈ body.escrow make, ((escrowRoute (fun c a m k => (make c a m k).session) body).run s).2 =
        (call.session.run s).2 := by
  obtain ⟨fromUserId, toUserId, currency, amount, type, matchId, key⟩ := body
  rcases amount with _ | amount
  · exact .inl rfl
  rcases key with _ | key
  · exact .inl rfl
  rcases currency with _ | currency
  · exact .inl (run_unusable s key)
  · exact .inr ⟨_, rfl, rfl⟩

theorem internalTransfer_cases (body : Body) (s : Wallets) : ((Controller.internalTransfer body).run s).2 = s ∨
    ∃ call ∈ body.transfer, ((Controller.internalTransfer body).run s).2 = (call.session.run s).2 := by
  obtain ⟨fromUserId, toUserId, currency, amount, type, matchId, key⟩ := body
  -- both types that are let through go the same way
  have hpass : ∀ type, type = TransactionType.platformFee ∨ type = .prizePoolFund →
      ((Controller.internalTransfer.transfer ⟨fromUserId, toUserId, currency, amount, some type, matchId, key⟩
        type).run s).2 = s ∨
      ∃ call ∈ Body.transfer ⟨fromUserId, toUserId, currency, amount, some type, matchId, key⟩,
        ((Controller.internalTransfer.transfer ⟨fromUserId, toUserId, currency, amount, some type, matchId, key⟩
          type).run s).2 = (call.session.run s).2 := by
    intro type htype
    rcases amount with _ | amount
    · exact .inl rfl
    rcases fromUserId with _ | fromUserId
    · exact .inl (run_unusable s _)
    rcases toUserId with _ | toUserId
    · exact .inl (run_unusable s _)
    rcases currency with _ | currency
    · exact .inl (run_unusable s _)
    · refine .inr ⟨_, if_pos htype, rfl⟩
  rcases type with _ | type
  · exact .inl rfl
  cases type with
  | platformFee => exact hpass _ (.inl rfl)
  | prizePoolFund => exact hpass _ (.inr rfl)
  | _ => exact .inl rfl

/-- A request makes the call that its body describes; any other one at most creates the user's ledger. -/
theorem serve_cases (userId : String) (request : Request) (s : Wallets) :
    serve userId s request = s ∨ serve userId s request = s.ensureLedger userId ∨
      ∃ call ∈ request.call userId, serve userId s request = (call.session.run s).2 := by
  cases request with
  | getLedger => exact .inr (.inl (run_getLedger userId s))
  | getTransactions currency => exact .inl rfl
  | lockEscrow body => exact (escrowRoute_cases (.lock userId) body s).imp_right .inr
  | releaseEscrow body => exact (escrowRoute_cases (.release userId) body s).imp_right .inr
  | slashEscrow body => exact (escrowRoute_cases (.slash userId) body s).imp_right .inr
  | internalTransfer body => exact (internalTransfer_cases body s).imp_right .inr

end Cases

/-! ## Isolation -/

/-- What a user has in a currency. -/
abbrev Wallets.holdings (s : Wallets) (userId : String) (currency : Currency) : ℚ :=
  s.available userId currency + s.inEscrow userId currency

/-- A request takes nothing from another user, and gives nothing to the one who makes it. -/
structure Isolates (userId : String) (s s' : Wallets) : Prop where
  others : ∀ v ≠ userId, ∀ currency, s.available v currency ≤ s'.available v currency ∧
    s.inEscrow v currency ≤ s'.inEscrow v currency
  self : ∀ currency, s'.holdings userId currency ≤ s.holdings userId currency

/-- A call by a user that slashes no negative amount and transfers none, and transfers from the user's own ledger to
another. -/
def WalletCall.Honest (userId : String) : WalletCall → Prop
  | .slash _ _ amount _ _ => 0 ≤ amount
  | .transfer fromUserId toUserId _ amount _ _ => fromUserId = userId ∧ toUserId ≠ userId ∧ 0 ≤ amount
  | _ => True

instance (userId : String) : DecidablePred (WalletCall.Honest userId)
  | .slash _ _ amount _ _ => inferInstanceAs (Decidable (0 ≤ amount))
  | .transfer fromUserId toUserId _ amount _ _ =>
    inferInstanceAs (Decidable (fromUserId = userId ∧ toUserId ≠ userId ∧ 0 ≤ amount))
  | .credit _ _ _ _ | .debit _ _ _ _ | .lock _ _ _ _ _ | .release _ _ _ _ _ => .isTrue trivial

/-- Such a call, with an amount that a column can hold. -/
def Request.Honest [Columns] (userId : String) (request : Request) : Prop :=
  ∀ call ∈ request.call userId, call.Honest userId ∧ Columns.Scaled call.amount

instance [Columns] (userId : String) : DecidablePred (Request.Honest userId) := fun request =>
  inferInstanceAs (Decidable (∀ call ∈ request.call userId, call.Honest userId ∧ Columns.Scaled call.amount))

/-- The users' requests, one after another. -/
def routes [Columns] (s₀ : Wallets) : TransitionSystem String Wallets Request where
  init _ s := s = s₀
  step userId s request := some (serve userId s request)

section Exact

open ExactDecimals

variable {s s' : Wallets} {userId : String}

theorem isolates_of_ledgers (h : ∀ v, s'.ledgerOf v = s.ledgerOf v) : Isolates userId s s' := by
  refine ⟨fun v _ currency => ?_, fun currency => ?_⟩
  · rw [available, available, inEscrow, inEscrow, h]
    exact ⟨le_refl _, le_refl _⟩
  · rw [holdings, available, inEscrow, h]

/-- An operation on the user's own ledger that adds nothing to it. -/
theorem isolates_post {op : Operation} {currency : Currency} {amount : ℚ} {matchId : Option String} {key : String}
    (h : (op.newBalance (s.available userId currency) amount).getD (s.available userId currency) +
      (op.newEscrow (s.inEscrow userId currency) amount).getD (s.inEscrow userId currency) ≤
        s.holdings userId currency) :
    Isolates userId s (op.post userId currency amount matchId key s) := by
  refine ⟨fun v hv c => ?_, fun c => ?_⟩
  · rw [available_post, inEscrow_post, if_neg fun hvc => hv hvc.1, if_neg fun hvc => hv hvc.1]
    exact ⟨le_refl _, le_refl _⟩
  · rw [holdings, available_post, inEscrow_post]
    by_cases hc : c = currency
    · subst hc
      rw [if_pos ⟨rfl, rfl⟩, if_pos ⟨rfl, rfl⟩]
      exact h
    · rw [if_neg fun hvc => hc hvc.2, if_neg fun hvc => hc hvc.2]

theorem isolates_transferred {toUserId : String} {currency : Currency} {amount : ℚ} {type : TransactionType}
    {key : String} (hto : toUserId ≠ userId) (hamount : 0 ≤ amount) :
    Isolates userId s
      (transferred userId toUserId currency amount type key s) := by
  refine ⟨fun v hv c => ⟨?_, ?_⟩, fun c => ?_⟩
  · rw [available_transferred]
    split
    · rename_i hvc
      rw [hvc.1, hvc.2]
      exact le_add_of_nonneg_right hamount
    · rw [if_neg fun hvc => hv hvc.1]
  · rw [inEscrow_transferred]
  · rw [holdings, available_transferred, inEscrow_transferred, if_neg fun hvc => hto hvc.1.symm]
    refine add_le_add_left ?_ _
    split
    · rename_i hvc
      rw [hvc.2]
      exact sub_le_self _ hamount
    · exact le_refl _

theorem isolates_outcome {call : WalletCall} {r : Except WalletError WalletTransaction × Wallets}
    (hrouted : call.Routed userId) (hhonest : call.Honest userId) (h : Outcome call s r) : Isolates userId s r.2 := by
  cases h with
  | repeated _ => exact isolates_of_ledgers fun _ => rfl
  | refused => exact isolates_of_ledgers fun _ => rfl
  | posted _ _ =>
    cases call with
    | credit | debit => exact hrouted.elim
    | lock u c a m k =>
      obtain rfl : u = userId := hrouted
      exact isolates_post (by simp [locking])
    | release u c a m k =>
      obtain rfl : u = userId := hrouted
      exact isolates_post (by simp [releasing])
    | slash u c a m k =>
      obtain rfl : u = userId := hrouted
      have ha : 0 ≤ a := hhonest
      exact isolates_post (by simpa [slashing] using ha)
    | transfer fromUserId toUserId c a type k =>
      obtain ⟨rfl, hto, hamount⟩ := hhonest
      exact isolates_transferred hto hamount

end Exact

section Isolation

variable [Columns] {s : Wallets} {userId : String}

theorem kept_serve {request : Request} (hs : s.Kept) : (serve userId s request).Kept := by
  rcases serve_cases userId request s with h | h | ⟨call, -, h⟩ <;> rw [h]
  · exact hs
  · exact hs.ensureLedger userId
  · exact hs.outcome (outcome call s)

theorem isolates_serve {request : Request} (hs : s.Kept) (hhonest : request.Honest userId) :
    Isolates userId s (serve userId s request) := by
  rcases serve_cases userId request s with h | h | ⟨call, hcall, h⟩ <;> rw [h]
  · exact isolates_of_ledgers fun _ => rfl
  · exact isolates_of_ledgers fun v => ledgerOf_ensureLedger userId v
  · obtain ⟨hcall', hscaled⟩ := hhonest call hcall
    exact isolates_outcome (routed_of_call call hcall) hcall' ((outcome call s).exact hs hscaled)

/-- Requests with amounts that the columns can hold, that slash and transfer no negative amount, and transfer from their
own user to another: users who make none of them lose nothing, and a user who makes all of them gains nothing. -/
theorem funds_isolated {s₀ : Wallets} {users : Set String} {last : String} (hs₀ : s₀.Kept)
    (h : (routes s₀).Reach (fun _ u _ request => u ∈ users ∧ request.Honest u) last s) :
    (∀ v ∉ users, ∀ currency,
      s₀.available v currency ≤ s.available v currency ∧ s₀.inEscrow v currency ≤ s.inEscrow v currency) ∧
    ∀ u, users = {u} → ∀ currency, s.holdings u currency ≤ s₀.holdings u currency := by
  refine (TransitionSystem.Reach.invariant (P := fun _ s => s.Kept ∧
    (∀ v ∉ users, ∀ currency,
      s₀.available v currency ≤ s.available v currency ∧ s₀.inEscrow v currency ≤ s.inEscrow v currency) ∧
    ∀ u, users = {u} → ∀ currency, s.holdings u currency ≤ s₀.holdings u currency) ?_ ?_ h).2
  · rintro _ s rfl
    exact ⟨hs₀, fun _ _ _ => ⟨le_refl _, le_refl _⟩, fun _ _ _ => le_refl _⟩
  · rintro _ caller s request s' ⟨hs, hothers, hself⟩ ⟨hcaller, hhonest⟩ hstep
    cases hstep
    have hisolates := isolates_serve hs hhonest
    refine ⟨kept_serve hs, ?_, ?_⟩
    · intro v hv currency
      have hne : v ≠ caller := fun heq => hv (heq ▸ hcaller)
      obtain ⟨havailable, hescrow⟩ := hisolates.others v hne currency
      exact ⟨(hothers v hv currency).1.trans havailable, (hothers v hv currency).2.trans hescrow⟩
    · rintro u rfl currency
      obtain rfl : caller = u := hcaller
      exact (hisolates.self currency).trans (hself caller rfl currency)

end Isolation

namespace Sample

open SevenDecimals

/-- Alice and Bob have 100 each. -/
def twoUsers : Wallets := ⟨[⟨"alice", fun _ => 100, fun _ => 0⟩, ⟨"bob", fun _ => 100, fun _ => 0⟩], []⟩

def transferBody (fromUserId toUserId : String) (amount : ℚ) : Body :=
  ⟨some fromUserId, some toUserId, some .usdc, some amount, some .platformFee, none, some "fee"⟩

theorem funds_isolated_alice :
    (∀ currency, twoUsers.available "bob" currency ≤
      (serve "alice" twoUsers (.internalTransfer (transferBody "alice" "bob" 30))).available "bob" currency) ∧
    (serve "alice" twoUsers (.internalTransfer (transferBody "alice" "bob" 30))).holdings "alice" .usdc = 70 := by
  have hrun : (routes twoUsers).Reach (fun _ u _ request => u ∈ ({"alice"} : Set String) ∧ request.Honest u) "alice"
      (serve "alice" twoUsers (.internalTransfer (transferBody "alice" "bob" 30))) := by
    refine .step (.init (e := "alice") rfl) ⟨rfl, ?_⟩ rfl
    decide +kernel
  have hhundred : Columns.Scaled 100 ∧ Columns.Scaled 0 := by decide +kernel
  have hkept : twoUsers.Kept := List.forall_mem_cons.2 ⟨fun _ => hhundred,
    List.forall_mem_singleton.2 fun _ => hhundred⟩
  have hbob : "bob" ∉ ({"alice"} : Set String) := by decide
  exact ⟨fun currency => ((funds_isolated hkept hrun).1 "bob" hbob currency).1, by decide +kernel⟩

/-- The transfer route takes the sender from the body, and half a unit is rounded away from zero on both sides of a
lock. -/
theorem funds_taken :
    (serve "alice" twoUsers (.internalTransfer (transferBody "bob" "alice" 100))).available "bob" .usdc = 0 ∧
    (serve "alice" twoUsers (.internalTransfer (transferBody "bob" "alice" 100))).holdings "alice" .usdc = 200 ∧
    (serve "alice" twoUsers (.slashEscrow ⟨none, none, some .usdc, some (-50), none, none, some "slash"⟩)).holdings
      "alice" .usdc = 150 ∧
    (serve "alice" twoUsers (.lockEscrow ⟨none, none, some .usdc, some (5 / 10 ^ 8), none, none, some "lock"⟩)).holdings
      "alice" .usdc = 100 + 1 / 10 ^ 7 := by
  decide +kernel

end Sample

end ArenaX.ServerWallet
