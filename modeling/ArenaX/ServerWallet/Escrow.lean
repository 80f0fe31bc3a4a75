/-
Escrow is one number for each user and currency, while locks, releases and slashes are labelled with a match. The number
equals what is open under all matches together, so a release under one match can pay out what is locked under another.
While a user has something at stake under one match only, the bound that is checked is the bound of that match.
-/
import ArenaX.ServerWallet.Conservation

namespace ArenaX.ServerWallet

open Dialog Wallets
open TransitionSystem (Unrestricted)

/-! ## Stakes -/

namespace Wallets

/-- The sum of the amounts of some records. -/
def sumOf (s : Wallets) (p : WalletTransaction → Prop) [DecidablePred p] : ℚ :=
  ((s.walletTransactions.filter p).map WalletTransaction.amount).sum

/-- What a user has locked under a match. -/
def locked (s : Wallets) (userId : String) (currency : Currency) (matchId : Option String) : ℚ :=
  s.sumOf fun row => (row.userId = userId ∧ row.currency = currency ∧ row.matchId = matchId) ∧ row.type = .escrowLock

/-- What has been released or slashed under a match. -/
def paidOut (s : Wallets) (userId : String) (currency : Currency) (matchId : Option String) : ℚ :=
  s.sumOf fun row => (row.userId = userId ∧ row.currency = currency ∧ row.matchId = matchId) ∧
    (row.type = .escrowRelease ∨ row.type = .escrowSlash)

def atStake (s : Wallets) (userId : String) (currency : Currency) (matchId : Option String) : ℚ :=
  s.locked userId currency matchId - s.paidOut userId currency matchId

end Wallets

/-- A call of the user's that moves an amount that a column can hold, under a match; nothing is at stake under another
match of the currency. -/
def WalletCall.OneMatch [Columns] (userId : String) (s : Wallets) : WalletCall → Prop
  | .lock u currency amount matchId _ | .release u currency amount matchId _ | .slash u currency amount matchId _ =>
    u = userId ∧ (0 ≤ amount ∧ Columns.Scaled amount) ∧
    ∀ row ∈ s.walletTransactions, row.matchId ≠ matchId → s.atStake userId currency row.matchId = 0
  | _ => False

/-- A user who has escrowed nothing so far. -/
structure Unstaked (userId : String) (s : Wallets) : Prop where
  escrowed : ∀ currency, s.inEscrow userId currency = 0
  records : ∀ row ∈ s.walletTransactions, row.userId = userId → row.type ≠ .escrowLock ∧ row.type ≠ .escrowRelease ∧
    row.type ≠ .escrowSlash

section Stakes

variable {s s' : Wallets} {userId : String} {currency c : Currency} {matchId m : Option String}

theorem sumOf_concat {p : WalletTransaction → Prop} [DecidablePred p] {row : WalletTransaction}
    (h : s'.walletTransactions = s.walletTransactions ++ [row]) : s'.sumOf p =
      s.sumOf p + if p row then row.amount else 0 := by
  rw [sumOf, h, List.filter_append, List.map_append, List.sum_append]
  refine congrArg (s.sumOf p + ·) ?_
  by_cases hp : p row
  · simp [hp]
  · simp [hp]

theorem sumOf_eq_zero {p : WalletTransaction → Prop} [DecidablePred p] (h : ∀ row ∈ s.walletTransactions, ¬ p row) :
    s.sumOf p = 0 := by
  have hnil : s.walletTransactions.filter p = [] := List.filter_eq_nil_iff.2 fun row hrow => by simpa using h row hrow
  rw [sumOf, hnil]
  rfl

/-- Nothing is at stake under a match that no record names. -/
theorem atStake_of_unnamed (h : ∀ row ∈ s.walletTransactions, row.matchId ≠ m) : s.atStake userId currency m = 0 := by
  rw [atStake, locked, paidOut, sumOf_eq_zero fun row hrow hp => h row hrow hp.1.2.2,
    sumOf_eq_zero fun row hrow hp => h row hrow hp.1.2.2, sub_zero]

section Record

variable {op : Operation} {a b e : ℚ} {k : String}
  (h : s'.walletTransactions = s.walletTransactions ++ [op.record userId c a m k b e])
include h

/-- What a record adds to the sum over the records of some types under a match. -/
theorem sumOf_record {p : TransactionType → Prop} [DecidablePred p] :
    s'.sumOf (fun row => (row.userId = userId ∧ row.currency = currency ∧ row.matchId = matchId) ∧ p row.type) =
      s.sumOf (fun row => (row.userId = userId ∧ row.currency = currency ∧ row.matchId = matchId) ∧ p row.type) +
        if currency = c ∧ matchId = m then if p op.type then a else 0 else 0 := by
  rw [← ite_and]
  refine (sumOf_concat h).trans (congrArg _ (if_congr ?_ rfl rfl))
  constructor
  · rintro ⟨⟨-, hc, hm⟩, hp⟩
    exact ⟨⟨hc.symm, hm.symm⟩, hp⟩
  · rintro ⟨⟨rfl, rfl⟩, hp⟩
    exact ⟨⟨rfl, rfl, rfl⟩, hp⟩

theorem atStake_record : s'.atStake userId currency matchId = s.atStake userId currency matchId +
    if currency = c ∧ matchId = m then (if op.type = .escrowLock then a else 0) -
      if op.type = .escrowRelease ∨ op.type = .escrowSlash then a else 0 else 0 := by
  refine (congrArg₂ (· - ·) (sumOf_record h (p := (· = .escrowLock)))
    (sumOf_record h (p := fun type => type = .escrowRelease ∨ type = .escrowSlash))).trans ?_
  rw [atStake, locked, paidOut]
  split <;> ring

end Record

/-! ### One match at a time -/

/-- The escrow of each currency is what is at stake under one match; nothing is at stake under others. -/
def Backed (userId : String) (s : Wallets) : Prop := ∀ currency, 0 ≤ s.inEscrow userId currency ∧
  ∃ matchId, s.atStake userId currency matchId = s.inEscrow userId currency ∧
    ∀ m ≠ matchId, s.atStake userId currency m = 0

/-- The match that a call names becomes the one with the stake. -/
theorem Backed.move {δ : ℚ} (h : Backed userId s) (hsolo : ∀ m' ≠ m, s.atStake userId c m' = 0)
    (hescrow : ∀ currency, s'.inEscrow userId currency = s.inEscrow userId currency + if currency = c then δ else 0)
    (hstake : ∀ currency matchId, s'.atStake userId currency matchId =
      s.atStake userId currency matchId + if currency = c ∧ matchId = m then δ else 0)
    (hδ : 0 ≤ s.inEscrow userId c + δ) : Backed userId s' := by
  intro currency
  obtain ⟨hnonneg, m₀, hm₀, hothers⟩ := h currency
  by_cases hc : currency = c
  · subst hc
    have hm : s.atStake userId currency m = s.inEscrow userId currency := by
      by_cases hmm : m = m₀
      · rw [hmm, hm₀]
      · -- another match had the stake, and it is down to nothing
        rw [hothers m hmm, ← hm₀, hsolo m₀ (Ne.symm hmm)]
    refine ⟨?_, m, ?_, fun m' hm' => ?_⟩
    · rw [hescrow, if_pos rfl]
      exact hδ
    · rw [hescrow, hstake, if_pos rfl, if_pos ⟨rfl, rfl⟩, hm]
    · rw [hstake, if_neg fun h => hm' h.2, add_zero, hsolo m' hm']
  · refine ⟨?_, m₀, ?_, fun m' hm' => ?_⟩
    · rw [hescrow, if_neg hc, add_zero]
      exact hnonneg
    · rw [hescrow, hstake, if_neg hc, if_neg fun h => hc h.1, add_zero, add_zero, hm₀]
    · rw [hstake, if_neg fun h => hc h.1, add_zero, hothers m' hm']

theorem backed_of_unstaked (h : Unstaked userId s) : Backed userId s := by
  have hzero : ∀ currency m, s.atStake userId currency m = 0 := by
    intro currency m
    rw [atStake, locked, paidOut, sumOf_eq_zero, sumOf_eq_zero, sub_zero]
    · rintro row hrow ⟨⟨huser, -⟩, htype⟩
      rcases htype with htype | htype
      · exact (h.records row hrow huser).2.1 htype
      · exact (h.records row hrow huser).2.2 htype
    · rintro row hrow ⟨⟨huser, -⟩, htype⟩
      exact (h.records row hrow huser).1 htype
  intro currency
  refine ⟨(h.escrowed currency).ge, none, ?_, fun m _ => hzero currency m⟩
  rw [hzero, h.escrowed]

/-- What the rule says of the matches that records name it says of all. -/
theorem solo_of_records (h : ∀ row ∈ s.walletTransactions, row.matchId ≠ m → s.atStake userId c row.matchId = 0) :
    ∀ m' ≠ m, s.atStake userId c m' = 0 := by
  intro m' hm'
  by_cases hnamed : ∃ row ∈ s.walletTransactions, row.matchId = m'
  · obtain ⟨row, hrow, rfl⟩ := hnamed
    exact h row hrow hm'
  · exact atStake_of_unnamed fun row hrow hm => hnamed ⟨row, hrow, hm⟩

theorem WalletCall.OneMatch.scaled [Columns] {call : WalletCall} (h : call.OneMatch userId s) :
    Columns.Scaled call.amount := by
  cases call with
  | lock | release | slash => exact h.2.1.2
  | credit | debit | transfer => exact h.elim

open ExactDecimals in
theorem inEscrow_post_of {op : Operation} {a δ : ℚ} {k : String}
    (h : (op.newEscrow (s.inEscrow userId c) a).getD (s.inEscrow userId c) = s.inEscrow userId c + δ)
    (currency : Currency) :
    (op.post userId c a m k s).inEscrow userId currency = s.inEscrow userId currency +
      if currency = c then δ else 0 := by
  rw [inEscrow_post]
  by_cases hc : currency = c
  · subst hc
    rw [if_pos ⟨rfl, rfl⟩, if_pos rfl, h]
  · rw [if_neg fun h => hc h.2, if_neg hc, add_zero]

open ExactDecimals in
theorem records_post {op : Operation} {a : ℚ} {k : String} : (op.post userId c a m k s).walletTransactions =
    s.walletTransactions ++ [op.record userId c a m k (s.available userId c) (s.inEscrow userId c)] :=
  congrArg (· ++ [_]) (walletTransactions_ensureLedger s userId)

theorem Backed.outcome [Columns] {call : WalletCall} {r : Except WalletError WalletTransaction × Wallets}
    (hs : Backed userId s) (hkept : s.Kept) (hone : call.OneMatch userId s) (h : Outcome call s r) :
    Backed userId r.2 := by
  have h := h.exact hkept hone.scaled
  cases h with
  | repeated _ => exact hs
  | refused => exact hs
  | posted _ hallowed =>
    cases call with
    | lock u c a m k =>
      obtain ⟨rfl, ⟨ha, -⟩, hsolo⟩ := hone
      refine hs.move (solo_of_records hsolo) (inEscrow_post_of rfl)
        (fun currency matchId => (atStake_record records_post).trans (by simp [locking])) ?_
      exact add_nonneg (hs c).1 ha
    | release u c a m k | slash u c a m k =>
      obtain ⟨rfl, ⟨ha, -⟩, hsolo⟩ := hone
      refine hs.move (solo_of_records hsolo) (inEscrow_post_of (sub_eq_add_neg _ a))
        (fun currency matchId => (atStake_record records_post).trans (by simp [releasing, slashing])) ?_
      rw [← sub_eq_add_neg]
      exact sub_nonneg.2 hallowed
    | credit | debit | transfer => exact hone.elim

/-- A user who has something at stake under one match at a time, in each currency, in amounts that the columns can hold:
no more is paid out under a match than has been locked under it. -/
theorem escrow_per_match [Columns] {s₀ : Wallets} {u : Unit} (hkept : s₀.Kept) (hs₀ : Unstaked userId s₀)
    (h : (wallet s₀).Reach (fun _ _ s call => call.OneMatch userId s) u s) (matchId : Option String)
    (currency : Currency) :
    s.paidOut userId currency matchId ≤ s.locked userId currency matchId := by
  have hbacked : s.Kept ∧ Backed userId s := by
    refine TransitionSystem.Reach.invariant (P := fun _ s => s.Kept ∧ Backed userId s) ?_ ?_ h
    · rintro _ s rfl
      exact ⟨hkept, backed_of_unstaked hs₀⟩
    · rintro _ _ s call s' ⟨hkept, hs⟩ hone hstep
      cases hstep
      exact ⟨hkept.outcome (outcome call s), hs.outcome hkept hone (outcome call s)⟩
  obtain ⟨hnonneg, m₀, hm₀, hothers⟩ := hbacked.2 currency
  refine sub_nonneg.1 ?_
  by_cases hm : matchId = m₀
  · rw [← atStake, hm, hm₀]
    exact hnonneg
  · rw [← atStake, hothers matchId hm]

end Stakes

instance [Columns] (userId : String) (s : Wallets) : DecidablePred (WalletCall.OneMatch userId s)
  | .lock u currency amount matchId _ | .release u currency amount matchId _ | .slash u currency amount matchId _ =>
    inferInstanceAs (Decidable (u = userId ∧ (0 ≤ amount ∧ Columns.Scaled amount) ∧
      ∀ row ∈ s.walletTransactions, row.matchId ≠ matchId → s.atStake userId currency row.matchId = 0))
  | .credit _ _ _ _ | .debit _ _ _ _ | .transfer _ _ _ _ _ _ => .isFalse id

namespace Sample

open SevenDecimals

/-- Alice has 100 and nothing in escrow. -/
def alone : Wallets := ⟨[⟨"alice", fun _ => 100, fun _ => 0⟩], []⟩

theorem kept_alone : alone.Kept := by
  have hhundred : Columns.Scaled 100 ∧ Columns.Scaled 0 := by decide +kernel
  exact List.forall_mem_singleton.2 fun _ => hhundred

theorem unstaked_alone : Unstaked "alice" alone := ⟨fun _ => rfl, fun _ h => nomatch h⟩

/-- The first stake is released before the second is locked. -/
def twoMatches : List (Unit × WalletCall) :=
  [((), .lock "alice" .xlm 60 (some "first") "a"), ((), .release "alice" .xlm 60 (some "first") "b"),
    ((), .lock "alice" .xlm 80 (some "second") "c"), ((), .slash "alice" .xlm 20 (some "second") "d")]

theorem escrow_per_match_twoMatches : ∃ s, (wallet alone).Reach (fun _ _ s call => call.OneMatch "alice" s) () s ∧
    (∀ matchId, s.paidOut "alice" .xlm matchId ≤ s.locked "alice" .xlm matchId) ∧
    s.paidOut "alice" .xlm (some "second") = 20 ∧ s.locked "alice" .xlm (some "second") = 80 := by
  have hreach := TransitionSystem.Reach.replay (.init rfl) (evaluated
    (o := (wallet alone).replay (fun _ _ s call => call.OneMatch "alice" s) () alone twoMatches))
  exact ⟨_, hreach, fun matchId => escrow_per_match kept_alone unstaked_alone hreach matchId .xlm, by decide +kernel⟩

/-- The stake of one match is paid out under another, for which nothing has been locked. -/
theorem paid_under_another : ∃ s, (wallet alone).Reach Unrestricted () s ∧
    s.paidOut "alice" .xlm (some "second") = 60 ∧ s.locked "alice" .xlm (some "second") = 0 := by
  have hreach := TransitionSystem.Reach.replay (.init rfl) (evaluated
    (o := (wallet alone).replay Unrestricted () alone [((), .lock "alice" .xlm 60 (some "first") "a"), ((),
      .release "alice" .xlm 60 (some "second") "b")]))
  exact ⟨_, hreach, by decide +kernel⟩

end Sample

end ArenaX.ServerWallet
