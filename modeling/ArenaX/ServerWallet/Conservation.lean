/-
Wallet operations one after another. With amounts that are not negative, and transfers between different users, no
balance becomes negative, and what all users have together changes with new credits, debits and slashes only. A transfer
to oneself creates money. A call that has succeeded is a call whose key is in use, and a call whose key is in use
changes nothing. Columns are exact here.
-/
import ArenaX.Lib.Runs
import ArenaX.ServerWallet.Calls

namespace ArenaX.ServerWallet

open Dialog Wallets ExactDecimals
open TransitionSystem (Unrestricted)

/-! ## Totals -/

section Totals

variable {s : Wallets} {u : String} {c : Currency} {b e : Option ℚ}

/-- What all users have in a currency. -/
def Wallets.total (s : Wallets) (currency : Currency) : ℚ :=
  (s.ledgers.map fun ledger => ledger.balance currency + ledger.escrowed currency).sum

/-- Each user has one ledger row. -/
def Unique (s : Wallets) : Prop := (s.ledgers.map Ledger.userId).Nodup

theorem Unique.ensureLedger (h : Unique s) (u : String) : Unique (s.ensureLedger u) := by
  unfold Wallets.ensureLedger
  split
  · exact h
  · rename_i hnone
    have hu : u ∉ s.ledgers.map Ledger.userId := by
      intro hu
      obtain ⟨ledger, hledger, rfl⟩ := List.mem_map.1 hu
      exact hnone (by rw [findLedger, Rows.find_of_mem h hledger]; rfl)
    unfold Unique insertLedger
    rw [List.map_append]
    refine List.Nodup.append h (List.nodup_singleton _) ?_
    rw [List.map_singleton, List.disjoint_singleton]
    exact hu

theorem Unique.updateLedger (h : Unique s) : Unique (s.updateLedger u c b e) := by
  have hkeys : ((s.updateLedger u c b e).ledgers.map Ledger.userId) = s.ledgers.map Ledger.userId :=
    Rows.keys_modify fun _ => rfl
  unfold Unique
  rw [hkeys]
  exact h

theorem total_ensureLedger (s : Wallets) (u : String) (currency : Currency) :
    (s.ensureLedger u).total currency = s.total currency := by
  unfold Wallets.ensureLedger
  split
  · rfl
  · rw [insertLedger]
    simp [total, Ledger.new]

theorem total_updateLedger (hunique : Unique s) (h : (s.findLedger u).isSome) (currency : Currency) :
    (s.updateLedger u c b e).total currency = s.total currency + if currency = c then
      (b.getD (s.available u c) - s.available u c) + (e.getD (s.inEscrow u c) - s.inEscrow u c) else 0 := by
  obtain ⟨ledger, hledger⟩ := Option.isSome_iff_exists.1 h
  refine (Rows.sum_modify hunique hledger).trans (congrArg _ ?_)
  have hof : s.ledgerOf u = ledger := by rw [ledgerOf, hledger, Option.getD_some]
  simp only [available, inEscrow, hof, Ledger.put, map_exact, Function.update_apply]
  split
  · rename_i hc
    rw [hc]
    ring
  · ring

variable {op : Operation} {amount : ℚ} {matchId : Option String} {k : String} {type : TransactionType}

theorem total_post (hunique : Unique s) (currency : Currency) :
    (op.post u c amount matchId k s).total currency = s.total currency + if currency = c then
      ((op.newBalance (s.available u c) amount).getD (s.available u c) - s.available u c) +
        ((op.newEscrow (s.inEscrow u c) amount).getD (s.inEscrow u c) - s.inEscrow u c) else 0 := by
  refine (total_updateLedger (hunique.ensureLedger u) (isSome_ensureLedger s u) currency).trans ?_
  rw [total_ensureLedger, available_ensureLedger, inEscrow_ensureLedger]

/-- What one user gives the other gets, if they are two. -/
theorem total_transferred {fromUserId toUserId : String} (hunique : Unique s) (hne : fromUserId ≠ toUserId)
    (currency : Currency) : (transferred fromUserId toUserId c amount type k s).total currency = s.total currency := by
  have hensured := (hunique.ensureLedger fromUserId).ensureLedger toUserId
  have hfrom : (((s.ensureLedger fromUserId).ensureLedger toUserId).findLedger fromUserId).isSome :=
    isSome_ensureLedger_of (isSome_ensureLedger s fromUserId) toUserId
  have hto : (((s.ensureLedger fromUserId).ensureLedger toUserId).findLedger toUserId).isSome :=
    isSome_ensureLedger _ toUserId
  -- the sender's side leaves the recipient's balance as it was read
  have hkept : ∀ b, (((s.ensureLedger fromUserId).ensureLedger toUserId).updateLedger fromUserId c b none).available
      toUserId c = s.available toUserId c := by
    intro b
    rw [available_updateLedger hfrom, if_neg fun h => hne h.1.symm, available_ensureLedger, available_ensureLedger]
  refine (total_updateLedger hensured.updateLedger (isSome_updateLedger hto) currency).trans ?_
  rw [total_updateLedger hensured hfrom, total_ensureLedger, total_ensureLedger, hkept, available_ensureLedger,
    available_ensureLedger]
  simp only [Option.getD_some, Option.getD_none]
  split
  · ring
  · ring

end Totals

/-! ## Runs -/

namespace WalletCall

/-- What a new call adds to what all users have. -/
def delta (currency : Currency) : WalletCall → ℚ
  | .credit _ c amount _ => if currency = c then amount else 0
  | .debit _ c amount _ | .slash _ c amount _ _ => if currency = c then -amount else 0
  | _ => 0

/-- The call succeeds, and nothing is recorded under its key. -/
def IsNew (s : Wallets) (call : WalletCall) : Prop := s.findTransaction call.key = none ∧ (call.session.run s).1.isOk
deriving Decidable

def change (currency : Currency) (s : Wallets) (call : WalletCall) : ℚ :=
  if call.IsNew s then call.delta currency else 0

/-- No transfer to oneself. -/
def TwoSided : WalletCall → Prop
  | .transfer fromUserId toUserId _ _ _ _ => fromUserId ≠ toUserId
  | _ => True

instance : DecidablePred TwoSided
  | .transfer fromUserId toUserId _ _ _ _ => inferInstanceAs (Decidable (fromUserId ≠ toUserId))
  | .credit _ _ _ _ | .debit _ _ _ _ | .lock _ _ _ _ _ | .release _ _ _ _ _ | .slash _ _ _ _ _ => .isTrue trivial

end WalletCall

/-- Calls that do not overlap, from a store on. -/
def wallet [Columns] (s₀ : Wallets) : TransitionSystem Unit Wallets WalletCall where
  init _ s := s = s₀
  step _ s call := some (call.session.run s).2

/-- Amounts that are not negative, and transfers between different users. -/
abbrev Fair : TransitionSystem.Rule Unit Wallets WalletCall := fun _ _ _ call => 0 ≤ call.amount ∧ call.TwoSided

/-- The store after calls made one after another. -/
def runAll (s : Wallets) : List WalletCall → Wallets
  | [] => s
  | call :: calls => runAll (call.session.run s).2 calls

/-- Calls of a kind, made one after another, are a run. -/
theorem tally_runAll {s₀ : Wallets} {p : WalletCall → Prop} {q : Unit → Wallets → WalletCall → ℚ} :
    ∀ {calls : List WalletCall} {n : ℚ} {s : Wallets},
    (∀ call ∈ calls, p call) → (wallet s₀).Tally (fun _ _ _ call => p call) q n () s →
    (wallet s₀).Tally (fun _ _ _ call => p call) q (n + (wallet s₀).tallied q s (calls.map fun call => ((), call))) ()
    (runAll s calls)
  | [], n, s, _, h => by
    rw [List.map_nil, TransitionSystem.tallied, add_zero]
    exact h
  | call :: calls, n, s, hp, h => by
    have hstep : (wallet s₀).Tally (fun _ _ _ call => p call) q (n + q () s call) () (call.session.run s).2 :=
      h.step (hp call List.mem_cons_self) rfl
    have hrest := tally_runAll (fun call hcall => hp call (List.mem_cons_of_mem _ hcall)) hstep
    rw [add_assoc] at hrest
    exact hrest

structure Sound (s : Wallets) : Prop where
  unique : Unique s
  nonneg : ∀ userId currency, 0 ≤ s.available userId currency ∧ 0 ≤ s.inEscrow userId currency

section Run

variable {s₀ s : Wallets} {call : WalletCall} {r : Except WalletError WalletTransaction × Wallets}

theorem Unique.post (h : Unique s) (call : WalletCall) : Unique (call.post s) := by
  cases call with
  | transfer fromUserId toUserId currency amount type key =>
    exact ((h.ensureLedger fromUserId).ensureLedger toUserId).updateLedger.updateLedger
  | _ => exact (h.ensureLedger _).updateLedger

/-- The balances after a call that goes through, from those before it. -/
theorem nonneg_post (hs : ∀ userId currency, 0 ≤ s.available userId currency ∧ 0 ≤ s.inEscrow userId currency)
    (hallowed : call.Allowed s) (hamount : 0 ≤ call.amount) (userId : String) (currency : Currency) :
    0 ≤ (call.post s).available userId currency ∧ 0 ≤ (call.post s).inEscrow userId currency := by
  -- one operation on one ledger: the columns it writes are not negative
  have hone : ∀ {op : Operation} {u c a m k}, 0 ≤ (op.newBalance (s.available u c) a).getD (s.available u c) →
      0 ≤ (op.newEscrow (s.inEscrow u c) a).getD (s.inEscrow u c) →
      0 ≤ (op.post u c a m k s).available userId currency ∧ 0 ≤ (op.post u c a m k s).inEscrow userId currency := by
    intro op u c a m k hb he
    rw [available_post, inEscrow_post]
    constructor
    · split
      · exact hb
      · exact (hs _ _).1
    · split
      · exact he
      · exact (hs _ _).2
  cases call with
  | credit u c a k => exact hone (add_nonneg (hs u c).1 hamount) (hs u c).2
  | debit u c a k => exact hone (sub_nonneg.2 hallowed) (hs u c).2
  | lock u c a m k => exact hone (sub_nonneg.2 hallowed) (add_nonneg (hs u c).2 hamount)
  | release u c a m k => exact hone (add_nonneg (hs u c).1 hamount) (sub_nonneg.2 hallowed)
  | slash u c a m k => exact hone (hs u c).1 (sub_nonneg.2 hallowed)
  | transfer fromUserId toUserId c a type k =>
    constructor
    · rw [WalletCall.post, available_transferred]
      split
      · exact add_nonneg (hs _ _).1 hamount
      · split
        · exact sub_nonneg.2 hallowed.1
        · exact (hs _ _).1
    · rw [WalletCall.post, inEscrow_transferred]
      exact (hs _ _).2

theorem total_post_eq (hunique : Unique s) (htwo : call.TwoSided) (currency : Currency) :
    (call.post s).total currency = s.total currency + call.delta currency := by
  cases call with
  | transfer fromUserId toUserId c a type k => exact (total_transferred hunique htwo currency).trans (add_zero _).symm
  | credit | debit | slash =>
    refine (total_post hunique currency).trans (congrArg _ (if_congr Iff.rfl ?_ rfl))
    simp [applied, slashing]
  | lock | release =>
    refine (total_post hunique currency).trans (congrArg _ ?_)
    simp [locking, releasing, WalletCall.delta]

theorem Sound.outcome (hs : Sound s) (hamount : 0 ≤ call.amount)
    (h : Outcome call s r) : Sound r.2 := by
  cases h with
  | repeated _ => exact hs
  | refused => exact hs
  | posted _ hallowed => exact ⟨hs.unique.post call, nonneg_post hs.nonneg hallowed hamount⟩

theorem total_outcome (hunique : Unique s) (htwo : call.TwoSided)
    (currency : Currency) (h : Outcome call s r) : r.2.total currency = s.total currency +
      if s.findTransaction call.key = none ∧ r.1.isOk then call.delta currency else 0 := by
  cases h with
  | repeated hfound => rw [if_neg fun hnew => by simp [hfound] at hnew, add_zero]
  | refused =>
    rw [if_neg fun hnew => absurd hnew.2 Bool.false_ne_true]
    exact (add_zero _).symm
  | posted hnew _ => rw [if_pos ⟨hnew, rfl⟩, total_post_eq hunique htwo]

/-- Along a run of fair calls, with the sum of what they add. -/
theorem sound_of_tally {n : ℚ} {u : Unit} {currency : Currency} (hs₀ : Sound s₀)
    (h : (wallet s₀).Tally Fair (fun _ s call => call.change currency s) n u s) :
    Sound s ∧ s.total currency = s₀.total currency + n := by
  refine TransitionSystem.Tally.invariant (P := fun n _ s => Sound s ∧ s.total currency = s₀.total currency + n) ?_ ?_ h
  · rintro e s rfl
    exact ⟨hs₀, (add_zero _).symm⟩
  · rintro n e e' s call s' - ⟨hs, htotal⟩ hfair hstep
    cases hstep
    refine ⟨hs.outcome hfair.1 (outcome call s), ?_⟩
    rw [← add_assoc, ← htotal]
    exact total_outcome hs.unique hfair.2 currency (outcome call s)

/-! ### Repeated calls -/

theorem recorded_of_ok {row : WalletTransaction} (h : Outcome call s r)
    (hok : r.1 = .ok row) : (r.2.findTransaction call.key).isSome := by
  cases h with
  | repeated hfound => exact Option.isSome_iff_exists.2 ⟨_, hfound⟩
  | refused => cases hok
  | posted hnew _ => exact recorded_key

theorem recorded_outcome {k : String} (hk : (s.findTransaction k).isSome)
    (h : Outcome call s r) : (r.2.findTransaction k).isSome := by
  cases h with
  | repeated _ => exact hk
  | refused => exact hk
  | posted _ _ => exact recorded_post hk

theorem recorded_of_reach {k : String} {t : Wallets} {u : Unit} (hk : (s.findTransaction k).isSome)
    (h : (wallet s).Reach Unrestricted u t) : (t.findTransaction k).isSome := by
  refine TransitionSystem.Reach.invariant (P := fun _ t => (t.findTransaction k).isSome) ?_ ?_ h
  · rintro e t rfl
    exact hk
  · rintro e e' t call t' ht - hstep
    cases hstep
    exact recorded_outcome ht (outcome call t)

/-- A call whose key is in use changes nothing. -/
theorem run_of_recorded (hk : (s.findTransaction call.key).isSome)
    (h : Outcome call s r) : r.2 = s := by
  cases h with
  | repeated _ => rfl
  | refused => rfl
  | posted hnew _ =>
    rw [hnew] at hk
    cases hk

/-- Fair calls from a sound store leave no balance negative, and change what all users have by what the new ones add. A
call that has succeeded, in any store, can be repeated after any further calls, and changes nothing. -/
theorem wallet_conservation {n : ℚ} {u : Unit} {currency : Currency} (hs₀ : Sound s₀)
    (h : (wallet s₀).Tally Fair (fun _ s call => call.change currency s) n u s) :
    (∀ ledger ∈ s.ledgers, ∀ c, 0 ≤ ledger.balance c ∧ 0 ≤ ledger.escrowed c) ∧
    s.total currency = s₀.total currency + n ∧
    ∀ (call : WalletCall) (r : Wallets) (row : WalletTransaction), (call.session.run r).1 = .ok row →
      ∀ u t, (wallet (call.session.run r).2).Reach Unrestricted u t → (call.session.run t).2 = t := by
  obtain ⟨hs, htotal⟩ := sound_of_tally hs₀ h
  refine ⟨?_, htotal, ?_⟩
  · intro ledger hledger c
    have hof : s.ledgerOf ledger.userId = ledger := by
      rw [ledgerOf, findLedger, Rows.find_of_mem hs.unique hledger, Option.getD_some]
    have hnonneg := hs.nonneg ledger.userId c
    rwa [available, inEscrow, hof] at hnonneg
  · intro call r row hok u t ht
    have hrecorded := recorded_of_ok (outcome call r) hok
    exact run_of_recorded (recorded_of_reach hrecorded ht) (outcome call t)

end Run

namespace Sample

def empty : Wallets := ⟨[], []⟩

theorem sound_empty : Sound empty := ⟨List.nodup_nil, fun _ _ => ⟨le_refl _, le_refl _⟩⟩

def deposit : WalletCall := .credit "alice" .xlm 100 "deposit"

/-- A deposit, a stake, a fee and a forfeit; the fee is charged once only. -/
def season : List WalletCall := [deposit, .lock "alice" .xlm 40 (some "final") "stake",
  .transfer "alice" "house" .xlm 30 .platformFee "fee", .transfer "alice" "house" .xlm 30 .platformFee "fee",
  .slash "alice" .xlm 10 (some "final") "forfeit"]

theorem wallet_conservation_season :
    (∀ ledger ∈ (runAll empty season).ledgers, ∀ c, 0 ≤ ledger.balance c ∧ 0 ≤ ledger.escrowed c) ∧
    (runAll empty season).total .xlm = 90 ∧ (runAll empty season).available "alice" .xlm = 30 ∧
    (runAll empty season).inEscrow "alice" .xlm = 30 := by
  have hfair : ∀ call ∈ season, 0 ≤ call.amount ∧ call.TwoSided := by decide +kernel
  have hrun := tally_runAll (q := fun _ s call => call.change .xlm s) hfair (.init (M := wallet empty) rfl)
  obtain ⟨hnonneg, htotal, -⟩ := wallet_conservation sound_empty hrun
  exact ⟨hnonneg, htotal.trans (by decide +kernel), by decide +kernel, by decide +kernel⟩

def toOneself : List WalletCall := [deposit, .transfer "alice" "alice" .xlm 100 .platformFee "fee"]

/-- A transfer to oneself creates money, and a lock of a negative amount leaves a negative balance. -/
theorem money_from_nothing :
    (∃ s, (wallet empty).Tally Unrestricted (fun _ s call => call.change .xlm s) 100 () s ∧ s.total .xlm = 200) ∧
    ∃ s, (wallet empty).Reach Unrestricted () s ∧ s.inEscrow "alice" .xlm < 0 := by
  constructor
  · refine ⟨runAll empty toOneself, ?_, by decide +kernel⟩
    have hany : ∀ call ∈ toOneself, True := fun _ _ => trivial
    have hrun := tally_runAll (q := fun _ s call => call.change .xlm s) hany (.init (M := wallet empty) rfl)
    rwa [show 0 + (wallet empty).tallied _ empty _ = (100 : ℚ) by decide +kernel] at hrun
  · exact ⟨runAll empty [.lock "alice" .xlm (-5) (some "final") "stake"],
      .step (.init (e := ()) rfl) trivial rfl, by decide +kernel⟩

end Sample

end ArenaX.ServerWallet
