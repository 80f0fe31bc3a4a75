/-
The supply against the balances. Minting adds the same to both. A transfer takes the whole batch from the sender and
credits the recipients, but for the sender themself, so that what a sender transfers to their own address is gone.
-/
import ArenaX.BatchOperations.Contract

namespace ArenaX.BatchOperations

open Machine Exec Sample
open Host (Address)

/-- What a batch pays to others than the sender. -/
def toOthers (sender : Address) (items : List (Address × I128)) : List (Address × I128) :=
  items.filter (·.1 ≠ sender)

/-- What a batch pays to the sender. -/
def toSelf (sender : Address) (items : List (Address × I128)) : List (Address × I128) := items.filter (·.1 = sender)

theorem totalAmount_split (sender : Address) : ∀ items : List (Address × I128),
    totalAmount (toOthers sender items) + totalAmount (toSelf sender items) = totalAmount items
  | [] => rfl
  | item :: items => by
    have ih := totalAmount_split sender items
    unfold totalAmount toOthers toSelf at ih ⊢
    by_cases h : item.1 = sender
    · simp [h] at ih ⊢
      omega
    · simp [h] at ih ⊢
      omega

section Loops

variable {sender : Address}

theorem run_credit {b b' : Table Address I128} {item : Address × I128} (h : (credit b item).run .exact = some b') :
    ledger b' = ledger b + Finsupp.single item.1 (item.2 : ℤ) := by
  simp only [credit, run_iff, run_unchecked_exact] at h
  obtain ⟨balance, hbalance, rfl⟩ := h
  exact ledger_set_add hbalance

/-- The loop of a transfer credits everyone but the sender. -/
theorem transferLoop_spec : ∀ {items : List (Address × I128)} {b b' : Table Address I128},
    (items.foldlM (creditOther sender) b).run .exact = some b' →
      ledger b' = ledger b + credits (toOthers sender items)
  | [], b, b', h => by
    cases h
    simp [toOthers, credits, payments]
  | item :: items, b, b', h => by
    rw [List.foldlM_cons, run_bind] at h
    obtain ⟨b₁, hstep, h⟩ := Option.bind_eq_some_iff.1 h
    rw [transferLoop_spec h]
    unfold creditOther at hstep
    split at hstep
    · rename_i hself
      cases hstep
      rw [toOthers, toOthers, List.filter_cons_of_neg (by simpa using hself)]
    · rename_i hother
      rw [run_credit hstep, toOthers, toOthers, List.filter_cons_of_pos (by simpa using hother), credits, credits,
        payments, add_assoc]

/-- The loop of a mint credits everyone and adds up the supply. -/
theorem mintLoop_spec : ∀ {items : List (Address × I128)} {acc r : Table Address I128 × I128},
    (items.foldlM issue acc).run .exact = some r →
      ledger r.1 = ledger acc.1 + credits items ∧ r.2 = acc.2 + totalAmount items
  | [], acc, r, h => by
    cases h
    simp [credits, payments, totalAmount]
  | item :: items, acc, r, h => by
    rw [List.foldlM_cons, run_bind] at h
    obtain ⟨acc₁, hstep, h⟩ := Option.bind_eq_some_iff.1 h
    obtain ⟨hledger, hsupply⟩ := mintLoop_spec h
    simp only [issue, run_iff, run_unchecked_exact] at hstep
    obtain ⟨balances, hbalances, supply, hadd, rfl⟩ := hstep
    refine ⟨?_, ?_⟩
    · rw [hledger, run_credit hbalances, credits, credits, payments, add_assoc]
    · rw [hsupply, hadd, totalAmount, totalAmount, List.map_cons, List.sum_cons, add_assoc]

theorem totalDeduction_spec {m : Mode} : ∀ {amounts : List I128} {acc total : I128},
    (amounts.foldlM addAmount acc).run m = some total →
      (∀ amount ∈ amounts, 0 < (amount : ℤ)) ∧ total = acc + (amounts.map IntType.Val.toInt).sum
  | [], acc, total, h => by
    rw [List.foldlM_nil, run_pure] at h
    cases h
    simp
  | amount :: amounts, acc, total, h => by
    rw [List.foldlM_cons, run_bind] at h
    obtain ⟨acc₁, hstep, h⟩ := Option.bind_eq_some_iff.1 h
    obtain ⟨hpos, htotal⟩ := totalDeduction_spec h
    simp only [addAmount, run_iff, checked_eq_some, not_le] at hstep
    obtain ⟨-, hamount, hacc⟩ := hstep
    refine ⟨List.forall_mem_cons.2 ⟨hamount, hpos⟩, ?_⟩
    rw [htotal, hacc, List.map_cons, List.sum_cons, add_assoc]

end Loops

section Steps

variable {env : Env} {s s' : State} {c : Call} {sender : Address} {recipients : List Address} {amounts : List I128}

theorem run_validateBatch {m : Mode} {lenA lenB : ℕ} {u : Unit} (h : (validateBatch lenA lenB).run m = some u) :
    lenA = lenB := by
  simp only [validateBatch, run_iff, not_not] at h
  obtain ⟨-, -, -, hlen, -⟩ := h
  exact hlen

theorem totalAmount_zip (h : recipients.length = amounts.length) :
    totalAmount (recipients.zip amounts) = (amounts.map IntType.Val.toInt).sum := by
  have hsnd : (recipients.zip amounts).map Prod.snd = amounts := List.map_snd_zip h.ge
  conv_rhs => rw [← hsnd, List.map_map]
  rfl

/-- A transfer takes all of the batch from the sender and credits everyone else. -/
theorem batchTransfer_spec (h : (batchTransfer env s sender recipients amounts).run .exact = some s') :
    (∀ item ∈ recipients.zip amounts, 0 < (item.2 : ℤ)) ∧
    totalAmount (recipients.zip amounts) ≤ Machine.balance s.balance sender ∧
    s'.totalSupply = s.totalSupply ∧
    ledger s'.balance = ledger s.balance + credits (toOthers sender (recipients.zip amounts)) +
      Finsupp.single sender (-totalAmount (recipients.zip amounts)) := by
  simp only [batchTransfer, run_iff, run_unchecked_exact, not_lt] at h
  obtain ⟨-, -, -, -, _, hlen, total, htotal, -, hle, rest, hrest, b, hloop, rfl⟩ := h
  have hlen := run_validateBatch hlen
  obtain ⟨hpos, htotal⟩ := totalDeduction_spec htotal
  rw [← totalAmount_zip hlen, toInt_zero, zero_add] at htotal
  have hledger := transferLoop_spec hloop
  have hsender : (Machine.balance b sender : ℤ) = Machine.balance s.balance sender := by
    have happly := DFunLike.congr_fun hledger sender
    rw [Finsupp.add_apply, ledger_apply, ledger_apply, credits, payments_apply_eq_zero, add_zero] at happly
    · exact happly
    · intro item hitem
      simpa using (List.mem_filter.1 hitem).2
  refine ⟨fun item hitem => hpos item.2 (List.of_mem_zip hitem).2, htotal ▸ hle, rfl, ?_⟩
  show ledger (b.set sender rest) = _
  rw [ledger_set, hrest, hsender, htotal, hledger]
  congr 2
  ring

theorem batchMint_spec (h : (batchMint env s recipients amounts).run .exact = some s') :
    (∀ item ∈ recipients.zip amounts, 0 < (item.2 : ℤ)) ∧
    (s'.totalSupply : ℤ) = s.totalSupply + totalAmount (recipients.zip amounts) ∧
    ledger s'.balance = ledger s.balance + credits (recipients.zip amounts) := by
  simp only [batchMint, run_iff, run_forM, not_le] at h
  obtain ⟨-, -, -, -, -, -, -, hpos, r, hloop, rfl⟩ := h
  obtain ⟨hledger, hsupply⟩ := mintLoop_spec hloop
  exact ⟨fun item hitem => hpos item.2 (List.of_mem_zip hitem).2, hsupply, hledger⟩

/-- A transfer leaves the sum of the balances, less what the sender transfers to their own address. -/
theorem batchTransfer_degree (h : (batchTransfer env s sender recipients amounts).run .exact = some s') :
    (ledger s'.balance).degree =
      (ledger s.balance).degree - totalAmount (toSelf sender (recipients.zip amounts)) := by
  obtain ⟨-, -, -, hledger⟩ := batchTransfer_spec h
  rw [hledger, map_add, map_add, degree_credits, Finsupp.degree_single,
    ← totalAmount_split sender (recipients.zip amounts)]
  ring

/-- The supply is the sum of the balances, and none is negative. -/
structure State.Conserved (s : State) : Prop where
  supply : (s.totalSupply : ℤ) = (ledger s.balance).degree
  nonneg : 0 ≤ ledger s.balance

theorem batchTransfer_conserved (hs : s.Conserved) (hother : sender ∉ recipients)
    (h : (batchTransfer env s sender recipients amounts).run .exact = some s') : s'.Conserved := by
  have hdegree := batchTransfer_degree h
  obtain ⟨hpos, hle, hsupply, hledger⟩ := batchTransfer_spec h
  have hself : toSelf sender (recipients.zip amounts) = [] := by
    refine List.filter_eq_nil_iff.2 fun item hitem heq => hother ?_
    exact of_decide_eq_true heq ▸ (List.of_mem_zip hitem).1
  refine ⟨?_, fun a => ?_⟩
  · rw [hsupply, hdegree, hself, hs.supply]
    exact (sub_zero _).symm
  · have hcredits : 0 ≤ credits (toOthers sender (recipients.zip amounts)) :=
      payments_nonneg fun item hitem => (hpos item (List.mem_filter.1 hitem).1).le
    have hbalance := hs.nonneg a
    have hcredit := hcredits a
    rw [hledger, Finsupp.add_apply, Finsupp.add_apply, Finsupp.single_apply]
    rw [Finsupp.zero_apply] at hbalance hcredit ⊢
    split
    · rename_i hsame
      subst hsame
      rw [ledger_apply] at hbalance ⊢
      omega
    · omega

theorem batchMint_conserved (hs : s.Conserved) (h : (batchMint env s recipients amounts).run .exact = some s') :
    s'.Conserved := by
  obtain ⟨hpos, hsupply, hledger⟩ := batchMint_spec h
  refine ⟨?_, ?_⟩
  · rw [hsupply, hledger, map_add, degree_credits, hs.supply]
  · rw [hledger]
    exact add_nonneg hs.nonneg (payments_nonneg fun item hitem => (hpos item hitem).le)

end Steps

/-! ## Runs -/

/-- No transfer is to the sender. -/
def Call.Outgoing : Call → Prop
  | .batchTransfer sender recipients _ => sender ∉ recipients
  | .batchMint .. => True

instance (c : Call) : Decidable c.Outgoing := by
  apply Call.casesOn (motive := fun c => Decidable c.Outgoing) c <;> intros <;> dsimp only [Call.Outgoing] <;>
    infer_instance

def Outgoing : Rule := fun _ _ _ c => c.Outgoing

instance (e e' : Env) (s : State) (c : Call) : Decidable (Outgoing e e' s c) := inferInstanceAs (Decidable c.Outgoing)

section Runs

variable {e : Env} {s : State}

theorem reach_conserved (h : (contract .exact).Reach Outgoing e s) : s.Conserved := by
  refine h.invariant (P := fun _ s => s.Conserved) ?_ ?_
  · rintro e s ⟨admin, hinit⟩
    simp only [initializeContract, run_iff] at hinit
    obtain ⟨-, -, -, -, rfl⟩ := hinit
    exact ⟨by simp, by simp⟩
  · intro e e' s c s' hs hok hstep
    cases c with
    | batchTransfer => exact batchTransfer_conserved hs hok hstep
    | batchMint => exact batchMint_conserved hs hstep

/-- Where no transfer is to the sender, the supply is the sum of the balances, and none is negative. -/
theorem supply_is_held (h : (contract .exact).Reach Outgoing e s) :
    (s.totalSupply : ℤ) = ∑ᶠ a, (Machine.balance s.balance a : ℤ) ∧ ∀ a, 0 ≤ (Machine.balance s.balance a : ℤ) := by
  have hs := reach_conserved h
  exact ⟨hs.supply.trans (degree_ledger _), hs.nonneg⟩

/-- Alice gets 120 in two parts and Bob 50; Alice transfers 40 to Bob in two parts. -/
def Sample.transferred : List (Env × Call) :=
  [signed (.batchMint [alice, bob, alice] [100, 50, 20]),
    signed (.batchTransfer alice [bob, bob] [30, 10])]

theorem supply_after_transfers :
    ∃ r, (deployment .exact).after Outgoing transferred = some r ∧ (r.2.totalSupply : ℤ) = 170 ∧
    (Machine.balance r.2.balance alice : ℤ) = 80 ∧
    (r.2.totalSupply : ℤ) = ∑ᶠ a, (Machine.balance r.2.balance a : ℤ) := by
  refine ⟨_, evaluated, by decide +kernel, by decide +kernel, ?_⟩
  exact (supply_is_held (reach_after (evaluated _))).1

/-- Alice, who has 100, transfers 40 to herself: 60 are left, of a supply of 100. -/
theorem self_transfer_loses : ∃ e s, (contract .exact).Reach Unrestricted e s ∧ (s.totalSupply : ℤ) = 100 ∧
    ∑ᶠ a, (Machine.balance s.balance a : ℤ) = 60 := by
  have hreach := reach_after (evaluated
    (o := (deployment .exact).after Unrestricted
      [signed (.batchMint [alice] [100]), signed (.batchTransfer alice [alice] [40])]))
  refine ⟨_, _, hreach, by decide +kernel, ?_⟩
  rw [← degree_ledger, degree_ledger_eq_total]
  decide +kernel

end Runs

end ArenaX.BatchOperations
