/-
Ledgers: a table of machine-integer balances, or of rows with a quantity, seen as a finitely supported
function to the integers. Writes are additions of single entries, the sum of all balances is additive, a list
of payments is the sum of its entries, where each key has a holder, a change of holder moves what the key has,
and where keys are grouped, a write changes the sum over its own group only.
-/
import Mathlib.Data.Finsupp.Weight
import Mathlib.Data.Finsupp.Order
import ArenaX.Lib.MachineInt
import ArenaX.Lib.Table

namespace Machine

open Table (get_set share share_some total)

variable {K : Type} {t : IntType}

section Balances

variable [DecidableEq K]

/-- The balance under a key; an absent one is zero. -/
def balance (b : Table K t.Val) (k : K) : t.Val := (b.get k).getD 0

theorem balance_set (b : Table K t.Val) (k k' : K) (v : t.Val) :
    balance (b.set k v) k' = if k' = k then v else balance b k' := by
  unfold balance
  rw [get_set]; split <;> rfl

/-- All balances, as integers. -/
noncomputable def ledger (b : Table K t.Val) : K →₀ ℤ :=
  Finsupp.ofSupportFinite (fun k => (balance b k : ℤ)) <|
    b.finite_keys.subset fun k hk h => hk (by show ((balance b k : t.Val) : ℤ) = 0; unfold balance; rw [h]; rfl)

@[simp] theorem ledger_apply (b : Table K t.Val) (k : K) : ledger b k = balance b k := rfl

@[simp] theorem ledger_empty : ledger (∅ : Table K t.Val) = 0 := by
  ext k
  simp [balance]

/-- A write adds the difference to the old balance. -/
theorem ledger_set (b : Table K t.Val) (k : K) (v : t.Val) :
    ledger (b.set k v) = ledger b + Finsupp.single k ((v : ℤ) - balance b k) := by
  ext k'
  rw [Finsupp.add_apply, ledger_apply, ledger_apply, balance_set]
  by_cases h : k' = k
  · subst h; simp
  · simp [h]

theorem ledger_set_add {b : Table K t.Val} {k : K} {v : t.Val} {x : ℤ} (h : (v : ℤ) = balance b k + x) :
    ledger (b.set k v) = ledger b + Finsupp.single k x := by
  rw [ledger_set, h, add_sub_cancel_left]

/-- The sum of all balances. -/
theorem degree_ledger (b : Table K t.Val) : (ledger b).degree = ∑ᶠ k, (balance b k : ℤ) := by
  rw [finsum_eq_sum_of_support_subset _ (s := (ledger b).support) (fun k hk => ?_)]
  · rfl
  · exact Finset.mem_coe.2 (Finsupp.mem_support_iff.2 hk)

/-- The sum of all balances, computed. -/
theorem degree_ledger_eq_total (b : Table K t.Val) : (ledger b).degree = total IntType.Val.toInt b := by
  rw [degree_ledger, Table.total_eq_finsum]
  refine finsum_congr fun k => ?_
  unfold balance
  cases b.get k <;> rfl

end Balances

/-! ## Payments -/

section Payments

variable {ι : Type} (key : ι → K) (amount : ι → ℤ)

/-- What a list of payments adds to each balance. -/
noncomputable def payments : List ι → K →₀ ℤ
  | [] => 0
  | i :: l => Finsupp.single (key i) (amount i) + payments l

variable {key amount}

theorem degree_payments : ∀ l : List ι, (payments key amount l).degree = (l.map amount).sum
  | [] => by simp [payments]
  | i :: l => by rw [payments, map_add, Finsupp.degree_single, degree_payments l, List.map_cons, List.sum_cons]

theorem payments_nonneg : ∀ {l : List ι}, (∀ i ∈ l, 0 ≤ amount i) → 0 ≤ payments key amount l
  | [], _ => le_rfl
  | i :: l, h => by
    exact add_nonneg (Finsupp.single_nonneg.2 (h i List.mem_cons_self))
      (payments_nonneg fun j hj => h j (List.mem_cons_of_mem i hj))

theorem payments_neg : ∀ l : List ι, payments key (fun i => -amount i) l = -payments key amount l
  | [] => neg_zero.symm
  | i :: l => by rw [payments, payments, payments_neg l, Finsupp.single_neg, neg_add]

theorem payments_apply [DecidableEq K] (k : K) :
    ∀ l : List ι, payments key amount l k = ((l.filter (key · = k)).map amount).sum
  | [] => rfl
  | i :: l => by
    rw [payments, Finsupp.add_apply, payments_apply k l]
    by_cases h : key i = k <;> simp [h]

theorem payments_apply_eq_zero {k : K} : ∀ {l : List ι}, (∀ i ∈ l, key i ≠ k) → payments key amount l k = 0
  | [], _ => rfl
  | i :: l, h => by
    rw [payments, Finsupp.add_apply, Finsupp.single_eq_of_ne (h i List.mem_cons_self).symm, zero_add]
    exact payments_apply_eq_zero fun j hj => h j (List.mem_cons_of_mem i hj)

/-- What a list of entries pays to each key. -/
noncomputable def credits (entries : List (K × t.Val)) : K →₀ ℤ :=
  payments Prod.fst (fun e : K × t.Val => (e.2 : ℤ)) entries

/-- What a list of entries pays in all. -/
def totalAmount (entries : List (K × t.Val)) : ℤ := (entries.map fun e => (e.2 : ℤ)).sum

theorem degree_credits (entries : List (K × t.Val)) : (credits entries).degree = totalAmount entries :=
  degree_payments entries

/-- A list of keys without repetition that covers a ledger pays out the ledger. -/
theorem payments_eq_self [DecidableEq K] {f : K →₀ ℤ} {l : List K} (hl : l.Nodup) (hf : ∀ k, k ∉ l → f k = 0) :
    payments id f l = f := by
  ext k
  rw [payments_apply]
  by_cases hk : k ∈ l
  · have : l.filter (id · = k) = [k] := by
      rw [show (fun a => decide (id a = k)) = (· == k) from rfl, List.filter_beq, List.count_eq_one_of_mem hl hk]
      rfl
    rw [this]; simp
  · rw [hf k hk, List.filter_eq_nil_iff.2]
    · rfl
    · intro a ha h
      exact hk (of_decide_eq_true h ▸ ha)

end Payments

/-! ## Sums of ledgers -/

section Sums

variable {f g : K →₀ ℤ}

theorem degree_nonneg (h : 0 ≤ f) : 0 ≤ f.degree := Finset.sum_nonneg fun k _ => h k

theorem degree_le_degree (h : f ≤ g) : f.degree ≤ g.degree := by
  have := degree_nonneg (sub_nonneg.2 h)
  rw [map_sub] at this
  omega

/-- What one key has is at most what all have, if none has less than nothing. -/
theorem le_degree (h : 0 ≤ f) (k : K) : f k ≤ f.degree := by
  classical
  by_cases hk : k ∈ f.support
  · exact Finset.single_le_sum (fun k _ => h k) hk
  · rw [Finsupp.notMem_support_iff.1 hk]
    exact degree_nonneg h

theorem degree_eq_finsum (f : K →₀ ℤ) : f.degree = ∑ᶠ k, f k := by
  rw [Finsupp.degree_apply, finsum_eq_sum_of_support_subset _ (s := f.support) (fun k hk => ?_)]
  exact Finset.mem_coe.2 (Finsupp.mem_support_iff.2 hk)

end Sums

/-! ## Quantities of rows -/

section Shares

variable {V : Type} [DecidableEq K] (q : V → ℤ)

/-- The quantity of the row under each key; an absent row has none. -/
noncomputable def shares (t : Table K V) : K →₀ ℤ :=
  Finsupp.ofSupportFinite (fun k => share q (t.get k)) <|
    t.finite_keys.subset fun k hk h => hk (by show share q (t.get k) = 0; rw [h]; rfl)

@[simp] theorem shares_apply (t : Table K V) (k : K) : shares q t k = share q (t.get k) := rfl

@[simp] theorem shares_empty : shares q (∅ : Table K V) = 0 := by
  ext k
  simp

theorem shares_set (t : Table K V) (k : K) (v : V) :
    shares q (t.set k v) = shares q t + Finsupp.single k (q v - share q (t.get k)) := by
  ext k'
  rw [Finsupp.add_apply, shares_apply, shares_apply, get_set]
  by_cases h : k' = k
  · subst h; simp
  · simp [h]

theorem shares_set_add {t : Table K V} {k : K} {v : V} {x : ℤ} (h : q v = share q (t.get k) + x) :
    shares q (t.set k v) = shares q t + Finsupp.single k x := by
  rw [shares_set, h, add_sub_cancel_left]

theorem shares_remove (t : Table K V) (k : K) :
    shares q (t.remove k) = shares q t + Finsupp.single k (-share q (t.get k)) := by
  ext k'
  rw [Finsupp.add_apply, shares_apply, shares_apply, Table.get_remove]
  by_cases h : k' = k
  · subst h; simp
  · simp [h]

theorem degree_shares (t : Table K V) : (shares q t).degree = total q t := by
  rw [degree_eq_finsum, Table.total_eq_finsum]
  rfl

end Shares

/-! ## Holders -/

section Holders

variable {H : Type} (holder : K → H) (f : K →₀ ℤ)

/-- A new holder of a key takes over what the key has. -/
theorem mapDomain_update [DecidableEq K] (k : K) (h : H) :
    f.mapDomain (Function.update holder k h) =
      f.mapDomain holder + Finsupp.single (holder k) (-f k) + Finsupp.single h (f k) := by
  have hother : (f.erase k).mapDomain (Function.update holder k h) = (f.erase k).mapDomain holder := by
    refine Finsupp.mapDomain_congr fun k' hk' => Function.update_of_ne ?_ _ _
    rintro rfl
    exact Finsupp.mem_support_iff.1 hk' Finsupp.erase_same
  have hsplit (g : K → H) : f.mapDomain g = (f.erase k).mapDomain g + Finsupp.single (g k) (f k) := by
    rw [← Finsupp.mapDomain_single, ← Finsupp.mapDomain_add, Finsupp.erase_add_single]
  rw [hsplit (Function.update holder k h), hother, Function.update_self, hsplit holder, Finsupp.single_neg]
  abel

variable {f} in
theorem mapDomain_nonneg (hf : 0 ≤ f) : 0 ≤ f.mapDomain holder := by
  classical
  intro h
  rw [Finsupp.mapDomain, Finsupp.sum_apply]
  exact Finset.sum_nonneg fun k _ => Finsupp.single_nonneg.2 (hf k) h

variable [DecidableEq H]

/-- What a holder holds: the sum over the keys it holds. -/
theorem mapDomain_apply_eq_finsum (h : H) :
    f.mapDomain holder h = ∑ᶠ k, if holder k = h then f k else 0 := by
  rw [Finsupp.mapDomain, Finsupp.sum_apply, finsum_eq_sum_of_support_subset _ (s := f.support)]
  · exact Finset.sum_congr rfl fun k _ => Finsupp.single_apply
  · intro k hk
    refine Finset.mem_coe.2 (Finsupp.mem_support_iff.2 fun h0 => hk ?_)
    simp [h0]

end Holders

/-! ## Rows in groups -/

section Groups

variable {V G I : Type} [DecidableEq K] (q : V → ℤ) (group : K → G) {t : Table K V}

/-- The sum of a quantity over the rows of each group of keys. -/
noncomputable def grouped (t : Table K V) : G →₀ ℤ := (shares q t).mapDomain group

@[simp] theorem grouped_empty : grouped q group (∅ : Table K V) = 0 := by
  rw [grouped, shares_empty, Finsupp.mapDomain_zero]

variable {q} in
theorem grouped_nonneg (h : t.All fun _ v => 0 ≤ q v) : 0 ≤ grouped q group t := by
  refine mapDomain_nonneg group fun k => ?_
  rw [shares_apply]
  cases hk : t.get k with
  | none => exact le_rfl
  | some v => exact h k v hk

/-- A write changes the sum of its own group by the difference to the old row, and no other. -/
theorem grouped_set (k : K) (v : V) : grouped q group (t.set k v) =
    grouped q group t + Finsupp.single (group k) (q v - share q (t.get k)) := by
  rw [grouped, shares_set, Finsupp.mapDomain_add, Finsupp.mapDomain_single]
  rfl

theorem grouped_set_add {k : K} {v : V} {x : ℤ} (h : q v = share q (t.get k) + x) :
    grouped q group (t.set k v) = grouped q group t + Finsupp.single (group k) x := by
  rw [grouped_set, h, add_sub_cancel_left]

/-- A removal takes the row out of the sum of its own group. -/
theorem grouped_remove (k : K) : grouped q group (t.remove k) =
    grouped q group t + Finsupp.single (group k) (-share q (t.get k)) := by
  rw [grouped, shares_remove, Finsupp.mapDomain_add, Finsupp.mapDomain_single]
  rfl

variable {q} in
/-- A row is at most the sum of its group, if no row is negative. -/
theorem le_grouped (h : t.All fun _ v => 0 ≤ q v) {k : K} {v : V} (hk : t.get k = some v) :
    q v ≤ grouped q group t (group k) := by
  have hrest := grouped_nonneg group (h.remove k) (group k)
  rw [grouped_remove, hk, share_some, Finsupp.add_apply, Finsupp.single_eq_same, Finsupp.zero_apply] at hrest
  omega

variable [DecidableEq G]

/-- The sum of a group whose keys are listed by an index. -/
theorem grouped_apply {key : I → K} (hkey : key.Injective) {g : G} (hg : ∀ k, group k = g ↔ k ∈ Set.range key) :
    grouped q group t g = ∑ᶠ i, share q (t.get (key i)) := by
  rw [grouped, mapDomain_apply_eq_finsum]
  refine Eq.trans (finsum_congr fun k => ?_) (finsum_mem_range (f := fun k => shares q t k) hkey)
  simp only [← hg k, finsum_eq_if]

/-- The number of rows of such a group. -/
theorem grouped_one_apply {key : I → K} (hkey : key.Injective) {g : G}
    (hg : ∀ k, group k = g ↔ k ∈ Set.range key) :
    grouped (fun _ : V => 1) group t g = {i | t.get (key i) ≠ none}.ncard := by
  have hfin : {i | t.get (key i) ≠ none}.Finite := t.finite_keys.preimage hkey.injOn
  rw [grouped_apply _ _ hkey hg, Set.ncard_eq_toFinset_card _ hfin, Finset.card_eq_sum_ones, Nat.cast_sum,
    finsum_eq_sum_of_support_subset _ (s := hfin.toFinset)]
  · refine Finset.sum_congr rfl fun i hi => ?_
    obtain ⟨v, hv⟩ := Option.ne_none_iff_exists'.1 (hfin.mem_toFinset.1 hi)
    rw [hv, share_some, Nat.cast_one]
  · intro i hi
    rw [Finset.mem_coe, hfin.mem_toFinset]
    intro h
    exact hi (congrArg (share _) h)

end Groups

/-! ## Keys that are pairs -/

section Pairs

variable {A B V : Type}

theorem mem_range_mk_left {a : A} (k : A × B) : k.1 = a ↔ k ∈ Set.range (Prod.mk a) :=
  ⟨fun h => ⟨k.2, h ▸ rfl⟩, by rintro ⟨b, rfl⟩; rfl⟩

theorem mem_range_mk_right {b : B} (k : A × B) : k.2 = b ↔ k ∈ Set.range (Prod.mk · b) :=
  ⟨fun h => ⟨k.1, h ▸ rfl⟩, by rintro ⟨a, rfl⟩; rfl⟩

variable [DecidableEq A] [DecidableEq B] (q : V → ℤ) (t : Table (A × B) V)

theorem grouped_fst (a : A) : grouped q Prod.fst t a = ∑ᶠ b, share q (t.get (a, b)) :=
  grouped_apply q _ (Prod.mk_right_injective a) mem_range_mk_left

theorem grouped_snd (b : B) : grouped q Prod.snd t b = ∑ᶠ a, share q (t.get (a, b)) :=
  grouped_apply q _ (Prod.mk_left_injective b) mem_range_mk_right

theorem grouped_one_fst (a : A) : grouped (fun _ => 1) Prod.fst t a = {b | t.get (a, b) ≠ none}.ncard :=
  grouped_one_apply _ (Prod.mk_right_injective a) mem_range_mk_left

theorem grouped_one_snd (b : B) : grouped (fun _ => 1) Prod.snd t b = {a | t.get (a, b) ≠ none}.ncard :=
  grouped_one_apply _ (Prod.mk_left_injective b) mem_range_mk_right

end Pairs

end Machine
