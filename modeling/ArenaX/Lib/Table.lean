/-
Keyed storage: finite tables with lookups, writes and removals, and the total of a quantity over
the rows of a table. A write changes the total by the difference between the new and the old row,
whatever else the table holds, and a total is the sum over all keys, present or not.
-/
import Mathlib.Data.Finmap
import Mathlib.Algebra.BigOperators.Finprod
import Mathlib.Tactic

/-- A finite table from keys to rows. -/
structure Table (K V : Type) where
  map : Finmap fun _ : K => V

namespace Table

variable {K V M : Type} [DecidableEq K] {t : Table K V} {k : K} {P : K → V → Prop}

instance : EmptyCollection (Table K V) := ⟨⟨∅⟩⟩

/-- The row under a key. -/
def get (t : Table K V) (k : K) : Option V := t.map.lookup k

/-- Write a row. -/
def set (t : Table K V) (k : K) (v : V) : Table K V := ⟨t.map.insert k v⟩

/-- Remove a row. -/
def remove (t : Table K V) (k : K) : Table K V := ⟨t.map.erase k⟩

/-- The rows, in no order. -/
def rows (t : Table K V) : Multiset V := t.map.entries.map Sigma.snd

@[simp] theorem get_empty (k : K) : (∅ : Table K V).get k = none := Finmap.lookup_empty k

@[simp] theorem get_set_self (t : Table K V) (k : K) (v : V) : (t.set k v).get k = some v := Finmap.lookup_insert t.map

theorem get_set_of_ne (t : Table K V) {k k' : K} (v : V) (h : k' ≠ k) : (t.set k v).get k' = t.get k' :=
  Finmap.lookup_insert_of_ne t.map h

theorem get_set (t : Table K V) (k k' : K) (v : V) : (t.set k v).get k' = if k' = k then some v else t.get k' := by
  split
  · rename_i h; subst h; exact get_set_self t _ v
  · rename_i h; exact get_set_of_ne t v h

@[simp] theorem get_remove_self (t : Table K V) (k : K) : (t.remove k).get k = none := Finmap.lookup_erase k t.map

theorem get_remove_of_ne (t : Table K V) {k k' : K} (h : k' ≠ k) : (t.remove k).get k' = t.get k' :=
  Finmap.lookup_erase_ne h

theorem get_remove (t : Table K V) (k k' : K) : (t.remove k).get k' = if k' = k then none else t.get k' := by
  split
  · rename_i h; subst h; exact get_remove_self t _
  · rename_i h; exact get_remove_of_ne t h

/-- A write is a pointwise update. -/
theorem get_set_eq_update (t : Table K V) (k : K) (v : V) : (t.set k v).get = Function.update t.get k (some v) := by
  funext k'; rw [get_set, Function.update_apply]

theorem get_remove_eq_update (t : Table K V) (k : K) : (t.remove k).get = Function.update t.get k none := by
  funext k'; rw [get_remove, Function.update_apply]

@[ext] theorem ext {t t' : Table K V} (h : ∀ k, t.get k = t'.get k) : t = t' := by
  cases t; cases t'
  exact congrArg mk (Finmap.ext_lookup h)

/-- Only finitely many keys have a row. -/
theorem finite_keys (t : Table K V) : {k | t.get k ≠ none}.Finite := by
  refine t.map.keys.finite_toSet.subset fun k hk => ?_
  by_contra h
  exact hk (Finmap.lookup_eq_none.2 h)

/-- Every row has a property under its key. -/
def All (P : K → V → Prop) (t : Table K V) : Prop := ∀ k v, t.get k = some v → P k v

instance All.decidable (P : K → V → Prop) [∀ k v, Decidable (P k v)] (t : Table K V) : Decidable (t.All P) :=
  decidable_of_iff (∀ e ∈ t.map.entries, P e.1 e.2)
    ⟨fun h k v hv => h ⟨k, v⟩ (Finmap.lookup_eq_some_iff.1 hv),
      fun h e he => h e.1 e.2 (Finmap.lookup_eq_some_iff.2 he)⟩

theorem All.empty : All P (∅ : Table K V) := by
  intro k v h
  cases h

theorem All.set (h : All P t) {v : V} (hv : P k v) :
    All P (t.set k v) := by
  intro k' v' h'
  rw [get_set] at h'
  split at h'
  · rename_i hk
    cases h'; subst hk; exact hv
  · exact h k' v' h'

theorem All.remove (h : All P t) (k : K) : All P (t.remove k) := by
  intro k' v' h'
  rw [get_remove] at h'
  split at h'
  · cases h'
  · exact h k' v' h'

theorem All.imp {P Q : K → V → Prop} (h : All P t) (hPQ : ∀ k v, P k v → Q k v) : All Q t :=
  fun k v hv => hPQ k v (h k v hv)

/-! ## Totals -/

section Total

variable [AddCommMonoid M] (f : V → M)

/-- The total of `f` over the rows. -/
def total (t : Table K V) : M := (t.rows.map f).sum

/-- What a key contributes to a total. -/
def share (o : Option V) : M := (o.map f).getD 0

@[simp] theorem share_none : share f none = 0 := rfl

@[simp] theorem share_some (v : V) : share f (some v) = f v := rfl

theorem total_set_of_none (v : V) (h : t.get k = none) :
    total f (t.set k v) = f v + total f t := by
  unfold total rows set
  rw [Finmap.entries_insert_of_notMem (Finmap.lookup_eq_none.1 h)]
  simp

/-- A removal takes the row's share out of the total. -/
theorem total_remove (t : Table K V) (k : K) : share f (t.get k) + total f (t.remove k) = total f t := by
  cases h : t.get k with
  | none =>
    have : t.remove k = t := by
      ext1 k'; rw [get_remove]
      split
      · rename_i e; rw [e, h]
      · rfl
    rw [this, share_none, zero_add]
  | some v =>
    have : (t.remove k).set k v = t := by
      ext1 k'; rw [get_set, get_remove]
      split
      · rename_i e; rw [e, h]
      · rfl
    rw [share_some, ← total_set_of_none f v (get_remove_self t k), this]

/-- A write replaces the key's share of the total. -/
theorem total_set (t : Table K V) (k : K) (v : V) :
    share f (t.get k) + total f (t.set k v) = f v + total f t := by
  have h : t.set k v = (t.remove k).set k v := by
    ext1 k'; rw [get_set, get_set, get_remove]; split <;> rfl
  rw [h, total_set_of_none f v (get_remove_self t k), ← total_remove f t k]
  exact add_left_comm _ _ _

section Group

variable {M : Type} [AddCommGroup M] {f : V → M} {t : Table K V} {k : K} {w : V}

/-- Removing a row takes its share out of the total. -/
theorem total_remove_of_some (h : t.get k = some w) : total f (t.remove k) = total f t - f w := by
  rw [← total_remove f t k, h, share_some, add_sub_cancel_left]

/-- Overwriting a row replaces its share of the total. -/
theorem total_set_of_some (h : t.get k = some w) (v : V) : total f (t.set k v) = total f t - f w + f v := by
  have := total_set f t k v
  rw [h] at this
  rw [eq_sub_of_add_eq' this]
  abel

/-- A write replaces the key's share of a sum over listed keys, as often as it is listed. -/
theorem sum_share_set (v : V) : ∀ keys : List K, (keys.map fun k' => share f ((t.set k v).get k')).sum =
    (keys.map fun k' => share f (t.get k')).sum + keys.count k • (f v - share f (t.get k))
  | [] => by simp
  | k' :: keys => by
    rw [List.map_cons, List.sum_cons, sum_share_set v keys, List.map_cons, List.sum_cons, List.count_cons]
    by_cases hk : k' = k
    · subst hk
      rw [get_set_self, share_some, if_pos (beq_self_eq_true k'), add_smul]
      abel
    · rw [get_set_of_ne t v hk, if_neg (by simpa using hk)]
      abel

end Group

/-- A total is the sum over all keys. -/
theorem total_eq_finsum (t : Table K V) : total f t = ∑ᶠ k, share f (t.get k) := by
  have hsub : (Function.support fun k => share f (t.get k)) ⊆ (t.map.keys : Set K) := by
    intro k hk
    by_contra h
    exact hk (by show share f (t.map.lookup k) = 0; rw [Finmap.lookup_eq_none.2 h]; rfl)
  rw [finsum_eq_sum_of_support_subset _ hsub]
  unfold total rows
  rw [Multiset.map_map]
  show _ = ((t.map.entries.map Sigma.fst).map fun k => share f (t.get k)).sum
  rw [Multiset.map_map]
  congr 1
  apply Multiset.map_congr rfl
  rintro ⟨k, v⟩ hv
  show f v = share f (t.map.lookup k)
  rw [Finmap.lookup_eq_some_iff.2 hv, share_some]

end Total

/-! ## Counting -/

section Count

variable (p : V → Prop) [DecidablePred p]

/-- The number of rows with a property. -/
def count (t : Table K V) : ℕ := t.rows.countP p

omit [DecidableEq K] in
theorem count_eq_total (t : Table K V) : count p t = total (fun v => if p v then 1 else 0) t := by
  unfold count total
  induction t.rows using Multiset.induction with
  | empty => rfl
  | cons v rows ih =>
    rw [Multiset.countP_cons, ih, Multiset.map_cons, Multiset.sum_cons, add_comm]

/-- A write replaces the key's part in the count. -/
theorem count_set (t : Table K V) (k : K) (v : V) :
    (if ∃ w ∈ t.get k, p w then 1 else 0) + count p (t.set k v) = (if p v then 1 else 0) + count p t := by
  have h := total_set (fun v => if p v then (1 : ℕ) else 0) t k v
  rw [← count_eq_total, ← count_eq_total] at h
  rw [← h]
  cases t.get k <;> simp

/-- A write under a new key. -/
theorem count_set_of_none (h : t.get k = none) (v : V) :
    count p (t.set k v) = (if p v then 1 else 0) + count p t := by
  have := count_set p t k v
  simpa [h] using this

/-- Overwriting a row. -/
theorem count_set_of_some {w : V} (h : t.get k = some w) (v : V) :
    (if p w then 1 else 0) + count p (t.set k v) = (if p v then 1 else 0) + count p t := by
  have := count_set p t k v
  simpa [h] using this

theorem mem_rows_of_get {v : V} (h : t.get k = some v) : v ∈ t.rows :=
  Multiset.mem_map_of_mem Sigma.snd (Finmap.lookup_eq_some_iff.1 h)

theorem count_pos_of_get {v : V} (h : t.get k = some v) (hv : p v) : 0 < count p t :=
  Multiset.countP_pos.2 ⟨v, mem_rows_of_get h, hv⟩

omit [DecidableEq K] in
theorem count_le_card (t : Table K V) : count p t ≤ t.rows.card := Multiset.countP_le_card p t.rows

end Count

theorem card_rows_set_of_none (h : t.get k = none) (v : V) :
    (t.set k v).rows.card = t.rows.card + 1 := by
  unfold rows set
  rw [Finmap.entries_insert_of_notMem (Finmap.lookup_eq_none.1 h)]
  simp

theorem card_rows_set_of_some {w : V} (h : t.get k = some w) (v : V) :
    (t.set k v).rows.card = t.rows.card := by
  have := count_set_of_some (fun _ => True) h v
  simpa [count] using this

theorem total_nonneg {f : V → Int} (h : t.All fun _ v => 0 ≤ f v) : 0 ≤ total f t := by
  rw [total_eq_finsum]
  refine finsum_nonneg fun k => ?_
  cases hk : t.get k with
  | none => exact le_rfl
  | some v => exact h k v hk

/-- Adding to a row that is not negative. -/
theorem All.set_add {f : V → Int} {v : V} {x : Int} (h : t.All fun _ v => 0 ≤ f v)
    (hx : 0 ≤ x) (hv : f v = share f (t.get k) + x) : (t.set k v).All fun _ v => 0 ≤ f v := by
  refine h.set ?_
  rw [hv]
  cases hk : t.get k with
  | none => exact hx.trans (zero_add x).ge
  | some w => exact add_nonneg (h k w hk) hx

/-- A key's share is at most the total, when no share is negative. -/
theorem share_le_total {f : V → Int} (t : Table K V) (hf : ∀ k, 0 ≤ share f (t.get k)) (k : K) :
    share f (t.get k) ≤ total f t := by
  have hfin : (Function.support fun k => share f (t.get k)).Finite :=
    t.finite_keys.subset fun k hk h => hk (by show share f (t.get k) = 0; rw [h]; rfl)
  rw [total_eq_finsum]
  exact single_le_finsum k hfin hf

end Table
