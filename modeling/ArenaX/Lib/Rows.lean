/-
Tables as lists of rows in the order of their insertion. A row is found by its key; a statement changes the rows with a
key, or adds one at the end. Where keys are unique, a row is the one found under its key.
-/
import Mathlib.Tactic

namespace Rows

variable {K V : Type} [DecidableEq K] (key : V → K)

/-- The first row with a key. -/
abbrev find (k : K) (rows : List V) : Option V := rows.find? fun v => key v = k

/-- Change the rows with a key. -/
abbrev modify (k : K) (f : V → V) (rows : List V) : List V := rows.map fun v => if key v = k then f v else v

variable {key} {k k' : K} {f : V → V} {rows : List V} {v : V}

theorem key_of_find (h : find key k rows = some v) : key v = k := by simpa using List.find?_some h

theorem find_modify (hf : ∀ v, key (f v) = key v) :
    find key k' (modify key k f rows) = (find key k' rows).map fun v => if key v = k then f v else v := by
  rw [find, List.find?_map]
  refine congrArg (Option.map _) (congrArg (rows.find? ·) (funext fun v => ?_))
  simp only [Function.comp]
  split
  · rw [hf]
  · rfl

theorem find_modify_self (hf : ∀ v, key (f v) = key v) :
    find key k (modify key k f rows) = (find key k rows).map f := by
  rw [find_modify hf]
  cases h : find key k rows with
  | none => rfl
  | some v => rw [Option.map_some, Option.map_some, if_pos (key_of_find h)]

theorem find_modify_of_ne (hf : ∀ v, key (f v) = key v) (hne : k' ≠ k) :
    find key k' (modify key k f rows) = find key k' rows := by
  rw [find_modify hf]
  cases h : find key k' rows with
  | none => rfl
  | some v => rw [Option.map_some, if_neg fun heq => hne ((key_of_find h).symm.trans heq)]

theorem find_concat : find key k (rows ++ [v]) = (find key k rows).or (if key v = k then some v else none) := by
  rw [find, List.find?_append, List.find?_singleton]
  simp only [decide_eq_true_eq]

theorem find_of_mem (hkeys : (rows.map key).Nodup) (hv : v ∈ rows) : find key (key v) rows = some v := by
  obtain ⟨w, hw⟩ : ∃ w, find key (key v) rows = some w := by
    refine Option.isSome_iff_exists.1 ?_
    rw [List.find?_isSome]
    exact ⟨v, hv, by simp⟩
  rw [hw, List.inj_on_of_nodup_map hkeys (List.mem_of_find?_eq_some hw) hv (key_of_find hw)]

theorem keys_modify (hf : ∀ v, key (f v) = key v) : (modify key k f rows).map key = rows.map key := by
  rw [List.map_map]
  refine List.map_congr_left fun v _ => ?_
  simp only [Function.comp]
  split
  · exact hf v
  · rfl

/-- Where keys are unique, a change of the rows with a key is a change of one row. -/
theorem sum_modify {A : Type} [AddCommGroup A] {g : V → A} (hkeys : (rows.map key).Nodup)
    (h : find key k rows = some v) : ((modify key k f rows).map g).sum = (rows.map g).sum + (g (f v) - g v) := by
  induction rows with
  | nil => cases h
  | cons w rows ih =>
    obtain ⟨hw, hkeys⟩ := List.nodup_cons.1 hkeys
    by_cases hk : key w = k
    · -- the other rows have other keys
      obtain rfl : w = v := by simpa [hk] using h
      have hrest : modify key k f rows = rows := by
        refine (List.map_congr_left fun u hu => if_neg fun hku => hw ?_).trans (List.map_id _)
        exact List.mem_map.2 ⟨u, hu, hku.trans hk.symm⟩
      have hcons : modify key k f (w :: rows) = f w :: rows := by
        rw [modify, List.map_cons, if_pos hk, ← modify, hrest]
      rw [hcons, List.map_cons, List.map_cons, List.sum_cons, List.sum_cons]
      abel
    · have hfind : find key k rows = some v := by simpa [hk] using h
      rw [modify, List.map_cons, if_neg hk, List.map_cons, List.map_cons, List.sum_cons, List.sum_cons, ih hkeys hfind]
      abel

end Rows
