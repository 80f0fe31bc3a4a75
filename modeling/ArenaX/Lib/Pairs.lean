/-
The consecutive pairs of a list: the first with the second, the third with the fourth, and so on.
-/
import Mathlib.Tactic

namespace List

variable {α : Type}

/-- The consecutive pairs; the last one of an odd number is left over. -/
def pairs : List α → List (α × α)
  | [] => []
  | [_] => []
  | a :: b :: rest => (a, b) :: pairs rest

theorem mem_of_mem_pairs {l : List α} {pair : α × α} (h : pair ∈ l.pairs) : pair.1 ∈ l ∧ pair.2 ∈ l := by
  fun_induction pairs l with
  | case1 => cases h
  | case2 a => cases h
  | case3 a b rest ih =>
    rcases mem_cons.1 h with rfl | h
    · simp
    · simp [ih h]

/-- An even list is its pairs, written out. -/
theorem flatMap_pairs {l : List α} (h : l.length % 2 = 0) : (l.pairs.flatMap fun x => [x.1, x.2]) = l := by
  fun_induction pairs l with
  | case1 => rfl
  | case2 a => simp at h
  | case3 a b rest ih =>
    simp only [length_cons] at h
    rw [flatMap_cons, ih (by omega)]
    rfl

theorem length_pairs (l : List α) : l.pairs.length = l.length / 2 := by
  fun_induction pairs l with
  | case1 => simp
  | case2 a => simp
  | case3 a b rest ih =>
    simp only [length_cons, ih]
    omega

end List
