/-
Lists taken apart at an element or at a prefix.
-/
import Mathlib.Tactic

namespace List

variable {α : Type} {a b : α} {l l₁ l₂ : List α}

theorem split_of_getElem? {i : ℕ} (h : l[i]? = some a) :
    ∃ l₁ l₂, l = l₁ ++ a :: l₂ ∧ l.eraseIdx i = l₁ ++ l₂ ∧ ∀ b, l.set i b = l₁ ++ b :: l₂ := by
  obtain ⟨hi, rfl⟩ := List.getElem?_eq_some_iff.1 h
  refine ⟨l.take i, l.drop (i + 1), ?_, ?_, fun b => ?_⟩
  · rw [List.cons_getElem_drop_succ, List.take_append_drop]
  · exact List.eraseIdx_eq_take_drop_succ l i
  · exact List.set_eq_take_append_cons_drop.trans (if_pos hi)

theorem mem_append_cons_iff : a ∈ l₁ ++ b :: l₂ ↔ a = b ∨ a ∈ l₁ ++ l₂ := by
  simp only [List.mem_append, List.mem_cons]
  tauto

/-- The ways to take an element and what is before it, in a list with a first element. -/
theorem forall_concat_prefix_cons {P : List α → α → Prop} :
    (∀ before b, before ++ [b] <+: a :: l → P before b) ↔
      P [] a ∧ ∀ before b, before ++ [b] <+: l → P (a :: before) b := by
  refine ⟨fun h => ⟨h [] a ⟨l, rfl⟩, fun before b hp => h (a :: before) b (List.cons_prefix_cons.2 ⟨rfl, hp⟩)⟩, ?_⟩
  rintro ⟨hfirst, hrest⟩ (_ | ⟨c, before⟩) b hp
  · rw [List.nil_append, List.cons_prefix_cons] at hp
    rwa [hp.1]
  · rw [List.cons_append, List.cons_prefix_cons] at hp
    rw [hp.1]
    exact hrest before b hp.2

end List
