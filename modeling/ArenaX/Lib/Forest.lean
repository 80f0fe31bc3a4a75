/-
Forests of parent links that grow at the leaves: a node nobody points to gets a parent. Such a link
closes no cycle, and it adds one child to its parent and none to any other node.
-/
import Mathlib.Logic.Relation
import Mathlib.Data.Set.Card
import Mathlib.Tactic

namespace Forest

variable {A : Type} [DecidableEq A] {parent : A → Option A} {a b c : A}

/-- No node is reached from itself over one or more parent links. -/
def Acyclic (parent : A → Option A) : Prop := ∀ x, ¬ Relation.TransGen (fun x y => parent x = some y) x x

/-- The nodes whose parent a node is. -/
def children (parent : A → Option A) (b : A) : Set A := {x | parent x = some b}

omit [DecidableEq A] in
theorem acyclic_none : Acyclic fun _ : A => none := by
  intro x h
  obtain ⟨y, hy, -⟩ := (Relation.TransGen.head'_iff).1 h
  cases hy

/-- A new link below a node that has no children leads nowhere new. -/
theorem transGen_update (hleaf : children parent a = ∅) (hab : a ≠ b) {x y : A}
    (h : Relation.TransGen (fun x y => Function.update parent a (some b) x = some y) x y) :
    y ≠ a ∧ (x ≠ a → Relation.TransGen (fun x y => parent x = some y) x y) := by
  -- every link ends at a node other than `a`, so on a path only the first one can be the new one
  have hend {x y : A} (h : Function.update parent a (some b) x = some y) : y ≠ a := by
    rintro rfl
    rw [Function.update_apply] at h
    split at h
    · exact hab (Option.some.inj h).symm
    · exact hleaf.le (show x ∈ children parent y from h)
  induction h with
  | single h =>
    refine ⟨hend h, fun hx => .single ?_⟩
    rwa [Function.update_of_ne hx] at h
  | tail _ h ih =>
    refine ⟨hend h, fun hx => (ih.2 hx).tail ?_⟩
    rwa [Function.update_of_ne ih.1] at h

theorem Acyclic.attach (h : Acyclic parent) (hleaf : children parent a = ∅) (hab : a ≠ b) :
    Acyclic (Function.update parent a (some b)) := by
  intro x hx
  obtain ⟨hne, hold⟩ := transGen_update hleaf hab hx
  exact h x (hold hne)

theorem children_attach_self (a b : A) (parent : A → Option A) :
    children (Function.update parent a (some b)) b = insert a (children parent b) := by
  ext x
  simp only [children, Set.mem_ofPred_eq, Set.mem_insert_iff, Function.update_apply]
  by_cases hx : x = a <;> simp [hx]

theorem children_attach_of_ne (hroot : parent a = none) (hc : c ≠ b) :
    children (Function.update parent a (some b)) c = children parent c := by
  ext x
  simp only [children, Set.mem_ofPred_eq, Function.update_apply]
  by_cases hx : x = a
  · subst hx; simp [hroot, hc.symm]
  · simp [hx]

end Forest
