/-
Stock in lots, first in, first out: what is taken comes from the oldest lots, whole lots first and then a part of the
next one. Every lot carries a tag, which its parts keep.
-/
import Mathlib.Tactic

/-- An amount, with a tag that says where it came from. -/
structure Lot (α : Type) where
  tag : α
  amount : ℤ
deriving DecidableEq

namespace Fifo

variable {α : Type}

/-- What the lots amount to. -/
def stock (lots : List (Lot α)) : ℤ := (lots.map Lot.amount).sum

/-- The lots, or parts of lots, that an amount is taken from. -/
def taken : ℤ → List (Lot α) → List (Lot α)
  | _, [] => []
  | x, lot :: lots =>
    if x ≤ 0 then []
    else if lot.amount ≤ x then lot :: taken (x - lot.amount) lots
    else [{ lot with amount := x }]

/-- What an amount leaves of the lots it is taken from. -/
def left : ℤ → List (Lot α) → List (Lot α)
  | _, [] => []
  | x, lot :: lots =>
    if lot.amount ≤ x then left (x - lot.amount) lots else { lot with amount := lot.amount - x } :: lots

@[simp] theorem stock_nil : stock ([] : List (Lot α)) = 0 := rfl

@[simp] theorem stock_cons (lot : Lot α) (lots : List (Lot α)) : stock (lot :: lots) = lot.amount + stock lots :=
  List.sum_cons

@[simp] theorem stock_append (lots lots' : List (Lot α)) : stock (lots ++ lots') = stock lots + stock lots' := by
  simp [stock]

/-- What is taken has the tags of the oldest lots. -/
theorem taken_tags : ∀ x (lots : List (Lot α)), (taken x lots).map Lot.tag <+: lots.map Lot.tag
  | _, [] => List.prefix_rfl
  | x, lot :: lots => by
    unfold taken
    split
    · exact List.nil_prefix
    · split
      · exact (List.prefix_cons_inj lot.tag).2 (taken_tags _ lots)
      · exact (List.prefix_cons_inj lot.tag).2 List.nil_prefix

/-- What is left has the tags of the youngest lots. -/
theorem left_tags : ∀ x (lots : List (Lot α)), (left x lots).map Lot.tag <:+ lots.map Lot.tag
  | _, [] => List.suffix_rfl
  | x, lot :: lots => by
    unfold left
    split
    · exact (left_tags _ lots).trans (List.suffix_cons lot.tag _)
    · exact List.suffix_rfl

/-- A property of the tags of all lots is one of the tags of what is taken. -/
theorem forall_taken {P : α → Prop} {x : ℤ} {lots : List (Lot α)} (h : ∀ lot ∈ lots, P lot.tag) :
    ∀ lot ∈ taken x lots, P lot.tag := by
  simpa using fun a ha => List.forall_mem_map.2 h a ((taken_tags x lots).subset ha)

theorem forall_left {P : α → Prop} {x : ℤ} {lots : List (Lot α)} (h : ∀ lot ∈ lots, P lot.tag) :
    ∀ lot ∈ left x lots, P lot.tag := by
  simpa using fun a ha => List.forall_mem_map.2 h a ((left_tags x lots).subset ha)

theorem left_pos : ∀ {x : ℤ} {lots : List (Lot α)}, (∀ lot ∈ lots, 0 < lot.amount) → ∀ lot ∈ left x lots, 0 < lot.amount
  | _, [], _ => by simp [left]
  | x, lot :: lots, hpos => by
    obtain ⟨_, hrest⟩ := List.forall_mem_cons.1 hpos
    unfold left
    split
    · exact left_pos hrest
    · exact List.forall_mem_cons.2 ⟨by dsimp only; omega, hrest⟩

theorem stock_nonneg {lots : List (Lot α)} (hpos : ∀ lot ∈ lots, 0 < lot.amount) : 0 ≤ stock lots :=
  List.sum_nonneg (by simpa using fun lot hlot => (hpos lot hlot).le)

/-- What is taken amounts to what was asked for. -/
theorem stock_taken : ∀ {x : ℤ} {lots : List (Lot α)}, (∀ lot ∈ lots, 0 < lot.amount) → 0 ≤ x → x ≤ stock lots →
    stock (taken x lots) = x
  | x, [], _, hx, hle => by
    rw [stock_nil] at hle
    rw [taken, stock_nil]
    omega
  | x, lot :: lots, hpos, hx, hle => by
    obtain ⟨_, hrest⟩ := List.forall_mem_cons.1 hpos
    rw [stock_cons] at hle
    unfold taken
    split
    · rw [stock_nil]
      omega
    · split
      · rw [stock_cons, stock_taken hrest (by omega) (by omega)]
        omega
      · simp

theorem stock_left : ∀ {x : ℤ} {lots : List (Lot α)}, 0 ≤ x → x ≤ stock lots → stock (left x lots) = stock lots - x
  | x, [], hx, hle => by
    rw [stock_nil] at hle
    rw [left]
    omega
  | x, lot :: lots, hx, hle => by
    rw [stock_cons] at hle ⊢
    unfold left
    split
    · rw [stock_left (by omega) (by omega)]
      omega
    · rw [stock_cons]
      dsimp only
      omega

/-- Who takes everything leaves nothing. -/
theorem left_stock : ∀ {lots : List (Lot α)}, (∀ lot ∈ lots, 0 < lot.amount) → left (stock lots) lots = []
  | [], _ => rfl
  | lot :: lots, hpos => by
    obtain ⟨_, hrest⟩ := List.forall_mem_cons.1 hpos
    have := stock_nonneg hrest
    rw [stock_cons]
    unfold left
    rw [if_pos (by omega), add_sub_cancel_left, left_stock hrest]

end Fifo
