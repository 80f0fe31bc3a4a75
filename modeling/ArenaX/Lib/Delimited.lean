/-
Texts that are joined with a separator between them. A way of printing is delimited when no value's text with the
separator after it is the beginning of another's; what is printed so can be read back piece by piece.
-/
import Mathlib.Tactic

abbrev Text := List Char

namespace Text

variable {α : Type} {sep : Char} {text : α → Text}

/-- A text without the separator ends where the separator comes. -/
theorem append_sep_inj :
    ∀ {a b rest rest' : Text}, sep ∉ a → sep ∉ b → a ++ sep :: rest = b ++ sep :: rest' → a = b ∧ rest = rest'
  | [], [], _, _, _, _, h => ⟨rfl, (List.cons.inj h).2⟩
  | [], _ :: _, _, _, _, hb, h => absurd ((List.cons.inj h).1 ▸ List.mem_cons_self) hb
  | _ :: _, [], _, _, ha, _, h => absurd ((List.cons.inj h).1 ▸ List.mem_cons_self) ha
  | x :: a, y :: b, rest, rest', ha, hb, h => by
    obtain ⟨rfl, htail⟩ := List.cons.inj h
    obtain ⟨rfl, hrest⟩ := append_sep_inj (List.not_mem_of_not_mem_cons ha) (List.not_mem_of_not_mem_cons hb) htail
    exact ⟨rfl, hrest⟩

variable (sep text) in
/-- What comes before a separator can be read back. -/
def Delimited : Prop :=
  ∀ ⦃a b : α⦄ ⦃rest rest' : Text⦄, text a ++ sep :: rest = text b ++ sep :: rest' → a = b ∧ rest = rest'

variable (sep text) in
/-- No value is printed as nothing, or begins with the separator. -/
def Visible : Prop := ∀ a, ∃ c t, text a = c :: t ∧ c ≠ sep

/-- A value, or nothing. -/
def coalesce (text : α → Text) (a : Option α) : Text := (a.map text).getD []

theorem delimited_of_notMem (hinj : Function.Injective text) (h : ∀ a, sep ∉ text a) : Delimited sep text := by
  intro a b rest rest' heq
  obtain ⟨htext, hrest⟩ := append_sep_inj (h a) (h b) heq
  exact ⟨hinj htext, hrest⟩

theorem Delimited.coalesce (h : Delimited sep text) (hvisible : Visible sep text) : Delimited sep (coalesce text) := by
  -- nothing is followed by the separator at once, a value is not
  have hnone : ∀ b rest rest', sep :: rest ≠ text b ++ sep :: rest' := by
    intro b rest rest' heq
    obtain ⟨c, t, hb, hc⟩ := hvisible b
    rw [hb] at heq
    exact hc (List.cons.inj heq).1.symm
  intro a b rest rest' heq
  cases a with
  | none =>
    cases b with
    | none => exact ⟨rfl, (List.cons.inj heq).2⟩
    | some b => exact absurd heq (hnone b rest rest')
  | some a =>
    cases b with
    | none => exact absurd heq.symm (hnone a rest' rest)
    | some b =>
      obtain ⟨rfl, hrest⟩ := h heq
      exact ⟨rfl, hrest⟩

/-! ## Numbers -/

/-- A number in decimal digits. -/
def digits (n : ℕ) : Text := Nat.toDigits 10 n

theorem digits_injective : Function.Injective digits := by
  intro m n h
  calc m = Nat.ofDigitChars 10 (digits m) 0 := Nat.ofDigitChars_ten_toDigits.symm
    _ = Nat.ofDigitChars 10 (digits n) 0 := by rw [h]
    _ = n := Nat.ofDigitChars_ten_toDigits

theorem notMem_digits (hsep : sep.isDigit = false) (n : ℕ) : sep ∉ digits n := by
  intro h
  have hdigit := Nat.isDigit_of_mem_toDigits (by decide) (by decide) h
  rw [hsep] at hdigit
  cases hdigit

theorem delimited_digits (hsep : sep.isDigit = false) :
    Delimited sep digits := delimited_of_notMem digits_injective (notMem_digits hsep)

theorem visible_digits (hsep : sep.isDigit = false) : Visible sep digits := by
  intro n
  cases hn : digits n with
  | nil => exact absurd hn Nat.toDigits_ne_nil
  | cons c t =>
    refine ⟨c, t, rfl, ?_⟩
    rintro rfl
    exact notMem_digits hsep n (hn ▸ List.mem_cons_self)

end Text
