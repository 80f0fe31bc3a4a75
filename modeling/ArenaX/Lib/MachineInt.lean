/-
Fixed-width machine integers as integers with their bounds: a type of integers is its range, a
value carries the proof that it lies in it, and the arithmetic of a program is written on the
integers and brought back into the range by wrapping, by checking or by saturating.
-/
import Mathlib.Tactic

namespace Machine

variable {x : Int}

/-- The range of an integer type. -/
structure IntType where
  min : Int
  max : Int
  min_le : min ≤ 0
  le_max : 0 ≤ max

namespace IntType

/-- The values of an integer type. -/
@[ext] structure Val (t : IntType) where
  toInt : Int
  lo : t.min ≤ toInt
  hi : toInt ≤ t.max
deriving DecidableEq

variable {t : IntType}

instance : CoeOut t.Val Int := ⟨Val.toInt⟩

instance : Zero t.Val := ⟨⟨0, t.min_le, t.le_max⟩⟩

instance : Inhabited t.Val := ⟨0⟩

@[simp] theorem toInt_zero : ((0 : t.Val) : Int) = 0 := rfl

/-- An integer is representable in the type. -/
def Fits (t : IntType) (x : Int) : Prop := t.min ≤ x ∧ x ≤ t.max
deriving Decidable

theorem Val.fits (x : t.Val) : t.Fits x := ⟨x.lo, x.hi⟩

/-- Two's-complement wrap-around: the representable integer congruent to `x`. -/
def wrap (t : IntType) (x : Int) : t.Val where
  toInt := t.min + (x - t.min) % (t.max - t.min + 1)
  lo := by
    have h := t.min_le; have h' := t.le_max
    have := Int.emod_nonneg (x - t.min) (b := t.max - t.min + 1) (by omega)
    omega
  hi := by
    have h := t.min_le; have h' := t.le_max
    have := Int.emod_lt_of_pos (x - t.min) (b := t.max - t.min + 1) (by omega)
    omega

/-- The value of `x`, if it is representable. -/
def checked (t : IntType) (x : Int) : Option t.Val :=
  if h : t.Fits x then some ⟨x, h.1, h.2⟩ else none

/-- The representable integer nearest to `x`. -/
def saturate (t : IntType) (x : Int) : t.Val :=
  if h : t.Fits x then ⟨x, h.1, h.2⟩
  else if x < t.min then ⟨t.min, le_refl _, le_trans t.min_le t.le_max⟩
  else ⟨t.max, le_trans t.min_le t.le_max, le_refl _⟩

/-- Literals, wrapped into the range. -/
instance (n : ℕ) : OfNat t.Val (n + 1) := ⟨t.wrap (n + 1 : ℕ)⟩

theorem wrap_of_fits (h : t.Fits x) : (t.wrap x : Int) = x := by
  obtain ⟨h1, h2⟩ := h
  show t.min + (x - t.min) % (t.max - t.min + 1) = x
  rw [Int.emod_eq_of_lt (by omega) (by omega)]
  omega

theorem wrap_of_nonneg (h0 : 0 ≤ x) (hx : x ≤ t.max) : (t.wrap x : Int) = x :=
  wrap_of_fits ⟨t.min_le.trans h0, hx⟩

@[simp] theorem wrap_toInt (x : t.Val) : t.wrap x = x := Val.ext (wrap_of_fits x.fits)

/-- The wrapped value differs from `x` by a multiple of the number of values. -/
theorem wrap_sub (x : Int) : ∃ k, (t.wrap x : Int) = x - k * (t.max - t.min + 1) := by
  refine ⟨(x - t.min) / (t.max - t.min + 1), ?_⟩
  show t.min + (x - t.min) % (t.max - t.min + 1) = _
  have := Int.emod_add_mul_ediv (x - t.min) (t.max - t.min + 1)
  linarith [mul_comm ((x - t.min) / (t.max - t.min + 1)) (t.max - t.min + 1)]

/-- Wrapping a sum in stages is wrapping it once. -/
theorem wrap_wrap_add (x y : Int) : t.wrap (t.wrap x + y) = t.wrap (x + y) := by
  apply Val.ext
  show t.min + (t.min + (x - t.min) % (t.max - t.min + 1) + y - t.min) % (t.max - t.min + 1) =
    t.min + (x + y - t.min) % (t.max - t.min + 1)
  congr 1
  rw [show t.min + (x - t.min) % (t.max - t.min + 1) + y - t.min =
    (x - t.min) % (t.max - t.min + 1) + y by ring, Int.emod_add_emod]
  congr 1; ring

theorem wrap_add_wrap (x y : Int) : t.wrap (x + t.wrap y) = t.wrap (x + y) := by
  rw [add_comm, wrap_wrap_add, add_comm]

theorem wrap_wrap_sub (x y : Int) : t.wrap (t.wrap x - y) = t.wrap (x - y) := by
  rw [sub_eq_add_neg, wrap_wrap_add, sub_eq_add_neg]

/-- Multiples of the number of values do not matter. -/
theorem wrap_add_mul (x k : Int) : t.wrap (x + k * (t.max - t.min + 1)) = t.wrap x := by
  apply Val.ext
  show t.min + (x + k * (t.max - t.min + 1) - t.min) % (t.max - t.min + 1) = t.min + (x - t.min) % (t.max - t.min + 1)
  rw [add_sub_right_comm, Int.add_mul_emod_self_right]

theorem wrap_sub_wrap (x y : Int) : t.wrap (x - t.wrap y) = t.wrap (x - y) := by
  obtain ⟨k, hk⟩ := t.wrap_sub y
  rw [hk, ← wrap_add_mul (x - y) k]
  congr 1
  ring

/-- A cast through a type with as many values, such as the signed one of the same width, loses nothing. -/
theorem wrap_wrap_cast {t' : IntType} (h : t'.max - t'.min = t.max - t.min) (x : Int) :
    t.wrap (t'.wrap x) = t.wrap x := by
  obtain ⟨k, hk⟩ := t'.wrap_sub x
  rw [hk, h, sub_eq_add_neg, ← neg_mul, wrap_add_mul]

/-- A value past the largest one wraps to a value at least the whole range below it. -/
theorem wrap_le_of_lt (h : t.max < x) : (t.wrap x : Int) ≤ x - (t.max - t.min + 1) := by
  obtain ⟨k, hk⟩ := t.wrap_sub x
  have hhi := (t.wrap x).hi
  have hrange : 0 < t.max - t.min + 1 := by have := t.min_le; have := t.le_max; omega
  have hpos : 0 < k := pos_of_mul_pos_left (by omega : 0 < k * (t.max - t.min + 1)) hrange.le
  have := Int.mul_le_mul_of_nonneg_right (show 1 ≤ k from hpos) hrange.le
  omega

/-- Wrapping from above only lowers. -/
theorem wrap_le (h : t.min ≤ x) : (t.wrap x : Int) ≤ x := by
  rcases le_or_gt x t.max with hle | hlt
  · exact (wrap_of_fits ⟨h, hle⟩).le
  · have := wrap_le_of_lt hlt
    have := t.min_le
    have := t.le_max
    omega

/-- Adding less than the number of values changes a value. -/
theorem wrap_add_ne {x : t.Val} {n : Int} (hpos : 0 < n) (hn : n ≤ t.max - t.min) : t.wrap (x + n) ≠ x := by
  intro h
  obtain ⟨k, hk⟩ := t.wrap_sub (x + n)
  rw [h] at hk
  have hrange : 0 < t.max - t.min + 1 := by omega
  have hk0 : 0 < k := pos_of_mul_pos_left (by omega : 0 < k * (t.max - t.min + 1)) hrange.le
  have := Int.mul_le_mul_of_nonneg_right (show 1 ≤ k from hk0) hrange.le
  omega

@[simp] theorem checked_eq_some {y : t.Val} : t.checked x = some y ↔ (y : Int) = x := by
  unfold checked
  by_cases h : t.Fits x
  · rw [dif_pos h, Option.some.injEq, Val.ext_iff, eq_comm]
  · rw [dif_neg h]
    exact ⟨nofun, fun e => absurd (e ▸ y.fits) h⟩

/-- Saturation clamps to the range. -/
theorem saturate_eq (x : Int) : (t.saturate x : Int) = Max.max t.min (Min.min x t.max) := by
  have h := t.min_le
  have h' := t.le_max
  unfold saturate
  split
  · rename_i hfits
    obtain ⟨hlo, hhi⟩ := hfits
    dsimp only
    omega
  · rename_i hfits
    unfold Fits at hfits
    split <;> dsimp only <;> omega

theorem saturate_of_fits (h : t.Fits x) : (t.saturate x : Int) = x := by
  unfold saturate; rw [dif_pos h]

/-- The smaller of two values. -/
def Val.min (x y : t.Val) : t.Val := if (x : Int) ≤ y then x else y

/-- The larger of two values. -/
def Val.max (x y : t.Val) : t.Val := if (x : Int) ≤ y then y else x

@[simp] theorem toInt_min (x y : t.Val) : ((x.min y : t.Val) : Int) = Min.min (x : Int) y := by
  unfold Val.min
  split <;> omega

@[simp] theorem toInt_max (x y : t.Val) : ((x.max y : t.Val) : Int) = Max.max (x : Int) y := by
  unfold Val.max
  split <;> omega

end IntType

/-- Two's-complement signed integers of 128 bits. -/
def i128 : IntType := ⟨-2 ^ 127, 2 ^ 127 - 1, by norm_num, by norm_num⟩

/-- Two's-complement signed integers of 64 bits. -/
def i64 : IntType := ⟨-2 ^ 63, 2 ^ 63 - 1, by norm_num, by norm_num⟩

/-- Two's-complement signed integers of 32 bits. -/
def i32 : IntType := ⟨-2 ^ 31, 2 ^ 31 - 1, by norm_num, by norm_num⟩

/-- Unsigned integers of 64 bits. -/
def u64 : IntType := ⟨0, 2 ^ 64 - 1, by norm_num, by norm_num⟩

/-- Unsigned integers of 32 bits. -/
def u32 : IntType := ⟨0, 2 ^ 32 - 1, by norm_num, by norm_num⟩

abbrev I128 := i128.Val
abbrev I64 := i64.Val
abbrev I32 := i32.Val
abbrev U64 := u64.Val
abbrev U32 := u32.Val

theorem i128_min : i128.min = -170141183460469231731687303715884105728 := rfl

theorem i128_max : i128.max = 170141183460469231731687303715884105727 := rfl

theorem i128_fits :
    i128.Fits x ↔ -170141183460469231731687303715884105728 ≤ x ∧ x ≤ 170141183460469231731687303715884105727 :=
  Iff.rfl

theorem I128.bounds (x : I128) : -170141183460469231731687303715884105728 ≤ (x : Int) ∧
    (x : Int) ≤ 170141183460469231731687303715884105727 := x.fits

theorem U64.bounds (x : U64) : 0 ≤ (x : Int) ∧ (x : Int) ≤ 18446744073709551615 := x.fits

theorem U32.bounds (x : U32) : 0 ≤ (x : Int) ∧ (x : Int) ≤ 4294967295 := x.fits

export IntType (wrap_of_fits wrap_of_nonneg checked_eq_some toInt_min toInt_zero toInt_max wrap_wrap_add wrap_toInt
  saturate_of_fits)

end Machine
