/-
When a quotient that is rounded toward zero stays the same for another numerator: what decides is the remainder.
-/
import ArenaX.Lib.MachineInt

namespace Quotients

variable {p p' d q : ℤ}

theorem tdiv_eq_iff (hd : 0 < d) : p.tdiv d = q ↔
    if 0 ≤ p then d * q ≤ p ∧ p < d * q + d else d * q - d < p ∧ p ≤ d * q := by
  have habs : (d.natAbs : ℤ) = d := Int.natAbs_of_nonneg hd.le
  have hrem : p.tdiv d = q → p.tmod d = p - d * q := by
    rintro rfl
    have := Int.mul_tdiv_add_tmod p d
    omega
  split
  · rename_i hp
    have := Int.tdiv_tmod_unique (r := p - d * q) (q := q) hp hd.ne'
    grind
  · rename_i hp
    have := Int.tdiv_tmod_unique' (r := p - d * q) (q := q) (not_le.1 hp).le hd.ne'
    grind

/-- A quotient is representable where its numerator is. -/
theorem fits_tdiv {t : Machine.IntType} (x : t.Val) (hd : 0 < d) : t.Fits ((x : ℤ).tdiv d) := by
  have hlo := x.lo
  have hhi := x.hi
  have hmin := t.min_le
  have hmax := t.le_max
  have hle := Int.natAbs_tdiv_le_natAbs x d
  rcases le_total 0 (x : ℤ) with hx | hx
  · have := Int.tdiv_nonneg hx hd.le
    exact ⟨by omega, by omega⟩
  · have := Int.tdiv_nonneg (Int.neg_nonneg.2 hx) hd.le
    rw [Int.neg_tdiv] at this
    exact ⟨by omega, by omega⟩

/-- The remainder and the change of the numerator together are a remainder again. -/
def SameOf (p p' d : ℤ) : Prop :=
  |p.tmod d + (p' - p)| < d ∧ (d ≤ p → 0 ≤ p.tmod d + (p' - p)) ∧ (p ≤ -d → p.tmod d + (p' - p) ≤ 0)
deriving Decidable

theorem tdiv_eq_tdiv_iff_of (hd : 0 < d) : p'.tdiv d = p.tdiv d ↔ SameOf p p' d := by
  have hsplit := Int.mul_tdiv_add_tmod p d
  have hold := (tdiv_eq_iff hd).1 (rfl : p.tdiv d = p.tdiv d)
  rw [tdiv_eq_iff hd]
  generalize p.tdiv d = q at *
  generalize hr : p.tmod d = r at *
  have hq : (0 < q → d ≤ d * q) ∧ (q < 0 → d * q ≤ -d) ∧ (q = 0 → d * q = 0) := by
    refine ⟨fun h => ?_, fun h => ?_, fun h => by rw [h, mul_zero]⟩ <;> nlinarith
  constructor
  · intro h
    refine ⟨?_, ?_, ?_⟩
    · rw [hr, abs_lt]
      split_ifs at h hold <;> omega
    · rw [hr]
      split_ifs at h hold <;> omega
    · rw [hr]
      split_ifs at h hold <;> omega
  · rintro ⟨hsmall, hpos, hneg⟩
    rw [abs_lt] at hsmall
    rw [hr] at hsmall hpos hneg
    split_ifs at hold ⊢ <;> rcases lt_trichotomy 0 q with h | h | h <;> omega

end Quotients
