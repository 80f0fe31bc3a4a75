/-
Newton's iteration for the integer square root, as contracts write it: it stays within the range of its type and stops
at the floor of the root.
-/
import ArenaX.Lib.Exec

namespace Machine.Exec

variable {ε : Type} {t : IntType} {m : Mode}

/-- Newton's iteration for a square root of `n`: the guess falls strictly until it overshoots. -/
def newton (n guess next : t.Val) : Exec ε t.Val :=
  if (next : Int) < guess then do
    let ratio ← quot t n next
    let sum ← unchecked t (next + ratio)
    let next' ← quot t sum 2
    newton n next next'
  else pure guess
termination_by (guess - t.min).toNat
decreasing_by have := next.lo; omega

/-- Integer square root. -/
def isqrt (n : t.Val) : Exec ε t.Val :=
  if (n : Int) ≤ 0 then pure 0
  else do
    let sum ← unchecked t (n + 1)
    let next ← quot t sum 2
    newton n n next

/-- The mean of a guess `x` and of `n / x` is no less than the root. -/
theorem lt_sq_of_mean {n x q y : ℤ} (hx : 0 < x) (hq : 0 ≤ q) (hn : n < x * q + x) (hy : x + q ≤ 2 * y + 1) :
    n < (y + 1) * (y + 1) := by
  have hmean : x * (q + 1) * 4 ≤ (x + q + 1) * (x + q + 1) := by linarith [mul_self_nonneg (x - (q + 1))]
  have hsq : (x + q + 1) * (x + q + 1) ≤ (2 * (y + 1)) * (2 * (y + 1)) := mul_self_le_mul_self (by omega) (by omega)
  linarith

/-- The loop, from a guess and a next one that are not below the root: nothing leaves its range, and it stops at the
floor. -/
theorem run_newton {n : t.Val} (hn : 4 ≤ (n : ℤ)) {x y : t.Val} (hpos : 0 ≤ (y : ℤ)) (hle : 2 * (y : ℤ) ≤ n + 2)
    (hnext : (n : ℤ) < (y + 1) * (y + 1)) (hguess : (n : ℤ) < (x + 1) * (x + 1))
    (hstop : (x : ℤ) ≤ y → (x : ℤ) * x ≤ n) :
    ∃ r : t.Val, (newton n x y : Exec ε t.Val).run m = some r ∧ (r : ℤ) * r ≤ n ∧ (n : ℤ) < (r + 1) * (r + 1) := by
  induction x, y using newton.induct with
  | case1 guess next hlt ih =>
    have htwo : 2 ≤ (next : ℤ) := by nlinarith
    have hmax := n.hi
    have hq0 : 0 ≤ (n : ℤ) / next := by positivity
    have hfloor : next * ((n : ℤ) / next) ≤ n := Int.mul_ediv_self_le (by omega)
    have hceil := Int.lt_mul_ediv_self_add (x := n) (k := next) (by omega)
    -- neither factor of a product that is at least four is far from it: their sum stays below
    have hsum : (next : ℤ) + n / next ≤ n := by nlinarith
    have hq : (t.wrap (n / next) : ℤ) = n / next := wrap_of_nonneg hq0 (by omega)
    have hs : (t.wrap (next + n / next) : ℤ) = next + n / next := wrap_of_nonneg (by omega) (by omega)
    have hy : (t.wrap ((next + n / next) / 2) : ℤ) = (next + n / next) / 2 := wrap_of_nonneg (by omega) (by omega)
    obtain ⟨r, hr, hfl⟩ := ih (t.wrap ((next + n / next) / 2)) (by omega) (by omega)
      (by rw [hy]; exact lt_sq_of_mean (by omega) hq0 hceil (by omega)) hnext
      fun h => (mul_le_mul_of_nonneg_left (by omega) hpos).trans hfloor
    refine ⟨r, ?_, hfl⟩
    rw [newton, if_pos hlt]
    simp only [run_iff, run_quot, run_unchecked]
    refine ⟨_, ⟨by omega, hq.trans ?_⟩, _, ⟨rfl, fun _ => ?_⟩, _, ⟨by decide, hy.trans ?_⟩, hr⟩
    · rw [Int.tdiv_eq_ediv_of_nonneg (by omega)]
    · rw [hq]
      exact ⟨t.min_le.trans (by omega), by omega⟩
    · rw [hq, hs, Int.tdiv_eq_ediv_of_nonneg (by omega)]
  | case2 guess next hlt =>
    rw [newton, if_neg hlt]
    exact ⟨guess, run_pure m _, hstop (not_lt.1 hlt), hguess⟩

end Machine.Exec
