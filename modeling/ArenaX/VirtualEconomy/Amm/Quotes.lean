/-
The prices the pool quotes. A swap's output keeps the constant product for any fee, so that the check `swap` makes of it
fails only where the addition to the reserve wraps around. The input quoted for an output rounds once, and the swap that
pays it rounds twice: with a fee the quote may fall short. The first deposit is priced by the square root, which
Newton's method computes exactly.
-/
import ArenaX.VirtualEconomy.Amm.Invariant

namespace ArenaX.VirtualEconomy

open Machine Exec AmmManager

section Quotes

variable {m : Mode} {x y f a o n out : I128}

theorem keep_toInt (hf : 0 ≤ (f : ℤ)) : (i128.wrap (bpsDenominator - f) : ℤ) = 10000 - f :=
  wrap_of_fits (fits_sub (by decide) hf)

/-- What is left of an input after the fee. -/
def afterFee (a f : ℤ) : ℤ := mulDiv a (10000 - f) 10000

theorem afterFee_le {a f : ℤ} (hf : 0 ≤ f) (hf' : f ≤ 10000) (ha : 0 ≤ a) : afterFee a f ≤ a := by
  have hle : afterFee a f * 10000 ≤ a * (10000 - f) := mulDiv_le (by omega) (by decide)
  have := mul_nonneg ha hf
  linarith

theorem run_afterFee (hf : 0 ≤ (f : ℤ)) (hf' : (f : ℤ) ≤ 10000) (ha : 0 < (a : ℤ)) {net : I128} :
    (mulDivFloor a (i128.wrap (bpsDenominator - f)) bpsDenominator).run m = some net ↔ (net : ℤ) = afterFee a f := by
  rw [run_mulDivFloor ha.le (by rw [keep_toInt hf]; omega) (by decide), keep_toInt hf]
  rfl

/-- The output of an input: of the products the code forms, those of the curve have to fit. -/
theorem run_getAmountOut (hx : 0 < (x : ℤ)) (hy : 0 < (y : ℤ)) (hf : 0 ≤ (f : ℤ)) (hf' : (f : ℤ) ≤ 10000)
    (ha : 0 < (a : ℤ)) :
    (getAmountOut a x y f).run m = some out ↔ 0 < afterFee a f ∧ i128.Fits (afterFee a f * y) ∧
      i128.Fits (x + afterFee a f) ∧ (out : ℤ) = afterFee a f * y / (x + afterFee a f) := by
  simp only [getAmountOut, run_iff, checked_eq_some, run_quot, not_le, not_or, run_afterFee hf hf' ha]
  have hle := afterFee_le hf hf' ha.le
  generalize afterFee a f = net at *
  constructor
  · rintro ⟨-, -, -, -, _, rfl, -, hpos, num, hnum, den, hden, -, hout⟩
    rw [hnum, hden, Int.tdiv_eq_ediv_of_nonneg (mul_nonneg hpos.le hy.le)] at hout
    exact ⟨hpos, hnum ▸ num.fits, hden ▸ den.fits, hout⟩
  · rintro ⟨hpos, hnum, hden, hout⟩
    have hwrap : (i128.wrap net : ℤ) = net := wrap_of_nonneg hpos.le (hle.trans a.hi)
    refine ⟨(), ha, (), ⟨hx, hy⟩, i128.wrap net, hwrap, (), by rwa [hwrap], i128.wrap (net * y), ?_,
      i128.wrap (x + net), ?_, ?_, ?_⟩
    · rw [hwrap, wrap_of_fits hnum]
    · rw [hwrap, wrap_of_fits hden]
    · rw [wrap_of_fits hden]
      omega
    · rw [wrap_of_fits hnum, wrap_of_fits hden,
        Int.tdiv_eq_ediv_of_nonneg (mul_nonneg hpos.le hy.le)]
      exact hout

/-- The output of a swap leaves a part of its reserve, and the product of the reserves does not fall. -/
theorem getAmountOut_keeps_product (hx : 0 < (x : ℤ)) (hy : 0 < (y : ℤ)) (hf : 0 ≤ (f : ℤ))
    (hf' : (f : ℤ) ≤ 10000) (h : (getAmountOut a x y f).run m = some out) :
    0 ≤ (out : ℤ) ∧ (out : ℤ) < y ∧ (x : ℤ) * y ≤ (x + a) * (y - out) := by
  have ha : 0 < (a : ℤ) := by
    simp only [getAmountOut, run_iff, not_le] at h
    obtain ⟨-, ha, -⟩ := h
    exact ha
  obtain ⟨hpos, -, -, hout⟩ := (run_getAmountOut hx hy hf hf' ha).1 h
  have hle := afterFee_le hf hf' ha.le
  generalize afterFee a f = net at *
  have hden : (0 : ℤ) < x + net := by omega
  have hfloor : (out : ℤ) * (x + net) ≤ net * y := hout ▸ Int.ediv_mul_le _ hden.ne'
  have hnonneg : 0 ≤ (out : ℤ) := hout ▸ Int.ediv_nonneg (mul_nonneg hpos.le hy.le) hden.le
  have hlt : (out : ℤ) < y := by
    by_contra hge
    nlinarith
  refine ⟨hnonneg, hlt, ?_⟩
  calc (x : ℤ) * y ≤ (x + net) * (y - out) := by linarith
    _ ≤ (x + a) * (y - out) := mul_le_mul_of_nonneg_right (by omega) (by omega)

/-- Rounding up once, and down once after the fee, loses nothing as long as the two remainders leave room for each
other. -/
theorem le_rounded_iff {p d g n : ℤ} (hd : 0 < d) (hn : n = p * 10000 / (d * g) + 1) :
    p ≤ d * (n * g / 10000) ↔ p * 10000 % (d * g) + 10000 * (-p % d) ≤ d * g := by
  -- the least net input that the curve accepts is the quotient `p / d`, rounded up
  have hceil : p ≤ d * (n * g / 10000) ↔ -(-p / d) ≤ n * g / 10000 := by
    rw [neg_le, Int.le_ediv_iff_mul_le hd]
    constructor <;> intro h <;> linarith
  have hup : d * (-p / d) + -p % d = -p := Int.mul_ediv_add_emod _ _
  have hdown : d * g * (n - 1) + p * 10000 % (d * g) = p * 10000 := by
    rw [hn, add_sub_cancel_right]
    exact Int.mul_ediv_add_emod _ _
  rw [hceil, Int.le_ediv_iff_mul_le (by decide), ← mul_le_mul_iff_of_pos_left hd]
  constructor <;> intro h <;> linarith

/-- The input quoted for an output buys it if and only if the remainders of the two roundings leave room for each other;
without a fee they always do. -/
theorem quote_sufficient_iff (hx : 0 < (x : ℤ)) (hf : 0 ≤ (f : ℤ)) (hf' : (f : ℤ) < 10000) (ho : 0 < (o : ℤ))
    (hlt : (o : ℤ) < y) (hn : (getAmountIn o x y f).run .exact = some n) (hfee : i128.Fits (n * (10000 - f)))
    (hnum : i128.Fits (n * (10000 - f) / 10000 * y)) (hden : i128.Fits (x + n * (10000 - f) / 10000)) :
    ((∃ q, (getAmountOut n x y f).run m = some q ∧ (o : ℤ) ≤ q) ↔
      (x : ℤ) * o * 10000 % ((y - o) * (10000 - f)) + 10000 * (-((x : ℤ) * o) % (y - o)) ≤ (y - o) * (10000 - f)) ∧
    ((f : ℤ) = 0 →
      (x : ℤ) * o * 10000 % ((y - o) * (10000 - f)) + 10000 * (-((x : ℤ) * o) % (y - o)) ≤ (y - o) * (10000 - f)) := by
  simp only [getAmountIn, run_iff, checked_eq_some, run_quot, run_unchecked_exact, keep_toInt hf,
    wrap_of_fits (fits_sub (ho.trans hlt).le ho.le)] at hn
  obtain ⟨-, -, -, -, -, -, product, hproduct, num, hnumerator, den, hdenominator, q, ⟨-, hq⟩, hn⟩ := hn
  have hd : 0 < (y : ℤ) - o := by omega
  have hg : 0 < 10000 - (f : ℤ) := by omega
  have hdg := mul_pos hd hg
  rw [hnumerator, hproduct, hdenominator, show (bpsDenominator : ℤ) = 10000 from rfl,
    Int.tdiv_eq_ediv_of_nonneg (by positivity)] at hq
  rw [hq] at hn
  have hn0 : 0 < (n : ℤ) := by
    have := Int.ediv_nonneg (show 0 ≤ (x : ℤ) * o * 10000 by positivity) hdg.le
    omega
  have hnet : afterFee n f = n * (10000 - f) / 10000 := if_pos hfee
  rw [← le_rounded_iff hd hn]
  refine ⟨?_, ?_⟩
  · simp only [run_getAmountOut hx (ho.trans hlt) hf hf'.le hn0, hnet]
    generalize (n : ℤ) * (10000 - f) / 10000 = net at *
    constructor
    · rintro ⟨out, ⟨hpos, -, -, hout⟩, hle⟩
      rw [hout, Int.le_ediv_iff_mul_le (by omega)] at hle
      linarith
    · intro hle
      have hpos : 0 < net := by
        by_contra hneg
        nlinarith [mul_pos hx ho]
      have hprod : 0 ≤ net * y := mul_nonneg hpos.le (ho.trans hlt).le
      have hfits : i128.Fits (net * y / (x + net)) :=
        ⟨le_trans (by decide) (Int.ediv_nonneg hprod (by omega)), (Int.ediv_le_self _ hprod).trans hnum.2⟩
      refine ⟨i128.wrap (net * y / (x + net)), ⟨hpos, hnum, hden, wrap_of_fits hfits⟩, ?_⟩
      rw [wrap_of_fits hfits, Int.le_ediv_iff_mul_le (by omega)]
      linarith
  · intro hzero
    have hlt := Int.lt_ediv_add_one_mul_self ((x : ℤ) * o * 10000) hdg
    rw [← hn, hzero] at hlt
    rw [hzero, Int.sub_zero, Int.mul_ediv_cancel _ (by norm_num)]
    linarith

/-- The input quoted for 996 of a million, at a fee of 0.3%, is 1000, and buys 996. -/
theorem quote_sufficient_thousand :
    let million := i128.wrap 1000000
    (getAmountIn 996 million million 30).run .exact = some 1000 ∧
      ∃ q, (getAmountOut 1000 million million 30).run .exact = some q ∧ ((i128.wrap 996 : I128) : ℤ) ≤ q := by
  have hn : (getAmountIn 996 1000000 1000000 30).run .exact =
      some (i128.wrap 1000) := by decide +kernel
  exact ⟨hn, (quote_sufficient_iff (by decide) (by decide) (by decide) (by decide) (by decide) hn (by decide)
    (by decide) (by decide)).1.2 (by decide)⟩

/-- The input quoted for one of a million, at a fee of 0.3%, is 2, and buys nothing: of the 2, one is left after the
fee. -/
theorem quote_falls_short :
    let million := i128.wrap 1000000
    (getAmountIn 1 million million 30).run .exact = some 2 ∧
      (getAmountOut 2 million million 30).run .exact = some 0 := by
  decide +kernel

end Quotes

/-! ## The check of the product -/

section Check

variable {env : Env} {s : AmmStore} {pool : LiquidityPool} {aToB : Bool}
  {amountIn minAmountOut a b d x y f : I128} {now : U64}

theorem error?_mulDivFloor : (mulDivFloor a b d).error? ≠ some .invariantViolation := by
  unfold mulDivFloor
  cases i128.checked (a * b) <;> simp [error?_bind_iff, error?_reject, error?_okOr, error?_quot]

theorem error?_getAmountOut : (getAmountOut a x y f).error? ≠ some .invariantViolation := by
  simp [getAmountOut, error?_bind_iff, error?_reject, error?_okOr, error?_quot, error?_mulDivFloor]

theorem error?_accumulatePrice :
    (accumulatePrice pool now).error? ≠ some .invariantViolation := by
  unfold accumulatePrice
  dsimp only
  split
  · exact error?_pure
  · simp [error?_bind_iff, error?_pure, error?_ok]

/-- Advancing the oracle of a funded pool never fails: a price that does not fit is left out. -/
theorem run_accumulatePrice (now : U64) (hA : 0 < (pool.reserveA : ℤ)) (hB : 0 < (pool.reserveB : ℤ)) :
    ∃ pool', (accumulatePrice pool now).run .wrapping = some pool' := by
  have hspot : ∀ {x y : I128}, 0 < (x : ℤ) → 0 < (y : ℤ) → ∃ p, (spotPrice x y).ok?.run .wrapping = some p := by
    intro x y hx hy
    have hreject : reject ((x : ℤ) ≤ 0 ∨ (y : ℤ) ≤ 0) VirtualEconomyError.insufficientLiquidity = pure () :=
      if_neg (by omega)
    rw [spotPrice, hreject, pure_seq, mulDivFloor_eq hy.le (by decide) hx]
    cases i128.checked (mulDiv y priceScale x) <;> exact ⟨_, rfl⟩
  obtain ⟨priceA, ha⟩ := hspot hA hB
  obtain ⟨priceB, hb⟩ := hspot hB hA
  unfold accumulatePrice
  dsimp only
  rw [run_ite]
  split
  · exact ⟨_, rfl⟩
  · exact ⟨_, by rw [run_bind, ha, Option.bind_some, run_bind, hb, Option.bind_some, run_pure]⟩

/-- The calls of `swap` that reach the check of the product with a sum of reserve and input that has wrapped around:
the checks before it pass, and the product of what is left is small enough to be formed. -/
structure SumWraps (x y f a minOut : ℤ) : Prop where
  overflow : i128.max < x + a
  floor : 0 < minOut
  before : i128.Fits (x * y)
  net : 0 < afterFee a f
  numerator : i128.Fits (afterFee a f * y)
  denominator : i128.Fits (x + afterFee a f)
  output : minOut * (x + afterFee a f) ≤ afterFee a f * y
  product : x * y ≤ 2 ^ 127 / (2 ^ 128 - (x + a)) * (x + afterFee a f)

/-- The product of a sum that has wrapped around, which is negative, and of what is left of the other reserve can be
formed if that is only a small part of the reserve. -/
theorem fits_wrapped_iff {x y z net : ℤ} (hz : z < 2 ^ 128) (hden : 0 < x + net) (hleft : net * y / (x + net) < y) :
    i128.Fits ((z - 2 ^ 128) * (y - net * y / (x + net))) ↔ x * y ≤ 2 ^ 127 / (2 ^ 128 - z) * (x + net) := by
  have hneg : 0 < 2 ^ 128 - z := by linarith
  have hfits : i128.Fits ((z - 2 ^ 128) * (y - net * y / (x + net))) ↔
      y - net * y / (x + net) ≤ 2 ^ 127 / (2 ^ 128 - z) := by
    rw [Int.le_ediv_iff_mul_le hneg, i128_fits]
    constructor
    · rintro ⟨h, -⟩
      linarith
    · intro h
      constructor <;> nlinarith
  rw [hfits, sub_le_comm, Int.le_ediv_iff_mul_le hden]
  constructor <;> intro h <;> linarith

theorem wrap_of_overflow {z : ℤ} (h : i128.max < z) (h' : z < 2 ^ 128) : (i128.wrap z : ℤ) = z - 2 ^ 128 := by
  rw [i128_max] at h
  have hfits : i128.Fits (z - 2 ^ 128) := by
    rw [i128_fits]
    omega
  rw [← wrap_of_fits hfits, ← IntType.wrap_add_mul (z - 2 ^ 128) 1, i128_max, i128_min]
  congr 2
  ring

/-- With the quoted output, the check of the product fails if and only if the sum has wrapped around. -/
theorem check_fails_iff (hx : 0 < (x : ℤ)) (hy : 0 < (y : ℤ)) (hf : 0 ≤ (f : ℤ)) (hf' : (f : ℤ) ≤ 10000)
    (ha : 0 < (a : ℤ)) (hmin : 0 < (minAmountOut : ℤ)) :
    (i128.Fits (x * y) ∧ ∃ out, (getAmountOut a x y f).run .wrapping = some out ∧ (minAmountOut : ℤ) ≤ out ∧
      i128.Fits (i128.wrap (x + a) * (y - out)) ∧ (i128.wrap (x + a) : ℤ) * (y - out) < x * y) ↔
    SumWraps x y f a minAmountOut := by
  have hz : (x : ℤ) + a < 2 ^ 128 := by
    have := I128.bounds x
    have := I128.bounds a
    omega
  constructor
  · rintro ⟨hbefore, out, hquote, hle, hafter, hlt⟩
    obtain ⟨hnonneg, hleft, hkeeps⟩ := getAmountOut_keeps_product hx hy hf hf' hquote
    obtain ⟨hnet, hnum, hden, hout⟩ := (run_getAmountOut hx hy hf hf' ha).1 hquote
    have hsum : i128.max < x + a := by
      by_contra hfits
      rw [wrap_of_nonneg (by omega) (by omega)] at hlt
      exact hkeeps.not_gt hlt
    rw [wrap_of_overflow hsum hz, hout, fits_wrapped_iff hz (by omega) (hout ▸ hleft)] at hafter
    rw [hout, Int.le_ediv_iff_mul_le (by omega)] at hle
    exact ⟨hsum, hmin, hbefore, hnet, hnum, hden, hle, hafter⟩
  · rintro ⟨hsum, -, hbefore, hnet, hnum, hden, hle, hafter⟩
    have hprod : 0 ≤ afterFee a f * y := mul_nonneg hnet.le hy.le
    have hout := wrap_of_nonneg (t := i128) (Int.ediv_nonneg hprod (by omega))
      ((Int.ediv_le_self (x + afterFee a f) hprod).trans hnum.2)
    have hquote := (run_getAmountOut (m := .wrapping) hx hy hf hf' ha).2 ⟨hnet, hnum, hden, hout⟩
    obtain ⟨hnonneg, hleft, -⟩ := getAmountOut_keeps_product hx hy hf hf' hquote
    refine ⟨hbefore, _, hquote, ?_, ?_, ?_⟩
    · rwa [hout, Int.le_ediv_iff_mul_le (by omega)]
    · rw [wrap_of_overflow hsum hz, hout, fits_wrapped_iff hz (by omega) (hout ▸ hleft)]
      exact hafter
    · rw [wrap_of_overflow hsum hz]
      exact (mul_nonpos_of_nonpos_of_nonneg (by linarith) (by linarith)).trans_lt (mul_pos hx hy)

/-- The output of a swap keeps the product, for every fee; the check that it does fails exactly where the addition to
the reserve has wrapped around. -/
theorem product_check_dead (hp : s.pool = some pool) (hA : 0 < (pool.reserveA : ℤ)) (hB : 0 < (pool.reserveB : ℤ))
    (hf : 0 ≤ (pool.feeBps : ℤ)) (hf' : (pool.feeBps : ℤ) ≤ 10000) :
    let reserveIn := if aToB then pool.reserveA else pool.reserveB
    let reserveOut := if aToB then pool.reserveB else pool.reserveA
    (∀ m out, (getAmountOut amountIn reserveIn reserveOut pool.feeBps).run m = some out → 0 ≤ (out : ℤ) ∧
      (out : ℤ) < reserveOut ∧ (reserveIn : ℤ) * reserveOut ≤ (reserveIn + amountIn) * (reserveOut - out)) ∧
    ((AmmManager.swap env s aToB amountIn minAmountOut).error? ≠ some .invariantViolation ↔
      ¬ SumWraps reserveIn reserveOut pool.feeBps amountIn minAmountOut) := by
  intro reserveIn reserveOut
  have hin : 0 < (reserveIn : ℤ) := by
    dsimp only [reserveIn]
    split <;> assumption
  have hout : 0 < (reserveOut : ℤ) := by
    dsimp only [reserveOut]
    split <;> assumption
  refine ⟨fun m out => getAmountOut_keeps_product hin hout hf hf', not_congr ?_⟩
  simp only [AmmManager.swap, getPool, error?_bind_iff, error?_reject, error?_okOr, error?_getAmountOut,
    error?_mulDivFloor, error?_accumulatePrice, error?_unchecked, error?_pure, reduceCtorEq, and_false, false_or,
    or_false, exists_false, hp, run_iff, run_unchecked_wrapping, checked_eq_some, and_true]
  constructor
  · rintro ⟨-, hpos, -, hmin, _, ⟨⟩, -, -, pool₁, hacc, kBefore, hk, out, hquote, -, hpos', -, -, -, hle, _, rfl,
      kAfter, hk', hlt⟩
    obtain ⟨_, _, rfl⟩ := accumulatePrice_frame hacc
    rw [wrap_of_fits (fits_sub hout.le (not_le.1 hpos').le)] at hk'
    rw [hk, hk'] at hlt
    exact (check_fails_iff hin hout hf hf' (not_le.1 hpos) (not_le.1 hmin)).1
      ⟨hk ▸ kBefore.fits, out, hquote, not_lt.1 hle, hk' ▸ kAfter.fits, hlt⟩
  · intro h
    have hmax := reserveIn.hi
    have ha : 0 < (amountIn : ℤ) := by linarith [h.overflow]
    obtain ⟨hbefore, out, hquote, hle, hafter, hlt⟩ := (check_fails_iff hin hout hf hf' ha h.floor).2 h
    have hleft := getAmountOut_keeps_product hin hout hf hf' hquote
    have hpos : 0 < (out : ℤ) := h.floor.trans_le hle
    obtain ⟨pool₁, hacc⟩ := run_accumulatePrice env.timestamp hA hB
    obtain ⟨_, _, rfl⟩ := accumulatePrice_frame hacc
    refine ⟨(), not_le.2 ha, (), not_le.2 h.floor, pool, rfl, (), by omega, _, hacc, i128.wrap _,
      wrap_of_fits hbefore, out, hquote, (), not_le.2 hpos, (), not_le.2 hleft.2.1, (), not_lt.2 hle, _, rfl,
      i128.wrap (i128.wrap (reserveIn + amountIn) * (reserveOut - out)), ?_, ?_⟩
    · exact (wrap_of_fits hafter).trans (by rw [wrap_of_fits (fits_sub hout.le hpos.le)])
    · rwa [wrap_of_fits hafter, wrap_of_fits hbefore]

/-- A pool of a thousand of each asset, with the 0.3% fee. -/
def quoted : AmmStore :=
  { pool := some ⟨1000, 1000, 1000, 0, 0, 0, 30⟩ }

theorem product_check_dead_quoted : (AmmManager.swap ⟨.signed [] 0 0, fun t _ _ => t⟩ quoted true 100 1).error? ≠
    some .invariantViolation :=
  (product_check_dead rfl (by decide) (by decide) (by decide) (by decide)).2.2 fun h => absurd h.overflow (by decide)

/-- With a fee of 99.99%, all of the type's range can be paid into a pool of 2000 of each asset: the check takes the sum
that wraps around for a product that has fallen. -/
theorem product_check_fails : let env : Env := ⟨.signed [] 0 0, fun t _ _ => t⟩
    ∃ s, AmmCall.runs {} [(env, .createPool 9999), (env, .addLiquidity ⟨1⟩ 2000 2000 0)] = some s ∧
      (AmmManager.swap env s true (i128.wrap i128.max) 1).error? = some .invariantViolation := by
  intro env
  exact Option.bind_eq_some_iff.1 (by decide +kernel)

end Check

/-! ## The first deposit -/

section Sqrt

variable {m : Mode} {n : I128}

theorem run_integerSqrt (hn : 0 ≤ (n : ℤ)) (m : Mode) :
    ∃ r : I128, (integerSqrt n).run m = some r ∧ (r : ℤ) * r ≤ n ∧ (n : ℤ) < (r + 1) * (r + 1) := by
  unfold integerSqrt
  split
  · exact ⟨0, run_pure m _, by rw [toInt_zero]; omega, by rw [toInt_zero]; omega⟩
  split
  · exact ⟨_, run_pure m _, show 1 * 1 ≤ (n : ℤ) by omega, show (n : ℤ) < (1 + 1) * (1 + 1) by omega⟩
  · have hmax := n.hi
    have hhalf : (i128.wrap (n / 2) : ℤ) = n / 2 := wrap_of_nonneg (by omega) (by omega)
    have hnext : (i128.wrap (n / 2 + 1) : ℤ) = n / 2 + 1 := wrap_of_nonneg (by omega) (by omega)
    obtain ⟨r, hr, hfl⟩ := run_newton (ε := VirtualEconomyError) (m := m) (n := n) (x := n) (y := i128.wrap (n / 2 + 1))
      (by omega) (by omega)
      (by omega) (by rw [hnext]; exact lt_sq_of_mean (x := 2) (q := n / 2) (by decide) (by omega) (by omega) (by omega))
      (by nlinarith) (by omega)
    refine ⟨r, ?_, hfl⟩
    simp only [run_iff, run_quot, run_unchecked]
    refine ⟨_, ⟨by decide, hhalf.trans ?_⟩, _, ⟨rfl, fun _ => ?_⟩, ?_⟩
    · rw [Int.tdiv_eq_ediv_of_nonneg hn]
    · rw [hhalf]
      exact ⟨i128.min_le.trans (by omega), by omega⟩
    · rwa [hhalf]

/-- The floor of the root is the only integer between whose square and the next the number lies. -/
theorem eq_of_floor_sqrt {n x r : ℤ} (hr : r * r ≤ n) (hr' : n < (r + 1) * (r + 1)) :
    x * x ≤ n ∧ n < (x + 1) * (x + 1) ↔ x = r := by
  constructor
  · rintro ⟨hx, hx'⟩
    nlinarith
  · rintro rfl
    exact ⟨hr, hr'⟩

/-- The square root of a number that is not negative is computed without leaving the range of the type, and is the floor
of the root; so the first deposit mints no more than the root of its product. -/
theorem integerSqrt_floor (hn : 0 ≤ (n : ℤ)) : ∃ r : I128, (∀ m, (integerSqrt n).run m = some r) ∧
    (∀ x : ℤ, x * x ≤ n ∧ (n : ℤ) < (x + 1) * (x + 1) ↔ x = r) ∧
    ∀ (pool : LiquidityPool) (a b : I128) m minted, (pool.totalShares : ℤ) = 0 → (a : ℤ) * b = n →
      (depositShares pool a b).run m = some minted → (minted.1 : ℤ) + minted.2 = r := by
  obtain ⟨r, hr, hfl⟩ := run_integerSqrt hn .exact
  have hrun := run_of_exact hr
  refine ⟨r, hrun, fun x => eq_of_floor_sqrt hfl.1 hfl.2, fun pool a b m minted hempty hn h => ?_⟩
  simp only [depositShares, hempty, hn, if_true, run_iff, checked_eq_some] at h
  obtain ⟨product, hproduct, initial, hinitial, -, hlt, rfl⟩ := h
  cases IntType.Val.ext hproduct
  cases (hrun m).symm.trans hinitial
  have hmin : 0 ≤ (minimumLiquidity : ℤ) := by decide
  have hmax := r.hi
  rw [wrap_of_nonneg (by omega) (by omega), sub_add_cancel]

theorem integerSqrt_floor_max :
    ∃ r : I128, (∀ m, (integerSqrt (i128.wrap i128.max)).run m = some r) ∧ (r : ℤ) = 13043817825332782212 := by
  obtain ⟨r, hr, hfl, -⟩ := integerSqrt_floor (n := i128.wrap i128.max) (by decide)
  exact ⟨r, hr, ((hfl 13043817825332782212).1 (by decide)).symm⟩

end Sqrt

end ArenaX.VirtualEconomy
