/-
The two laws of the liquidity pool over every run of its calls in which no unchecked addition
overflows: LP accounting (an unfunded pool is empty; a funded one has positive reserves and its LP
tokens are the locked minimum plus what the providers hold) and share value (the constant product
per squared LP token never falls). Both are read off one relation, `AmmMove`, that says what a call
does to the reserves and the LP tokens: deposits and withdrawals are proportional up to a rounding
in favour of the pool, and a swap does not lower the product.
-/
import ArenaX.VirtualEconomy.Amm.Basic

namespace ArenaX.VirtualEconomy

open Machine Exec

variable {pool : LiquidityPool} {s s' : AmmStore}

namespace AmmManager

/-! ## Arithmetic -/

theorem fits_sub {x y : I128} (hx : 0 ≤ (x : Int)) (hy : 0 ≤ (y : Int)) : i128.Fits (x - y) := by
  have h1 := I128.bounds x; have h2 := I128.bounds y
  rw [i128_fits]; omega

/-- What `mulDivFloor` computes: a product that does not fit is not formed, the first factor is divided instead. -/
def mulDiv (a b d : Int) : Int := if i128.Fits (a * b) then a * b / d else a / d * b

theorem quot_of_nonneg {x d : Int} (hx : 0 ≤ x) (hmax : x ≤ i128.max) (hd : 0 < d) :
    (quot i128 x d : Result I128) = pure (i128.wrap (x / d)) := by
  have hfits : i128.Fits (x / d) := ⟨i128.min_le.trans (Int.ediv_nonneg hx hd.le), (Int.ediv_le_self d hx).trans hmax⟩
  rw [quot, if_neg hd.ne', Int.tdiv_eq_ediv_of_nonneg hx, checked_eq_some.2 (wrap_of_fits hfits)]
  rfl

/-- A quotient of amounts is refused, and never panics, where it does not fit. -/
theorem mulDivFloor_eq {a b d : I128} (ha : 0 ≤ (a : Int)) (hb : 0 ≤ (b : Int)) (hd : 0 < (d : Int)) :
    mulDivFloor a b d = okOr (i128.checked (mulDiv a b d)) .invalidAmount := by
  have hreject : reject ((d : Int) = 0) VirtualEconomyError.invalidAmount = pure () := if_neg hd.ne'
  unfold mulDivFloor mulDiv
  rw [hreject, pure_seq]
  by_cases hfits : i128.Fits (a * b)
  · have hab := mul_nonneg ha hb
    rw [if_pos hfits, checked_eq_some.2 (wrap_of_fits hfits),
      checked_eq_some.2 (wrap_of_nonneg (Int.ediv_nonneg hab hd.le) ((Int.ediv_le_self _ hab).trans hfits.2))]
    show quot i128 (i128.wrap (a * b) : Int) d = _
    rw [wrap_of_fits hfits, quot_of_nonneg hab hfits.2 hd, okOr]
  · -- the product overflows: divide first, which only rounds further down
    have hnone : i128.checked (a * b) = none := dif_neg hfits
    rw [if_neg hfits, hnone]
    show quot i128 a d >>= _ = _
    rw [quot_of_nonneg ha a.hi hd, pure_seq,
      wrap_of_nonneg (Int.ediv_nonneg ha hd.le) ((Int.ediv_le_self _ ha).trans a.hi)]

theorem run_mulDivFloor {m : Mode} {a b d r : I128} (ha : 0 ≤ (a : Int)) (hb : 0 ≤ (b : Int)) (hd : 0 < (d : Int)) :
    (mulDivFloor a b d).run m = some r ↔ (r : Int) = mulDiv a b d := by
  rw [mulDivFloor_eq ha hb hd, run_okOr, checked_eq_some]

theorem mulDiv_le {a b d : Int} (hb : 0 ≤ b) (hd : 0 < d) : mulDiv a b d * d ≤ a * b := by
  unfold mulDiv
  split
  · exact Int.ediv_mul_le _ hd.ne'
  · calc a / d * b * d = a / d * d * b := by ring
      _ ≤ a * b := mul_le_mul_of_nonneg_right (Int.ediv_mul_le _ hd.ne') hb

/-- `mulDivFloor` rounds down, on the exact path and on the divide-first path. -/
theorem mulDivFloor_le {m : Mode} {a b d r : I128} (ha : 0 ≤ (a : Int)) (hb : 0 ≤ (b : Int)) (hd : 0 < (d : Int))
    (h : (mulDivFloor a b d).run m = some r) : (r : Int) * d ≤ a * b :=
  (run_mulDivFloor ha hb hd).1 h ▸ mulDiv_le hb hd

/-- Advancing the oracle touches the accumulators and the time only. -/
theorem accumulatePrice_frame {m : Mode} {pool pool' : LiquidityPool} {now : U64}
    (h : (accumulatePrice pool now).run m = some pool') : ∃ priceA priceB, pool' =
      { pool with priceACumulative := priceA, priceBCumulative := priceB, lastUpdate := now } := by
  unfold accumulatePrice at h
  simp only [run_ite, run_pure] at h
  split at h
  · cases h
    exact ⟨_, _, rfl⟩
  · simp only [run_iff] at h
    obtain ⟨_, -, _, -, rfl⟩ := h
    exact ⟨_, _, rfl⟩

end AmmManager

open AmmManager

/-! ## What a call does -/

/-- The effect of a call on reserves and LP tokens, as integers. -/
inductive AmmMove (s : AmmStore) : AmmStore → Prop
  | create {pool : LiquidityPool} (absent : s.pool = none) (a : (pool.reserveA : Int) = 0)
      (b : (pool.reserveB : Int) = 0) (total : (pool.totalShares : Int) = 0) :
      AmmMove s { s with pool := some pool }
  | observe {pool pool' : LiquidityPool} (stored : s.pool = some pool) (a : pool'.reserveA = pool.reserveA)
      (b : pool'.reserveB = pool.reserveB) (total : pool'.totalShares = pool.totalShares) :
      AmmMove s { s with pool := some pool' }
  | open {pool pool' : LiquidityPool} {provider : Address} {shares held : I128}
      (stored : s.pool = some pool) (empty : (pool.totalShares : Int) = 0) (pos : 0 < (shares : Int))
      (a : (pool.reserveA : Int) < pool'.reserveA) (b : (pool.reserveB : Int) < pool'.reserveB)
      (total : (pool'.totalShares : Int) = minimumLiquidity + shares)
      (credit : (held : Int) = getShares s provider + shares) :
      AmmMove s ⟨some pool', s.shares.set provider held⟩
  | deposit {pool pool' : LiquidityPool} {provider : Address} {shares held : I128}
      (stored : s.pool = some pool) (funded : (pool.totalShares : Int) ≠ 0) (pos : 0 < (shares : Int))
      (a : (pool.reserveA : Int) * (pool.totalShares + shares) ≤ pool'.reserveA * pool.totalShares)
      (b : (pool.reserveB : Int) * (pool.totalShares + shares) ≤ pool'.reserveB * pool.totalShares)
      (a' : (pool.reserveA : Int) < pool'.reserveA) (b' : (pool.reserveB : Int) < pool'.reserveB)
      (total : (pool'.totalShares : Int) = pool.totalShares + shares)
      (credit : (held : Int) = getShares s provider + shares) :
      AmmMove s ⟨some pool', s.shares.set provider held⟩
  | withdraw {pool pool' : LiquidityPool} {provider : Address} {shares held : I128}
      (stored : s.pool = some pool) (pos : 0 < (shares : Int)) (owned : (shares : Int) ≤ getShares s provider)
      (a : (pool.reserveA : Int) * (pool.totalShares - shares) ≤ pool'.reserveA * pool.totalShares)
      (b : (pool.reserveB : Int) * (pool.totalShares - shares) ≤ pool'.reserveB * pool.totalShares)
      (total : (pool'.totalShares : Int) = pool.totalShares - shares)
      (debit : (held : Int) = getShares s provider - shares) :
      AmmMove s ⟨some pool', s.shares.set provider held⟩
  | swap {pool pool' : LiquidityPool} (stored : s.pool = some pool) (priced : 0 < (pool.reserveA : Int))
      (a : 0 < (pool'.reserveA : Int)) (b : 0 < (pool'.reserveB : Int)) (total : pool'.totalShares = pool.totalShares)
      (k : (pool.reserveA : Int) * pool.reserveB ≤ pool'.reserveA * pool'.reserveB) :
      AmmMove s { s with pool := some pool' }

/-- No call has touched the pool yet: everything is zero. -/
structure Pristine (s : AmmStore) : Prop where
  empty : ∀ pool, s.pool = some pool →
    (pool.reserveA : Int) = 0 ∧ (pool.reserveB : Int) = 0 ∧ (pool.totalShares : Int) = 0
  shares : ∀ provider, (getShares s provider : Int) = 0

/-- A funded pool: the LP tokens are the locked minimum plus the providers' tokens, no provider owes
tokens, and both reserves are positive. -/
structure Funded (s : AmmStore) (pool : LiquidityPool) : Prop where
  stored : s.pool = some pool
  total : (pool.totalShares : Int) = minimumLiquidity + ∑ᶠ provider, (getShares s provider : Int)
  nonneg : ∀ provider, 0 ≤ (getShares s provider : Int)
  reserveA : 0 < (pool.reserveA : Int)
  reserveB : 0 < (pool.reserveB : Int)

/-- The accounting invariant. -/
def Accounted (s : AmmStore) : Prop := Pristine s ∨ ∃ pool, Funded s pool

theorem Funded.minimum_le (h : Funded s pool) :
    (minimumLiquidity : Int) ≤ pool.totalShares := by
  rw [h.total]
  exact le_add_of_nonneg_right (finsum_nonneg h.nonneg)

theorem Accounted.nonneg (h : Accounted s) (hp : s.pool = some pool) :
    0 ≤ (pool.reserveA : Int) ∧ 0 ≤ (pool.reserveB : Int) := by
  rcases h with h | ⟨pool', h⟩
  · obtain ⟨ha, hb, -⟩ := h.empty pool hp; omega
  · cases h.stored.symm.trans hp; exact ⟨h.reserveA.le, h.reserveB.le⟩

theorem Accounted.funded (h : Accounted s) (hp : s.pool = some pool)
    (hS : (pool.totalShares : Int) ≠ 0) : Funded s pool := by
  rcases h with h | ⟨pool', h⟩
  · exact absurd (h.empty pool hp).2.2 hS
  · cases h.stored.symm.trans hp; exact h

theorem Accounted.empty (h : Accounted s) (hp : s.pool = some pool)
    (h0 : (pool.totalShares : Int) = 0) : (pool.reserveA : Int) = 0 ∧ (pool.reserveB : Int) = 0 := by
  rcases h with h | ⟨pool', h⟩
  · exact ⟨(h.empty pool hp).1, (h.empty pool hp).2.1⟩
  · cases h.stored.symm.trans hp
    have := h.minimum_le
    rw [minimumLiquidity_toInt] at this
    omega

/-- A deposit into a pool without LP tokens mints against the locked minimum; one into a funded pool
mints at most the claim that either amount funds. -/
theorem depositShares_spec {amountA amountB shares locked : I128}
    (ha : 0 < (amountA : Int)) (hb : 0 < (amountB : Int))
    (hpos : (pool.totalShares : Int) ≠ 0 →
      0 < (pool.totalShares : Int) ∧ 0 < (pool.reserveA : Int) ∧ 0 < (pool.reserveB : Int))
    (h : (depositShares pool amountA amountB).run .exact = some (shares, locked)) :
    ((pool.totalShares : Int) = 0 ∧ locked = minimumLiquidity) ∨
    ((pool.totalShares : Int) ≠ 0 ∧ locked = pool.totalShares ∧
      (shares : Int) * pool.reserveA ≤ amountA * pool.totalShares ∧
      (shares : Int) * pool.reserveB ≤ amountB * pool.totalShares) := by
  unfold depositShares at h
  split at h
  · rename_i h0
    simp only [run_iff, Prod.mk.injEq] at h
    obtain ⟨-, -, -, -, -, -, -, rfl⟩ := h
    exact .inl ⟨h0, rfl⟩
  · rename_i h0
    obtain ⟨hS, hra, hrb⟩ := hpos h0
    simp only [run_iff, Prod.mk.injEq] at h
    obtain ⟨fromA, hA, fromB, hB, rfl, rfl⟩ := h
    have hA := mulDivFloor_le ha.le hS.le hra hA
    have hB := mulDivFloor_le hb.le hS.le hrb hB
    -- the smaller of the two claims is minted, so either amount funds it
    refine .inr ⟨h0, rfl, ?_, ?_⟩ <;> split
    · exact hA
    · exact le_trans (mul_le_mul_of_nonneg_right (by omega) hra.le) hA
    · exact le_trans (mul_le_mul_of_nonneg_right (by omega) hrb.le) hB
    · exact hB

section Calls

variable {env : Env} {s s' : AmmStore} {provider : Address} {amountA amountB minShares shares minA minB : I128}

/-- A deposit adds to the reserves what it is given and mints LP tokens that either amount funds. -/
theorem addLiquidity_spec {r : DepositResult} (hs : Accounted s)
    (h : (addLiquidity env s provider amountA amountB minShares).run .exact = some (r, s')) :
    ∃ (pool pool' : LiquidityPool) (locked held : I128), s.pool = some pool ∧
      s' = ⟨some pool', s.shares.set provider held⟩ ∧ 0 < (amountA : ℤ) ∧ 0 < (amountB : ℤ) ∧ 0 < (r.sharesMinted : ℤ) ∧
      (pool'.reserveA : ℤ) = pool.reserveA + amountA ∧ (pool'.reserveB : ℤ) = pool.reserveB + amountB ∧
      (pool'.totalShares : ℤ) = locked + r.sharesMinted ∧ (held : ℤ) = getShares s provider + r.sharesMinted ∧
      (((pool.totalShares : Int) = 0 ∧ locked = minimumLiquidity) ∨
        ((pool.totalShares : Int) ≠ 0 ∧ locked = pool.totalShares ∧
        (r.sharesMinted : Int) * pool.reserveA ≤ amountA * pool.totalShares ∧
        (r.sharesMinted : Int) * pool.reserveB ≤ amountB * pool.totalShares)) := by
  unfold addLiquidity getPool at h
  simp only [run_iff, run_unchecked_exact, Prod.mk.injEq, not_or, not_le] at h
  obtain ⟨-, ⟨ha, hb⟩, _, hp, pool₁, hacc, ⟨shares, _⟩, hd, -, hpos, -, -, reserveA, hA, reserveB, hB, total, hT,
    _, hH, rfl, rfl⟩ := h
  obtain ⟨_, _, rfl⟩ := accumulatePrice_frame hacc
  refine ⟨_, _, _, _, hp, rfl, ha, hb, hpos, hA, hB, hT, hH, depositShares_spec ha hb (fun h0 => ?_) hd⟩
  have hf := hs.funded hp h0
  have := hf.minimum_le
  exact ⟨by rw [minimumLiquidity_toInt] at this; omega, hf.reserveA, hf.reserveB⟩

theorem addLiquidity_move {r : DepositResult} (hs : Accounted s)
    (h : (addLiquidity env s provider amountA amountB minShares).run .exact = some (r, s')) : AmmMove s s' := by
  obtain ⟨pool, pool', locked, held, hp, rfl, ha, hb, hpos, hA, hB, hT, hH, ⟨h0, rfl⟩ | ⟨h0, rfl, hda, hdb⟩⟩ :=
    addLiquidity_spec hs h
  · exact .open hp h0 hpos (by omega) (by omega) hT hH
  · refine .deposit hp h0 hpos ?_ ?_ (by omega) (by omega) hT hH
    · rw [hA]
      linarith
    · rw [hB]
      linarith

/-- A withdrawal returns at most the burned share of either reserve. -/
theorem removeLiquidity_spec {r : WithdrawResult} (hs : Accounted s)
    (h : (removeLiquidity env s provider shares minA minB).run .exact = some (r, s')) :
    ∃ pool pool' held, s.pool = some pool ∧ s' = ⟨some pool', s.shares.set provider held⟩ ∧ 0 < (shares : ℤ) ∧
      (shares : ℤ) ≤ getShares s provider ∧ 0 < (pool.totalShares : ℤ) ∧
      (r.amountA : ℤ) * pool.totalShares ≤ shares * pool.reserveA ∧
      (r.amountB : ℤ) * pool.totalShares ≤ shares * pool.reserveB ∧
      (pool'.reserveA : ℤ) = pool.reserveA - r.amountA ∧ (pool'.reserveB : ℤ) = pool.reserveB - r.amountB ∧
      (pool'.totalShares : ℤ) = pool.totalShares - shares ∧ (held : ℤ) = getShares s provider - shares := by
  unfold removeLiquidity getPool at h
  simp only [run_iff, Prod.mk.injEq, not_le, not_lt, not_or] at h
  obtain ⟨-, hpos, -, hheld, _, hp, -, hS, pool₁, hacc, amountA, hA, amountB, hB, -, ⟨ha, hb⟩, -, -, rfl, rfl⟩ := h
  obtain ⟨_, _, rfl⟩ := accumulatePrice_frame hacc
  obtain ⟨hra, hrb⟩ := hs.nonneg hp
  exact ⟨_, _, _, hp, rfl, hpos, hheld, hS, mulDivFloor_le hpos.le hra hS hA, mulDivFloor_le hpos.le hrb hS hB,
    wrap_of_fits (fits_sub hra ha.le), wrap_of_fits (fits_sub hrb hb.le),
    wrap_of_fits (fits_sub hS.le hpos.le), wrap_of_fits (fits_sub (by omega) hpos.le)⟩

theorem removeLiquidity_move {r : WithdrawResult} (hs : Accounted s)
    (h : (removeLiquidity env s provider shares minA minB).run .exact = some (r, s')) : AmmMove s s' := by
  obtain ⟨pool, pool', held, hp, rfl, hpos, hheld, -, hA, hB, hA', hB', hT, hH⟩ := removeLiquidity_spec hs h
  refine .withdraw hp hpos hheld ?_ ?_ hT hH
  · rw [hA']
    linarith
  · rw [hB']
    linarith

theorem swap_move {aToB : Bool} {amountIn minAmountOut : I128} {r : SwapResult}
    (h : (AmmManager.swap env s aToB amountIn minAmountOut).run .exact = some (r, s')) : AmmMove s s' := by
  unfold AmmManager.swap getPool at h
  simp only [run_iff, run_unchecked_exact, Prod.mk.injEq, not_le, not_lt, not_or, checked_eq_some] at h
  obtain ⟨-, hin, -, -, pool, hp, -, ⟨hra, hrb⟩, pool₁, hacc, kBefore, hk, amountOut, -, -, hpos, -, hlt, -, -, newIn,
    hIn, kAfter, hk', -, hle, kept, -, -, rfl⟩ := h
  obtain ⟨_, _, rfl⟩ := accumulatePrice_frame hacc
  -- the code itself rechecks the product, so how the output was rounded does not matter here
  cases aToB with
  | true =>
    have hOut := wrap_of_fits (fits_sub hrb.le hpos.le)
    simp only [if_true] at hk hIn hk' hlt ⊢
    rw [hOut, hIn] at hk'
    refine .swap hp hra (by dsimp only; omega) (by dsimp only; omega) rfl ?_
    rw [hOut, hIn, ← hk', ← hk]
    exact hle
  | false =>
    have hOut := wrap_of_fits (fits_sub hra.le hpos.le)
    simp only [if_false, Bool.false_eq_true] at hk hIn hk' hlt ⊢
    rw [hOut, hIn] at hk'
    refine .swap hp hra (by dsimp only; omega) (by dsimp only; omega) rfl ?_
    rw [hOut, hIn, mul_comm (_ - _ : Int), ← hk', mul_comm (pool.reserveA : Int), ← hk]
    exact hle

/-- Every call that succeeds without overflow is a move. -/
theorem AmmStep.move (hs : Accounted s) (h : AmmStep s s') : AmmMove s s' := by
  obtain ⟨env, c, h⟩ := h
  cases c with
  | createPool feeBps =>
    simp only [AmmCall.exec, createPool, run_map, run_bind, run_pure, Option.map_eq_some_iff,
      Option.bind_eq_some_iff, run_reject, Option.some.injEq, Bool.not_eq_true, Option.isSome_eq_false_iff,
      Option.isNone_iff_eq_none] at h
    obtain ⟨_, ⟨-, hn, -, -, rfl⟩, rfl⟩ := h
    exact .create hn rfl rfl rfl
  | addLiquidity =>
    obtain ⟨_, h⟩ := run_snd_map h
    exact addLiquidity_move hs h
  | removeLiquidity =>
    obtain ⟨_, h⟩ := run_snd_map h
    exact removeLiquidity_move hs h
  | swap =>
    obtain ⟨_, h⟩ := run_snd_map h
    exact swap_move h
  | observe =>
    simp only [AmmCall.exec, AmmManager.observe, getPool, run_map, run_bind, run_okOr, run_pure,
      Option.map_eq_some_iff, Option.bind_eq_some_iff, Option.some.injEq] at h
    obtain ⟨_, ⟨pool, hp, pool', hacc, rfl⟩, rfl⟩ := h
    obtain ⟨_, _, rfl⟩ := accumulatePrice_frame hacc
    exact .observe hp rfl rfl rfl

end Calls

/-! ## The accounting invariant -/

theorem getShares_toInt (s : AmmStore) (provider : Address) :
    (getShares s provider : Int) = Table.share IntType.Val.toInt (s.shares.get provider) := by
  unfold getShares
  cases s.shares.get provider <;> rfl

theorem getShares_set (o : Option LiquidityPool) (s : AmmStore) (p q : Address) (held : I128) :
    getShares ⟨o, s.shares.set p held⟩ q = if q = p then held else getShares s q := by
  show ((s.shares.set p held).get q).getD 0 = _
  rw [Table.get_set]; split <;> rfl

/-- Writing one provider's LP tokens moves the sum over all providers by the difference. -/
theorem finsum_shares_set (o : Option LiquidityPool) (s : AmmStore) (p : Address) (held : I128) :
    ∑ᶠ q, (getShares ⟨o, s.shares.set p held⟩ q : Int) = ∑ᶠ q, (getShares s q : Int) + held - getShares s p := by
  have h := Table.total_set IntType.Val.toInt s.shares p held
  simp only [getShares_toInt, ← Table.total_eq_finsum]
  omega

theorem Pristine.funds (hs : Pristine s) {pool' : LiquidityPool} {provider : Address}
    {shares held : I128} (pos : 0 < (shares : Int)) (a : 0 < (pool'.reserveA : Int)) (b : 0 < (pool'.reserveB : Int))
    (total : (pool'.totalShares : Int) = minimumLiquidity + shares)
    (credit : (held : Int) = getShares s provider + shares) :
    Funded ⟨some pool', s.shares.set provider held⟩ pool' := by
  have h0 : ∑ᶠ q, (getShares s q : Int) = 0 := by simp [hs.shares]
  refine ⟨rfl, ?_, fun q => ?_, a, b⟩
  · rw [finsum_shares_set, total, h0, credit]; ring
  · rw [getShares_set]
    split
    · rw [credit, hs.shares]; omega
    · rw [hs.shares]

/-- A change of one provider's LP tokens that the total follows keeps a funded pool funded. -/
theorem Funded.update {pool pool' : LiquidityPool} (hs : Funded s pool) {provider : Address}
    {held : I128} (nonneg : 0 ≤ (held : Int)) (a : 0 < (pool'.reserveA : Int)) (b : 0 < (pool'.reserveB : Int))
    (total : (pool'.totalShares : Int) = pool.totalShares + held - getShares s provider) :
    Funded ⟨some pool', s.shares.set provider held⟩ pool' := by
  refine ⟨rfl, ?_, fun q => ?_, a, b⟩
  · rw [finsum_shares_set, total, hs.total]; ring
  · rw [getShares_set]
    split
    · exact nonneg
    · exact hs.nonneg q

/-- A withdrawal never empties a reserve: the locked minimum keeps a positive share of it. -/
theorem reserve_pos {r r' total shares : Int} (hr : 0 < r) (hlt : shares < total) (hpos : 0 < shares)
    (h : r * (total - shares) ≤ r' * total) : 0 < r' := by
  have h1 : 0 < r' * total := lt_of_lt_of_le (mul_pos hr (by omega)) h
  exact (mul_pos_iff_of_pos_right (by omega)).1 h1

theorem Funded.held_lt_total (hs : Funded s pool) (provider : Address) :
    (getShares s provider : Int) < pool.totalShares := by
  have h := Table.share_le_total s.shares (f := IntType.Val.toInt)
    (fun p => by rw [← getShares_toInt]; exact hs.nonneg p) provider
  rw [hs.total]
  simp only [getShares_toInt, ← Table.total_eq_finsum, minimumLiquidity_toInt]
  omega

/-- A move keeps a funded pool funded. -/
theorem AmmMove.funded (hs : Funded s pool) (h : AmmMove s s') :
    ∃ pool', Funded s' pool' := by
  cases h with
  | create absent => cases absent.symm.trans hs.stored
  | @observe _ pool' stored a b total =>
    cases stored.symm.trans hs.stored
    exact ⟨pool', rfl, by rw [total]; exact hs.total, hs.nonneg, by rw [a]; exact hs.reserveA,
      by rw [b]; exact hs.reserveB⟩
  | «open» stored empty =>
    cases stored.symm.trans hs.stored
    have := hs.minimum_le
    rw [minimumLiquidity_toInt] at this; omega
  | @deposit _ pool' provider shares held stored _ pos _ _ a b total credit =>
    cases stored.symm.trans hs.stored
    have hA := hs.reserveA; have hB := hs.reserveB; have h0 := hs.nonneg provider
    exact ⟨pool', hs.update (by omega) (by omega) (by omega) (by omega)⟩
  | @withdraw _ pool' provider shares held stored pos owned a b total debit =>
    cases stored.symm.trans hs.stored
    -- the locked minimum keeps every holding below the total, so something is left of both reserves
    have hlt := hs.held_lt_total provider
    exact ⟨pool', hs.update (by omega) (reserve_pos hs.reserveA (by omega) pos a)
      (reserve_pos hs.reserveB (by omega) pos b) (by omega)⟩
  | @swap _ pool' stored _ a b total =>
    cases stored.symm.trans hs.stored
    exact ⟨pool', rfl, by rw [total]; exact hs.total, hs.nonneg, a, b⟩

theorem AmmMove.accounted (hs : Accounted s) (h : AmmMove s s') : Accounted s' := by
  rcases hs with hs | ⟨pool, hs⟩
  · cases h with
    | create _ a b total =>
      exact .inl ⟨fun _ e => by cases e; exact ⟨a, b, total⟩, hs.shares⟩
    | observe stored a b total =>
      exact .inl ⟨fun _ e => by cases e; rw [a, b, total]; exact hs.empty _ stored, hs.shares⟩
    | @«open» _ pool' _ _ _ stored _ pos a b total credit =>
      obtain ⟨ha, hb, -⟩ := hs.empty _ stored
      exact .inr ⟨pool', hs.funds pos (by omega) (by omega) total credit⟩
    | deposit stored funded => exact absurd (hs.empty _ stored).2.2 funded
    | @withdraw _ _ provider _ _ _ pos owned => have := hs.shares provider; omega
    | swap stored priced => have := (hs.empty _ stored).1; omega
  · exact .inr (h.funded hs)

theorem AmmReachable.accounted (h : AmmReachable s) : Accounted s := by
  induction h with
  | refl => exact .inl ⟨fun _ e => (by cases e), fun _ => by simp [getShares]⟩
  | tail _ hstep ih => exact (hstep.move ih).accounted ih

/-- A run from a funded pool ends in a funded pool. -/
theorem Funded.run (hs : Funded s pool)
    (h : Relation.ReflTransGen AmmStep s s') : ∃ pool', Funded s' pool' := by
  induction h with
  | refl => exact ⟨pool, hs⟩
  | tail _ hstep ih =>
    obtain ⟨_, hf⟩ := ih
    exact (hstep.move (.inr ⟨_, hf⟩)).funded hf

/-- LP accounting: a reachable pool is pristine, or its LP tokens are the locked minimum plus the
providers' tokens, none negative, and its reserves are positive; and once it is not pristine, the LP
tokens never fall below the locked minimum and no reserve is ever drained. -/
theorem lp_accounting {s : AmmStore} (hs : AmmReachable s) :
    (Pristine s ∨ ∃ pool, Funded s pool) ∧
    (¬ Pristine s → ∀ s', Relation.ReflTransGen AmmStep s s' → ∃ pool', s'.pool = some pool' ∧
      (minimumLiquidity : Int) ≤ pool'.totalShares ∧ 0 < (pool'.reserveA : Int) ∧ 0 < (pool'.reserveB : Int)) := by
  refine ⟨hs.accounted, fun hn s' hrun => ?_⟩
  rcases hs.accounted with h | ⟨pool, hf⟩
  · exact absurd h hn
  · obtain ⟨pool', hf'⟩ := hf.run hrun
    exact ⟨pool', hf'.stored, hf'.minimum_le, hf'.reserveA, hf'.reserveB⟩

/-- A run that creates a pool with the 0.3% fee and deposits a million of each asset. -/
def openingRun : List (Env × AmmCall) :=
  let env : Env := ⟨.signed [] 0 0, fun t _ _ => t⟩
  [(env, .createPool ⟨30, by decide, by decide⟩),
    (env, .addLiquidity ⟨1⟩ ⟨1000000, by decide, by decide⟩ ⟨1000000, by decide, by decide⟩ 0)]

theorem AmmReachable.of_runs : ∀ {calls : List (Env × AmmCall)} {s₀ : AmmStore},
    AmmReachable s₀ → AmmCall.runs s₀ calls = some s → AmmReachable s
  | [], s₀, h₀, h => by cases h; exact h₀
  | (env, c) :: calls, s₀, h₀, h => by
    obtain ⟨s₁, h₁, h⟩ := Option.bind_eq_some_iff.1 h
    exact of_runs (h₀.tail ⟨env, c, h₁⟩) h

theorem lp_accounting_opening : ∃ s, AmmCall.runs {} openingRun = some s ∧ AmmReachable s ∧
    (Pristine s ∨ ∃ pool, Funded s pool) := by
  obtain ⟨s, h⟩ := Option.isSome_iff_exists.1 (by decide +kernel : (AmmCall.runs {} openingRun).isSome = true)
  have hr : AmmReachable s := AmmReachable.of_runs .refl h
  exact ⟨s, h, hr, (lp_accounting hr).1⟩

/-! ## Share value -/

/-- Scaling both reserves at least as much as the LP tokens does not lower the product per squared
LP token. -/
theorem product_per_share {ra rb ra' rb' total total' : Int} (hra : 0 ≤ ra) (hrb : 0 ≤ rb) (htotal : 0 ≤ total')
    (ha : ra * total' ≤ ra' * total) (hb : rb * total' ≤ rb' * total) :
    ra * rb * total' ^ 2 ≤ ra' * rb' * total ^ 2 := by
  calc ra * rb * total' ^ 2 = (ra * total') * (rb * total') := by ring
    _ ≤ (ra' * total) * (rb' * total) :=
      mul_le_mul ha hb (mul_nonneg hrb htotal) (le_trans (mul_nonneg hra htotal) ha)
    _ = ra' * rb' * total ^ 2 := by ring

/-- Share value is never diluted: a call on a reachable pool with LP tokens leaves a pool whose
constant product per squared LP token is at least what it was. -/
theorem share_value_never_diluted {s s' : AmmStore} {pool : LiquidityPool} (hs : AmmReachable s)
    (hp : s.pool = some pool) (hS : 0 < (pool.totalShares : Int)) (h : AmmStep s s') :
    ∃ pool', s'.pool = some pool' ∧
      (pool.reserveA : Int) * pool.reserveB * (pool'.totalShares : Int) ^ 2 ≤
        pool'.reserveA * pool'.reserveB * (pool.totalShares : Int) ^ 2 := by
  have hf : Funded s pool := hs.accounted.funded hp hS.ne'
  have hA := hf.reserveA.le; have hB := hf.reserveB.le
  cases h.move hs.accounted with
  | create absent => cases absent.symm.trans hp
  | @observe _ pool' stored a b total =>
    cases stored.symm.trans hp
    exact ⟨pool', rfl, by rw [a, b, total]⟩
  | «open» stored empty => cases stored.symm.trans hp; omega
  | @deposit _ pool' _ _ _ stored _ pos a b _ _ total =>
    cases stored.symm.trans hp
    exact ⟨pool', rfl, by rw [total]; exact product_per_share hA hB (by omega) a b⟩
  | @withdraw _ pool' provider shares _ stored _ owned a b total =>
    cases stored.symm.trans hp
    have hlt := hf.held_lt_total provider
    exact ⟨pool', rfl, by rw [total]; exact product_per_share hA hB (by omega) a b⟩
  | @swap _ pool' stored _ _ _ total k =>
    cases stored.symm.trans hp
    exact ⟨pool', rfl, by rw [total]; exact mul_le_mul_of_nonneg_right k (sq_nonneg _)⟩

/-- A swap of a thousand of asset A. -/
def openingSwap (s : AmmStore) : Option AmmStore :=
  (AmmCall.exec ⟨.signed [] 0 0, fun t _ _ => t⟩ s
    (.swap true 1000 1)).run .exact

theorem share_value_opening_swap : ∃ s s' pool, AmmCall.runs {} openingRun = some s ∧ s.pool = some pool ∧
    0 < (pool.totalShares : Int) ∧ openingSwap s = some s' ∧ ∃ pool', s'.pool = some pool' ∧
      (pool.reserveA : Int) * pool.reserveB * (pool'.totalShares : Int) ^ 2 ≤
        pool'.reserveA * pool'.reserveB * (pool.totalShares : Int) ^ 2 := by
  refine ⟨_, _, _, evaluated, evaluated, by decide +kernel,
    evaluated, ?_⟩
  exact share_value_never_diluted (.of_runs .refl (evaluated _)) (evaluated _) (by decide +kernel)
    ⟨_, _, (evaluated _)⟩

/-! ## Round trips -/

/-- What a deposit that funds its LP tokens gets back for some of them is no more than what it paid. -/
theorem returned_le {paid returned reserve locked minted burned : ℤ} (hpaid : 0 < paid) (hburned : burned ≤ minted)
    (hreserve : 0 ≤ reserve) (htotal : 0 < locked + minted) (hfunded : minted * reserve ≤ paid * locked)
    (h : returned * (locked + minted) ≤ burned * (reserve + paid)) : returned ≤ paid := by
  refine le_of_mul_le_mul_right (h.trans ?_) htotal
  calc burned * (reserve + paid) ≤ minted * (reserve + paid) := mul_le_mul_of_nonneg_right hburned (by omega)
    _ ≤ paid * (locked + minted) := by linarith

/-- Who deposits and at once withdraws LP tokens of the deposit gets no more of either asset than they paid. -/
theorem deposit_then_withdraw {env env' : Env} {s s₁ s₂ : AmmStore} {provider : Address}
    {amountA amountB minShares shares minA minB : I128} {r : DepositResult} {r' : WithdrawResult} (hs : AmmReachable s)
    (hadd : (addLiquidity env s provider amountA amountB minShares).run .exact = some (r, s₁))
    (hle : (shares : ℤ) ≤ r.sharesMinted)
    (hremove : (removeLiquidity env' s₁ provider shares minA minB).run .exact = some (r', s₂)) :
    (r'.amountA : ℤ) ≤ amountA ∧ (r'.amountB : ℤ) ≤ amountB := by
  have hs := hs.accounted
  have hs₁ := (addLiquidity_move hs hadd).accounted hs
  obtain ⟨pool, pool', locked, held, hp, rfl, ha, hb, hpos, hA, hB, hT, -, hminted⟩ := addLiquidity_spec hs hadd
  obtain ⟨_, _, _, hp', -, -, -, htotal, hreturnedA, hreturnedB, -⟩ := removeLiquidity_spec hs₁ hremove
  cases hp'
  rw [hT] at htotal
  rw [hT, hA] at hreturnedA
  rw [hT, hB] at hreturnedB
  obtain ⟨hra, hrb⟩ := hs.nonneg hp
  have hfunded : (r.sharesMinted : ℤ) * pool.reserveA ≤ amountA * locked ∧
      (r.sharesMinted : ℤ) * pool.reserveB ≤ amountB * locked := by
    rcases hminted with ⟨h0, rfl⟩ | ⟨-, rfl, hda, hdb⟩
    · obtain ⟨ha0, hb0⟩ := hs.empty hp h0
      rw [ha0, hb0, minimumLiquidity_toInt]
      omega
    · exact ⟨hda, hdb⟩
  exact ⟨returned_le ha hle hra htotal hfunded.1 hreturnedA, returned_le hb hle hrb htotal hfunded.2 hreturnedB⟩

/-- Who opens a pool with a million of each asset and withdraws half a million LP tokens. -/
theorem deposit_then_withdraw_half : let env : Env := ⟨.signed [] 0 0, fun t _ _ => t⟩
    ∃ s s₁ s₂ r r', AmmCall.runs {} (openingRun.take 1) = some s ∧
      (addLiquidity env s ⟨1⟩ 1000000 1000000 0).run .exact = some (r, s₁) ∧
      (removeLiquidity env s₁ ⟨1⟩ 500000 0 0).run .exact = some (r', s₂) ∧
      (r'.amountA : ℤ) ≤ i128.wrap 1000000 ∧ (r'.amountB : ℤ) ≤ i128.wrap 1000000 := by
  refine ⟨_, _, _, _, _, evaluated, evaluated,
    evaluated, ?_⟩
  exact deposit_then_withdraw (.of_runs .refl (evaluated _)) (evaluated _) (by decide +kernel)
    (evaluated _)

end ArenaX.VirtualEconomy
