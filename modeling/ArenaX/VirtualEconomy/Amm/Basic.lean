/-
The constant-product liquidity pool: pricing, the cumulative price oracle, deposits, withdrawals and
swaps, and the pool as a state machine. An unchecked addition is recorded when it leaves the range of
its type; an unchecked subtraction only wraps around, since on the pool's quantities it never leaves it.
-/
import ArenaX.Lib.Newton
import ArenaX.VirtualEconomy.Storage

namespace ArenaX.VirtualEconomy

open Machine Exec

/-- A two-asset constant-product pool. -/
structure LiquidityPool where
  reserveA : I128
  reserveB : I128
  totalShares : I128
  priceACumulative : I128
  priceBCumulative : I128
  lastUpdate : U64
  feeBps : I128

structure PriceSnapshot where
  priceACumulative : I128
  priceBCumulative : I128
  reserveA : I128
  reserveB : I128
  timestamp : U64

structure SwapResult where
  amountIn : I128
  amountOut : I128
  feePaid : I128
  newReserveA : I128
  newReserveB : I128

structure DepositResult where
  amountA : I128
  amountB : I128
  sharesMinted : I128
  totalShares : I128

structure WithdrawResult where
  amountA : I128
  amountB : I128
  sharesBurned : I128
  totalShares : I128

/-- The pool's share of the contract's storage: the pool, and the LP tokens of each provider. -/
structure AmmStore where
  pool : Option LiquidityPool := none
  shares : Table Address I128 := ∅

namespace AmmManager

def bpsDenominator : I128 := ⟨10000, by decide, by decide⟩

/-- LP tokens locked by the first deposit. -/
def minimumLiquidity : I128 := ⟨1000, by decide, by decide⟩

/-- The scale of a price: seven decimals. -/
def priceScale : I128 := ⟨10000000, by decide, by decide⟩

@[simp] theorem minimumLiquidity_toInt : (minimumLiquidity : Int) = 1000 := rfl

/-- Integer square root by Newton's method. -/
def integerSqrt (value : I128) : Result I128 :=
  if (value : Int) ≤ 0 then pure 0
  else if (value : Int) < 4 then pure ⟨1, by decide, by decide⟩
  else do
    let half ← quot i128 value 2
    let next ← unchecked i128 (half + 1)
    newton value value next

/-- `a * b / denominator`, rounded toward zero, dividing first when the product overflows. -/
def mulDivFloor (a b denominator : I128) : Result I128 := do
  reject ((denominator : Int) = 0) .invalidAmount
  match i128.checked (a * b) with
  | some product => quot i128 product denominator
  | none =>
    let reduced ← quot i128 a denominator
    okOr (i128.checked (reduced * b)) .invalidAmount

/-! ## Pricing -/

/-- Output for a given input under `x * y = k`, after the fee. -/
def getAmountOut (amountIn reserveIn reserveOut feeBps : I128) : Result I128 := do
  reject ((amountIn : Int) ≤ 0) .invalidAmount
  reject ((reserveIn : Int) ≤ 0 ∨ (reserveOut : Int) ≤ 0) .insufficientLiquidity
  let amountInAfterFee ← mulDivFloor amountIn (i128.wrap (bpsDenominator - feeBps)) bpsDenominator
  reject ((amountInAfterFee : Int) ≤ 0) .invalidAmount
  let numerator ← okOr (i128.checked (amountInAfterFee * reserveOut)) .invalidAmount
  let denominator ← okOr (i128.checked (reserveIn + amountInAfterFee)) .invalidAmount
  quot i128 numerator denominator

/-- Input required to receive exactly `amountOut`. -/
def getAmountIn (amountOut reserveIn reserveOut feeBps : I128) : Result I128 := do
  reject ((amountOut : Int) ≤ 0) .invalidAmount
  reject ((reserveIn : Int) ≤ 0 ∨ (reserveOut : Int) ≤ 0) .insufficientLiquidity
  reject ((amountOut : Int) ≥ reserveOut) .insufficientLiquidity
  let product ← okOr (i128.checked (reserveIn * amountOut)) .invalidAmount
  let numerator ← okOr (i128.checked (product * bpsDenominator)) .invalidAmount
  let remaining := i128.wrap (reserveOut - amountOut)
  let keep := i128.wrap (bpsDenominator - feeBps)
  let denominator ← okOr (i128.checked (remaining * keep)) .invalidAmount
  let quotient ← quot i128 numerator denominator
  unchecked i128 (quotient + 1)

/-- Spot price of A in terms of B. -/
def spotPrice (reserveA reserveB : I128) : Result I128 := do
  reject ((reserveA : Int) ≤ 0 ∨ (reserveB : Int) ≤ 0) .insufficientLiquidity
  mulDivFloor reserveB priceScale reserveA

/-! ## Oracle -/

/-- A cumulative price after `elapsed` seconds at a price, unchanged when there is no price. -/
def accumulate (cumulative : I128) (price : Option I128) (elapsed : U64) : I128 := match price with
  | some price => i128.saturate (cumulative + i128.saturate (price * elapsed))
  | none => cumulative

/-- Advance the cumulative price accumulators to `now`. -/
def accumulatePrice (pool : LiquidityPool) (now : U64) : Result LiquidityPool := do
  let elapsed := u64.saturate (now - pool.lastUpdate)
  if (elapsed : Int) = 0 ∨ (pool.reserveA : Int) ≤ 0 ∨ (pool.reserveB : Int) ≤ 0 then
    pure { pool with lastUpdate := now }
  else
    let priceA ← (spotPrice pool.reserveA pool.reserveB).ok?
    let priceB ← (spotPrice pool.reserveB pool.reserveA).ok?
    pure { pool with
      priceACumulative := accumulate pool.priceACumulative priceA elapsed
      priceBCumulative := accumulate pool.priceBCumulative priceB elapsed
      lastUpdate := now }

/-! ## Liquidity -/

def getPool (s : AmmStore) : Result LiquidityPool := okOr s.pool .poolNotFound

def getShares (s : AmmStore) (provider : Address) : I128 := (s.shares.get provider).getD 0

def setShares (s : AmmStore) (provider : Address) (shares : I128) : AmmStore :=
  { s with shares := s.shares.set provider shares }

/-- Create the pool, with empty reserves. -/
def createPool (env : Env) (s : AmmStore) (feeBps : I128) : Result (LiquidityPool × AmmStore) := do
  reject (s.pool.isSome) .poolAlreadyExists
  reject (¬ (0 ≤ (feeBps : Int) ∧ (feeBps : Int) ≤ bpsDenominator)) .invalidAmount
  let pool : LiquidityPool := ⟨0, 0, 0, 0, 0, env.timestamp, feeBps⟩
  pure (pool, { s with pool := some pool })

/-- The LP tokens a deposit mints, and the total they are added to. -/
def depositShares (pool : LiquidityPool) (amountA amountB : I128) : Result (I128 × I128) := do
  if (pool.totalShares : Int) = 0 then
    let product ← okOr (i128.checked (amountA * amountB)) .invalidAmount
    let initial ← integerSqrt product
    reject ((initial : Int) ≤ minimumLiquidity) .insufficientLiquidity
    pure (i128.wrap (initial - minimumLiquidity), minimumLiquidity)
  else
    let fromA ← mulDivFloor amountA pool.totalShares pool.reserveA
    let fromB ← mulDivFloor amountB pool.totalShares pool.reserveB
    pure (if (fromA : Int) < fromB then fromA else fromB, pool.totalShares)

/-- Add liquidity and mint LP tokens. -/
def addLiquidity (env : Env) (s : AmmStore) (provider : Address) (amountA amountB minShares : I128) :
    Result (DepositResult × AmmStore) := do
  reject ((amountA : Int) ≤ 0 ∨ (amountB : Int) ≤ 0) .invalidAmount
  let pool ← getPool s
  let pool ← accumulatePrice pool env.timestamp
  let (shares, locked) ← depositShares pool amountA amountB
  reject ((shares : Int) ≤ 0) .insufficientLiquidity
  reject ((shares : Int) < minShares) .slippageExceeded
  let reserveA ← unchecked i128 (pool.reserveA + amountA)
  let reserveB ← unchecked i128 (pool.reserveB + amountB)
  let totalShares ← unchecked i128 (locked + shares)
  let s := { s with pool := some { pool with reserveA, reserveB, totalShares } }
  let held ← unchecked i128 (getShares s provider + shares)
  pure (⟨amountA, amountB, shares, totalShares⟩, setShares s provider held)

/-- Burn LP tokens and return the proportional reserves. -/
def removeLiquidity (env : Env) (s : AmmStore) (provider : Address) (shares minA minB : I128) :
    Result (WithdrawResult × AmmStore) := do
  reject ((shares : Int) ≤ 0) .invalidAmount
  let held := getShares s provider
  reject ((held : Int) < shares) .insufficientBalance
  let pool ← getPool s
  reject ((pool.totalShares : Int) ≤ 0) .insufficientLiquidity
  let pool ← accumulatePrice pool env.timestamp
  let amountA ← mulDivFloor shares pool.reserveA pool.totalShares
  let amountB ← mulDivFloor shares pool.reserveB pool.totalShares
  reject ((amountA : Int) ≤ 0 ∨ (amountB : Int) ≤ 0) .insufficientLiquidity
  reject ((amountA : Int) < minA ∨ (amountB : Int) < minB) .slippageExceeded
  let reserveA := i128.wrap (pool.reserveA - amountA)
  let reserveB := i128.wrap (pool.reserveB - amountB)
  let totalShares := i128.wrap (pool.totalShares - shares)
  let s := { s with pool := some { pool with reserveA, reserveB, totalShares } }
  pure (⟨amountA, amountB, shares, totalShares⟩, setShares s provider (i128.wrap (held - shares)))

/-! ## Swapping -/

/-- Swap `amountIn` of one asset for the other. -/
def swap (env : Env) (s : AmmStore) (aToB : Bool) (amountIn minAmountOut : I128) :
    Result (SwapResult × AmmStore) := do
  reject ((amountIn : Int) ≤ 0) .invalidAmount
  reject ((minAmountOut : Int) ≤ 0) .invalidAmount
  let pool ← getPool s
  reject ((pool.reserveA : Int) ≤ 0 ∨ (pool.reserveB : Int) ≤ 0) .insufficientLiquidity
  let pool ← accumulatePrice pool env.timestamp
  let reserveIn := if aToB then pool.reserveA else pool.reserveB
  let reserveOut := if aToB then pool.reserveB else pool.reserveA
  let kBefore ← okOr (i128.checked (reserveIn * reserveOut)) .invalidAmount
  let amountOut ← getAmountOut amountIn reserveIn reserveOut pool.feeBps
  reject ((amountOut : Int) ≤ 0) .insufficientLiquidity
  reject ((amountOut : Int) ≥ reserveOut) .insufficientLiquidity
  reject ((amountOut : Int) < minAmountOut) .slippageExceeded
  let newReserveIn ← unchecked i128 (reserveIn + amountIn)
  let newReserveOut := i128.wrap (reserveOut - amountOut)
  let kAfter ← okOr (i128.checked (newReserveIn * newReserveOut)) .invalidAmount
  reject ((kAfter : Int) < kBefore) .invariantViolation
  let pool := if aToB then { pool with reserveA := newReserveIn, reserveB := newReserveOut }
    else { pool with reserveB := newReserveIn, reserveA := newReserveOut }
  let kept ← mulDivFloor amountIn (i128.wrap (bpsDenominator - pool.feeBps)) bpsDenominator
  let feePaid := i128.wrap (amountIn - kept)
  pure (⟨amountIn, amountOut, feePaid, pool.reserveA, pool.reserveB⟩, { s with pool := some pool })

/-- Current oracle snapshot, with the accumulators advanced to now. -/
def observe (env : Env) (s : AmmStore) : Result (PriceSnapshot × AmmStore) := do
  let pool ← getPool s
  let pool ← accumulatePrice pool env.timestamp
  pure (⟨pool.priceACumulative, pool.priceBCumulative, pool.reserveA, pool.reserveB, pool.lastUpdate⟩,
    { s with pool := some pool })

end AmmManager

/-! ## The pool as a state machine -/

/-- A state-changing call of `AmmManager`. -/
inductive AmmCall where
  | createPool (feeBps : I128)
  | addLiquidity (provider : Address) (amountA amountB minShares : I128)
  | removeLiquidity (provider : Address) (shares minA minB : I128)
  | swap (aToB : Bool) (amountIn minAmountOut : I128)
  | observe

/-- The storage after a call; a failing call leaves the storage as it was. -/
def AmmCall.exec (env : Env) (s : AmmStore) : AmmCall → Result AmmStore
  | .createPool feeBps => Prod.snd <$> AmmManager.createPool env s feeBps
  | .addLiquidity provider amountA amountB minShares =>
    Prod.snd <$> AmmManager.addLiquidity env s provider amountA amountB minShares
  | .removeLiquidity provider shares minA minB =>
    Prod.snd <$> AmmManager.removeLiquidity env s provider shares minA minB
  | .swap aToB amountIn minAmountOut => Prod.snd <$> AmmManager.swap env s aToB amountIn minAmountOut
  | .observe => Prod.snd <$> AmmManager.observe env s

/-- One successful call in which no unchecked addition overflows. -/
def AmmStep (s s' : AmmStore) : Prop := ∃ env c, (AmmCall.exec env s c).run .exact = some s'

/-- The storages a run of such calls reaches, from the one without a pool. -/
def AmmReachable (s : AmmStore) : Prop := Relation.ReflTransGen AmmStep {} s

/-- A run, as an executable function. -/
def AmmCall.runs (s : AmmStore) (calls : List (Env × AmmCall)) : Option AmmStore :=
  calls.foldlM (fun s c => (c.2.exec c.1 s).run .exact) s

end ArenaX.VirtualEconomy
