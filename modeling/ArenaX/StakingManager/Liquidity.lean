/-
Liquidity pools: deposits that earn rewards from the common reserve and a share of the fees of their pool, and
are compensated from the fee reserve for impermanent loss when they leave.
-/
import ArenaX.Lib.Newton
import ArenaX.StakingManager.Rewards

namespace ArenaX.StakingManager

open Machine Exec
open Host (Address Holdings)

/-! ## Pool configuration -/

section

variable (env : Env) (s : State)

def createLpPool (rewardRateBps ilProtectionBps : U32) : Result (U32 × State) := do
  requireAdmin env s
  reject ((rewardRateBps : Int) > 10000) "reward rate exceeds 100%"
  reject ((ilProtectionBps : Int) > 10000) "IL protection exceeds 100%"
  let id := s.lp.counter
  pure (id, { s with
    lp.pool := s.lp.pool.set id ⟨id, rewardRateBps, 0, 0, 0, ilProtectionBps, true⟩
    lp.counter := u32.wrap (id + 1) })

def setLpRewardRate (poolId newRateBps : U32) : Result State := do
  requireAdmin env s
  reject ((newRateBps : Int) > 10000) "reward rate exceeds 100%"
  let pool ← s.loadLpPool poolId
  pure { s with lp.pool := s.lp.pool.set poolId { pool with rewardRateBps := newRateBps } }

/-- The base rate up to the target, and less in proportion beyond it, but not below the minimum. -/
def dynamicRate (totalLiquidity targetLiquidity : I128) (baseRateBps minRateBps : U32) : Result U32 :=
  if (targetLiquidity : Int) ≤ 0 ∨ (totalLiquidity : Int) ≤ 0 then pure baseRateBps
  else if (totalLiquidity : Int) < targetLiquidity then pure baseRateBps
  else do
    let product ← unchecked i128 (baseRateBps * targetLiquidity)
    let scaled ← quot i128 product totalLiquidity
    pure (u32.wrap (min (max (scaled : Int) minRateBps) baseRateBps))

def updateLpDynamicRate (poolId : U32) (targetLiquidity : I128)
    (baseRateBps minRateBps : U32) : Result State := do
  requireAdmin env s
  let pool ← s.loadLpPool poolId
  let newRate ← dynamicRate pool.totalLiquidity targetLiquidity baseRateBps minRateBps
  pure { s with lp.pool := s.lp.pool.set poolId { pool with rewardRateBps := newRate } }

def setLpPoolActive (poolId : U32) (active : Bool) : Result State := do
  requireAdmin env s
  let pool ← s.loadLpPool poolId
  pure { s with lp.pool := s.lp.pool.set poolId { pool with active } }

end

/-! ## What a position is due -/

namespace LpPosition

variable (pos : LpPosition) (pool : LpPoolConfig) (now : U64)

def calcLpRewards : Result I128 :=
  if (pool.totalLiquidity : Int) ≤ 0 ∨ (pos.amount : Int) ≤ 0 then pure 0
  else accrue pos.amount pool.rewardRateBps pos.lastRewardTs now secsPerYear

/-- What the position has earned from the reserve and not been paid. -/
def accrued : Result I128 := do
  let rewards ← pos.calcLpRewards pool now
  unchecked i128 (rewards + pos.pendingRewards)

/-- The share of the fees since the position's snapshot, by its part in the liquidity there is now. -/
def calcFeeShare : Result I128 :=
  if (pool.totalLiquidity : Int) ≤ 0 ∨ (pos.amount : Int) ≤ 0 then pure 0
  else
    let feesSince := i128.saturate (pool.cumulativeFees - pos.feeDebt)
    if (feesSince : Int) ≤ 0 then pure 0
    else do
      let product ← unchecked i128 (feesSince * pos.amount)
      quot i128 product pool.totalLiquidity

/-- What the position can be paid now: its rewards as far as the common reserve goes, and its share of the fees as
far as the fee reserve goes. -/
def due (rewardPool : I128) : Result (I128 × I128) := do
  let accrued ← pos.accrued pool now
  let share ← pos.calcFeeShare pool
  pure ((accrued.max 0).min rewardPool, share.min pool.feeReserve)

/-- The loss of value against holding, `1 - 2 * sqrt r / (1 + r)` for the ratio `r` the prices have moved by, in
fixed point with seven digits, times the covered part of the position. -/
def ilLoss (rScaled : I128) (ilBps : U32) : Result I128 := do
  let scale : Int := 10000000
  let square ← unchecked i128 (rScaled * scale)
  let sqrtR ← isqrt square
  let onePlusR ← unchecked i128 (scale + rScaled)
  if (onePlusR : Int) = 0 then pure 0
  else do
    let twice ← unchecked i128 (2 * sqrtR)
    let numerator ← unchecked i128 (twice * scale)
    let holdValue ← quot i128 numerator onePlusR
    if (holdValue : Int) ≥ scale then pure 0
    else do
      let ilFraction ← unchecked i128 (scale - holdValue)
      let product ← unchecked i128 (pos.amount * ilFraction)
      let grossIl ← quot i128 product scale
      let covered ← bpsOf grossIl ilBps
      pure (covered.min pos.amount)

def calcIlProtection (priceANow priceBNow : I128) (ilBps : U32) : Result I128 :=
  if (ilBps : Int) = 0 ∨ (pos.entryPriceA : Int) ≤ 0 ∨ (pos.entryPriceB : Int) ≤ 0 ∨ (priceANow : Int) ≤ 0 ∨
      (priceBNow : Int) ≤ 0 ∨ (pos.amount : Int) ≤ 0 then pure 0
  else do
    let rNum ← unchecked i128 (priceANow * pos.entryPriceB)
    let rDen ← unchecked i128 (priceBNow * pos.entryPriceA)
    if (rDen : Int) = 0 then pure 0
    else do
      let scaled ← unchecked i128 (rNum * 10000000)
      let rScaled ← quot i128 scaled rDen
      if (rScaled : Int) = 10000000 then pure 0 else pos.ilLoss rScaled ilBps

/-- The position with its rewards set aside, its fee snapshot renewed and more deposited; the fees up to now are
not set aside. Prices that are not positive leave the entry prices as they are. -/
def topUp (amount entryPriceA entryPriceB : I128) : Result LpPosition := do
  let rewards ← pos.calcLpRewards pool now
  let pendingRewards ← unchecked i128 (pos.pendingRewards + rewards)
  let amount ← unchecked i128 (pos.amount + amount)
  pure { pos with
    pendingRewards
    lastRewardTs := now
    feeDebt := pool.cumulativeFees
    amount
    entryPriceA := if (entryPriceA : Int) > 0 then entryPriceA else pos.entryPriceA
    entryPriceB := if (entryPriceB : Int) > 0 then entryPriceB else pos.entryPriceB }

end LpPosition

/-! ## Deposits, withdrawals and claims -/

def pushLpHistory (history : Table (Address × U32) (List LpPerformanceRecord)) (entry : LpPerformanceRecord) :
    Table (Address × U32) (List LpPerformanceRecord) :=
  history.set (entry.user, entry.poolId) ((history.get (entry.user, entry.poolId)).getD [] ++ [entry])

/-- The position of a user after a deposit in a pool. -/
def lpPosition (existing : Option LpPosition) (pool : LpPoolConfig) (now : U64) (user : Address) (poolId : U32)
    (amount entryPriceA entryPriceB : I128) : Result LpPosition :=
  match existing with
  | some pos => pos.topUp pool now amount entryPriceA entryPriceB
  | none => pure ⟨user, poolId, amount, now, pool.cumulativeFees, 0, now, entryPriceA, entryPriceB⟩

section

variable (env : Env) (s : State)

def addLiquidity (user : Address) (poolId : U32) (amount entryPriceA entryPriceB : I128) :
    Result State := do
  requireNotPaused s
  env.requireAuth user
  reject ((amount : Int) ≤ 0) "amount must be positive"
  let pool ← s.loadLpPool poolId
  reject (pool.active = false) "LP pool not active"
  let token ← s.getAxToken
  let s ← payIn env s token user amount
  let position ← lpPosition (s.lp.position.get (user, poolId)) pool env.timestamp user poolId amount entryPriceA
    entryPriceB
  let totalLiquidity ← unchecked i128 (pool.totalLiquidity + amount)
  pure { s with
    lp.position := s.lp.position.set (user, poolId) position
    lp.userPools := trackUserPool s.lp.userPools user poolId
    lp.pool := s.lp.pool.set poolId { pool with totalLiquidity }
    lp.history := pushLpHistory s.lp.history ⟨user, poolId, env.timestamp, amount, 0, 0, 0⟩ }

/-- Pay from a fee reserve, if there is something to pay, and return what is left of it. -/
def payFees (token user : Address) (feeReserve amount : I128) : Result (I128 × State) :=
  if (amount : Int) > 0 then do
    let s ← payOut env s token user amount
    let rest ← unchecked i128 (feeReserve - amount)
    pure (rest, s)
  else pure (feeReserve, s)

def removeLiquidity (user : Address) (poolId : U32) (priceANow priceBNow : I128) :
    Result State := do
  requireNotPaused s
  env.requireAuth user
  let pool ← s.loadLpPool poolId
  let pos ← okOr (s.lp.position.get (user, poolId)) "no LP position found"
  let (rewardPayout, feeShare) ← pos.due pool env.timestamp s.reward.pool
  let protection ← pos.calcIlProtection priceANow priceBNow pool.ilProtectionBps
  let ilPayout := protection.min (i128.saturate (pool.feeReserve - feeShare))
  let token ← s.getAxToken
  let s ← payOut env s token user pos.amount
  let s ← payReward env s token user rewardPayout
  let (feeReserve, s) ← payFees env s token user pool.feeReserve feeShare
  let (feeReserve, s) ← payFees env s token user feeReserve ilPayout
  let totalLiquidity ← unchecked i128 (pool.totalLiquidity - pos.amount)
  let withdrawn ← unchecked i128 (-pos.amount)
  pure { s with
    lp.pool := s.lp.pool.set poolId { pool with feeReserve, totalLiquidity := totalLiquidity.max 0 }
    lp.position := s.lp.position.remove (user, poolId)
    lp.history := pushLpHistory s.lp.history
      ⟨user, poolId, env.timestamp, withdrawn, rewardPayout, feeShare, ilPayout⟩ }

def claimLpRewards (user : Address) (poolId : U32) : Result ((I128 × I128) × State) := do
  requireNotPaused s
  env.requireAuth user
  let pool ← s.loadLpPool poolId
  let pos ← okOr (s.lp.position.get (user, poolId)) "no LP position found"
  let (rewardPayout, feeShare) ← pos.due pool env.timestamp s.reward.pool
  reject ((rewardPayout : Int) = 0 ∧ (feeShare : Int) = 0) "no rewards or fees to claim"
  let token ← s.getAxToken
  let s ← payReward env s token user rewardPayout
  let (feeReserve, s) ← payFees env s token user pool.feeReserve feeShare
  pure ((rewardPayout, feeShare), { s with
    lp.position := s.lp.position.set (user, poolId)
      { pos with pendingRewards := 0, lastRewardTs := env.timestamp, feeDebt := pool.cumulativeFees }
    lp.pool := s.lp.pool.set poolId { pool with feeReserve }
    lp.history := pushLpHistory s.lp.history ⟨user, poolId, env.timestamp, 0, rewardPayout, feeShare, 0⟩ })

def depositLpFees (funder : Address) (poolId : U32) (amount : I128) : Result State := do
  requireNotPaused s
  env.requireAuth funder
  reject ((amount : Int) ≤ 0) "amount must be positive"
  let token ← s.getAxToken
  let s ← payIn env s token funder amount
  let pool ← s.loadLpPool poolId
  let feeReserve ← unchecked i128 (pool.feeReserve + amount)
  let cumulativeFees ← unchecked i128 (pool.cumulativeFees + amount)
  pure { s with lp.pool := s.lp.pool.set poolId { pool with feeReserve, cumulativeFees } }

def recordLpPerformance (user : Address) (poolId : U32)
    (liquidityDelta rewardsClaimed feesClaimed ilProtectionPaid : I128) : Result State := do
  requireAdmin env s
  pure { s with
    lp.history := pushLpHistory s.lp.history
      ⟨user, poolId, env.timestamp, liquidityDelta, rewardsClaimed, feesClaimed, ilProtectionPaid⟩ }

def pendingLpRewards (user : Address) (poolId : U32) : Result I128 := do
  let pool ← s.loadLpPool poolId
  match s.lp.position.get (user, poolId) with
  | some pos => pos.accrued pool env.timestamp
  | none => pure 0

end

def pendingLpFeeShare (s : State) (user : Address) (poolId : U32) : Result I128 := do
  let pool ← s.loadLpPool poolId
  match s.lp.position.get (user, poolId) with
  | some pos => pos.calcFeeShare pool
  | none => pure 0

/-! ## What the operations do -/

section Specs

variable {m : Mode} {env : Env} {s s' : State} {user : Address} {poolId : U32} {amount priceA priceB : I128}
  {pool : LpPoolConfig}

theorem createLpPool_spec {rate protection id : U32}
    (h : (createLpPool env s rate protection).run m = some (id, s')) :
    env.AdminSigned s.admin ∧ id = s.lp.counter ∧ s' = { s with
      lp.pool := s.lp.pool.set s.lp.counter ⟨s.lp.counter, rate, 0, 0, 0, protection, true⟩
      lp.counter := u32.wrap (s.lp.counter + 1) } := by
  simp only [createLpPool, run_iff, run_requireAdmin, Prod.mk.injEq] at h
  obtain ⟨-, hadmin, -, -, -, -, rfl, rfl⟩ := h
  exact ⟨hadmin, rfl, rfl⟩

theorem setLpRewardRate_spec {rate : U32} (h : (setLpRewardRate env s poolId rate).run m = some s') :
    env.AdminSigned s.admin ∧ ∃ pool, s.lp.pool.get poolId = some pool ∧
      s' = { s with lp.pool := s.lp.pool.set poolId { pool with rewardRateBps := rate } } := by
  simp only [setLpRewardRate, run_iff, run_requireAdmin, State.loadLpPool] at h
  obtain ⟨-, hadmin, -, -, _, hpool, rfl⟩ := h
  exact ⟨hadmin, _, hpool, rfl⟩

theorem updateLpDynamicRate_spec {target : I128} {baseRate minRate : U32}
    (h : (updateLpDynamicRate env s poolId target baseRate minRate).run m = some s') :
    env.AdminSigned s.admin ∧ ∃ pool rate, s.lp.pool.get poolId = some pool ∧
      (dynamicRate pool.totalLiquidity target baseRate minRate).run m = some rate ∧
      s' = { s with lp.pool := s.lp.pool.set poolId { pool with rewardRateBps := rate } } := by
  simp only [updateLpDynamicRate, run_iff, run_requireAdmin, State.loadLpPool] at h
  obtain ⟨-, hadmin, _, hpool, _, hrate, rfl⟩ := h
  exact ⟨hadmin, _, _, hpool, hrate, rfl⟩

theorem setLpPoolActive_spec {active : Bool} (h : (setLpPoolActive env s poolId active).run m = some s') :
    env.AdminSigned s.admin ∧ ∃ pool, s.lp.pool.get poolId = some pool ∧
      s' = { s with lp.pool := s.lp.pool.set poolId { pool with active } } := by
  simp only [setLpPoolActive, run_iff, run_requireAdmin, State.loadLpPool] at h
  obtain ⟨-, hadmin, _, hpool, rfl⟩ := h
  exact ⟨hadmin, _, hpool, rfl⟩

theorem recordLpPerformance_spec {delta rewards fees protection : I128}
    (h : (recordLpPerformance env s user poolId delta rewards fees protection).run m = some s') :
    env.AdminSigned s.admin ∧ ∃ history, s' = { s with lp.history := history } := by
  simp only [recordLpPerformance, run_iff, run_requireAdmin] at h
  obtain ⟨-, hadmin, rfl⟩ := h
  exact ⟨hadmin, _, rfl⟩

theorem lpPosition_amount {existing : Option LpPosition} {now : U64} {position : LpPosition}
    (h : (lpPosition existing pool now user poolId amount priceA priceB).run .exact = some position) :
    position.amount = Table.share (fun pos => (pos.amount : ℤ)) existing + amount := by
  cases existing with
  | none =>
    simp only [lpPosition, run_pure_iff] at h
    subst h
    exact (zero_add _).symm
  | some pos =>
    simp only [lpPosition, LpPosition.topUp, run_iff, run_unchecked_exact] at h
    obtain ⟨_, -, _, -, total, htotal, rfl⟩ := h
    exact htotal

theorem addLiquidity_spec (h : (addLiquidity env s user poolId amount priceA priceB).run m = some s') :
    user ∈ env.signers ∧ 0 < (amount : ℤ) ∧ ∃ pool token position, s.lp.pool.get poolId = some pool ∧
      s.axToken = some token ∧ (lpPosition (s.lp.position.get (user, poolId)) pool env.timestamp user poolId amount
        priceA priceB).run m = some position ∧ (m = .exact → i128.Fits (pool.totalLiquidity + amount)) ∧
      s' = { s with
        tokens := s.tokens.move token user env.currentContract amount
        lp.position := s.lp.position.set (user, poolId) position
        lp.userPools := trackUserPool s.lp.userPools user poolId
        lp.pool := s.lp.pool.set poolId { pool with totalLiquidity := i128.wrap (pool.totalLiquidity + amount) }
        lp.history := pushLpHistory s.lp.history ⟨user, poolId, env.timestamp, amount, 0, 0, 0⟩ } := by
  simp only [addLiquidity, run_iff, run_requireAuth, State.loadLpPool, run_getAxToken, run_payIn,
    run_unchecked, not_le] at h
  obtain ⟨-, -, -, huser, -, hpos, _, hpool, -, -, _, htoken, _, ⟨-, rfl⟩, _, hposition, _,
    ⟨rfl, hfits⟩, rfl⟩ := h
  exact ⟨huser, hpos, _, _, _, hpool, htoken, hposition, hfits, rfl⟩

theorem calcFeeShare_nonneg {pos : LpPosition} {share : I128}
    (h : (pos.calcFeeShare pool).run .exact = some share) : 0 ≤ (share : ℤ) := by
  unfold LpPosition.calcFeeShare at h
  split at h
  · rw [run_pure] at h
    cases h
    exact le_rfl
  · rename_i hempty
    dsimp only at h
    split at h
    · rw [run_pure] at h
      cases h
      exact le_rfl
    · simp only [run_iff, run_unchecked_exact, run_quot] at h
      obtain ⟨product, hproduct, -, hshare⟩ := h
      rw [hshare, hproduct]
      exact Int.tdiv_nonneg (mul_nonneg (by omega) (by omega)) (by omega)

/-- What is due is in the reserves it is paid from. -/
theorem due_bounds {pos : LpPosition} {now : U64} {rewardPool reward fees : I128}
    (h : (pos.due pool now rewardPool).run .exact = some (reward, fees)) (hpool : 0 ≤ (rewardPool : ℤ))
    (hreserve : 0 ≤ (pool.feeReserve : ℤ)) :
    0 ≤ (reward : ℤ) ∧ (reward : ℤ) ≤ rewardPool ∧ 0 ≤ (fees : ℤ) ∧ (fees : ℤ) ≤ pool.feeReserve := by
  simp only [LpPosition.due, run_iff, Prod.mk.injEq] at h
  obtain ⟨accrued, -, share, hshare, rfl, rfl⟩ := h
  have := calcFeeShare_nonneg hshare
  simp only [toInt_min, toInt_max, toInt_zero]
  omega

theorem payFees_spec {token : Address} {feeReserve rest : I128}
    (h : (payFees env s token user feeReserve amount).run m = some (rest, s')) :
    (m = .exact → i128.Fits (feeReserve - max (amount : ℤ) 0)) ∧
      rest = i128.wrap (feeReserve - max (amount : ℤ) 0) ∧
      s' = { s with tokens := s.tokens.move token env.currentContract user (max amount 0) } := by
  unfold payFees at h
  split at h
  · rename_i hpos
    simp only [run_iff, run_payOut, run_unchecked, Prod.mk.injEq] at h
    obtain ⟨_, ⟨-, rfl⟩, _, ⟨rfl, hfits⟩, rfl, rfl⟩ := h
    rw [max_eq_left hpos.le]
    exact ⟨hfits, rfl, rfl⟩
  · rename_i hpos
    simp only [run_pure_iff, Prod.mk.injEq] at h
    obtain ⟨rfl, rfl⟩ := h
    rw [max_eq_right (not_lt.1 hpos), sub_zero, wrap_toInt, Holdings.move_zero]
    exact ⟨fun _ => feeReserve.fits, rfl, rfl⟩

theorem removeLiquidity_spec (h : (removeLiquidity env s user poolId priceA priceB).run m = some s') :
    user ∈ env.signers ∧ ∃ pool pos reward fees protection il token history, s.lp.pool.get poolId = some pool ∧
      s.lp.position.get (user, poolId) = some pos ∧
      (pos.due pool env.timestamp s.reward.pool).run m = some (reward, fees) ∧
      (pos.calcIlProtection priceA priceB pool.ilProtectionBps).run m = some protection ∧
      il = protection.min (i128.saturate (pool.feeReserve - fees)) ∧ s.axToken = some token ∧
      (m = .exact → i128.Fits (s.reward.pool - max (reward : ℤ) 0) ∧ i128.Fits (pool.feeReserve - max (fees : ℤ) 0) ∧
        i128.Fits (pool.feeReserve - max (fees : ℤ) 0 - max (il : ℤ) 0) ∧
        i128.Fits (pool.totalLiquidity - pos.amount)) ∧ s' = { s with
        tokens := (((s.tokens.move token env.currentContract user pos.amount).move token env.currentContract user
          (max reward 0)).move token env.currentContract user (max fees 0)).move token
          env.currentContract user (max il 0)
        reward.pool := i128.wrap (s.reward.pool - max (reward : ℤ) 0)
        lp.pool := s.lp.pool.set poolId { pool with
          feeReserve := i128.wrap (pool.feeReserve - max (fees : ℤ) 0 - max (il : ℤ) 0)
          totalLiquidity := (i128.wrap (pool.totalLiquidity - pos.amount)).max 0 }
        lp.position := s.lp.position.remove (user, poolId)
        lp.history := history } := by
  simp only [removeLiquidity, run_iff, run_requireAuth, State.loadLpPool, run_getAxToken, run_payOut,
    run_unchecked] at h
  obtain ⟨-, -, -, huser, _, hpool, _, hget, ⟨_, _⟩, hdue, _, hprotection, _, htoken, _,
    ⟨-, rfl⟩, _, hreward, ⟨_, _⟩, hfees, ⟨_, _⟩, hil, _, ⟨rfl, htotal⟩, _, -, rfl⟩ := h
  obtain ⟨hpool', rfl⟩ := payReward_spec hreward
  obtain ⟨hrest, rfl, rfl⟩ := payFees_spec hfees
  obtain ⟨hlast, rfl, rfl⟩ := payFees_spec hil
  rw [IntType.wrap_wrap_sub]
  refine ⟨huser, _, _, _, _, _, _, _, _, hpool, hget, hdue, hprotection, rfl, htoken,
    fun hm => ⟨hpool' hm, hrest hm, ?_, htotal hm⟩, rfl⟩
  rw [← wrap_of_fits (hrest hm)]
  exact hlast hm

theorem claimLpRewards_spec {reward fees : I128}
    (h : (claimLpRewards env s user poolId).run m = some ((reward, fees), s')) :
    user ∈ env.signers ∧ ∃ pool pos token history, s.lp.pool.get poolId = some pool ∧
      s.lp.position.get (user, poolId) = some pos ∧
      (pos.due pool env.timestamp s.reward.pool).run m = some (reward, fees) ∧ s.axToken = some token ∧
      (m = .exact → i128.Fits (s.reward.pool - max (reward : ℤ) 0) ∧
        i128.Fits (pool.feeReserve - max (fees : ℤ) 0)) ∧ s' = { s with
        tokens := (s.tokens.move token env.currentContract user (max reward 0)).move token env.currentContract
          user (max fees 0)
        reward.pool := i128.wrap (s.reward.pool - max (reward : ℤ) 0)
        lp.position := s.lp.position.set (user, poolId)
          { pos with pendingRewards := 0, lastRewardTs := env.timestamp, feeDebt := pool.cumulativeFees }
        lp.pool := s.lp.pool.set poolId { pool with feeReserve := i128.wrap (pool.feeReserve - max (fees : ℤ) 0) }
        lp.history := history } := by
  simp only [claimLpRewards, run_iff, run_requireAuth, State.loadLpPool, run_getAxToken, Prod.mk.injEq] at h
  obtain ⟨-, -, -, huser, _, hpool, _, hget, ⟨_, _⟩, hdue, -, -, _, htoken, _, hreward, ⟨_, _⟩, hfees,
    ⟨rfl, rfl⟩, rfl⟩ := h
  obtain ⟨hpool', rfl⟩ := payReward_spec hreward
  obtain ⟨hrest, rfl, rfl⟩ := payFees_spec hfees
  exact ⟨huser, _, _, _, _, hpool, hget, hdue, htoken, fun hm => ⟨hpool' hm, hrest hm⟩, rfl⟩

theorem depositLpFees_spec (h : (depositLpFees env s user poolId amount).run m = some s') :
    user ∈ env.signers ∧ 0 < (amount : ℤ) ∧ ∃ token pool, s.axToken = some token ∧
      s.lp.pool.get poolId = some pool ∧ (m = .exact → i128.Fits (pool.feeReserve + amount) ∧
        i128.Fits (pool.cumulativeFees + amount)) ∧ s' = { s with
        tokens := s.tokens.move token user env.currentContract amount
        lp.pool := s.lp.pool.set poolId { pool with
          feeReserve := i128.wrap (pool.feeReserve + amount)
          cumulativeFees := i128.wrap (pool.cumulativeFees + amount) } } := by
  simp only [depositLpFees, run_iff, run_requireAuth, State.loadLpPool, run_getAxToken, run_payIn,
    run_unchecked, not_le] at h
  obtain ⟨-, -, -, huser, -, hpos, _, htoken, _, ⟨-, rfl⟩, _, hpool, _, ⟨rfl, hfits⟩, _, ⟨rfl, hcum⟩,
    rfl⟩ := h
  exact ⟨huser, hpos, _, _, htoken, hpool, fun hm => ⟨hfits hm, hcum hm⟩, rfl⟩

end Specs

end ArenaX.StakingManager
