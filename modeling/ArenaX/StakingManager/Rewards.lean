/-
The facilities that hold a deposit and pay for it: reward staking at one rate, flexible pools with their own
rates, locks and penalties, and voting locks. Rewards are all paid from one reserve.
-/
import ArenaX.StakingManager.Storage

namespace ArenaX.StakingManager

open Machine Exec
open Host (Address Holdings)

section

variable (env : Env) (s : State)

def initializeContract (admin axToken : Address) : Result State := do
  reject (s.admin ≠ none) "already initialized"
  env.requireAuth admin
  pure { s with
    admin := some admin
    axToken := some axToken
    paused := false
    reward.totalStaked := 0
    reward.pool := 0
    reward.config := some
      ⟨1200, 1000, 31536000⟩ }

def setAxToken (axToken : Address) : Result State := do
  requireAdmin env s
  pure { s with axToken := some axToken }

def setTournamentContract (tournamentContract : Address) : Result State := do
  requireAdmin env s
  pure { s with tournamentContract := some tournamentContract }

def setDisputeContract (disputeContract : Address) : Result State := do
  requireAdmin env s
  pure { s with disputeContract := some disputeContract }

def setPaused (paused : Bool) : Result State := do
  requireAdmin env s
  pure { s with paused := paused }

def setRewardConfig (annualRateBps : U32) (minStake : I128) : Result State := do
  requireAdmin env s
  reject ((annualRateBps : Int) > 10000) "rate exceeds 100%"
  pure { s with reward.config := some ⟨annualRateBps, minStake, ⟨31536000, by decide, by decide⟩⟩ }

/-! ## Accrual and payment -/

/-- Pro-rata rewards since a time: `amount * rate * elapsed / (year * 10000)`, rounded toward zero. -/
def accrue (amount : I128) (rateBps : U32) (since now secsPerYear : U64) : Result I128 := do
  let elapsed := u64.saturate (now - since)
  let yearly ← unchecked i128 (amount * rateBps)
  let product ← unchecked i128 (yearly * elapsed)
  quot i128 product (secsPerYear * 10000)

def secsPerYear : U64 := ⟨31536000, by decide, by decide⟩

/-- Pay rewards out of the reserve, if there are any. -/
def payReward (token user : Address) (payout : I128) : Result State :=
  if (payout : Int) > 0 then do
    let s ← payOut env s token user payout
    let pool ← unchecked i128 (s.reward.pool - payout)
    pure { s with reward.pool := pool }
  else pure s

/-- Pay a penalty to the admin, if there is one. -/
def payPenalty (token : Address) (penalty : I128) : Result State :=
  if (penalty : Int) > 0 then do
    let admin ← unwrap s.admin
    payOut env s token admin penalty
  else pure s

def fundRewardPool (funder : Address) (amount : I128) : Result State := do
  requireNotPaused s
  env.requireAuth funder
  reject ((amount : Int) ≤ 0) "amount must be positive"
  let token ← s.getAxToken
  let s ← payIn env s token funder amount
  let pool ← unchecked i128 (s.reward.pool + amount)
  pure { s with reward.pool := pool }

end

/-! ## Reward staking -/

def tierForAmount (amount : I128) : StakeTier :=
  if (amount : Int) ≥ 100000 then .platinum
  else if (amount : Int) ≥ 25000 then .gold
  else if (amount : Int) ≥ 5000 then .silver
  else if (amount : Int) ≥ 1000 then .bronze
  else .none

def governanceWeight (amount : I128) (tier : U32) : Result I128 := do
  let scaled ← unchecked i128 (amount * (100 + tier * 25))
  quot i128 scaled 100

namespace RewardStakePosition

variable (pos : RewardStakePosition) (cfg : RewardConfig) (now : U64)

def calcPending : Result I128 := accrue pos.amount cfg.annualRateBps pos.lastRewardTs now cfg.secsPerYear

/-- What the position has earned and not been paid. -/
def accrued : Result I128 := do
  let pending ← pos.calcPending cfg now
  unchecked i128 (pending + pos.pendingRewards)

/-- The position with its rewards set aside and more staked. -/
def topUp (amount : I128) : Result RewardStakePosition := do
  let pending ← pos.calcPending cfg now
  let pendingRewards ← unchecked i128 (pos.pendingRewards + pending)
  let amount ← unchecked i128 (pos.amount + amount)
  let tier := (tierForAmount amount).code
  let governanceWeight ← StakingManager.governanceWeight amount tier
  pure { pos with pendingRewards, lastRewardTs := now, amount, tier, governanceWeight }

end RewardStakePosition

/-- The position of a user after staking an amount: a new one, or the one there was, topped up. -/
def rewardPosition (existing : Option RewardStakePosition) (cfg : RewardConfig) (now : U64) (user : Address)
    (amount : I128) : Result RewardStakePosition :=
  match existing with
  | some pos => pos.topUp cfg now amount
  | none => do
    let tier := (tierForAmount amount).code
    let governanceWeight ← governanceWeight amount tier
    pure ⟨user, amount, now, 0, now, tier, governanceWeight⟩

section

variable (env : Env) (s : State)

def stakeForRewards (user : Address) (amount : I128) : Result State := do
  requireNotPaused s
  env.requireAuth user
  reject ((amount : Int) ≤ 0) "amount must be positive"
  let cfg ← unwrap s.reward.config
  reject ((amount : Int) < cfg.minStake) "below minimum stake"
  let token ← s.getAxToken
  let s ← payIn env s token user amount
  let position ← rewardPosition (s.reward.position.get user) cfg env.timestamp user amount
  let totalStaked ← unchecked i128 (s.reward.totalStaked + amount)
  pure { s with
    reward.position := s.reward.position.set user position
    reward.totalStaked := totalStaked }

def claimRewards (user : Address) : Result (I128 × State) := do
  requireNotPaused s
  env.requireAuth user
  let cfg ← unwrap s.reward.config
  let pos ← okOr (s.reward.position.get user) "no stake found"
  let accrued ← pos.accrued cfg env.timestamp
  reject ((accrued : Int) ≤ 0) "no rewards to claim"
  let payout := accrued.min s.reward.pool
  reject ((payout : Int) = 0) "reward pool empty"
  let pool ← unchecked i128 (s.reward.pool - payout)
  let token ← s.getAxToken
  let s ← payOut env s token user payout
  pure (payout, { s with
    reward.position := s.reward.position.set user { pos with pendingRewards := 0, lastRewardTs := env.timestamp }
    reward.pool := pool })

def unstakeRewards (user : Address) : Result State := do
  requireNotPaused s
  env.requireAuth user
  let cfg ← unwrap s.reward.config
  let pos ← okOr (s.reward.position.get user) "no stake found"
  let accrued ← pos.accrued cfg env.timestamp
  let rewardPayout := accrued.min s.reward.pool
  let token ← s.getAxToken
  let s ← payOut env s token user pos.amount
  let s ← payReward env s token user rewardPayout
  let totalStaked ← unchecked i128 (s.reward.totalStaked - pos.amount)
  pure { s with
    reward.totalStaked := totalStaked.max 0
    reward.position := s.reward.position.remove user }

def pendingRewards (user : Address) : Result I128 := do
  let cfg ← unwrap s.reward.config
  match s.reward.position.get user with
  | some pos => pos.accrued cfg env.timestamp
  | none => pure 0

/-! ## Flexible pools -/

def createRewardPool (apyBps : U32) (lockDuration : U64) (earlyExitPenaltyBps : U32) :
    Result (U32 × State) := do
  requireAdmin env s
  reject ((apyBps : Int) > 10000) "rate exceeds 100%"
  reject ((earlyExitPenaltyBps : Int) > 10000) "penalty exceeds 100%"
  let id := s.flexible.counter
  pure (id, { s with
    flexible.pool := s.flexible.pool.set id ⟨id, apyBps, lockDuration, earlyExitPenaltyBps, true, 0⟩
    flexible.counter := u32.wrap (id + 1) })

def setRewardPoolActive (poolId : U32) (active : Bool) : Result State := do
  requireAdmin env s
  let pool ← s.getRewardPool poolId
  pure { s with flexible.pool := s.flexible.pool.set poolId { pool with active } }

def setRewardPoolRate (poolId apyBps : U32) : Result State := do
  requireAdmin env s
  reject ((apyBps : Int) > 10000) "rate exceeds 100%"
  let pool ← s.getRewardPool poolId
  pure { s with flexible.pool := s.flexible.pool.set poolId { pool with apyBps } }

end

/-- Nothing once the lock has expired or where the pool has no penalty. -/
def earlyExitPenalty (amount : I128) (penaltyBps : U32) (now unlockAt : U64) : Result I128 :=
  if (unlockAt : Int) ≤ now ∨ (penaltyBps : Int) = 0 then pure 0 else bpsOf amount penaltyBps

def trackUserPool (userPools : Table Address (List U32)) (user : Address) (poolId : U32) : Table Address (List U32) :=
  let pools := (userPools.get user).getD []
  if poolId ∈ pools then userPools else userPools.set user (pools ++ [poolId])

namespace FlexiblePosition

variable (pos : FlexiblePosition) (apyBps : U32) (now : U64)

def calcPending : Result I128 := accrue pos.amount apyBps pos.lastRewardTs now secsPerYear

/-- What the position has earned and not been paid. -/
def accrued : Result I128 := do
  let pending ← pos.calcPending apyBps now
  unchecked i128 (pending + pos.pendingRewards)

/-- The position with its rewards set aside, more staked, and its lock restarted. -/
def topUp (amount : I128) (unlockAt : U64) : Result FlexiblePosition := do
  let pending ← pos.calcPending apyBps now
  let pendingRewards ← unchecked i128 (pos.pendingRewards + pending)
  let amount ← unchecked i128 (pos.amount + amount)
  pure { pos with pendingRewards, lastRewardTs := now, amount, unlockAt }

end FlexiblePosition

/-- The position of a user after staking an amount in a pool. -/
def flexiblePosition (existing : Option FlexiblePosition) (pool : RewardPool) (now : U64) (user : Address)
    (poolId : U32) (amount : I128) : Result FlexiblePosition :=
  let unlockAt := u64.wrap (now + pool.lockDuration)
  match existing with
  | some pos => pos.topUp pool.apyBps now amount unlockAt
  | none => pure ⟨user, poolId, amount, now, unlockAt, 0, now⟩

section

variable (env : Env) (s : State)

def stakeFlexible (user : Address) (poolId : U32) (amount : I128) : Result State := do
  requireNotPaused s
  env.requireAuth user
  reject ((amount : Int) ≤ 0) "amount must be positive"
  let pool ← s.getRewardPool poolId
  reject (pool.active = false) "pool not active"
  let token ← s.getAxToken
  let s ← payIn env s token user amount
  let position ← flexiblePosition (s.flexible.position.get (user, poolId)) pool env.timestamp user poolId amount
  let totalStaked ← unchecked i128 (pool.totalStaked + amount)
  pure { s with
    flexible.position := s.flexible.position.set (user, poolId) position
    flexible.userPools := trackUserPool s.flexible.userPools user poolId
    flexible.pool := s.flexible.pool.set poolId { pool with totalStaked } }

def claimFlexibleRewards (user : Address) (poolId : U32) : Result (I128 × State) := do
  requireNotPaused s
  env.requireAuth user
  let pool ← s.getRewardPool poolId
  let pos ← okOr (s.flexible.position.get (user, poolId)) "no position found"
  let accrued ← pos.accrued pool.apyBps env.timestamp
  reject ((accrued : Int) ≤ 0) "no rewards to claim"
  let payout := accrued.min s.reward.pool
  reject ((payout : Int) = 0) "reward reserve empty"
  let reserve ← unchecked i128 (s.reward.pool - payout)
  let token ← s.getAxToken
  let s ← payOut env s token user payout
  pure (payout, { s with
    flexible.position := s.flexible.position.set (user, poolId)
      { pos with pendingRewards := 0, lastRewardTs := env.timestamp }
    reward.pool := reserve })

/-- Unstake a whole position; before its lock expires part of the principal goes to the admin. -/
def unstakeFlexible (user : Address) (poolId : U32) : Result State := do
  requireNotPaused s
  env.requireAuth user
  let pool ← s.getRewardPool poolId
  let pos ← okOr (s.flexible.position.get (user, poolId)) "no position found"
  let accrued ← pos.accrued pool.apyBps env.timestamp
  let rewardPayout := (accrued.max 0).min s.reward.pool
  let penalty ← earlyExitPenalty pos.amount pool.earlyExitPenaltyBps env.timestamp pos.unlockAt
  let principalOut ← unchecked i128 (pos.amount - penalty)
  let token ← s.getAxToken
  let s ← payOut env s token user principalOut
  let s ← payReward env s token user rewardPayout
  let s ← payPenalty env s token penalty
  let totalStaked ← unchecked i128 (pool.totalStaked - pos.amount)
  pure { s with
    flexible.pool := s.flexible.pool.set poolId { pool with totalStaked := totalStaked.max 0 }
    flexible.position := s.flexible.position.remove (user, poolId) }

def pendingFlexibleRewards (user : Address) (poolId : U32) : Result I128 := do
  let pool ← s.getRewardPool poolId
  match s.flexible.position.get (user, poolId) with
  | some pos => pos.accrued pool.apyBps env.timestamp
  | none => pure 0

/-! ## Voting locks -/

/-- Four years. -/
def maxLockDuration : U64 := ⟨126144000, by decide, by decide⟩

/-- A bonus of 10% for each full year, in basis points. -/
def lockBonusBps (duration : U64) : U32 :=
  let years := u32.wrap (duration / secsPerYear)
  u32.saturate (years * 1000)

def votingWeight (amount : I128) (duration : U64) : Result I128 := do
  let bonus ← bpsOf amount (lockBonusBps duration)
  unchecked i128 (amount + bonus)

/-- A quarter of the principal before the lock has matured. -/
def earlyUnlockPenalty (amount : I128) (now unlockAt : U64) : Result I128 :=
  if (unlockAt : Int) ≤ now then pure 0 else bpsOf amount ⟨2500, by decide, by decide⟩

def createVotingLock (user : Address) (amount : I128) (duration : U64) :
    Result (I128 × State) := do
  requireNotPaused s
  env.requireAuth user
  reject ((amount : Int) ≤ 0) "amount must be positive"
  reject ((duration : Int) = 0 ∨ (duration : Int) > maxLockDuration) "duration must be between 1 second and 4 years"
  reject (s.votingLock.get user).isSome "existing lock — withdraw it before opening a new one"
  let token ← s.getAxToken
  let s ← payIn env s token user amount
  let lock : VotingEscrowLock := ⟨user, amount, env.timestamp, duration, u64.wrap (env.timestamp + duration)⟩
  let weight ← votingWeight amount duration
  pure (weight, { s with votingLock := s.votingLock.set user lock })

def withdrawVotingLock (user : Address) : Result (I128 × State) := do
  requireNotPaused s
  env.requireAuth user
  let lock ← okOr (s.votingLock.get user) "no voting lock found"
  let penalty ← earlyUnlockPenalty lock.amount env.timestamp lock.unlockAt
  let payout ← unchecked i128 (lock.amount - penalty)
  let token ← s.getAxToken
  let s ← payOut env s token user payout
  let s ← payPenalty env s token penalty
  pure (payout, { s with votingLock := s.votingLock.remove user })

end

/-! ## What the operations do -/

section Specs

variable {m : Mode} {env : Env} {s s' : State} {user token : Address} {amount x : I128} {poolId : U32}

theorem setRewardConfig_spec {rate : U32} {minStake : I128}
    (h : (setRewardConfig env s rate minStake).run m = some s') :
    env.AdminSigned s.admin ∧ s' = { s with reward.config := some ⟨rate, minStake, secsPerYear⟩ } := by
  simp only [setRewardConfig, run_iff, run_requireAdmin] at h
  obtain ⟨-, hadmin, -, -, rfl⟩ := h
  exact ⟨hadmin, rfl⟩

theorem createRewardPool_spec {apyBps penaltyBps id : U32} {lockDuration : U64}
    (h : (createRewardPool env s apyBps lockDuration penaltyBps).run m = some (id, s')) :
    env.AdminSigned s.admin ∧ id = s.flexible.counter ∧ s' = { s with
      flexible.pool := s.flexible.pool.set s.flexible.counter
        ⟨s.flexible.counter, apyBps, lockDuration, penaltyBps, true, 0⟩
      flexible.counter := u32.wrap (s.flexible.counter + 1) } := by
  simp only [createRewardPool, run_iff, run_requireAdmin, Prod.mk.injEq] at h
  obtain ⟨-, hadmin, -, -, -, -, rfl, rfl⟩ := h
  exact ⟨hadmin, rfl, rfl⟩

theorem setRewardPoolActive_spec {active : Bool} (h : (setRewardPoolActive env s poolId active).run m = some s') :
    env.AdminSigned s.admin ∧ ∃ pool, s.flexible.pool.get poolId = some pool ∧
      s' = { s with flexible.pool := s.flexible.pool.set poolId { pool with active } } := by
  simp only [setRewardPoolActive, run_iff, run_requireAdmin, State.getRewardPool] at h
  obtain ⟨-, hadmin, _, hpool, rfl⟩ := h
  exact ⟨hadmin, _, hpool, rfl⟩

theorem setRewardPoolRate_spec {apyBps : U32} (h : (setRewardPoolRate env s poolId apyBps).run m = some s') :
    env.AdminSigned s.admin ∧ ∃ pool, s.flexible.pool.get poolId = some pool ∧
      s' = { s with flexible.pool := s.flexible.pool.set poolId { pool with apyBps } } := by
  simp only [setRewardPoolRate, run_iff, run_requireAdmin, State.getRewardPool] at h
  obtain ⟨-, hadmin, -, -, _, hpool, rfl⟩ := h
  exact ⟨hadmin, _, hpool, rfl⟩

theorem payReward_spec (h : (payReward env s token user amount).run m = some s') :
    (m = .exact → i128.Fits (s.reward.pool - max (amount : ℤ) 0)) ∧ s' = { s with
      tokens := s.tokens.move token env.currentContract user (max amount 0)
      reward.pool := i128.wrap (s.reward.pool - max (amount : ℤ) 0) } := by
  unfold payReward at h
  split at h
  · rename_i hpos
    simp only [run_iff, run_payOut, run_unchecked] at h
    obtain ⟨_, ⟨-, rfl⟩, _, ⟨rfl, hfits⟩, rfl⟩ := h
    rw [max_eq_left hpos.le]
    exact ⟨hfits, rfl⟩
  · rename_i hpos
    rw [run_pure] at h
    cases h
    rw [max_eq_right (not_lt.1 hpos), Holdings.move_zero, sub_zero, wrap_toInt]
    exact ⟨fun _ => s.reward.pool.fits, rfl⟩

theorem payPenalty_spec (h : (payPenalty env s token amount).run m = some s') :
    s' = { s with
      tokens := s.tokens.move token env.currentContract (s.admin.getD env.currentContract) (max amount 0) } := by
  unfold payPenalty at h
  split at h
  · rename_i hpos
    simp only [run_iff, run_unwrap, run_payOut] at h
    obtain ⟨admin, hadmin, -, rfl⟩ := h
    rw [max_eq_left hpos.le, hadmin, Option.getD_some]
  · rename_i hpos
    rw [run_pure] at h
    cases h
    rw [max_eq_right (not_lt.1 hpos), Holdings.move_zero]

theorem fundRewardPool_spec (h : (fundRewardPool env s user amount).run m = some s') :
    user ∈ env.signers ∧ 0 < (amount : ℤ) ∧ (m = .exact → i128.Fits (s.reward.pool + amount)) ∧
      ∃ token, s.axToken = some token ∧ s' = { s with
        tokens := s.tokens.move token user env.currentContract amount
        reward.pool := i128.wrap (s.reward.pool + amount) } := by
  simp only [fundRewardPool, run_iff, run_requireAuth, run_getAxToken, run_payIn, run_unchecked, not_le] at h
  obtain ⟨-, -, -, huser, -, hpos, _, htoken, _, ⟨-, rfl⟩, _, ⟨rfl, hfits⟩, rfl⟩ := h
  exact ⟨huser, hpos, hfits, _, htoken, rfl⟩

/-- A stake adds to what the user had. -/
theorem rewardPosition_amount {existing : Option RewardStakePosition} {cfg : RewardConfig} {now : U64}
    {position : RewardStakePosition} (h : (rewardPosition existing cfg now user amount).run .exact = some position) :
    position.amount = Table.share (fun pos => (pos.amount : ℤ)) existing + amount := by
  cases existing with
  | none =>
    simp only [rewardPosition, run_iff] at h
    obtain ⟨_, -, rfl⟩ := h
    exact (zero_add _).symm
  | some pos =>
    simp only [rewardPosition, RewardStakePosition.topUp, run_iff, run_unchecked_exact] at h
    obtain ⟨_, -, _, -, total, htotal, _, -, rfl⟩ := h
    exact htotal

theorem stakeForRewards_spec (h : (stakeForRewards env s user amount).run m = some s') :
    user ∈ env.signers ∧ 0 < (amount : ℤ) ∧ ∃ cfg token position, s.reward.config = some cfg ∧
      s.axToken = some token ∧
      (rewardPosition (s.reward.position.get user) cfg env.timestamp user amount).run m = some position ∧
      (m = .exact → i128.Fits (s.reward.totalStaked + amount)) ∧ s' = { s with
        tokens := s.tokens.move token user env.currentContract amount
        reward.position := s.reward.position.set user position
        reward.totalStaked := i128.wrap (s.reward.totalStaked + amount) } := by
  simp only [stakeForRewards, run_iff, run_requireAuth, run_unwrap, run_getAxToken, run_payIn,
    run_unchecked, not_le] at h
  obtain ⟨-, -, -, huser, -, hpos, _, hcfg, -, -, _, htoken, _, ⟨-, rfl⟩, _, hposition, _, ⟨rfl, hfits⟩,
    rfl⟩ := h
  exact ⟨huser, hpos, _, _, _, hcfg, htoken, hposition, hfits, rfl⟩

theorem claimRewards_spec (h : (claimRewards env s user).run m = some (x, s')) :
    user ∈ env.signers ∧ ∃ cfg pos accrued token, s.reward.config = some cfg ∧
      s.reward.position.get user = some pos ∧ (pos.accrued cfg env.timestamp).run m = some accrued ∧
      0 < (accrued : ℤ) ∧ x = accrued.min s.reward.pool ∧ (m = .exact → i128.Fits (s.reward.pool - x)) ∧
      s.axToken = some token ∧ s' = { s with
        tokens := s.tokens.move token env.currentContract user x
        reward.position := s.reward.position.set user
          { pos with pendingRewards := 0, lastRewardTs := env.timestamp }
        reward.pool := i128.wrap (s.reward.pool - x) } := by
  simp only [claimRewards, run_iff, run_requireAuth, run_unwrap, run_getAxToken, run_payOut, run_unchecked,
    Prod.mk.injEq, not_le] at h
  obtain ⟨-, -, -, huser, _, hcfg, _, hget, _, haccrued, -, hpos, -, -, _, ⟨rfl, hfits⟩, _, htoken, _,
    ⟨-, rfl⟩, rfl, rfl⟩ := h
  exact ⟨huser, _, _, _, _, hcfg, hget, haccrued, hpos, rfl, hfits, htoken, rfl⟩

theorem unstakeRewards_spec (h : (unstakeRewards env s user).run m = some s') :
    user ∈ env.signers ∧ ∃ cfg pos accrued token, s.reward.config = some cfg ∧
      s.reward.position.get user = some pos ∧ (pos.accrued cfg env.timestamp).run m = some accrued ∧
      s.axToken = some token ∧
      (m = .exact → i128.Fits (s.reward.pool - max ((accrued.min s.reward.pool : I128) : ℤ) 0) ∧
        i128.Fits (s.reward.totalStaked - pos.amount)) ∧ s' = { s with
        tokens := (s.tokens.move token env.currentContract user pos.amount).move token env.currentContract user
          (max ((accrued.min s.reward.pool : I128) : ℤ) 0)
        reward.pool := i128.wrap (s.reward.pool - max ((accrued.min s.reward.pool : I128) : ℤ) 0)
        reward.totalStaked := (i128.wrap (s.reward.totalStaked - pos.amount)).max 0
        reward.position := s.reward.position.remove user } := by
  simp only [unstakeRewards, run_iff, run_requireAuth, run_unwrap, run_getAxToken, run_payOut, run_unchecked] at h
  obtain ⟨-, -, -, huser, _, hcfg, _, hget, _, haccrued, _, htoken, _, ⟨-, rfl⟩, t, hpay, _,
    ⟨rfl, htotal⟩, rfl⟩ := h
  obtain ⟨hfits, rfl⟩ := payReward_spec hpay
  exact ⟨huser, _, _, _, _, hcfg, hget, haccrued, htoken, fun hm => ⟨hfits hm, htotal hm⟩, rfl⟩

theorem flexiblePosition_amount {existing : Option FlexiblePosition} {pool : RewardPool} {now : U64}
    {position : FlexiblePosition}
    (h : (flexiblePosition existing pool now user poolId amount).run .exact = some position) :
    position.amount = Table.share (fun pos => (pos.amount : ℤ)) existing + amount := by
  unfold flexiblePosition at h
  cases existing with
  | none =>
    simp only [run_pure_iff] at h
    subst h
    exact (zero_add _).symm
  | some pos =>
    unfold FlexiblePosition.topUp at h
    simp only [run_iff, run_unchecked_exact] at h
    obtain ⟨_, -, _, -, total, htotal, rfl⟩ := h
    exact htotal

theorem stakeFlexible_spec (h : (stakeFlexible env s user poolId amount).run m = some s') :
    user ∈ env.signers ∧ 0 < (amount : ℤ) ∧ ∃ pool token position, s.flexible.pool.get poolId = some pool ∧
      s.axToken = some token ∧
      (flexiblePosition (s.flexible.position.get (user, poolId)) pool env.timestamp user poolId amount).run m =
        some position ∧ (m = .exact → i128.Fits (pool.totalStaked + amount)) ∧ s' = { s with
        tokens := s.tokens.move token user env.currentContract amount
        flexible.position := s.flexible.position.set (user, poolId) position
        flexible.userPools := trackUserPool s.flexible.userPools user poolId
        flexible.pool := s.flexible.pool.set poolId
          { pool with totalStaked := i128.wrap (pool.totalStaked + amount) } } := by
  simp only [stakeFlexible, run_iff, run_requireAuth, State.getRewardPool, run_getAxToken, run_payIn, run_unchecked,
    not_le] at h
  obtain ⟨-, -, -, huser, -, hpos, _, hpool, -, -, _, htoken, _, ⟨-, rfl⟩, _, hposition, _,
    ⟨rfl, hfits⟩, rfl⟩ := h
  exact ⟨huser, hpos, _, _, _, hpool, htoken, hposition, hfits, rfl⟩

theorem claimFlexibleRewards_spec (h : (claimFlexibleRewards env s user poolId).run m = some (x, s')) :
    user ∈ env.signers ∧ ∃ pool pos accrued token, s.flexible.pool.get poolId = some pool ∧
      s.flexible.position.get (user, poolId) = some pos ∧
      (pos.accrued pool.apyBps env.timestamp).run m = some accrued ∧ 0 < (accrued : ℤ) ∧
      x = accrued.min s.reward.pool ∧ (m = .exact → i128.Fits (s.reward.pool - x)) ∧
      s.axToken = some token ∧ s' = { s with
        tokens := s.tokens.move token env.currentContract user x
        flexible.position := s.flexible.position.set (user, poolId)
          { pos with pendingRewards := 0, lastRewardTs := env.timestamp }
        reward.pool := i128.wrap (s.reward.pool - x) } := by
  simp only [claimFlexibleRewards, run_iff, run_requireAuth, State.getRewardPool, run_getAxToken, run_payOut,
    run_unchecked, Prod.mk.injEq, not_le] at h
  obtain ⟨-, -, -, huser, _, hpool, _, hget, _, haccrued, -, hpos, -, -, _, ⟨rfl, hfits⟩, _, htoken, _,
    ⟨-, rfl⟩, rfl, rfl⟩ := h
  exact ⟨huser, _, _, _, _, hpool, hget, haccrued, hpos, rfl, hfits, htoken, rfl⟩

theorem earlyExitPenalty_nonneg {bps : U32} {now unlockAt : U64}
    (h : (earlyExitPenalty amount bps now unlockAt).run .exact = some x) (hamount : 0 ≤ (amount : ℤ)) :
    0 ≤ (x : ℤ) := by
  unfold earlyExitPenalty at h
  split at h
  · rw [run_pure] at h
    cases h
    exact le_rfl
  · exact bpsOf_nonneg h hamount

theorem unstakeFlexible_spec (h : (unstakeFlexible env s user poolId).run m = some s') :
    user ∈ env.signers ∧ ∃ pool pos accrued penalty token, s.flexible.pool.get poolId = some pool ∧
      s.flexible.position.get (user, poolId) = some pos ∧
      (pos.accrued pool.apyBps env.timestamp).run m = some accrued ∧
      (earlyExitPenalty pos.amount pool.earlyExitPenaltyBps env.timestamp pos.unlockAt).run m = some penalty ∧
      (m = .exact → i128.Fits (pos.amount - penalty)) ∧ s.axToken = some token ∧
      (m = .exact → i128.Fits (s.reward.pool - max (((accrued.max 0).min s.reward.pool : I128) : ℤ) 0) ∧
        i128.Fits (pool.totalStaked - pos.amount)) ∧ s' = { s with
        tokens := (((s.tokens.move token env.currentContract user (i128.wrap (pos.amount - penalty))).move token
          env.currentContract user (max (((accrued.max 0).min s.reward.pool : I128) : ℤ) 0)).move token
          env.currentContract (s.admin.getD env.currentContract) (max penalty 0))
        reward.pool := i128.wrap (s.reward.pool - max (((accrued.max 0).min s.reward.pool : I128) : ℤ) 0)
        flexible.pool := s.flexible.pool.set poolId
          { pool with totalStaked := (i128.wrap (pool.totalStaked - pos.amount)).max 0 }
        flexible.position := s.flexible.position.remove (user, poolId) } := by
  simp only [unstakeFlexible, run_iff, run_requireAuth, State.getRewardPool, run_getAxToken, run_payOut,
    run_unchecked] at h
  obtain ⟨-, -, -, huser, _, hpool, _, hget, _, haccrued, _, hpenalty, _, ⟨rfl, hout⟩, _, htoken,
    _, ⟨-, rfl⟩, _, hreward, _, hadmin, _, ⟨rfl, htotal⟩, rfl⟩ := h
  obtain ⟨hfits, rfl⟩ := payReward_spec hreward
  cases payPenalty_spec hadmin
  exact ⟨huser, _, _, _, _, _, hpool, hget, haccrued, hpenalty, hout, htoken,
    fun hm => ⟨hfits hm, htotal hm⟩, rfl⟩

theorem createVotingLock_spec {duration : U64}
    (h : (createVotingLock env s user amount duration).run m = some (x, s')) :
    user ∈ env.signers ∧ 0 < (amount : ℤ) ∧ s.votingLock.get user = none ∧ ∃ token, s.axToken = some token ∧
      (votingWeight amount duration).run m = some x ∧ s' = { s with
        tokens := s.tokens.move token user env.currentContract amount
        votingLock := s.votingLock.set user
          ⟨user, amount, env.timestamp, duration, u64.wrap (env.timestamp + duration)⟩ } := by
  simp only [createVotingLock, run_iff, run_requireAuth, run_getAxToken, run_payIn, Prod.mk.injEq, not_le,
    Bool.not_eq_true, Option.isSome_eq_false_iff, Option.isNone_iff_eq_none] at h
  obtain ⟨-, -, -, huser, -, hpos, -, -, -, hnone, _, htoken, _, ⟨-, rfl⟩, weight, hweight, rfl, rfl⟩ := h
  exact ⟨huser, hpos, hnone, _, htoken, hweight, rfl⟩

theorem earlyUnlockPenalty_nonneg {now unlockAt : U64}
    (h : (earlyUnlockPenalty amount now unlockAt).run .exact = some x) (hamount : 0 ≤ (amount : ℤ)) :
    0 ≤ (x : ℤ) := by
  unfold earlyUnlockPenalty at h
  split at h
  · rw [run_pure] at h
    cases h
    exact le_rfl
  · exact bpsOf_nonneg h hamount

theorem withdrawVotingLock_spec (h : (withdrawVotingLock env s user).run m = some (x, s')) :
    user ∈ env.signers ∧ ∃ lock penalty token, s.votingLock.get user = some lock ∧
      (earlyUnlockPenalty lock.amount env.timestamp lock.unlockAt).run m = some penalty ∧
      x = i128.wrap (lock.amount - penalty) ∧ (m = .exact → i128.Fits (lock.amount - penalty)) ∧
      s.axToken = some token ∧ s' = { s with
        tokens := (s.tokens.move token env.currentContract user x).move token env.currentContract
          (s.admin.getD env.currentContract) (max penalty 0)
        votingLock := s.votingLock.remove user } := by
  simp only [withdrawVotingLock, run_iff, run_requireAuth, run_getAxToken, run_payOut, run_unchecked,
    Prod.mk.injEq] at h
  obtain ⟨-, -, -, huser, _, hlock, _, hpenalty, _, ⟨rfl, hfits⟩, _, htoken, _, ⟨-, rfl⟩, _, hadmin, rfl,
    rfl⟩ := h
  cases payPenalty_spec hadmin
  exact ⟨huser, _, _, _, hlock, hpenalty, rfl, hfits, htoken, rfl⟩

end Specs

end ArenaX.StakingManager
