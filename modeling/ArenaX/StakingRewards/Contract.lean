/-
The staking rewards contract: its storage, its entry points and its runs. A user has one position, to which deposits
are added and from which withdrawals are taken; what leaves before the position's lock has passed pays a penalty into
the reward pool, and rewards accrue with time and are paid from the pool. Amounts are `i128` and tracked for overflow,
times are `u64` and wrap around. The texts are those of the contract's panics.
-/
import ArenaX.Lib.Holdings
import ArenaX.Lib.Ledger
import ArenaX.Lib.Runs

namespace ArenaX.StakingRewards

open Machine Exec
open Host (Address Holdings)

/-- What a function of the contract returns, or the text it panics with. -/
abbrev Result (α : Type) := Exec String α

/-- The environment of a call: which transfers the token contracts accept, and what a contract answers when it is asked
whether everything is paused (`none`: the question fails). -/
structure Env extends Host.Env where
  accepts : Host.TokenPolicy
  isPaused : Address → Option Bool

structure RewardParams where
  annualRateBps : U32
  minLockPeriod : U64
  maxLockPeriod : U64
  earlyUnstakePenaltyBps : U32
deriving DecidableEq

structure StakingPosition where
  user : Address
  amount : I128
  lockPeriod : U64
  stakedAt : U64
  lastRewardAt : U64
  pendingRewards : I128
  governanceWeight : I128
deriving DecidableEq

/-- What a user is shown. -/
structure StakingInfo where
  position : Option StakingPosition
  claimableRewards : I128
  rewardPool : I128
  totalStaked : I128
deriving DecidableEq

/-- The contract's storage under the names of its keys, and what everyone holds at the token contracts. -/
structure State where
  tokens : Holdings
  admin : Option Address := none
  token : Option Address := none
  paused : Bool := false
  params : Option RewardParams := none
  rewardPool : I128 := 0
  totalStaked : I128 := 0
  stake : Table Address StakingPosition := ∅
  epochDistributed : Table U64 I128 := ∅
  globalPauseContract : Option Address := none

def State.getToken (s : State) : Result Address := okOr s.token "token not set"

def State.getParams (s : State) : Result RewardParams := okOr s.params "params missing"

/-! ## Checks -/

section

variable (env : Env) (s : State)

def requireAdmin : Result Unit := do
  let admin ← okOr s.admin "not initialized"
  env.requireAuth admin

def requireNotPaused : Result Unit := do
  reject (s.paused = true) "contract is paused"
  match s.globalPauseContract with
  | some globalPause => do
    let isPaused ← unwrap (env.isPaused globalPause)
    reject (isPaused = true) "contract execution is paused"
  | none => pure ()

def requirePositive (amount : I128) : Result Unit := reject ((amount : Int) ≤ 0) "amount must be positive"

/-! ## Rewards -/

/-- The bonus for a lock, up to half as much again for a year. -/
def lockBonusBps (lockPeriod : U64) : Int := min (lockPeriod : Int) 31536000 * 5000 / 31536000

/-- What has accrued since the last snapshot. -/
def calculatePositionRewards (position : StakingPosition) (params : RewardParams) (now : U64) : Result I128 := do
  let elapsed := max ((now : Int) - position.lastRewardAt) 0
  let lockMultiplierBps := 10000 + lockBonusBps position.lockPeriod
  let yearly ← unchecked i128 (position.amount * params.annualRateBps)
  let boosted ← unchecked i128 (yearly * lockMultiplierBps)
  let accrued ← unchecked i128 (boosted * elapsed)
  quot i128 accrued (31536000 * 10000 * 10000)

def governanceWeight (amount : I128) (lockPeriod : U64) : Result I128 := do
  let weighted ← unchecked i128 (amount * (10000 + lockBonusBps lockPeriod))
  quot i128 weighted 10000

/-! ## Staking -/

def initializeContract (admin token : Address) : Result State := do
  reject (s.admin.isSome = true) "already initialized"
  env.requireAuth admin
  pure { s with
    admin := some admin
    token := some token
    paused := false
    rewardPool := 0
    totalStaked := 0
    params := some ⟨1200, 0, 31536000, 500⟩ }

/-- A deposit into a position: the rewards so far are snapshotted and the longer lock counts, from the time of the first
deposit on. -/
def topUp (env : Env) (params : RewardParams) (current : StakingPosition) (amount : I128) (lockPeriod : U64) :
    Result StakingPosition := do
  let rewards ← calculatePositionRewards current params env.timestamp
  let pendingRewards ← unchecked i128 (current.pendingRewards + rewards)
  let amount ← unchecked i128 (current.amount + amount)
  let lockPeriod := current.lockPeriod.max lockPeriod
  let governanceWeight ← governanceWeight amount lockPeriod
  pure { current with pendingRewards, amount, lockPeriod, lastRewardAt := env.timestamp, governanceWeight }

/-- The first deposit. -/
def openPosition (env : Env) (user : Address) (amount : I128) (lockPeriod : U64) : Result StakingPosition := do
  let governanceWeight ← governanceWeight amount lockPeriod
  pure ⟨user, amount, lockPeriod, env.timestamp, env.timestamp, 0, governanceWeight⟩

/-- The position after a deposit. -/
def deposited (params : RewardParams) (user : Address) (amount : I128) (lockPeriod : U64) :
    Result StakingPosition :=
  match s.stake.get user with
  | some current => topUp env params current amount lockPeriod
  | none => openPosition env user amount lockPeriod

def stakeTokens (user : Address) (amount : I128) (lockPeriod : U64) : Result State := do
  requireNotPaused env s
  env.requireAuth user
  requirePositive amount
  let params ← s.getParams
  reject ((lockPeriod : Int) < params.minLockPeriod ∨ (lockPeriod : Int) > params.maxLockPeriod) "invalid lock period"
  let token ← s.getToken
  let tokens ← s.tokens.transfer env.accepts token user env.currentContract amount
  let position ← deposited env s params user amount lockPeriod
  let totalStaked ← unchecked i128 (s.totalStaked + amount)
  pure { s with tokens := tokens, stake := s.stake.set user position, totalStaked := totalStaked }

end

/-- The penalty on a withdrawal, charged while the time is before the end of the lock. -/
def earlyPenalty (params : RewardParams) (amount : I128) : Result I128 := do
  let product ← unchecked i128 (amount * params.earlyUnstakePenaltyBps)
  quot i128 product 10000

def unlockedAt (position : StakingPosition) : U64 := u64.wrap (position.stakedAt + position.lockPeriod)

def penaltyOf (env : Env) (params : RewardParams) (position : StakingPosition) (amount : I128) : Result I128 :=
  if (env.timestamp : Int) < unlockedAt position then earlyPenalty params amount else pure 0

/-- The position after a withdrawal. -/
def withdrawn (env : Env) (params : RewardParams) (position : StakingPosition) (amount : I128) :
    Result StakingPosition := do
  let rewards ← calculatePositionRewards position params env.timestamp
  let pendingRewards ← unchecked i128 (position.pendingRewards + rewards)
  let amount ← unchecked i128 (position.amount - amount)
  let governanceWeight ← governanceWeight amount position.lockPeriod
  pure { position with pendingRewards, amount, lastRewardAt := env.timestamp, governanceWeight }

/-- A position with nothing left is removed, with the rewards it still has to get. -/
def State.store (s : State) (user : Address) (position : StakingPosition) : Table Address StakingPosition :=
  if (position.amount : Int) = 0 then s.stake.remove user else s.stake.set user position

/-- The reward pool with a penalty. -/
def State.collected (s : State) (penalty : I128) : Result I128 :=
  if (penalty : Int) > 0 then unchecked i128 (s.rewardPool + penalty) else pure s.rewardPool

section

variable (env : Env) (s : State)

def unstakeTokens (user : Address) (amount : I128) : Result State := do
  requireNotPaused env s
  env.requireAuth user
  requirePositive amount
  let params ← s.getParams
  let position ← okOr (s.stake.get user) "stake not found"
  reject ((amount : Int) > position.amount) "insufficient staked amount"
  let left ← withdrawn env params position amount
  let penalty ← penaltyOf env params position amount
  let payout ← unchecked i128 (amount - penalty)
  let totalStaked ← unchecked i128 (s.totalStaked - amount)
  let token ← s.getToken
  let tokens ← s.tokens.transfer env.accepts token env.currentContract user payout
  let rewardPool ← s.collected penalty
  pure { s with
    tokens := tokens
    stake := s.store user left
    totalStaked := totalStaked.max 0
    rewardPool := rewardPool }

/-! ## Paying rewards -/

/-- What an epoch is given stays in the contract, on record. -/
def distributeRewards (epoch : U64) : Result State := do
  requireAdmin env s
  reject ((s.epochDistributed.get epoch).isSome = true) "epoch already distributed"
  let share ← quot i128 s.totalStaked 100
  let distribution := s.rewardPool.min share
  let rewardPool ← unchecked i128 (s.rewardPool - distribution)
  pure { s with rewardPool := rewardPool, epochDistributed := s.epochDistributed.set epoch distribution }

def claimRewards (user : Address) : Result (I128 × State) := do
  requireNotPaused env s
  env.requireAuth user
  let params ← s.getParams
  let position ← okOr (s.stake.get user) "stake not found"
  let accrued ← calculatePositionRewards position params env.timestamp
  let rewards ← unchecked i128 (position.pendingRewards + accrued)
  reject ((rewards : Int) ≤ 0) "no rewards"
  let payout := rewards.min s.rewardPool
  reject ((payout : Int) ≤ 0) "reward pool empty"
  let pendingRewards ← unchecked i128 (rewards - payout)
  let rewardPool ← unchecked i128 (s.rewardPool - payout)
  let token ← s.getToken
  let tokens ← s.tokens.transfer env.accepts token env.currentContract user payout
  pure (payout, { s with
    tokens := tokens
    stake := s.stake.set user { position with pendingRewards, lastRewardAt := env.timestamp }
    rewardPool := rewardPool })

def getStakingInfo (user : Address) : Result StakingInfo :=
  match s.stake.get user with
  | some position => do
    let params ← s.getParams
    let accrued ← calculatePositionRewards position params env.timestamp
    let claimableRewards ← unchecked i128 (accrued + position.pendingRewards)
    pure ⟨some position, claimableRewards, s.rewardPool, s.totalStaked⟩
  | none => pure ⟨none, 0, s.rewardPool, s.totalStaked⟩

def fundRewardPool (funder : Address) (amount : I128) : Result State := do
  requireNotPaused env s
  env.requireAuth funder
  requirePositive amount
  let token ← s.getToken
  let tokens ← s.tokens.transfer env.accepts token funder env.currentContract amount
  let rewardPool ← unchecked i128 (s.rewardPool + amount)
  pure { s with tokens := tokens, rewardPool := rewardPool }

/-! ## Administration -/

def updateRewardParameters (newParams : RewardParams) : Result State := do
  requireAdmin env s
  reject ((newParams.annualRateBps : Int) > 10000 ∨ (newParams.earlyUnstakePenaltyBps : Int) > 10000)
    "invalid reward parameters"
  reject ((newParams.minLockPeriod : Int) > newParams.maxLockPeriod) "invalid lock range"
  pure { s with params := some newParams }

def setPaused (paused : Bool) : Result State := do
  requireAdmin env s
  pure { s with paused := paused }

def setGlobalPauseContract (globalPause : Address) : Result State := do
  requireAdmin env s
  pure { s with globalPauseContract := some globalPause }

end

/-! ## The contract -/

/-- The entry points that write. -/
inductive Call where
  | stakeTokens (user : Address) (amount : I128) (lockPeriod : U64)
  | unstakeTokens (user : Address) (amount : I128)
  | distributeRewards (epoch : U64)
  | claimRewards (user : Address)
  | updateRewardParameters (newParams : RewardParams)
  | fundRewardPool (funder : Address) (amount : I128)
  | setPaused (paused : Bool)
  | setGlobalPauseContract (globalPause : Address)

/-- The state a call leaves behind. -/
def execute (env : Env) (s : State) : Call → Result State
  | .stakeTokens user amount lockPeriod => stakeTokens env s user amount lockPeriod
  | .unstakeTokens user amount => unstakeTokens env s user amount
  | .distributeRewards epoch => distributeRewards env s epoch
  | .claimRewards user => Prod.snd <$> claimRewards env s user
  | .updateRewardParameters newParams => updateRewardParameters env s newParams
  | .fundRewardPool funder amount => fundRewardPool env s funder amount
  | .setPaused paused => setPaused env s paused
  | .setGlobalPauseContract globalPause => setGlobalPauseContract env s globalPause

/-- The contract from `initialize` on, in a build that reads arithmetic by a mode; at first it holds no tokens. -/
def contract (m : Mode) : TransitionSystem Env State Call where
  init env s := ∃ tokens admin token, (∀ token, tokens token env.currentContract = 0) ∧
    (initializeContract env { tokens } admin token).run m = some s
  step env s c := (execute env s c).run m

/-- Whose position a call is about. -/
def Call.staker : Call → Option Address
  | .stakeTokens user _ _ | .unstakeTokens user _ | .claimRewards user => some user
  | _ => none

abbrev Rule := TransitionSystem.Rule Env State Call

/-! ## What the operations do -/

section Specs

variable {m : Mode} {env : Env} {s s' : State} {user token : Address} {amount : I128} {lockPeriod : U64}
  {params : RewardParams} {position position' : StakingPosition}

@[simp] theorem run_requireAdmin {u : Unit} : (requireAdmin env s).run m = some u ↔ env.AdminSigned s.admin :=
  Host.Env.run_requireAdmin (run_okOr m _ _) u

@[simp] theorem run_requirePositive {u : Unit} : (requirePositive amount).run m = some u ↔ 0 < (amount : ℤ) := by
  simp [requirePositive]

@[simp] theorem run_getParams : s.getParams.run m = s.params := run_okOr m _ _

@[simp] theorem run_getToken : s.getToken.run m = s.token := run_okOr m _ _

theorem lockBonusBps_nonneg (lockPeriod : U64) : 0 ≤ lockBonusBps lockPeriod := by
  have := lockPeriod.bounds
  unfold lockBonusBps
  omega

/-- Where nothing overflows, no rewards are negative. -/
theorem calculatePositionRewards_nonneg {now : U64} {rewards : I128} (hamount : 0 ≤ (position.amount : ℤ))
    (h : (calculatePositionRewards position params now).run .exact = some rewards) : 0 ≤ (rewards : ℤ) := by
  simp only [calculatePositionRewards, run_iff, run_unchecked_exact, run_quot] at h
  obtain ⟨yearly, hyearly, boosted, hboosted, accrued, haccrued, -, hrewards⟩ := h
  have hbonus := lockBonusBps_nonneg position.lockPeriod
  rw [hrewards, haccrued, hboosted, hyearly]
  exact Int.tdiv_nonneg (mul_nonneg (mul_nonneg (mul_nonneg hamount params.annualRateBps.bounds.1) (by omega))
    (le_max_right _ _)) (by norm_num)

/-- Nothing accrues in no time. -/
theorem run_calculatePositionRewards_now {now : U64} (hlast : position.lastRewardAt = now) :
    (calculatePositionRewards position params now).run .wrapping = some 0 := by
  subst hlast
  simp only [calculatePositionRewards, run_bind, unchecked_wrapping, Option.bind_some, run_quot, sub_self, max_self,
    mul_zero, wrap_of_nonneg le_rfl i128.le_max, Int.zero_tdiv, toInt_zero]
  norm_num

theorem initializeContract_spec {admin : Address} (h : (initializeContract env s admin token).run m = some s') :
    s' = { s with
      admin := some admin
      token := some token
      paused := false
      rewardPool := 0
      totalStaked := 0
      params := some ⟨1200, 0, 31536000, 500⟩ } := by
  simp only [initializeContract, run_iff, run_requireAuth] at h
  obtain ⟨-, -, -, -, rfl⟩ := h
  rfl

/-- What a deposit makes of a position. -/
structure StakingPosition.Topped (m : Mode) (env : Env) (params : RewardParams) (amount : I128) (lockPeriod : U64)
    (position position' : StakingPosition) : Prop where
  pendingRewards : ∃ rewards, (calculatePositionRewards position params env.timestamp).run m = some rewards ∧
    (unchecked i128 (position.pendingRewards + rewards) : Result I128).run m = some position'.pendingRewards
  amount : (unchecked i128 (position.amount + amount) : Result I128).run m = some position'.amount
  lockPeriod : position'.lockPeriod = position.lockPeriod.max lockPeriod
  stakedAt : position'.stakedAt = position.stakedAt
  lastRewardAt : position'.lastRewardAt = env.timestamp

theorem deposited_of_some (hget : s.stake.get user = some position)
    (h : (deposited env s params user amount lockPeriod).run m = some position') :
    position.Topped m env params amount lockPeriod position' := by
  simp only [deposited, hget] at h
  unfold topUp at h
  simp only [run_iff] at h
  obtain ⟨_, hrewards, pending, hpending, amount', hamount, weight, -, rfl⟩ := h
  exact ⟨⟨_, hrewards, hpending⟩, hamount, rfl, rfl, rfl⟩

theorem deposited_of_none (hget : s.stake.get user = none)
    (h : (deposited env s params user amount lockPeriod).run m = some position') :
    position'.amount = amount ∧ position'.pendingRewards = 0 ∧ position'.lockPeriod = lockPeriod ∧
      position'.stakedAt = env.timestamp ∧ position'.lastRewardAt = env.timestamp := by
  simp only [deposited, hget, openPosition, run_iff] at h
  obtain ⟨weight, -, rfl⟩ := h
  exact ⟨rfl, rfl, rfl, rfl, rfl⟩

theorem stakeTokens_spec (h : (stakeTokens env s user amount lockPeriod).run m = some s') :
    user ∈ env.signers ∧ 0 < (amount : ℤ) ∧ ∃ params token position totalStaked,
      s.params = some params ∧ s.token = some token ∧
      (deposited env s params user amount lockPeriod).run m = some position ∧
      (unchecked i128 (s.totalStaked + amount) : Result I128).run m = some totalStaked ∧
      s' = { s with
        tokens := s.tokens.move token user env.currentContract amount
        stake := s.stake.set user position
        totalStaked := totalStaked } := by
  simp only [stakeTokens, run_iff, run_requireAuth, run_requirePositive, run_getParams, run_getToken,
    Holdings.run_transfer] at h
  obtain ⟨-, -, -, hsigned, -, hpos, _, hparams, -, -, _, htoken, tokens, ⟨-, rfl⟩, _, hposition,
    _, htotal, rfl⟩ := h
  exact ⟨hsigned, hpos, _, _, _, _, hparams, htoken, hposition, htotal, rfl⟩

/-- What a withdrawal leaves of a position. -/
structure StakingPosition.Left (m : Mode) (env : Env) (params : RewardParams) (amount : I128)
    (position position' : StakingPosition) : Prop where
  pendingRewards : ∃ rewards, (calculatePositionRewards position params env.timestamp).run m = some rewards ∧
    (unchecked i128 (position.pendingRewards + rewards) : Result I128).run m = some position'.pendingRewards
  amount : (unchecked i128 (position.amount - amount) : Result I128).run m = some position'.amount
  lockPeriod : position'.lockPeriod = position.lockPeriod
  stakedAt : position'.stakedAt = position.stakedAt
  lastRewardAt : position'.lastRewardAt = env.timestamp

theorem withdrawn_spec (h : (withdrawn env params position amount).run m = some position') :
    position.Left m env params amount position' := by
  unfold withdrawn at h
  simp only [run_iff] at h
  obtain ⟨_, hrewards, pending, hpending, amount', hamount, weight, -, rfl⟩ := h
  exact ⟨⟨_, hrewards, hpending⟩, hamount, rfl, rfl, rfl⟩

/-- A withdrawal takes what a positive amount of the position was, and leaves the rest. -/
theorem StakingPosition.Left.amount_eq (h : position.Left m env params amount position') (hpos : 0 < (amount : ℤ))
    (hle : (amount : ℤ) ≤ position.amount) : (position'.amount : ℤ) = position.amount - amount := by
  rw [((run_unchecked m i128 _ _).1 h.amount).1]
  have hmin : i128.min ≤ 0 := i128.min_le
  have := position.amount.hi
  exact wrap_of_fits ⟨by omega, by omega⟩

theorem unstakeTokens_spec (h : (unstakeTokens env s user amount).run m = some s') :
    user ∈ env.signers ∧ 0 < (amount : ℤ) ∧
    ∃ params token position left, ∃ penalty payout totalStaked rewardPool : I128,
      s.params = some params ∧ s.token = some token ∧ s.stake.get user = some position ∧
      (amount : ℤ) ≤ position.amount ∧ position.Left m env params amount left ∧
      (penaltyOf env params position amount).run m = some penalty ∧
      (unchecked i128 (amount - penalty) : Result I128).run m = some payout ∧
      (unchecked i128 (s.totalStaked - amount) : Result I128).run m = some totalStaked ∧
      (s.collected penalty).run m = some rewardPool ∧
      s' = { s with
        tokens := s.tokens.move token env.currentContract user payout
        stake := s.store user left
        totalStaked := totalStaked.max 0
        rewardPool := rewardPool } := by
  simp only [unstakeTokens, run_iff, run_requireAuth, run_requirePositive, run_getParams, run_getToken,
    Holdings.run_transfer, not_lt] at h
  obtain ⟨-, -, -, hsigned, -, hpos, _, hparams, _, hget, -, hle, _, hleft, _, hpenalty, _,
    hpayout, _, htotal, _, htoken, tokens, ⟨-, rfl⟩, _, hpool, rfl⟩ := h
  exact ⟨hsigned, hpos, _, _, _, _, _, _, _, _, hparams, htoken, hget, hle,
    withdrawn_spec hleft, hpenalty, hpayout, htotal, hpool, rfl⟩

theorem distributeRewards_spec {epoch : U64} (h : (distributeRewards env s epoch).run m = some s') :
    s.epochDistributed.get epoch = none ∧ ∃ share rewardPool : I128, share = (s.totalStaked : ℤ).tdiv 100 ∧
      (unchecked i128 (s.rewardPool - (s.rewardPool.min share : I128)) : Result I128).run m = some rewardPool ∧
      s' = { s with
        rewardPool := rewardPool
        epochDistributed := s.epochDistributed.set epoch (s.rewardPool.min share) } := by
  simp only [distributeRewards, run_iff, run_requireAdmin, run_quot, Bool.not_eq_true, Option.isSome_eq_false_iff,
    Option.isNone_iff_eq_none] at h
  obtain ⟨-, -, -, hnew, _, ⟨-, hshare⟩, _, hpool, rfl⟩ := h
  exact ⟨hnew, _, _, hshare, hpool, rfl⟩

theorem claimRewards_spec {payout : I128} (h : (claimRewards env s user).run m = some (payout, s')) :
    user ∈ env.signers ∧ ∃ params token position, ∃ accrued rewards pendingRewards rewardPool : I128,
      s.params = some params ∧ s.token = some token ∧ s.stake.get user = some position ∧
      (calculatePositionRewards position params env.timestamp).run m = some accrued ∧
      (unchecked i128 (position.pendingRewards + accrued) : Result I128).run m = some rewards ∧
      payout = rewards.min s.rewardPool ∧ 0 < (payout : ℤ) ∧
      (unchecked i128 (rewards - payout) : Result I128).run m = some pendingRewards ∧
      (unchecked i128 (s.rewardPool - payout) : Result I128).run m = some rewardPool ∧
      s' = { s with
        tokens := s.tokens.move token env.currentContract user payout
        stake := s.stake.set user { position with pendingRewards, lastRewardAt := env.timestamp }
        rewardPool := rewardPool } := by
  simp only [claimRewards, run_iff, run_requireAuth, run_getParams, run_getToken, Holdings.run_transfer, Prod.mk.injEq,
    not_le] at h
  obtain ⟨-, -, -, hsigned, _, hparams, _, hget, _, haccrued, _, hrewards, -, -, -, hpos,
    _, hpending, _, hpool, _, htoken, tokens, ⟨-, rfl⟩, rfl, rfl⟩ := h
  exact ⟨hsigned, _, _, _, _, _, _, _, hparams, htoken, hget, haccrued, hrewards,
    rfl, hpos, hpending, hpool, rfl⟩

theorem updateRewardParameters_spec {newParams : RewardParams}
    (h : (updateRewardParameters env s newParams).run m = some s') :
    (newParams.earlyUnstakePenaltyBps : ℤ) ≤ 10000 ∧ s' = { s with params := some newParams } := by
  simp only [updateRewardParameters, run_iff, run_requireAdmin, not_or, not_lt] at h
  obtain ⟨-, -, -, ⟨-, hpenalty⟩, -, -, rfl⟩ := h
  exact ⟨hpenalty, rfl⟩

theorem fundRewardPool_spec {funder : Address} (h : (fundRewardPool env s funder amount).run m = some s') :
    funder ∈ env.signers ∧ 0 < (amount : ℤ) ∧ ∃ token, ∃ rewardPool : I128, s.token = some token ∧
      (unchecked i128 (s.rewardPool + amount) : Result I128).run m = some rewardPool ∧
      s' = { s with
        tokens := s.tokens.move token funder env.currentContract amount
        rewardPool := rewardPool } := by
  simp only [fundRewardPool, run_iff, run_requireAuth, run_requirePositive, run_getToken, Holdings.run_transfer] at h
  obtain ⟨-, -, -, hsigned, -, hpos, _, htoken, tokens, ⟨-, rfl⟩, _, hpool, rfl⟩ := h
  exact ⟨hsigned, hpos, _, _, htoken, hpool, rfl⟩

theorem contract_init (h : (contract m).init env s) : ∃ tokens admin token,
    (∀ token, tokens token env.currentContract = 0) ∧ s = {
      tokens
      admin := some admin
      token := some token
      params := some ⟨1200, 0, 31536000, 500⟩ } := by
  obtain ⟨_, _, _, hzero, h⟩ := h
  exact ⟨_, _, _, hzero, initializeContract_spec h⟩

theorem get_store_of_ne {other : Address} (hne : other ≠ user) :
    (s.store user position).get other = s.stake.get other := by
  unfold State.store
  split
  · exact Table.get_remove_of_ne _ hne
  · exact Table.get_set_of_ne _ _ hne

/-- Positions are written by their owners only. -/
theorem execute_stake {c : Call} (hc : c.staker ≠ some user) (h : (execute env s c).run m = some s') :
    s'.stake.get user = s.stake.get user := by
  cases c with
  | stakeTokens =>
    obtain ⟨-, -, _, _, _, _, -, -, -, -, rfl⟩ := stakeTokens_spec h
    exact Table.get_set_of_ne _ _ fun e => hc (congrArg some e.symm)
  | unstakeTokens =>
    obtain ⟨-, -, _, _, _, _, _, _, _, _, -, -, -, -, -, -, -, -, -, rfl⟩ := unstakeTokens_spec h
    exact get_store_of_ne fun e => hc (congrArg some e.symm)
  | distributeRewards => obtain ⟨-, _, _, -, -, rfl⟩ := distributeRewards_spec h; rfl
  | claimRewards =>
    obtain ⟨_, h⟩ := run_snd_map h
    obtain ⟨-, _, _, _, _, _, _, _, -, -, -, -, -, -, -, -, -, rfl⟩ := claimRewards_spec h
    exact Table.get_set_of_ne _ _ fun e => hc (congrArg some e.symm)
  | updateRewardParameters => obtain ⟨-, rfl⟩ := updateRewardParameters_spec h; rfl
  | fundRewardPool => obtain ⟨-, -, _, _, -, -, rfl⟩ := fundRewardPool_spec h; rfl
  | setPaused | setGlobalPauseContract => obtain ⟨-, rfl⟩ := run_then_pure h; rfl

end Specs

/-! ## A small deployment

Two users with tokens that accept what the sender can pay, and nothing else paused. -/

namespace Sample

export Host.Accounts (admin alice bob)
export TransitionSystem.Deployment (reach_after tally_after)

def token : Address := ⟨4⟩

/-- A transaction at a time, signed by everyone. -/
def signedAt (time : Int) : Env where
  toEnv := .signed [admin, alice, bob] 0 time
  accepts := Holdings.payable
  isPaused _ := some false

def signed (time : Int) (c : Call) : Env × Call := (signedAt time, c)

/-- The contract after `initialize`. -/
def deployment (m : Mode) : (contract m).Deployment where
  env := signedAt 0
  state :=
    { tokens := Holdings.endowed
      admin := some admin
      token := some token
      params := some ⟨1200, 0, 31536000, 500⟩ }
  starts := ⟨Holdings.endowed, admin, token, fun _ => rfl, by cases m <;> rfl⟩

end Sample

end ArenaX.StakingRewards
