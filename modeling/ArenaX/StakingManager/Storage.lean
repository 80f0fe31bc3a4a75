/-
The records the staking manager stores, its storage grouped by facility, the environment of a call, and the
checks and token transfers that its entry points share. Amounts are `i128` and tracked for overflow; times and
counters are unsigned and wrap around. The texts are those of the contract's panics.
-/
import ArenaX.Lib.Holdings
import ArenaX.Lib.Ledger

namespace ArenaX.StakingManager

open Machine Exec
open Host (Address Holdings)

/-- What a function of the contract returns, or the text it panics with. -/
abbrev Result (α : Type) := Exec String α

abbrev BytesN32 := BitVec 256

/-- The environment of a call, with the transfers that the token contracts accept and the hash that turns a
counter into an identifier. -/
structure Env extends Host.Env where
  accepts : Host.TokenPolicy
  counterToBytesN : U64 → BytesN32

/-! ## Records -/

/-- The states of a tournament that have a name; the contract stores their codes. -/
inductive TournamentState where
  | notStarted | active | completed | cancelled
deriving DecidableEq

def TournamentState.code : TournamentState → U32
  | .notStarted => ⟨0, by decide, by decide⟩
  | .active => ⟨1, by decide, by decide⟩
  | .completed => ⟨2, by decide, by decide⟩
  | .cancelled => ⟨3, by decide, by decide⟩

inductive StakeTier where
  | none | bronze | silver | gold | platinum
deriving DecidableEq

def StakeTier.code : StakeTier → U32
  | .none => ⟨0, by decide, by decide⟩
  | .bronze => ⟨1, by decide, by decide⟩
  | .silver => ⟨2, by decide, by decide⟩
  | .gold => ⟨3, by decide, by decide⟩
  | .platinum => ⟨4, by decide, by decide⟩

structure StakeInfo where
  user : Address
  tournamentId : BytesN32
  amount : I128
  stakedAt : U64
  isLocked : Bool
  canWithdraw : Bool
deriving DecidableEq

structure TournamentInfo where
  tournamentId : BytesN32
  state : U32
  stakeRequirement : I128
  totalStaked : I128
  participantCount : U32
  createdAt : U64
  completedAt : Option U64
deriving DecidableEq

structure UserStakeInfo where
  user : Address
  totalStaked : I128
  totalSlashed : I128
  activeTournaments : U32
  completedTournaments : U32
deriving DecidableEq

structure RewardStakePosition where
  user : Address
  amount : I128
  stakedAt : U64
  pendingRewards : I128
  lastRewardTs : U64
  tier : U32
  governanceWeight : I128
deriving DecidableEq

structure RewardConfig where
  annualRateBps : U32
  minStake : I128
  secsPerYear : U64
deriving DecidableEq

structure RewardPool where
  id : U32
  apyBps : U32
  lockDuration : U64
  earlyExitPenaltyBps : U32
  active : Bool
  totalStaked : I128
deriving DecidableEq

structure FlexiblePosition where
  user : Address
  poolId : U32
  amount : I128
  stakedAt : U64
  unlockAt : U64
  pendingRewards : I128
  lastRewardTs : U64
deriving DecidableEq

structure VotingEscrowLock where
  user : Address
  amount : I128
  lockedAt : U64
  duration : U64
  unlockAt : U64
deriving DecidableEq

structure LpPoolConfig where
  id : U32
  rewardRateBps : U32
  totalLiquidity : I128
  feeReserve : I128
  cumulativeFees : I128
  ilProtectionBps : U32
  active : Bool
deriving DecidableEq

structure LpPosition where
  user : Address
  poolId : U32
  amount : I128
  depositedAt : U64
  /-- The pool's cumulative fees when the position was last opened, topped up or paid. -/
  feeDebt : I128
  pendingRewards : I128
  lastRewardTs : U64
  entryPriceA : I128
  entryPriceB : I128
deriving DecidableEq

structure LpPerformanceRecord where
  user : Address
  poolId : U32
  timestamp : U64
  liquidityDelta : I128
  rewardsClaimed : I128
  feesClaimed : I128
  ilProtectionPaid : I128
deriving DecidableEq

structure SlashConfig where
  enabled : Bool
  /-- One amount for each severity. -/
  slashAmounts : List I128
  burnBps : U32
  appealWindowSeconds : U64
  axToken : Address
  treasuryAddress : Address
  minSlashIntervalSeconds : U64
deriving DecidableEq

structure SlashRecord where
  slashId : BytesN32
  validator : Address
  amount : I128
  severity : U32
  reason : U32
  rationale : String
  slashedAt : U64
  burnedAmount : I128
  treasuryAmount : I128
  appealed : Bool
  appealResolved : Bool
  appealGranted : Bool
deriving DecidableEq

structure AppealRecord where
  slashId : BytesN32
  appellant : Address
  appealReason : U32
  appealRationale : String
  submittedAt : U64
  resolved : Bool
  granted : Bool
deriving DecidableEq

structure ValidatorSlashHistory where
  validator : Address
  totalSlashed : I128
  slashCount : U32
  slashIds : List BytesN32
  activeAppeal : Option BytesN32
  lastSlashTime : U64
deriving DecidableEq

/-! ## Storage -/

/-- `RewardStake`, `RewardPool`, `RewardConfig` and `TotalRewardStaked`. The pool is the one reserve all rewards
are paid from. -/
structure RewardStore where
  position : Table Address RewardStakePosition := ∅
  pool : I128 := 0
  config : Option RewardConfig := none
  totalStaked : I128 := 0

/-- `Stake`, `TournamentInfo` and `UserStakeInfo`. -/
structure TournamentStore where
  stake : Table (BytesN32 × Address) StakeInfo := ∅
  info : Table BytesN32 TournamentInfo := ∅
  userInfo : Table Address UserStakeInfo := ∅

/-- `PoolCounter`, `Pool`, `FlexiblePosition` and `UserPools`. -/
structure FlexibleStore where
  counter : U32 := 0
  pool : Table U32 RewardPool := ∅
  position : Table (Address × U32) FlexiblePosition := ∅
  userPools : Table Address (List U32) := ∅

/-- `LpPoolCounter`, `LpPool`, `LpPosition`, `LpUserPools` and `LpHistory`. -/
structure LpStore where
  counter : U32 := 0
  pool : Table U32 LpPoolConfig := ∅
  position : Table (Address × U32) LpPosition := ∅
  userPools : Table Address (List U32) := ∅
  history : Table (Address × U32) (List LpPerformanceRecord) := ∅

/-- The slash configuration and counter, the history of each validator, and the record of each slash with the
appeal against it. -/
structure PenaltyStore where
  config : Option SlashConfig := none
  counter : U64 := 0
  history : Table Address ValidatorSlashHistory := ∅
  record : Table BytesN32 SlashRecord := ∅
  appeal : Table BytesN32 AppealRecord := ∅
  governanceSigners : List Address := []

/-- The contract's storage, and what everyone holds at the token contracts; the defaults are those of a contract
nobody has called yet. -/
structure State where
  tokens : Holdings
  admin : Option Address := none
  axToken : Option Address := none
  tournamentContract : Option Address := none
  disputeContract : Option Address := none
  paused : Bool := false
  reward : RewardStore := {}
  tournament : TournamentStore := {}
  flexible : FlexibleStore := {}
  votingLock : Table Address VotingEscrowLock := ∅
  lp : LpStore := {}
  penalty : PenaltyStore := {}

namespace State

variable (s : State)

def getAxToken : Result Address := okOr s.axToken "AX token not set"

def getUserStakeInfo (user : Address) : UserStakeInfo := (s.tournament.userInfo.get user).getD ⟨user, 0, 0, 0, 0⟩

def getRewardPool (poolId : U32) : Result RewardPool := okOr (s.flexible.pool.get poolId) "pool not found"

def loadLpPool (poolId : U32) : Result LpPoolConfig := okOr (s.lp.pool.get poolId) "LP pool not found"

end State

/-! ## Shared checks and transfers -/

section

variable (env : Env) (s : State)

def requireAdmin : Result Unit := do
  let admin ← okOr s.admin "not initialized"
  env.requireAuth admin

def requireNotPaused (s : State) : Result Unit := reject (s.paused = true) "contract is paused"

/-- A transfer at a token contract. -/
def transfer (token sender recipient : Address) (amount : I128) : Result State := do
  let tokens ← s.tokens.transfer env.accepts token sender recipient amount
  pure { s with tokens := tokens }

/-- A transfer, if there is something to transfer. -/
def transferIfPositive (token sender recipient : Address) (amount : I128) : Result State :=
  if (amount : Int) > 0 then transfer env s token sender recipient amount else pure s

/-- A transfer into the contract. -/
def payIn (token sender : Address) (amount : I128) : Result State :=
  transfer env s token sender env.currentContract amount

/-- A transfer out of the contract. -/
def payOut (token recipient : Address) (amount : I128) : Result State :=
  transfer env s token env.currentContract recipient amount

/-- The share of an amount in basis points, rounded toward zero. -/
def bpsOf (amount : I128) (bps : U32) : Result I128 := do
  let product ← unchecked i128 (amount * bps)
  quot i128 product 10000

end

section Runs

variable (m : Mode) (env : Env) (s s' : State) (token sender recipient : Address) (amount : I128)

@[simp] theorem run_requireAdmin (u : Unit) : (requireAdmin env s).run m = some u ↔ env.AdminSigned s.admin :=
  Host.Env.run_requireAdmin (run_okOr m _ _) u

@[simp] theorem run_requireNotPaused (u : Unit) : (requireNotPaused s).run m = some u ↔ s.paused = false := by
  simp [requireNotPaused]

@[simp] theorem run_getAxToken : (s.getAxToken).run m = s.axToken := run_okOr m _ _

@[simp] theorem run_transfer : (transfer env s token sender recipient amount).run m = some s' ↔
    env.accepts s.tokens token sender recipient amount = true ∧
      { s with tokens := s.tokens.move token sender recipient amount } = s' :=
  Holdings.run_transfer_then m _

@[simp] theorem run_payIn : (payIn env s token sender amount).run m = some s' ↔
    env.accepts s.tokens token sender env.currentContract amount = true ∧
      { s with tokens := s.tokens.move token sender env.currentContract amount } = s' := run_transfer ..

@[simp] theorem run_payOut : (payOut env s token recipient amount).run m = some s' ↔
    env.accepts s.tokens token env.currentContract recipient amount = true ∧
      { s with tokens := s.tokens.move token env.currentContract recipient amount } = s' := run_transfer ..

end Runs

theorem bpsOf_spec {m : Mode} {amount x : I128} {bps : U32} (h : (bpsOf amount bps).run m = some x) :
    (m = .exact → i128.Fits (amount * bps)) ∧
      (i128.Fits (amount * bps) → x = ((amount : ℤ) * bps).tdiv 10000) := by
  simp only [bpsOf, run_iff, run_unchecked, run_quot] at h
  obtain ⟨_, ⟨rfl, hfits⟩, -, hx⟩ := h
  exact ⟨hfits, fun hf => by rw [hx, wrap_of_fits hf]⟩

theorem bpsOf_nonneg {amount x : I128} {bps : U32} (h : (bpsOf amount bps).run .exact = some x)
    (hamount : 0 ≤ (amount : ℤ)) : 0 ≤ (x : ℤ) := by
  obtain ⟨hfits, hx⟩ := bpsOf_spec h
  rw [hx (hfits rfl)]
  exact Int.tdiv_nonneg (mul_nonneg hamount bps.lo) (by norm_num)

theorem transferIfPositive_spec {m : Mode} {env : Env} {s s' : State} {token sender recipient : Address} {amount : I128}
    (h : (transferIfPositive env s token sender recipient amount).run m = some s') :
    s' = { s with tokens := s.tokens.move token sender recipient (max amount 0) } := by
  unfold transferIfPositive at h
  split at h
  · rename_i hpos
    rw [run_transfer] at h
    rw [max_eq_left hpos.le]
    exact h.2.symm
  · rename_i hpos
    rw [run_pure] at h
    cases h
    rw [max_eq_right (not_lt.1 hpos), Holdings.move_zero]

end ArenaX.StakingManager
