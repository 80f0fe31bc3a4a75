/-
The records the AX token contract stores, its storage grouped by subsystem, the environment of a call, and the
reads and checks that its entry points share. Sums of amounts are `i128` and tracked for overflow; times are
`u64` and wrap around. The texts are those of the contract's panics.
-/
import ArenaX.Lib.Host
import ArenaX.Lib.Ledger
import ArenaX.Lib.History

namespace ArenaX.AxToken

open Machine Exec
open Host (Address)

/-- What a function of the contract returns, or the text it panics with. -/
abbrev Result (α : Type) := Exec String α

/-- The environment of a call, with the weights a staking contract reports for an address. -/
structure Env extends Host.Env where
  governanceWeight : Address → Address → Option I128
  votingWeight : Address → Address → Option I128

/-! ## Records -/

structure VestingSchedule where
  beneficiary : Address
  startTime : U64
  cliffDuration : U64
  duration : U64
  totalAmount : I128
  amountClaimed : I128
  revoked : Bool
deriving DecidableEq

structure LockupRecord where
  amount : I128
  unlockTime : U64
deriving DecidableEq

/-- What a list of lockups holds. -/
def lockedSum (lockups : List LockupRecord) : ℤ := (lockups.map fun lock => (lock.amount : ℤ)).sum

structure Proposal where
  id : U64
  proposer : Address
  description : String
  votesFor : I128
  votesAgainst : I128
  endTime : U64
  executed : Bool
  /-- The ledger the proposal was created in; votes count the power recorded there. -/
  snapshotLedger : U32
deriving DecidableEq

structure BurnMetrics where
  totalBurned : I128
  lastBurnTime : U64
  lastBurnAmount : I128
deriving DecidableEq

structure BuybackSchedule where
  burnAmountPerInterval : I128
  intervalSeconds : U64
  nextBurnTime : U64
deriving DecidableEq

structure DelegationRecord where
  delegatee : Address
  timestamp : U64
  revoked : Bool
deriving DecidableEq

/-- The power in effect from a ledger on, until the next checkpoint. -/
structure VotingCheckpoint where
  ledger : U32
  power : I128
deriving DecidableEq

structure VoteRecord where
  voter : Address
  support : Bool
  power : I128
  ledger : U32
deriving DecidableEq

structure PauseInfo where
  paused : Bool
  pausedAt : U64
  pausedBy : Address
  timeout : U64
  reason : String
deriving DecidableEq

/-! ## Storage -/

/-- `Balance`, `TotalSupply`, `Lockups`, `TotalLockedSupply` and `RevenuePoolBalance`: where tokens are. -/
structure TokenStore where
  balance : Table Address I128 := ∅
  totalSupply : I128 := 0
  lockups : Table Address (List LockupRecord) := ∅
  totalLockedSupply : I128 := 0
  revenuePool : I128 := 0

/-- `Delegate`, `Delegators`, `DelegationHistory` and `Checkpoints`. -/
structure VotingStore where
  delegate : Table Address Address := ∅
  delegators : Table Address (List Address) := ∅
  delegationHistory : Table Address (List DelegationRecord) := ∅
  checkpoints : Table Address (List VotingCheckpoint) := ∅

/-- Proposals, the votes on them, and the settings of governance. -/
structure GovernanceStore where
  proposalCounter : U64 := 0
  proposal : Table U64 Proposal := ∅
  hasVoted : Table (U64 × Address) Bool := ∅
  voteRecords : Table U64 (List VoteRecord) := ∅
  proposalGracePeriod : Option U64 := none
  approvedExecutionTarget : Table Address Bool := ∅
  stakingContract : Option Address := none
  quadraticVoting : Bool := false

structure BuybackStore where
  schedule : Option BuybackSchedule := none
  totalBurned : I128 := 0
  metrics : Option BurnMetrics := none

structure PauseStore where
  info : Option PauseInfo := none
  paused : Bool := false
  timeout : Option U64 := none

/-- The contract's storage; the defaults are those of a contract nobody has called yet. -/
structure State where
  admin : Option Address := none
  token : TokenStore := {}
  vesting : Table Address VestingSchedule := ∅
  voting : VotingStore := {}
  governance : GovernanceStore := {}
  supplyCap : I128 := 0
  buyback : BuybackStore := {}
  pause : PauseStore := {}
  lastOpSequence : Table Address U32 := ∅

namespace State

variable (s : State)

/-- The balance of an address; an absent one is zero. -/
def balance (address : Address) : I128 := Machine.balance s.token.balance address

def totalSupply : I128 := s.token.totalSupply

/-- The supply cap in force; zero stands for none. -/
def getSupplyCap : I128 := s.supplyCap

def getLockups (address : Address) : List LockupRecord := (s.token.lockups.get address).getD []

def getLockedBalance (address : Address) : Result I128 :=
  (s.getLockups address).foldlM (fun total lock => unchecked i128 (total + lock.amount)) 0

def getProposalGracePeriod : U64 := s.governance.proposalGracePeriod.getD ⟨604800, by decide, by decide⟩

/-- A pause holds until its timeout. -/
def isPaused (env : Env) : Bool := match s.pause.info with
  | some info => info.paused && decide ((env.timestamp : Int) < u64.saturate (info.pausedAt + info.timeout))
  | none => false

end State

/-! ## Shared checks -/

def requireAdmin (env : Env) (s : State) : Result Unit := do
  let admin ← unwrap s.admin
  env.requireAuth admin

@[simp] theorem run_requireAdmin (m : Mode) (env : Env) (s : State) (u : Unit) :
    (requireAdmin env s).run m = some u ↔ env.AdminSigned s.admin := Host.Env.run_requireAdmin (run_unwrap m _) u

namespace FlashLoanGuard

/-- An address has made a protected operation in this ledger already; one without a record counts as made in
ledger 0. -/
def isFlashLoanAttempt (env : Env) (s : State) (address : Address) : Bool :=
  (s.lastOpSequence.get address).getD 0 = env.sequence

def recordOperation (env : Env) (s : State) (address : Address) : State :=
  { s with lastOpSequence := s.lastOpSequence.set address env.sequence }

/-- Whether the address attempts a flash loan, and the state after its operation has been recorded if not. -/
def checkAndSetSequence (env : Env) (s : State) (address : Address) : Bool × State :=
  if isFlashLoanAttempt env s address then (true, s) else (false, recordOperation env s address)

theorem checkAndSetSequence_spec {env : Env} {s : State} {address : Address}
    (h : ¬ (checkAndSetSequence env s address).1 = true) :
    isFlashLoanAttempt env s address = false ∧
      (checkAndSetSequence env s address).2 = recordOperation env s address := by
  unfold checkAndSetSequence at h ⊢
  split at h
  · exact absurd rfl h
  · rename_i hfree
    rw [if_neg hfree]
    exact ⟨Bool.eq_false_iff.2 hfree, rfl⟩

end FlashLoanGuard

end ArenaX.AxToken
