/-
The AX token as a system that answers calls: its entry points as one type, and its runs. A call that panics
leaves the storage as it was, so a run is made of the calls that return.
-/
import ArenaX.AxToken.Governance
import ArenaX.Lib.Runs

namespace ArenaX.AxToken

open Machine Exec
open Host (Address)

/-- The entry points that write. -/
inductive Call where
  | setAdmin (newAdmin : Address)
  | mint (recipient : Address) (amount : I128)
  | batchMint (recipients : List Address) (amounts : List I128)
  | burn (owner : Address) (amount : I128)
  | transfer (sender recipient : Address) (amount : I128)
  | createVestingSchedule (beneficiary : Address) (totalAmount : I128) (startTime cliffDuration duration : U64)
  | createVestingSchedulesBatch (beneficiaries : List Address) (amounts : List I128)
      (startTime cliffDuration duration : U64)
  | revokeVestingSchedule (beneficiary : Address)
  | claimVestedTokens (beneficiary : Address)
  | lockTokens (owner : Address) (amount : I128) (unlockTime : U64)
  | unlockTokens (owner : Address)
  | depositRevenue (sender : Address) (amount : I128)
  | configureBuyback (amount : I128) (interval : U64)
  | executeBuybackAndBurn
  | delegate (delegator delegatee : Address)
  | revokeDelegation (delegator : Address)
  | createProposal (proposer : Address) (description : String) (votingDuration : U64)
  | voteOnProposal (voter : Address) (proposalId : U64) (support : Bool)
  | expireProposal (proposalId : U64)
  | executeProposal (proposalId : U64)
  | setProposalGracePeriod (gracePeriod : U64)
  | approveExecutionTarget (target : Address)
  | setStakingContract (stakingContract : Address)
  | setQuadraticVoting (enabled : Bool)
  | pause (reason : String)
  | setPauseTimeout (timeoutSeconds : U64)
  | unpauseViaGovernance (proposalId : U64)
  | setSupplyCap (cap : I128)
  | adjustCapViaGovernance (proposalId : U64) (newCap : I128)

/-- The state a call leaves behind. -/
def execute (env : Env) (s : State) : Call → Result State
  | .setAdmin newAdmin => setAdmin env s newAdmin
  | .mint recipient amount => mint env s recipient amount
  | .batchMint recipients amounts => batchMint env s recipients amounts
  | .burn owner amount => burn env s owner amount
  | .transfer sender recipient amount => transfer env s sender recipient amount
  | .createVestingSchedule beneficiary totalAmount startTime cliffDuration duration =>
    createVestingSchedule env s beneficiary totalAmount startTime cliffDuration duration
  | .createVestingSchedulesBatch beneficiaries amounts startTime cliffDuration duration =>
    createVestingSchedulesBatch env s beneficiaries amounts startTime cliffDuration duration
  | .revokeVestingSchedule beneficiary => Prod.snd <$> revokeVestingSchedule env s beneficiary
  | .claimVestedTokens beneficiary => Prod.snd <$> claimVestedTokens env s beneficiary
  | .lockTokens owner amount unlockTime => lockTokens env s owner amount unlockTime
  | .unlockTokens owner => Prod.snd <$> unlockTokens env s owner
  | .depositRevenue sender amount => depositRevenue env s sender amount
  | .configureBuyback amount interval => configureBuyback env s amount interval
  | .executeBuybackAndBurn => Prod.snd <$> executeBuybackAndBurn env s
  | .delegate delegator delegatee => delegate env s delegator delegatee
  | .revokeDelegation delegator => revokeDelegation env s delegator
  | .createProposal proposer description votingDuration =>
    Prod.snd <$> createProposal env s proposer description votingDuration
  | .voteOnProposal voter proposalId support => voteOnProposal env s voter proposalId support
  | .expireProposal proposalId => expireProposal env s proposalId
  | .executeProposal proposalId => executeProposal env s proposalId
  | .setProposalGracePeriod gracePeriod => setProposalGracePeriod env s gracePeriod
  | .approveExecutionTarget target => approveExecutionTarget env s target
  | .setStakingContract stakingContract => setStakingContract env s stakingContract
  | .setQuadraticVoting enabled => setQuadraticVoting env s enabled
  | .pause reason => pause env s reason
  | .setPauseTimeout timeoutSeconds => setPauseTimeout env s timeoutSeconds
  | .unpauseViaGovernance proposalId => unpauseViaGovernance env s proposalId
  | .setSupplyCap cap => setSupplyCap env s cap
  | .adjustCapViaGovernance proposalId newCap => adjustCapViaGovernance env s proposalId newCap

/-- The contract from `initialize` on, in a build that reads arithmetic by a mode. -/
def contract (m : Mode) : TransitionSystem Env State Call where
  init _ s := ∃ admin, (initializeContract {} admin).run m = some s
  step env s c := (execute env s c).run m

abbrev Rule := TransitionSystem.Rule Env State Call

export TransitionSystem (Unrestricted)

/-- Ledgers and times do not go back. -/
abbrev Ordered : Rule := TransitionSystem.Ordered fun e => ((e.sequence : ℤ), (e.timestamp : ℤ))

theorem contract_init {m : Mode} {e : Env} {s : State} (h : (contract m).init e s) :
    ∃ admin, s = { admin := some admin } := by
  obtain ⟨_, h⟩ := h
  simp only [initializeContract, run_iff] at h
  obtain ⟨-, -, rfl⟩ := h
  exact ⟨_, rfl⟩

/-! ## A small deployment

Four accounts, all of which sign, for the concrete runs below the theorems about all runs. -/

namespace Sample

export Host.Accounts (admin alice bob carol)
export TransitionSystem.Deployment (reach_after)

/-- A transaction in a ledger at a time, signed by everyone; no staking contract answers. -/
def signedAt (sequence time : Int) : Env where
  toEnv := .signed [admin, alice, bob, carol] sequence time
  governanceWeight _ _ := none
  votingWeight _ _ := none

def signed (sequence time : Int) (c : Call) : Env × Call := (signedAt sequence time, c)

/-- The contract after `initialize`. -/
def deployed : State := { admin := some admin }

def deployment (m : Mode) : (contract m).Deployment where
  env := signedAt 1 1
  state := deployed
  starts := ⟨admin, by cases m <;> rfl⟩

end Sample

end ArenaX.AxToken
