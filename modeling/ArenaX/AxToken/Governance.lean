/-
Governance: proposals from their creation over the votes to execution or expiry, and what they and the admin
can change: the pause, the supply cap, and the settings of voting.
-/
import ArenaX.AxToken.Token

namespace ArenaX.AxToken

open Machine Exec FlashLoanGuard
open Host (Address)

/-! ## Proposals -/

def createProposal (env : Env) (s : State) (proposer : Address) (description : String) (votingDuration : U64) :
    Result (U64 × State) := do
  env.requireAuth proposer
  reject ((s.balance proposer : Int) < 1000) "insufficient balance to propose"
  let counter := u64.wrap (s.governance.proposalCounter + 1)
  let proposal : Proposal :=
    { id := counter
      proposer := proposer
      description := description
      votesFor := 0
      votesAgainst := 0
      endTime := u64.wrap (env.timestamp + votingDuration)
      executed := false
      snapshotLedger := env.sequence }
  pure (counter, { s with
    governance.proposal := s.governance.proposal.set counter proposal
    governance.proposalCounter := counter })

/-- Count a vote for or against. -/
def Proposal.count (proposal : Proposal) (support : Bool) (power : I128) : Result Proposal :=
  if support then do
    let votesFor ← unchecked i128 (proposal.votesFor + power)
    pure { proposal with votesFor := votesFor }
  else do
    let votesAgainst ← unchecked i128 (proposal.votesAgainst + power)
    pure { proposal with votesAgainst := votesAgainst }

def getVoteRecords (s : State) (proposalId : U64) : List VoteRecord := (s.governance.voteRecords.get proposalId).getD []

/-- Vote with the power recorded at the proposal's snapshot, once, until its end. -/
def voteOnProposal (env : Env) (s : State) (voter : Address) (proposalId : U64) (support : Bool) : Result State := do
  env.requireAuth voter
  let guard := checkAndSetSequence env s voter
  reject (guard.1 = true) "flash loan detected: same-sequence governance vote"
  let s := guard.2
  let proposal ← okOr (s.governance.proposal.get proposalId) "proposal not found"
  reject ((env.timestamp : Int) > proposal.endTime) "voting ended"
  reject (s.governance.hasVoted.get (proposalId, voter) ≠ none) "already voted"
  let power ← compositeVotingPower env s voter proposal.snapshotLedger
  reject ((power : Int) ≤ 0) "no voting power"
  let counted ← proposal.count support power
  pure { s with
    governance.proposal := s.governance.proposal.set proposalId counted
    governance.hasVoted := s.governance.hasVoted.set (proposalId, voter) true
    governance.voteRecords := s.governance.voteRecords.set proposalId
      (getVoteRecords s proposalId ++ [⟨voter, support, power, env.sequence⟩]) }

/-- A stored proposal that is ready to take effect: its voting has ended, it has passed and was not executed. -/
def passedProposal (env : Env) (s : State) (proposalId : U64) : Result Proposal := do
  let proposal ← okOr (s.governance.proposal.get proposalId) "proposal not found"
  reject ((env.timestamp : Int) ≤ proposal.endTime) "voting period not ended"
  reject ((proposal.votesFor : Int) ≤ proposal.votesAgainst) "proposal did not pass"
  reject (proposal.executed = true) "proposal already executed"
  pure proposal

def State.markExecuted (s : State) (proposalId : U64) (proposal : Proposal) : State :=
  { s with governance.proposal := s.governance.proposal.set proposalId { proposal with executed := true } }

section

variable (env : Env) (s : State)

/-- The general execution hook; what it executes is left to the readers of its event. -/
def executeProposal (proposalId : U64) : Result State := do
  let proposal ← passedProposal env s proposalId
  pure (s.markExecuted proposalId proposal)

/-- Remove a proposal after its end; one that passed and was not executed has a grace period first. -/
def expireProposal (proposalId : U64) : Result State := do
  let proposal ← okOr (s.governance.proposal.get proposalId) "proposal not found"
  reject ((env.timestamp : Int) < proposal.endTime) "voting period not ended"
  reject (¬ (proposal.votesFor : Int) ≤ proposal.votesAgainst ∧ proposal.executed = false ∧
    (env.timestamp : Int) < u64.wrap (proposal.endTime + s.getProposalGracePeriod)) "proposal within grace period"
  pure { s with governance.proposal := s.governance.proposal.remove proposalId }

/-! ## Settings -/

def setProposalGracePeriod (gracePeriod : U64) : Result State := do
  requireAdmin env s
  pure { s with governance.proposalGracePeriod := some gracePeriod }

def approveExecutionTarget (target : Address) : Result State := do
  requireAdmin env s
  pure { s with governance.approvedExecutionTarget := s.governance.approvedExecutionTarget.set target true }

def setStakingContract (stakingContract : Address) : Result State := do
  requireAdmin env s
  pure { s with governance.stakingContract := some stakingContract }

def setQuadraticVoting (enabled : Bool) : Result State := do
  requireAdmin env s
  pure { s with governance.quadraticVoting := enabled }

/-! ## Emergency pause -/

def pause (reason : String) : Result State := do
  requireAdmin env s
  let admin ← unwrap s.admin
  let timeout := s.pause.timeout.getD ⟨86400, by decide, by decide⟩
  pure { s with pause.info := some ⟨true, env.timestamp, admin, timeout, reason⟩, pause.paused := true }

def setPauseTimeout (timeoutSeconds : U64) : Result State := do
  requireAdmin env s
  pure { s with pause.timeout := some timeoutSeconds }

def unpauseViaGovernance (proposalId : U64) : Result State := do
  let proposal ← passedProposal env s proposalId
  let s := s.markExecuted proposalId proposal
  pure { s with
    pause.info := s.pause.info.map fun info => { info with paused := false }
    pause.paused := false }

/-! ## Supply cap -/

/-- Introduce a cap or tighten the one there is. -/
def setSupplyCap (cap : I128) : Result State := do
  requireAdmin env s
  reject ((cap : Int) ≤ 0) "supply cap must be positive"
  reject ((s.getSupplyCap : Int) > 0 ∧ (cap : Int) ≥ s.getSupplyCap) "supply cap cannot be increased by admin"
  reject ((s.totalSupply : Int) > cap) "current supply exceeds new cap"
  pure { s with supplyCap := cap }

def adjustCapViaGovernance (proposalId : U64) (newCap : I128) : Result State := do
  let proposal ← passedProposal env s proposalId
  reject ((newCap : Int) ≤ 0) "supply cap must be positive"
  reject ((s.totalSupply : Int) > newCap) "current supply exceeds new cap"
  pure ({ s with supplyCap := newCap }.markExecuted proposalId proposal)

end

/-! ## What the operations do -/

section Specs

variable {m : Mode} {env : Env} {s s' : State} {id : U64} {p : Proposal}

/-- A proposal that has passed, with its voting closed, and has not taken effect. -/
structure Proposal.Ready (p : Proposal) (now : U64) : Prop where
  closed : (p.endTime : ℤ) < now
  passed : (p.votesAgainst : ℤ) < p.votesFor
  pending : p.executed = false

@[simp] theorem run_passedProposal (m : Mode) (env : Env) (s : State) (id : U64) (p : Proposal) :
    (passedProposal env s id).run m = some p ↔ s.governance.proposal.get id = some p ∧ p.Ready env.timestamp := by
  simp only [passedProposal, run_iff, not_le, Bool.not_eq_true]
  constructor
  · rintro ⟨p', hp, -, hclosed, -, hpassed, -, hpending, rfl⟩
    exact ⟨hp, hclosed, hpassed, hpending⟩
  · rintro ⟨hp, hclosed, hpassed, hpending⟩
    exact ⟨p, hp, (), hclosed, (), hpassed, (), hpending, rfl⟩

theorem createProposal_spec {proposer : Address} {description : String} {duration : U64}
    (h : (createProposal env s proposer description duration).run m = some (id, s')) :
    id = u64.wrap (s.governance.proposalCounter + 1) ∧ ∃ p, p.votesFor = 0 ∧ p.votesAgainst = 0 ∧
      p.executed = false ∧ p.snapshotLedger = env.sequence ∧ s' = { s with
        governance.proposal := s.governance.proposal.set id p
        governance.proposalCounter := id } := by
  simp only [createProposal, run_iff, Prod.mk.injEq] at h
  obtain ⟨-, -, -, -, rfl, rfl⟩ := h
  exact ⟨rfl, _, rfl, rfl, rfl, rfl, rfl⟩

/-- Counting a vote changes the votes only; a sum that wraps comes out lower. -/
theorem count_spec {counted : Proposal} {support : Bool} {power : I128} (hpos : 0 < (power : ℤ))
    (h : (p.count support power).run m = some counted) :
    (counted.votesFor : ℤ) + counted.votesAgainst ≤ p.votesFor + p.votesAgainst + power ∧
      counted.endTime = p.endTime ∧ counted.executed = p.executed ∧ counted.snapshotLedger = p.snapshotLedger := by
  have hfor := p.votesFor.lo
  have hagainst := p.votesAgainst.lo
  cases support <;>
    simp only [Proposal.count, if_true, if_false, Bool.false_eq_true, run_iff, run_unchecked] at h <;>
    obtain ⟨_, ⟨rfl, -⟩, rfl⟩ := h
  · have := i128.wrap_le (x := p.votesAgainst + power) (by omega)
    exact ⟨by dsimp only; omega, rfl, rfl, rfl⟩
  · have := i128.wrap_le (x := p.votesFor + power) (by omega)
    exact ⟨by dsimp only; omega, rfl, rfl, rfl⟩

/-- A vote is accepted until the end of the voting, once, and counts with the power of its voter. -/
theorem voteOnProposal_spec {voter : Address} {support : Bool}
    (h : (voteOnProposal env s voter id support).run m = some s') :
    ∃ p power counted records, s.governance.proposal.get id = some p ∧ (env.timestamp : ℤ) ≤ p.endTime ∧
      s.governance.hasVoted.get (id, voter) = none ∧
      (compositeVotingPower env (recordOperation env s voter) voter p.snapshotLedger).run m = some power ∧
      0 < (power : ℤ) ∧ (p.count support power).run m = some counted ∧ s' = { recordOperation env s voter with
        governance.proposal := s.governance.proposal.set id counted
        governance.hasVoted := s.governance.hasVoted.set (id, voter) true
        governance.voteRecords := records } := by
  simp only [voteOnProposal, run_iff, gt_iff_lt, not_lt, not_le, ne_eq, not_not] at h
  obtain ⟨-, -, -, hguard, h⟩ := h
  rw [(checkAndSetSequence_spec hguard).2] at h
  obtain ⟨_, hp, -, hopen, -, hnew, _, hpower, -, hpos, _, hcounted, rfl⟩ := h
  exact ⟨_, _, _, _, hp, hopen, hnew, hpower, hpos, hcounted, rfl⟩

/-- An expiry is accepted from the end of the voting on. -/
theorem expireProposal_spec (h : (expireProposal env s id).run m = some s') :
    ∃ p, s.governance.proposal.get id = some p ∧ (p.endTime : ℤ) ≤ env.timestamp ∧
      s' = { s with governance.proposal := s.governance.proposal.remove id } := by
  simp only [expireProposal, run_iff, not_lt] at h
  obtain ⟨_, hp, -, hend, -, -, rfl⟩ := h
  exact ⟨_, hp, hend, rfl⟩

theorem executeProposal_spec (h : (executeProposal env s id).run m = some s') :
    ∃ p, s.governance.proposal.get id = some p ∧ p.Ready env.timestamp ∧ s' = s.markExecuted id p := by
  simp only [executeProposal, run_iff, run_passedProposal] at h
  obtain ⟨_, ⟨hp, hready⟩, rfl⟩ := h
  exact ⟨_, hp, hready, rfl⟩

theorem unpauseViaGovernance_spec (h : (unpauseViaGovernance env s id).run m = some s') :
    ∃ p pause, s.governance.proposal.get id = some p ∧ p.Ready env.timestamp ∧
      s' = { s.markExecuted id p with pause := pause } := by
  simp only [unpauseViaGovernance, run_iff, run_passedProposal] at h
  obtain ⟨_, ⟨hp, hready⟩, rfl⟩ := h
  exact ⟨_, _, hp, hready, rfl⟩

theorem adjustCapViaGovernance_spec {cap : I128} (h : (adjustCapViaGovernance env s id cap).run m = some s') :
    0 < (cap : ℤ) ∧ (s.totalSupply : ℤ) ≤ cap ∧ ∃ p, s.governance.proposal.get id = some p ∧ p.Ready env.timestamp ∧
      s' = { s with supplyCap := cap }.markExecuted id p := by
  simp only [adjustCapViaGovernance, run_iff, run_passedProposal, not_le, not_lt, gt_iff_lt] at h
  obtain ⟨_, ⟨hp, hready⟩, -, hpos, -, hsupply, rfl⟩ := h
  exact ⟨hpos, hsupply, _, hp, hready, rfl⟩

theorem setSupplyCap_spec {cap : I128} (h : (setSupplyCap env s cap).run m = some s') :
    0 < (cap : ℤ) ∧ (0 < (s.getSupplyCap : ℤ) → (cap : ℤ) < s.getSupplyCap) ∧ (s.totalSupply : ℤ) ≤ cap ∧
      s' = { s with supplyCap := cap } := by
  simp only [setSupplyCap, run_iff, not_le, not_lt, gt_iff_lt, ge_iff_le, not_and] at h
  obtain ⟨-, -, -, hpos, -, hlt, -, hsupply, rfl⟩ := h
  exact ⟨hpos, hlt, hsupply, rfl⟩

end Specs

end ArenaX.AxToken
