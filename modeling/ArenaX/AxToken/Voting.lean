/-
Voting power: the checkpoints that record it, the delegation that moves it, and the composite power a vote
counts with.
-/
import ArenaX.Lib.Newton
import ArenaX.AxToken.Storage

namespace ArenaX.AxToken

open Machine Exec
open Host (Address)

/-- The ledger a checkpoint is in force from. -/
def VotingCheckpoint.key (c : VotingCheckpoint) : Int := c.ledger

namespace VotingStore

variable (v : VotingStore)

def getCheckpoints (address : Address) : List VotingCheckpoint := (v.checkpoints.get address).getD []

def getDelegate (delegator : Address) : Option Address := v.delegate.get delegator

def getDelegators (delegatee : Address) : List Address := (v.delegators.get delegatee).getD []

def getDelegationHistory (delegator : Address) : List DelegationRecord := (v.delegationHistory.get delegator).getD []

/-- The address whose checkpoints represent an address's voting power: its delegatee, or itself. -/
def votingPowerHolder (address : Address) : Address := (v.getDelegate address).getD address

/-- The power recorded last for an address. -/
def lastPower (address : Address) : I128 := ((v.getCheckpoints address).getLast?.map VotingCheckpoint.power).getD 0

/-- Record a change of an address's voting power as of the current ledger. -/
def checkpointAdd (env : Env) (address : Address) (delta : Int) : Result VotingStore := do
  let newPower ← unchecked i128 (v.lastPower address + delta)
  pure { v with
    checkpoints := v.checkpoints.set address
      (History.put VotingCheckpoint.key (v.getCheckpoints address) ⟨env.sequence, newPower⟩) }

/-- Binary search of an address's history for the power in effect at a ledger. -/
def powerAt (address : Address) (ledgerSeq : U32) : I128 :=
  ((History.lookup VotingCheckpoint.key (v.getCheckpoints address) ledgerSeq).map VotingCheckpoint.power).getD 0

def addDelegator (delegatee delegator : Address) : VotingStore :=
  { v with delegators := v.delegators.set delegatee (v.getDelegators delegatee ++ [delegator]) }

def removeDelegator (delegatee delegator : Address) : VotingStore :=
  { v with delegators := v.delegators.set delegatee ((v.getDelegators delegatee).filter (· ≠ delegator)) }

/-- Append to the delegation history of an address. -/
def recordDelegation (delegator : Address) (record : DelegationRecord) : VotingStore :=
  { v with delegationHistory := v.delegationHistory.set delegator (v.getDelegationHistory delegator ++ [record]) }

/-- Take a delegator's power from where it is now: its previous delegatee, who must be another one, or itself. -/
def releasePower (env : Env) (delegator delegatee : Address) (power : I128) : Result VotingStore :=
  match v.getDelegate delegator with
  | some previousDelegatee => do
    reject (previousDelegatee = delegatee) "already delegated to this address"
    (v.removeDelegator previousDelegatee delegator).checkpointAdd env previousDelegatee (-power)
  | none => v.checkpointAdd env delegator (-power)

end VotingStore

/-- What an address brings to a vote: its balance and its locked tokens. -/
def rawPower (s : State) (address : Address) : Result I128 := do
  let locked ← s.getLockedBalance address
  unchecked i128 (s.balance address + locked)

section

variable (env : Env) (s : State)

/-- Delegate voting power to another address, from the previous delegatee if there is one. -/
def delegate (delegator delegatee : Address) : Result State := do
  env.requireAuth delegator
  reject (delegator = delegatee) "cannot delegate to self"
  let power ← rawPower s delegator
  let released ← s.voting.releasePower env delegator delegatee power
  let assigned := { released with delegate := released.delegate.set delegator delegatee }
  let voting ← (assigned.addDelegator delegatee delegator).checkpointAdd env delegatee power
  pure { s with voting := voting.recordDelegation delegator ⟨delegatee, env.timestamp, false⟩ }

/-- Revoke a delegation, returning the voting power to the delegator. -/
def revokeDelegation (delegator : Address) : Result State := do
  env.requireAuth delegator
  let delegatee ← okOr (s.voting.getDelegate delegator) "no active delegation found"
  let power ← rawPower s delegator
  let removed := s.voting.removeDelegator delegatee delegator
  let released ← { removed with delegate := removed.delegate.remove delegator }.checkpointAdd env delegatee (-power)
  let voting ← released.checkpointAdd env delegator power
  pure { s with voting := voting.recordDelegation delegator ⟨delegatee, env.timestamp, true⟩ }

def getVotingPower (address : Address) : I128 := s.voting.powerAt address env.sequence

def getVotingPowerAt (s : State) (address : Address) (ledgerSeq : U32) : I128 := s.voting.powerAt address ledgerSeq

/-! ## Composite power -/

/-- What the staking contract adds to an address's power, if one is set. -/
def stakePower (address : Address) : Result I128 :=
  match s.governance.stakingContract with
  | some staking => do
    let gov ← unwrap (env.governanceWeight staking address)
    let escrow ← unwrap (env.votingWeight staking address)
    pure (i128.saturate (gov + escrow))
  | none => pure 0

/-- The checkpoint power at a ledger and the stake power now, or their square root under quadratic voting. -/
def compositeVotingPower (address : Address) (ledgerSeq : U32) : Result I128 := do
  let stake ← stakePower env s address
  let rawPower := i128.saturate (s.voting.powerAt address ledgerSeq + stake)
  if s.governance.quadraticVoting ∧ (rawPower : Int) > 0 then isqrt rawPower else pure rawPower

end

/-! ## What the operations do -/

/-- A change of an address's power, written to its checkpoints. -/
def VotingStore.shift (env : Env) (v : VotingStore) (change : Address × ℤ) : VotingStore :=
  { v with
    checkpoints := v.checkpoints.set change.1 (History.put VotingCheckpoint.key (v.getCheckpoints change.1)
      ⟨env.sequence, i128.wrap (v.lastPower change.1 + change.2)⟩) }

/-- What an address has, as one number. -/
def State.holding (s : State) (address : Address) : ℤ :=
  s.balance address + lockedSum (s.getLockups address)

section Specs

variable {m : Mode} {env : Env} {s s' : State} {v v' : VotingStore} {a b : Address} {δ : ℤ} {power : I128}

theorem checkpointAdd_spec (h : (v.checkpointAdd env a δ).run m = some v') : v' = v.shift env (a, δ) := by
  simp only [VotingStore.checkpointAdd, run_iff, run_unchecked] at h
  obtain ⟨_, ⟨rfl, -⟩, rfl⟩ := h
  rfl

theorem getLockedBalance_spec {locked : I128} (h : (s.getLockedBalance a).run m = some locked) :
    locked = i128.wrap (lockedSum (s.getLockups a)) := by
  simpa [lockedSum] using run_foldlM_unchecked (fun lock : LockupRecord => lock.amount) h

theorem rawPower_spec (h : (rawPower s a).run m = some power) : power = i128.wrap (s.holding a) := by
  simp only [rawPower, run_iff, run_unchecked] at h
  obtain ⟨locked, hlocked, rfl, -⟩ := h
  rw [getLockedBalance_spec hlocked, IntType.wrap_add_wrap]
  rfl

theorem releasePower_spec (h : (v.releasePower env a b power).run m = some v') :
    v.getDelegate a ≠ some b ∧ v'.delegate = v.delegate ∧
      v'.checkpoints = (v.shift env (v.votingPowerHolder a, -power)).checkpoints := by
  unfold VotingStore.releasePower at h
  unfold VotingStore.votingPowerHolder
  cases hd : v.getDelegate a with
  | none =>
    rw [hd] at h
    cases checkpointAdd_spec h
    exact ⟨by simp, rfl, rfl⟩
  | some previous =>
    simp only [hd, run_iff] at h
    obtain ⟨-, hne, h⟩ := h
    cases checkpointAdd_spec h
    exact ⟨by simpa using hne, rfl, rfl⟩

/-- A delegation moves what the delegator has from the holder of its power to the delegatee. -/
theorem delegate_spec (h : (delegate env s a b).run m = some s') :
    a ∈ env.signers ∧ a ≠ b ∧ ∃ v, s' = { s with voting := v } ∧ v.delegate = s.voting.delegate.set a b ∧
      v.checkpoints = ([(s.voting.votingPowerHolder a, -(i128.wrap (s.holding a) : ℤ)),
        (b, (i128.wrap (s.holding a) : ℤ))].foldl (VotingStore.shift env) s.voting).checkpoints := by
  simp only [delegate, run_iff, run_requireAuth] at h
  obtain ⟨-, ha, -, hne, power, hpower, released, hreleased, v, hv, rfl⟩ := h
  cases rawPower_spec hpower
  obtain ⟨-, hdelegate, hcheckpoints⟩ := releasePower_spec hreleased
  cases checkpointAdd_spec hv
  refine ⟨ha, hne, _, rfl, ?_, ?_⟩
  · show released.delegate.set a b = _
    rw [hdelegate]
  · show (released.shift env (b, _)).checkpoints = _
    rw [VotingStore.shift, VotingStore.lastPower, VotingStore.getCheckpoints, hcheckpoints]
    rfl

/-- A revocation moves it from the delegatee back to the delegator. -/
theorem revokeDelegation_spec (h : (revokeDelegation env s a).run m = some s') :
    a ∈ env.signers ∧ s.voting.getDelegate a ≠ none ∧ ∃ v, s' = { s with voting := v } ∧
      v.delegate = s.voting.delegate.remove a ∧
      v.checkpoints = ([(s.voting.votingPowerHolder a, -(i128.wrap (s.holding a) : ℤ)),
        (a, (i128.wrap (s.holding a) : ℤ))].foldl (VotingStore.shift env) s.voting).checkpoints := by
  simp only [revokeDelegation, run_iff, run_requireAuth] at h
  obtain ⟨-, ha, delegatee, hdelegatee, power, hpower, released, hreleased, v, hv, rfl⟩ := h
  cases rawPower_spec hpower
  cases checkpointAdd_spec hreleased
  cases checkpointAdd_spec hv
  have hholder : s.voting.votingPowerHolder a = delegatee := by
    rw [VotingStore.votingPowerHolder, hdelegatee, Option.getD_some]
  refine ⟨ha, by simp [hdelegatee], _, rfl, rfl, ?_⟩
  rw [hholder]
  rfl

end Specs

end ArenaX.AxToken
