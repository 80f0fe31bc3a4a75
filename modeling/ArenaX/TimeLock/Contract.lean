/-
The time lock: its storage, its entry points and its runs. Governors schedule operations, which can be executed in a
window of time after a delay, cancelled, or accelerated by a quorum of votes; an admin can override. A call that panics
leaves the storage as it was, also where it has written before. Counters and times are machine integers that wrap
around. The texts are those of the contract's panics.
-/
import ArenaX.Lib.Bytes
import ArenaX.Lib.Host
import ArenaX.Lib.Runs
import ArenaX.Lib.Table

namespace ArenaX.TimeLock

open Machine Exec
open Host (Address Env)

/-- What a function of the contract returns, or the text it panics with. -/
abbrev Result (α : Type) := Exec String α

abbrev Symbol := String

/-- The status constants `STATUS_*`. -/
inductive Status where
  | scheduled
  | executed
  | cancelled
  | expired
deriving DecidableEq

structure Operation where
  target : Address
  functionName : Symbol
  args : Bytes
  executeAfter : U64
  executeBefore : U64
  status : Status
  description : Symbol
  proposer : Address
  category : U32
  priority : U32
  scheduledAt : U64
deriving DecidableEq

structure AnalyticsTotals where
  totalScheduled : U64 := 0
  totalExecuted : U64 := 0
  totalCancelled : U64 := 0
  totalAccelerated : U64 := 0
  totalExpired : U64 := 0
  cumulativeDelaySecs : U64 := 0
deriving DecidableEq

structure CategoryStats where
  category : U32
  scheduled : U64 := 0
  executed : U64 := 0
  cancelled : U64 := 0
deriving DecidableEq

def defaultGracePeriod : U64 := u64.wrap 86400

def maxGovernors : ℕ := 20

/-- The contract's storage under the names of its keys; what is absent has the value it is read with. -/
structure State where
  admin : Option Address := none
  minDelay : U64 := 0
  gracePeriod : U64 := defaultGracePeriod
  accelQuorum : U32 := u32.wrap 1
  governors : List Address := []
  paused : Bool := false
  operation : Table (BytesN 32) Operation := ∅
  accelVotes : Table (BytesN 32) (List Address) := ∅
  activeCount : U32 := 0
  analyticsTotal : AnalyticsTotals := {}
  analyticsByCategory : Table U32 CategoryStats := ∅
  lastExecution : U64 := 0

/-! ## Checks -/

def requireAdminOr (text : String) (s : State) (caller : Address) : Result Unit := do
  let admin ← okOr s.admin "not initialized"
  reject (caller ≠ admin) text

def requireAdmin (s : State) (caller : Address) : Result Unit :=
  requireAdminOr "only admin can perform this action" s caller

def requireGovernor (s : State) (caller : Address) : Result Unit :=
  reject (caller ∉ s.governors) "caller is not a governor"

def requireNotPaused (s : State) : Result Unit := reject (s.paused = true) "contract is paused"

/-- A stored operation that is still scheduled. -/
def State.getScheduled (s : State) (operationId : BytesN 32) : Result Operation := do
  let op ← okOr (s.operation.get operationId) "operation not found"
  reject (op.status ≠ .scheduled) "operation is not in scheduled state"
  pure op

def State.getAccelVotes (s : State) (operationId : BytesN 32) : List Address := (s.accelVotes.get operationId).getD []

/-! ## Counters -/

def increment (counter : U64) : U64 := u64.wrap (counter + 1)

def State.getCategoryStats (s : State) (category : U32) : CategoryStats :=
  (s.analyticsByCategory.get category).getD { category }

def State.incrementCategory (s : State) (category : U32) (bump : CategoryStats → CategoryStats) : State :=
  { s with analyticsByCategory := s.analyticsByCategory.set category (bump (s.getCategoryStats category)) }

def State.incrementCategoryScheduled (s : State) (category : U32) : State :=
  s.incrementCategory category fun stats => { stats with scheduled := increment stats.scheduled }

def State.incrementCategoryExecuted (s : State) (category : U32) : State :=
  s.incrementCategory category fun stats => { stats with executed := increment stats.executed }

def State.incrementCategoryCancelled (s : State) (category : U32) : State :=
  s.incrementCategory category fun stats => { stats with cancelled := increment stats.cancelled }

def State.decrementActive (s : State) : State :=
  { s with activeCount := if (s.activeCount : Int) > 0 then u32.wrap (s.activeCount - 1) else s.activeCount }

/-- A new operation is stored, without votes. -/
def State.enqueue (s : State) (operationId : BytesN 32) (op : Operation) : State :=
  let s := { s with
    operation := s.operation.set operationId op
    accelVotes := s.accelVotes.set operationId []
    analyticsTotal := { s.analyticsTotal with totalScheduled := increment s.analyticsTotal.totalScheduled } }
  let s := s.incrementCategoryScheduled op.category
  { s with activeCount := u32.wrap (s.activeCount + 1) }

/-- An operation becomes executed, by a vote that reaches the quorum or otherwise. -/
def State.markExecuted (s : State) (operationId : BytesN 32) (op : Operation) (now : U64) (accelerated : Bool) :
    State :=
  let totals := s.analyticsTotal
  let s := { s with
    operation := s.operation.set operationId { op with status := .executed }
    analyticsTotal := { totals with
      totalExecuted := increment totals.totalExecuted
      totalAccelerated := if accelerated then increment totals.totalAccelerated else totals.totalAccelerated
      cumulativeDelaySecs := u64.wrap (totals.cumulativeDelaySecs + (u64.wrap (now - op.scheduledAt) : U64)) }
    lastExecution := now }
  (s.incrementCategoryExecuted op.category).decrementActive

def State.markCancelled (s : State) (operationId : BytesN 32) (op : Operation) : State :=
  let totals := s.analyticsTotal
  let s := { s with
    operation := s.operation.set operationId { op with status := .cancelled }
    analyticsTotal := { totals with totalCancelled := increment totals.totalCancelled } }
  (s.incrementCategoryCancelled op.category).decrementActive

/-! ## Operations -/

section

variable (env : Env) (s : State)

def initializeContract (admin : Address) (minDelay gracePeriod : U64) (accelQuorum : U32) :
    Result State := do
  reject (s.admin.isSome = true) "already initialized"
  env.requireAuth admin
  pure { s with
    admin := some admin
    minDelay := minDelay
    gracePeriod := gracePeriod
    accelQuorum := accelQuorum
    governors := [admin]
    paused := false
    analyticsTotal := {}
    activeCount := 0 }

def scheduleOperation (caller : Address) (operationId : BytesN 32) (target : Address)
    (functionName : Symbol) (args : Bytes) (delay : U64) (description : Symbol) (category priority : U32)
    (customGracePeriod : U64) : Result State := do
  env.requireAuth caller
  requireGovernor s caller
  requireNotPaused s
  reject ((delay : Int) < s.minDelay) "delay is less than minimum delay"
  reject ((s.operation.get operationId).isSome = true) "operation already scheduled"
  let executeAfter := u64.wrap (env.timestamp + delay)
  let grace := if (customGracePeriod : Int) > 0 then customGracePeriod else s.gracePeriod
  let executeBefore := u64.wrap (executeAfter + grace)
  pure (s.enqueue operationId
    { target, functionName, args, executeAfter, executeBefore, status := .scheduled, description, proposer := caller,
      category, priority, scheduledAt := env.timestamp })

def executeOperation (caller : Address) (operationId : BytesN 32) : Result State := do
  env.requireAuth caller
  requireGovernor s caller
  requireNotPaused s
  let op ← s.getScheduled operationId
  -- the contract marks the operation as expired before it panics; the host undoes that
  reject ((env.timestamp : Int) > op.executeBefore) "operation execution window has expired"
  reject ((env.timestamp : Int) < op.executeAfter) "timelock delay has not expired yet"
  pure (s.markExecuted operationId op env.timestamp false)

def cancelOperation (caller : Address) (operationId : BytesN 32) : Result State := do
  env.requireAuth caller
  requireGovernor s caller
  requireNotPaused s
  let op ← s.getScheduled operationId
  pure (s.markCancelled operationId op)

def voteAccelerate (voter : Address) (operationId : BytesN 32) : Result State := do
  env.requireAuth voter
  requireGovernor s voter
  requireNotPaused s
  let op ← s.getScheduled operationId
  let votes := s.getAccelVotes operationId
  reject (voter ∈ votes) "already voted to accelerate this operation"
  let votes := votes ++ [voter]
  let s := { s with accelVotes := s.accelVotes.set operationId votes }
  if (votes.length : Int) ≥ s.accelQuorum then pure (s.markExecuted operationId op env.timestamp true) else pure s

def governanceOverride (caller : Address) (operationId : BytesN 32) (execute : Bool) :
    Result State := do
  env.requireAuth caller
  requireAdminOr "only admin may invoke governance override" s caller
  let op ← s.getScheduled operationId
  if execute then pure (s.markExecuted operationId op env.timestamp false) else pure (s.markCancelled operationId op)

/-! ## Governors and settings -/

def addGovernor (caller newGovernor : Address) : Result State := do
  env.requireAuth caller
  requireAdminOr "only admin can add governors" s caller
  requireNotPaused s
  reject (newGovernor ∈ s.governors) "address is already a governor"
  reject (s.governors.length ≥ maxGovernors) "governor limit reached"
  pure { s with governors := s.governors ++ [newGovernor] }

def removeGovernor (caller governor : Address) : Result State := do
  env.requireAuth caller
  requireAdminOr "only admin can remove governors" s caller
  requireNotPaused s
  reject (s.governors.length ≤ 1) "cannot remove the last governor"
  reject (governor ∉ s.governors) "address is not a governor"
  pure { s with governors := s.governors.filter (· ≠ governor) }

def updateMinDelay (caller : Address) (newDelay : U64) : Result State := do
  env.requireAuth caller
  requireAdmin s caller
  requireNotPaused s
  pure { s with minDelay := newDelay }

def updateGracePeriod (caller : Address) (newGrace : U64) : Result State := do
  env.requireAuth caller
  requireAdmin s caller
  requireNotPaused s
  reject ((newGrace : Int) = 0) "grace period must be > 0"
  pure { s with gracePeriod := newGrace }

def updateAccelQuorum (caller : Address) (newQuorum : U32) : Result State := do
  env.requireAuth caller
  requireAdmin s caller
  requireNotPaused s
  reject ((newQuorum : Int) = 0) "quorum must be > 0"
  pure { s with accelQuorum := newQuorum }

def setPaused (caller : Address) (paused : Bool) : Result State := do
  env.requireAuth caller
  requireAdmin s caller
  pure { s with paused := paused }

end

/-! ## The contract -/

/-- The entry points that write. -/
inductive Call where
  | scheduleOperation (caller : Address) (operationId : BytesN 32) (target : Address) (functionName : Symbol)
      (args : Bytes) (delay : U64) (description : Symbol) (category priority : U32) (customGracePeriod : U64)
  | executeOperation (caller : Address) (operationId : BytesN 32)
  | cancelOperation (caller : Address) (operationId : BytesN 32)
  | voteAccelerate (voter : Address) (operationId : BytesN 32)
  | governanceOverride (caller : Address) (operationId : BytesN 32) (execute : Bool)
  | addGovernor (caller newGovernor : Address)
  | removeGovernor (caller governor : Address)
  | updateMinDelay (caller : Address) (newDelay : U64)
  | updateGracePeriod (caller : Address) (newGrace : U64)
  | updateAccelQuorum (caller : Address) (newQuorum : U32)
  | setPaused (caller : Address) (paused : Bool)

/-- The state a call leaves behind. -/
def execute (env : Env) (s : State) : Call → Result State
  | .scheduleOperation caller operationId target functionName args delay description category priority grace =>
    scheduleOperation env s caller operationId target functionName args delay description category priority grace
  | .executeOperation caller operationId => executeOperation env s caller operationId
  | .cancelOperation caller operationId => cancelOperation env s caller operationId
  | .voteAccelerate voter operationId => voteAccelerate env s voter operationId
  | .governanceOverride caller operationId execute => governanceOverride env s caller operationId execute
  | .addGovernor caller newGovernor => addGovernor env s caller newGovernor
  | .removeGovernor caller governor => removeGovernor env s caller governor
  | .updateMinDelay caller newDelay => updateMinDelay env s caller newDelay
  | .updateGracePeriod caller newGrace => updateGracePeriod env s caller newGrace
  | .updateAccelQuorum caller newQuorum => updateAccelQuorum env s caller newQuorum
  | .setPaused caller paused => setPaused env s caller paused

/-- The contract from `initialize` on. -/
def contract : TransitionSystem Env State Call where
  init env s := ∃ admin minDelay gracePeriod accelQuorum,
    (initializeContract env {} admin minDelay gracePeriod accelQuorum).run .wrapping = some s
  step env s c := (execute env s c).run .wrapping

abbrev Rule := TransitionSystem.Rule Env State Call

export TransitionSystem (Unrestricted)

/-! ## What the operations do -/

/-- The call schedules an operation under an id. -/
def Call.schedules (operationId : BytesN 32) : Call → Bool
  | .scheduleOperation _ id .. => decide (id = operationId)
  | _ => false

section Specs

variable {env : Env} {s s' : State} {c : Call} {caller : Address} {operationId : BytesN 32} {o : Option Operation}
  {op : Operation}

@[simp] theorem run_requireGovernor {u : Unit} :
    (requireGovernor s caller).run .wrapping = some u ↔ caller ∈ s.governors := by
  simp [requireGovernor]

@[simp] theorem run_getScheduled : (s.getScheduled operationId).run .wrapping = some op ↔
    s.operation.get operationId = some op ∧ op.status = .scheduled := by
  simp only [State.getScheduled, run_iff, not_not]
  constructor
  · rintro ⟨op, hget, _, hstatus, rfl⟩
    exact ⟨hget, hstatus⟩
  · rintro ⟨hget, hstatus⟩
    exact ⟨op, hget, (), hstatus, rfl⟩

theorem contract_init (h : contract.init env s) : ∃ admin minDelay gracePeriod accelQuorum, s =
    { admin := some admin, minDelay, gracePeriod, accelQuorum, governors := [admin] } := by
  obtain ⟨_, _, _, _, h⟩ := h
  simp only [initializeContract, run_iff, run_requireAuth] at h
  obtain ⟨-, -, -, -, rfl⟩ := h
  exact ⟨_, _, _, _, rfl⟩

theorem scheduleOperation_spec {target : Address} {functionName description : Symbol} {args : Bytes}
    {delay customGracePeriod : U64} {category priority : U32}
    (h : (scheduleOperation env s caller operationId target functionName args delay description category priority
      customGracePeriod).run .wrapping = some s') :
    s.operation.get operationId = none ∧ (s.minDelay : ℤ) ≤ delay ∧ ∃ op, op.status = .scheduled ∧
      op.scheduledAt = env.timestamp ∧ op.executeAfter = u64.wrap (env.timestamp + delay) ∧ op.category = category ∧
      s' = s.enqueue operationId op := by
  simp only [scheduleOperation, run_iff, run_requireAuth, Bool.not_eq_true, Option.isSome_eq_false_iff,
    Option.isNone_iff_eq_none, not_lt] at h
  obtain ⟨-, -, -, -, -, -, -, hdelay, -, hnew, rfl⟩ := h
  exact ⟨hnew, hdelay, _, rfl, rfl, rfl, rfl, rfl⟩

theorem executeOperation_spec (h : (executeOperation env s caller operationId).run .wrapping = some s') :
    ∃ op, s.operation.get operationId = some op ∧ op.status = .scheduled ∧
      (op.executeAfter : ℤ) ≤ env.timestamp ∧ (env.timestamp : ℤ) ≤ op.executeBefore ∧
      s' = s.markExecuted operationId op env.timestamp false := by
  simp only [executeOperation, run_iff, run_getScheduled, not_lt] at h
  obtain ⟨-, -, -, -, -, -, _, ⟨hget, hstatus⟩, -, hbefore, -, hafter, rfl⟩ := h
  exact ⟨_, hget, hstatus, hafter, hbefore, rfl⟩

theorem cancelOperation_spec (h : (cancelOperation env s caller operationId).run .wrapping = some s') :
    ∃ op, s.operation.get operationId = some op ∧ op.status = .scheduled ∧ s' = s.markCancelled operationId op := by
  simp only [cancelOperation, run_iff, run_getScheduled] at h
  obtain ⟨-, -, -, -, -, -, _, ⟨hget, hstatus⟩, rfl⟩ := h
  exact ⟨_, hget, hstatus, rfl⟩

/-- A vote is recorded. -/
def State.record (s : State) (operationId : BytesN 32) (voter : Address) : State :=
  { s with accelVotes := s.accelVotes.set operationId (s.getAccelVotes operationId ++ [voter]) }

theorem voteAccelerate_spec {voter : Address} (h : (voteAccelerate env s voter operationId).run .wrapping = some s') :
    voter ∈ s.governors ∧ voter ∉ s.getAccelVotes operationId ∧
    ∃ op, s.operation.get operationId = some op ∧ op.status = .scheduled ∧
      s' = if (s.accelQuorum : ℤ) ≤ (s.getAccelVotes operationId ++ [voter]).length then
          (s.record operationId voter).markExecuted operationId op env.timestamp true
        else s.record operationId voter := by
  simp only [voteAccelerate, run_iff, run_getScheduled, run_requireGovernor, run_ite, run_pure] at h
  obtain ⟨-, -, -, hgovernor, -, -, _, ⟨hget, hstatus⟩, -, hnew, h⟩ := h
  refine ⟨hgovernor, hnew, _, hget, hstatus, ?_⟩
  split at h
  · rename_i hquorum
    cases h
    exact (if_pos hquorum).symm
  · rename_i hquorum
    cases h
    exact (if_neg hquorum).symm

theorem governanceOverride_spec {execute : Bool}
    (h : (governanceOverride env s caller operationId execute).run .wrapping = some s') :
    ∃ op, s.operation.get operationId = some op ∧ op.status = .scheduled ∧
      s' = if execute then s.markExecuted operationId op env.timestamp false else s.markCancelled operationId op := by
  simp only [governanceOverride, run_iff, run_getScheduled, run_ite, run_pure] at h
  obtain ⟨-, -, -, -, _, ⟨hget, hstatus⟩, h⟩ := h
  refine ⟨_, hget, hstatus, ?_⟩
  cases execute <;> cases h <;> rfl

theorem addGovernor_spec {newGovernor : Address} (h : (addGovernor env s caller newGovernor).run .wrapping = some s') :
    s' = { s with governors := s.governors ++ [newGovernor] } := by
  simp only [addGovernor, run_iff] at h
  obtain ⟨-, -, -, -, -, -, -, -, -, -, rfl⟩ := h
  rfl

theorem removeGovernor_spec {governor : Address} (h : (removeGovernor env s caller governor).run .wrapping = some s') :
    s' = { s with governors := s.governors.filter (· ≠ governor) } := by
  simp only [removeGovernor, run_iff] at h
  obtain ⟨-, -, -, -, -, -, -, -, -, -, rfl⟩ := h
  rfl

theorem updateMinDelay_spec {newDelay : U64} (h : (updateMinDelay env s caller newDelay).run .wrapping = some s') :
    s' = { s with minDelay := newDelay } := by
  simp only [updateMinDelay, run_iff] at h
  obtain ⟨-, -, -, -, -, -, rfl⟩ := h
  rfl

theorem updateGracePeriod_spec {newGrace : U64}
    (h : (updateGracePeriod env s caller newGrace).run .wrapping = some s') :
    s' = { s with gracePeriod := newGrace } := by
  simp only [updateGracePeriod, run_iff] at h
  obtain ⟨-, -, -, -, -, -, -, -, rfl⟩ := h
  rfl

theorem updateAccelQuorum_spec {newQuorum : U32}
    (h : (updateAccelQuorum env s caller newQuorum).run .wrapping = some s') :
    s' = { s with accelQuorum := newQuorum } := by
  simp only [updateAccelQuorum, run_iff] at h
  obtain ⟨-, -, -, -, -, -, -, -, rfl⟩ := h
  rfl

theorem setPaused_spec {paused : Bool} (h : (setPaused env s caller paused).run .wrapping = some s') :
    s' = { s with paused := paused } := by
  simp only [setPaused, run_iff] at h
  obtain ⟨-, -, -, -, rfl⟩ := h
  rfl

/-- An operation is as before, or was scheduled and has now another status. -/
inductive Moves : Option Operation → Option Operation → Prop where
  | same (o : Option Operation) : Moves o o
  | finish {op : Operation} {status : Status} : op.status = .scheduled → status ≠ .scheduled →
      Moves (some op) (some { op with status := status })

theorem Moves.eq_some (h : Moves (some op) o) (hne : op.status ≠ .scheduled) :
    o = some op := by
  cases h with
  | same => rfl
  | finish hscheduled => exact absurd hscheduled hne

theorem Moves.of_none (h : Moves o none) : o = none := by
  cases h
  rfl

theorem Moves.of_some {op' : Operation} (h : Moves o (some op')) :
    ∃ op status, o = some op ∧ op' = { op with status := status } := by
  cases h with
  | same => exact ⟨op', op'.status, rfl, rfl⟩
  | @finish op status => exact ⟨op, status, rfl, rfl⟩

theorem Moves.set {operations : Table (BytesN 32) Operation} {id : BytesN 32} {status : Status}
    (hget : operations.get id = some op) (hscheduled : op.status = .scheduled) (hstatus : status ≠ .scheduled) :
    Moves (operations.get operationId) ((operations.set id { op with status := status }).get operationId) := by
  rw [Table.get_set]
  split
  · rename_i hid
    rw [hid, hget]
    exact .finish hscheduled hstatus
  · exact .same _

/-- An operation changes only its status, and only while it is scheduled. -/
theorem execute_moves (hc : c.schedules operationId = false) (h : (execute env s c).run .wrapping = some s') :
    Moves (s.operation.get operationId) (s'.operation.get operationId) := by
  cases c with
  | scheduleOperation =>
    obtain ⟨-, -, op, -, -, -, -, rfl⟩ := scheduleOperation_spec h
    rw [show (s.enqueue _ op).operation = s.operation.set _ op from rfl,
      Table.get_set_of_ne _ _ (Ne.symm (of_decide_eq_false hc))]
    exact .same _
  | executeOperation =>
    obtain ⟨op, hget, hscheduled, -, -, rfl⟩ := executeOperation_spec h
    exact .set hget hscheduled fun h => by cases h
  | cancelOperation =>
    obtain ⟨op, hget, hscheduled, rfl⟩ := cancelOperation_spec h
    exact .set hget hscheduled fun h => by cases h
  | voteAccelerate =>
    obtain ⟨-, -, _, hget, hscheduled, rfl⟩ := voteAccelerate_spec h
    split
    · exact .set hget hscheduled fun h => by cases h
    · exact .same _
  | governanceOverride =>
    obtain ⟨_, hget, hscheduled, rfl⟩ := governanceOverride_spec h
    split
    · exact .set hget hscheduled fun h => by cases h
    · exact .set hget hscheduled fun h => by cases h
  | addGovernor => cases addGovernor_spec h; exact .same _
  | removeGovernor => cases removeGovernor_spec h; exact .same _
  | updateMinDelay => cases updateMinDelay_spec h; exact .same _
  | updateGracePeriod => cases updateGracePeriod_spec h; exact .same _
  | updateAccelQuorum => cases updateAccelQuorum_spec h; exact .same _
  | setPaused => cases setPaused_spec h; exact .same _

end Specs

/-! ## A small deployment

An admin, who is a governor, a quorum of two, a minimum delay of 100 seconds and a window of 50. -/

namespace Sample

export Host.Accounts (admin alice bob)
export TransitionSystem.Deployment (reach_after tally_after)

/-- A transaction at a time, signed by everyone. -/
def signedAt (time : Int) : Env := .signed [admin, alice, bob] 0 time

def signed (time : Int) (c : Call) : Env × Call := (signedAt time, c)

/-- The contract after `initialize`. -/
def deployed : State :=
  { admin := some admin
    minDelay := u64.wrap 100
    gracePeriod := u64.wrap 50
    accelQuorum := u32.wrap 2
    governors := [admin] }

def deployment : contract.Deployment where
  env := signedAt 0
  state := deployed
  starts := ⟨admin, 100, 50, 2, rfl⟩

/-- The id of the n-th operation. -/
def idOf (n : ℕ) : BytesN 32 := ⟨beBytes 32 n, length_beBytes 32 n⟩

/-- The admin schedules the n-th operation. -/
def schedule (n : ℕ) : Call :=
  .scheduleOperation admin (idOf n) ⟨9⟩ "upgrade" [] 100 "routine" 2 1 0

/-- Alice and Bob become governors, and an operation is scheduled. -/
def staffed : List (Env × Call) :=
  [signed 5 (.addGovernor admin alice), signed 5 (.addGovernor admin bob), signed 10 (schedule 0)]

end Sample

end ArenaX.TimeLock
