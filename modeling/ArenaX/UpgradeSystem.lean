/-
The upgrade-system contract: an admin schedules an upgrade, which may be executed once a delay has passed, and rolls the
last one back. Every execution and every rollback leaves a record, of which the last 32 are kept. The two decision
functions, `prepare_upgrade` and `prepare_rollback`, can be called without the installation that follows them, and a
rollback can itself be rolled back; without either, the records are the line of versions that were installed, each
upgrade to a later version and no earlier than its delay, each rollback to an earlier one.
-/
import ArenaX.Lib.Host
import ArenaX.Lib.Runs
import ArenaX.Lib.Table

namespace ArenaX.UpgradeSystem

open Machine Exec
open Host (Address Env)

abbrev Symbol := String

/-- The hash of a contract's code. -/
structure Hash where
  id : ℕ
deriving DecidableEq

inductive UpgradeError where
  | alreadyInitialized | notInitialized | upgradeAlreadyScheduled | noUpgradeScheduled | timelockNotElapsed | notPaused
  | noRollbackTarget | invalidVersion | migrationAlreadyApplied | invalidDelay

abbrev Result := Exec UpgradeError

structure Version where
  major : U32
  minor : U32
  patch : U32
deriving DecidableEq

/-- The order of the triples of numbers. -/
def Version.isAfter (self other : Version) : Prop :=
  (self.major : ℤ) > other.major ∨ self.major = other.major ∧
    ((self.minor : ℤ) > other.minor ∨ self.minor = other.minor ∧ (self.patch : ℤ) > other.patch)
deriving Decidable

structure PendingUpgrade where
  newWasmHash : Hash
  targetVersion : Version
  scheduledAt : U64
  executableAt : U64
  scheduledBy : Address
  requiresMigration : Bool
deriving DecidableEq

structure UpgradeRecord where
  fromVersion : Version
  toVersion : Version
  fromWasmHash : Hash
  toWasmHash : Hash
  executedAt : U64
  executedBy : Address
  wasRollback : Bool
deriving DecidableEq

/-- The contract's storage, and the code that the ledger last installed for it. -/
structure State where
  admin : Option Address := none
  version : Option Version := none
  current : Option Hash := none
  paused : Bool := false
  delay : Option U64 := none
  history : List UpgradeRecord := []
  pending : Option PendingUpgrade := none
  migrated : Table Symbol U64 := ∅
  installed : Option Hash := none

def defaultUpgradeDelay : U64 := u64.wrap 172800

def maxHistory : ℕ := 32

/-! ## Entry points -/

def initializeUpgrades (env : Env) (s : State) (admin : Address) (version : Version) (wasmHash : Hash) :
    Result State := do
  reject (s.admin.isSome = true) .alreadyInitialized
  env.requireAuth admin
  pure { s with admin := some admin, version := some version, current := some wasmHash, paused := false,
                delay := some defaultUpgradeDelay, history := [] }

def requireAdmin (env : Env) (s : State) : Result Address := do
  let admin ← okOr s.admin .notInitialized
  env.requireAuth admin
  pure admin

def State.upgradeDelay (s : State) : U64 := s.delay.getD defaultUpgradeDelay

section

variable (env : Env) (s : State)

/-- What `schedule_upgrade` stores. -/
def scheduled (admin : Address) (newWasmHash : Hash) (targetVersion : Version)
    (requiresMigration : Bool) : PendingUpgrade :=
  ⟨newWasmHash, targetVersion, env.timestamp, u64.saturate (env.timestamp + s.upgradeDelay), admin, requiresMigration⟩

def scheduleUpgrade (newWasmHash : Hash) (targetVersion : Version) (requiresMigration : Bool) :
    Result State := do
  let admin ← requireAdmin env s
  reject (s.pending.isSome = true) .upgradeAlreadyScheduled
  let current ← okOr s.version .notInitialized
  reject (¬ targetVersion.isAfter current) .invalidVersion
  pure { s with pending := some (scheduled env s admin newWasmHash targetVersion requiresMigration) }

def cancelUpgrade : Result State := do
  let _ ← requireAdmin env s
  reject (s.pending.isNone = true) .noUpgradeScheduled
  pure { s with pending := none }

/-- `pause` and `unpause`. -/
def setPaused (paused : Bool) : Result State := do
  let _ ← requireAdmin env s
  pure { s with paused := paused }

/-- The history with a record at its end; a full one loses its first. -/
def pushHistory (history : List UpgradeRecord) (record : UpgradeRecord) : List UpgradeRecord :=
  (if maxHistory ≤ history.length then history.tail else history) ++ [record]

def prepareUpgrade : Result (UpgradeRecord × State) := do
  let admin ← requireAdmin env s
  let pending ← okOr s.pending .noUpgradeScheduled
  reject ((env.timestamp : ℤ) < pending.executableAt) .timelockNotElapsed
  reject (pending.requiresMigration = true ∧ s.paused = false) .notPaused
  let fromVersion ← okOr s.version .notInitialized
  let fromHash ← okOr s.current .notInitialized
  let record : UpgradeRecord :=
    ⟨fromVersion, pending.targetVersion, fromHash, pending.newWasmHash, env.timestamp, admin, false⟩
  pure (record, { s with history := pushHistory s.history record, version := some pending.targetVersion,
                         current := some pending.newWasmHash, pending := none })

def prepareRollback : Result (UpgradeRecord × State) := do
  let admin ← requireAdmin env s
  let last ← okOr s.history.getLast? .noRollbackTarget
  let record : UpgradeRecord :=
    ⟨last.toVersion, last.fromVersion, last.toWasmHash, last.fromWasmHash, env.timestamp, admin, true⟩
  pure (record, { s with history := pushHistory s.history record, version := some last.fromVersion,
                         current := some last.fromWasmHash })

/-- `execute_upgrade` and `rollback`: the decision, then `update_current_contract_wasm`. -/
def install (prepared : Result (UpgradeRecord × State)) : Result (UpgradeRecord × State) := do
  let (record, s) ← prepared
  pure (record, { s with installed := some record.toWasmHash })

def executeUpgrade : Result (UpgradeRecord × State) := install (prepareUpgrade env s)

def rollback : Result (UpgradeRecord × State) := install (prepareRollback env s)

def recordMigration (name : Symbol) : Result State := do
  let _ ← requireAdmin env s
  reject (s.paused = false) .notPaused
  reject ((s.migrated.get name).isSome = true) .migrationAlreadyApplied
  pure { s with migrated := s.migrated.set name env.timestamp }

def setUpgradeDelay (delaySeconds : U64) : Result State := do
  let _ ← requireAdmin env s
  reject (delaySeconds = 0) .invalidDelay
  pure { s with delay := some delaySeconds }

end

/-- The entry points that write, `initialize` apart. -/
inductive Call where
  | scheduleUpgrade (newWasmHash : Hash) (targetVersion : Version) (requiresMigration : Bool)
  | cancelUpgrade
  | setPaused (paused : Bool)
  | executeUpgrade
  | prepareUpgrade
  | rollback
  | prepareRollback
  | recordMigration (name : Symbol)
  | setUpgradeDelay (delaySeconds : U64)

def execute (env : Env) (s : State) : Call → Result State
  | .scheduleUpgrade newWasmHash targetVersion requiresMigration =>
    scheduleUpgrade env s newWasmHash targetVersion requiresMigration
  | .cancelUpgrade => cancelUpgrade env s
  | .setPaused paused => setPaused env s paused
  | .executeUpgrade => Prod.snd <$> executeUpgrade env s
  | .prepareUpgrade => Prod.snd <$> prepareUpgrade env s
  | .rollback => Prod.snd <$> rollback env s
  | .prepareRollback => Prod.snd <$> prepareRollback env s
  | .recordMigration name => recordMigration env s name
  | .setUpgradeDelay delaySeconds => setUpgradeDelay env s delaySeconds

/-- The contract from its `initialize` with a hash on. -/
def upgrades (m : Mode) (wasmHash : Hash) : TransitionSystem Env State Call where
  init env s := ∃ admin version, (initializeUpgrades env {} admin version wasmHash).run m = some s
  step env s c := (execute env s c).run m

/-! ## What the entry points do -/

section Specs

variable {m : Mode} {env : Env} {s s' : State} {admin : Address} {record : UpgradeRecord} {wasmHash : Hash}

theorem scheduleUpgrade_spec {target : Version} {mig : Bool}
    (h : (scheduleUpgrade env s wasmHash target mig).run m = some s') :
    ∃ admin current, s.version = some current ∧ target.isAfter current ∧
      s' = { s with pending := some (scheduled env s admin wasmHash target mig) } := by
  simp only [scheduleUpgrade, run_iff, not_not] at h
  obtain ⟨_, -, -, -, _, hcurrent, -, hafter, rfl⟩ := h
  exact ⟨_, _, hcurrent, hafter, rfl⟩

/-- The state in which a record has been made. -/
def State.recorded (s : State) (record : UpgradeRecord) : State :=
  { s with
    history := pushHistory s.history record, version := some record.toVersion, current := some record.toWasmHash }

theorem prepareUpgrade_spec (h : (prepareUpgrade env s).run m = some (record, s')) :
    ∃ p, s.pending = some p ∧ (p.executableAt : ℤ) ≤ env.timestamp ∧ s.version = some record.fromVersion ∧
      s.current = some record.fromWasmHash ∧ record.toVersion = p.targetVersion ∧ record.executedAt = env.timestamp ∧
      record.wasRollback = false ∧ s' = { s.recorded record with pending := none } := by
  simp only [prepareUpgrade, run_iff, Prod.mk.injEq, not_lt] at h
  obtain ⟨admin, -, _, hp, -, htime, -, -, v, hv, hash, hhash, rfl, rfl⟩ := h
  exact ⟨_, hp, htime, hv, hhash, rfl, rfl, rfl, rfl⟩

theorem prepareRollback_spec (h : (prepareRollback env s).run m = some (record, s')) :
    ∃ last, s.history.getLast? = some last ∧ record.fromVersion = last.toVersion ∧
      record.fromWasmHash = last.toWasmHash ∧
      record.toVersion = last.fromVersion ∧ record.wasRollback = true ∧ s' = s.recorded record := by
  simp only [prepareRollback, run_iff, Prod.mk.injEq] at h
  obtain ⟨admin, -, _, hlast, rfl, rfl⟩ := h
  exact ⟨_, hlast, rfl, rfl, rfl, rfl, rfl⟩

theorem install_spec {x : Result (UpgradeRecord × State)} (h : (install x).run m = some (record, s')) :
    ∃ t, x.run m = some (record, t) ∧ s' = { t with installed := some record.toWasmHash } := by
  simp only [install, run_iff] at h
  obtain ⟨⟨r, _⟩, hx, ⟨⟩⟩ := h
  exact ⟨_, hx, rfl⟩

end Specs

/-! ## The lineage -/

theorem Version.isAfter.trans {a b c : Version} (h : a.isAfter b) (h' : b.isAfter c) : a.isAfter c := by
  unfold Version.isAfter at *
  grind

/-- One record begins where another ends. -/
def UpgradeRecord.Before (r r' : UpgradeRecord) : Prop := r'.fromVersion = r.toVersion ∧ r'.fromWasmHash = r.toWasmHash

/-- An upgrade is to a later version, a rollback to an earlier one. -/
def UpgradeRecord.Directed (r : UpgradeRecord) : Prop :=
  if r.wasRollback then r.fromVersion.isAfter r.toVersion else r.toVersion.isAfter r.fromVersion
deriving Decidable

/-- The lineage, of a contract that was initialized with a hash. -/
structure Lineage (wasmHash : Hash) (s : State) : Prop where
  current : s.current = some (s.installed.getD wasmHash)
  chain : s.history.IsChain UpgradeRecord.Before
  last : ∀ r ∈ s.history.getLast?, s.version = some r.toVersion ∧ s.current = some r.toWasmHash
  directed : ∀ r ∈ s.history, r.Directed

/-- The lineage, and what keeps it: a pending upgrade is to a later version than the current one. -/
structure Sound (wasmHash : Hash) (s : State) : Prop extends Lineage wasmHash s where
  pending : ∀ p ∈ s.pending, ∀ v ∈ s.version, p.targetVersion.isAfter v

section Steps

variable {m : Mode} {wasmHash : Hash} {env : Env} {s s' : State} {record : UpgradeRecord} {c : Call}

theorem mem_pushHistory {history : List UpgradeRecord} {r : UpgradeRecord} (h : r ∈ pushHistory history record) :
    r ∈ history ∨ r = record := by
  unfold pushHistory at h
  split at h
  · exact (List.mem_append.1 h).imp List.mem_of_mem_tail (by simp)
  · exact (List.mem_append.1 h).imp id (by simp)

theorem isChain_pushHistory {history : List UpgradeRecord} (h : history.IsChain UpgradeRecord.Before)
    (hlast : ∀ r ∈ history.getLast?, r.Before record) : (pushHistory history record).IsChain UpgradeRecord.Before := by
  -- what the history keeps ends as the history does
  have hkept : ∀ l : List UpgradeRecord, l.IsChain UpgradeRecord.Before → (∀ r ∈ l.getLast?, r ∈ history.getLast?) →
      (l ++ [record]).IsChain UpgradeRecord.Before := fun l hl hsub =>
    hl.append (List.isChain_singleton record) fun r hr r' hr' => by
      cases hr'
      exact hlast r (hsub r hr)
  unfold pushHistory
  split
  · refine hkept _ h.tail fun r hr => ?_
    rcases history with _ | ⟨a, _ | ⟨b, l⟩⟩
    · cases hr
    · cases hr
    · exact hr
  · exact hkept _ h fun r hr => hr

/-- A record that begins where the line ends, in the right direction. -/
theorem Lineage.recorded (h : Lineage wasmHash s) (hlast : ∀ r ∈ s.history.getLast?, r.Before record)
    (hrecord : record.Directed) : Lineage wasmHash { s.recorded record with installed := some record.toWasmHash } where
  current := rfl
  chain := isChain_pushHistory h.chain hlast
  last r hr := by
    cases hr.symm.trans List.getLast?_concat
    exact ⟨rfl, rfl⟩
  directed r hr := by
    rcases mem_pushHistory hr with hr | rfl
    · exact h.directed r hr
    · exact hrecord

theorem Sound.upgrade (h : Sound wasmHash s) (hrun : (executeUpgrade env s).run m = some (record, s')) :
    Sound wasmHash s' := by
  obtain ⟨t, hprepared, rfl⟩ := install_spec hrun
  obtain ⟨p, hp, -, hv, hhash, hto, -, hkind, rfl⟩ := prepareUpgrade_spec hprepared
  have hdirected : record.Directed := by
    rw [UpgradeRecord.Directed, hkind, hto]
    exact h.pending p hp _ hv
  refine ⟨{ h.recorded (fun r hr => ?_) hdirected with }, nofun⟩
  obtain ⟨hversion, hcurrent⟩ := h.last r hr
  exact ⟨Option.some.inj (hv.symm.trans hversion), Option.some.inj (hhash.symm.trans hcurrent)⟩

theorem Sound.rollback (h : Sound wasmHash s) (hup : ∀ r ∈ s.history.getLast?, r.wasRollback = false)
    (hrun : (rollback env s).run m = some (record, s')) : Sound wasmHash s' := by
  obtain ⟨t, hprepared, rfl⟩ := install_spec hrun
  obtain ⟨last, hlast, hfrom, hfromHash, hto, hkind, rfl⟩ := prepareRollback_spec hprepared
  have hafter : last.toVersion.isAfter last.fromVersion := by
    have := h.directed last (List.mem_of_getLast? hlast)
    rwa [UpgradeRecord.Directed, hup last hlast] at this
  have hdirected : record.Directed := by
    rw [UpgradeRecord.Directed, hkind, hfrom, hto]
    exact hafter
  refine ⟨h.recorded (fun r hr => ?_) hdirected, fun p hp v hv => ?_⟩
  · cases hlast.symm.trans hr
    exact ⟨hfrom, hfromHash⟩
  · -- the version falls, so a pending upgrade stays one to a later version
    cases hv
    rw [hto]
    exact (h.pending p hp _ (h.last last hlast).1).trans hafter

/-- No decision without its installation, and no rollback of a rollback. -/
def Call.Careful (s : State) : Call → Prop
  | .prepareUpgrade | .prepareRollback => False
  | .rollback => ∀ r ∈ s.history.getLast?, r.wasRollback = false
  | _ => True

theorem execute_sound (h : Sound wasmHash s) (hc : c.Careful s) (hrun : (execute env s c).run m = some s') :
    Sound wasmHash s' := by
  cases c with
  | scheduleUpgrade hash target mig =>
    obtain ⟨admin, current, hcurrent, hafter, rfl⟩ := scheduleUpgrade_spec hrun
    refine ⟨{ h.toLineage with }, fun p hp v hv => ?_⟩
    cases hp
    cases hcurrent.symm.trans hv
    exact hafter
  | executeUpgrade =>
    obtain ⟨_, hrun⟩ := run_snd_map hrun
    exact h.upgrade hrun
  | rollback =>
    obtain ⟨_, hrun⟩ := run_snd_map hrun
    exact h.rollback hc hrun
  | prepareUpgrade | prepareRollback => exact hc.elim
  | cancelUpgrade =>
    simp only [execute, cancelUpgrade, run_iff] at hrun
    obtain ⟨-, -, -, -, rfl⟩ := hrun
    exact ⟨{ h.toLineage with }, nofun⟩
  | setPaused paused =>
    simp only [execute, setPaused, run_iff] at hrun
    obtain ⟨-, -, rfl⟩ := hrun
    exact { h with }
  | recordMigration name =>
    simp only [execute, recordMigration, run_iff] at hrun
    obtain ⟨-, -, -, -, -, -, rfl⟩ := hrun
    exact { h with }
  | setUpgradeDelay delaySeconds =>
    simp only [execute, setUpgradeDelay, run_iff] at hrun
    obtain ⟨-, -, -, -, rfl⟩ := hrun
    exact { h with }

end Steps

/-! ## Runs -/

abbrev Rule := TransitionSystem.Rule Env State Call

/-- Time does not run backwards. -/
abbrev Timely : Rule := TransitionSystem.Ordered fun env => (env.timestamp : ℤ)

def Careful : Rule := fun env env' s c => Timely env env' s c ∧ c.Careful s

/-- **Upgrade lineage.** In a run in which no decision function is called by itself and no rollback is rolled back, the
hash on record is the one last installed, the records form a line that ends in the current version and hash, every
upgrade is to a later version and every rollback to an earlier one. An upgrade is executed no earlier than the delay in
force when it was scheduled after that, if the end of the delay fits its type. -/
theorem upgrade_lineage {m : Mode} {wasmHash : Hash} {env : Env} {s : State}
    (h : (upgrades m wasmHash).Reach Careful env s) : (s.current = some (s.installed.getD wasmHash) ∧
      s.history.IsChain (fun r r' => r'.fromVersion = r.toVersion ∧ r'.fromWasmHash = r.toWasmHash) ∧
      (∀ r ∈ s.history.getLast?, s.version = some r.toVersion ∧ s.current = some r.toWasmHash) ∧
      ∀ r ∈ s.history, if r.wasRollback then r.fromVersion.isAfter r.toVersion else r.toVersion.isAfter r.fromVersion) ∧
    ∀ {env₁ hash target mig s₁}, (scheduleUpgrade env₁ s hash target mig).run m = some s₁ →
      (env₁.timestamp : ℤ) + s.upgradeDelay ≤ u64.max →
      ∀ {env₂ s₂ record s₃}, s₂.pending = s₁.pending → (executeUpgrade env₂ s₂).run m = some (record, s₃) →
        (env₁.timestamp : ℤ) + s.upgradeDelay ≤ record.executedAt := by
  have hs : Sound wasmHash s := by
    refine h.invariant (P := fun _ s => Sound wasmHash s) ?_ fun hs hok hstep => execute_sound hs hok.2 hstep
    rintro e s ⟨admin, version, hinit⟩
    simp only [initializeUpgrades, run_iff] at hinit
    obtain ⟨-, -, -, -, rfl⟩ := hinit
    exact ⟨⟨rfl, .nil, nofun, nofun⟩, nofun⟩
  refine ⟨⟨hs.current, hs.chain, hs.last, hs.directed⟩, ?_⟩
  intro env₁ hash target mig s₁ hschedule hfits env₂ s₂ record s₃ hpending hexecute
  obtain ⟨admin, current, -, -, rfl⟩ := scheduleUpgrade_spec hschedule
  obtain ⟨t, hprepared, -⟩ := install_spec hexecute
  obtain ⟨p, hp, htime, -, -, -, hat, -⟩ := prepareUpgrade_spec hprepared
  cases hpending.symm.trans hp
  have hsum : (u64.saturate (env₁.timestamp + s.upgradeDelay) : ℤ) = env₁.timestamp + s.upgradeDelay :=
    saturate_of_fits ⟨add_nonneg env₁.timestamp.lo s.upgradeDelay.lo, hfits⟩
  rw [hat, ← hsum]
  exact htime

instance (s : State) : (c : Call) → Decidable (c.Careful s)
  | .prepareUpgrade | .prepareRollback => .isFalse id
  | .rollback => inferInstanceAs (Decidable (∀ r ∈ s.history.getLast?, r.wasRollback = false))
  | .scheduleUpgrade .. | .cancelUpgrade | .setPaused _ | .executeUpgrade | .recordMigration _ | .setUpgradeDelay _ =>
    .isTrue trivial

instance (env env' : Env) (s : State) (c : Call) : Decidable (Careful env env' s c) :=
  inferInstanceAs (Decidable (_ ∧ _))

namespace Sample

export Host.Accounts (admin)

/-- The environment of the admin's calls at a time. -/
def atTime (time : ℤ) : Env := .signed [admin] 0 time

def version (major : ℤ) : Version := ⟨u32.wrap major, 0, 0⟩

def deployment : (upgrades .wrapping ⟨1⟩).Deployment where
  env := atTime 0
  state := { admin := some admin, version := some (version 1), current := some ⟨1⟩, delay := some defaultUpgradeDelay }
  starts := ⟨admin, version 1, rfl⟩

/-- The state that calls lead to. -/
def after (calls : List (Env × Call)) : Option State := (deployment.after Timely calls).map Prod.snd

/-- An upgrade after two days, and its rollback. -/
def undone (major : ℤ) : List (Env × Call) :=
  [(atTime 0, .scheduleUpgrade ⟨2⟩ (version major) false), (atTime 172800, .executeUpgrade), (atTime 200000, .rollback)]

theorem upgrade_lineage_undone : ∃ env s, (upgrades .wrapping ⟨1⟩).Reach Careful env s ∧ s.history.length = 2 ∧
    s.current = some (s.installed.getD ⟨1⟩) := by
  have hreach := TransitionSystem.Deployment.reach_after (evaluated (o := deployment.after Careful (undone 2)))
  exact ⟨_, _, hreach, by decide +kernel, (upgrade_lineage hreach).1.1⟩

/-- A decision without its installation; a rollback of a rollback, to a later version; and an upgrade to an earlier
version, from one that a second rollback has brought back after the upgrade was scheduled. -/
theorem lineage_broken :
    (after [(atTime 0, .scheduleUpgrade ⟨2⟩ (version 2) false), (atTime 172800, .prepareUpgrade)]).map
      (fun s => (s.current, s.installed)) = some (some ⟨2⟩, none) ∧
    (after (undone 2 ++ [(atTime 200000, .rollback)])).map (fun s => s.history.getLast?.map fun r =>
      (r.wasRollback, decide r.Directed)) = some (some (true, false)) ∧
    (after (undone 3 ++ [(atTime 200000, .scheduleUpgrade ⟨3⟩ (version 2) false), (atTime 200000, .rollback),
      (atTime 400000, .executeUpgrade)])).map (fun s => s.history.getLast?.map fun r =>
        (r.wasRollback, decide r.Directed)) = some (some (false, false)) := by
  refine ⟨?_, ?_, ?_⟩ <;> decide +kernel

end Sample

end ArenaX.UpgradeSystem
