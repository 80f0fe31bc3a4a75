/-
Validator penalties: slashes by severity, taken from the summary of a user's tournament stakes and paid out of the
contract, their records and history, and appeals against them.
-/
import ArenaX.StakingManager.Tournament

namespace ArenaX.StakingManager

open Machine Exec
open Host (Address)

def configureSlashing (env : Env) (s : State) (config : SlashConfig) : Result State := do
  requireAdmin env s
  reject ((config.burnBps : Int) > 10000) "burn_bps exceeds 100%"
  reject (config.slashAmounts = []) "slash_amounts must not be empty"
  pure { s with penalty.config := some config }

/-! ## Slashing -/

/-- One signer of a multi-signature: a repeated one is skipped, a registered one must have signed and counts. -/
def verifySigner (env : Env) (registered : List Address) (acc : List Address × U32) (signer : Address) :
    Result (List Address × U32) :=
  if signer ∈ acc.1 then pure acc
  else if signer ∈ registered then do
    env.requireAuth signer
    pure (acc.1 ++ [signer], u32.wrap (acc.2 + 1))
  else pure (acc.1 ++ [signer], acc.2)

/-- Two registered governance signers have signed. -/
def requireMultisig (env : Env) (s : State) (signers : Option (List Address)) : Result Unit := do
  let multisigSigners ← okOr signers "severity 4 requires 2-of-N multisig signers"
  reject (multisigSigners.length < 2) "severity 4 requires at least 2 signers"
  let verified ← multisigSigners.foldlM (verifySigner env s.penalty.governanceSigners) ([], 0)
  reject ((verified.2 : Int) < 2) "severity 4 requires at least 2 registered governance signers"

/-- Only the highest severity needs more than the admin. -/
def requireSeverity (env : Env) (s : State) (severity : U32) (signers : Option (List Address)) : Result Unit :=
  if (severity : Int) = 4 then requireMultisig env s signers else pure ()

def State.getHistory (s : State) (validator : Address) : ValidatorSlashHistory :=
  (s.penalty.history.get validator).getD ⟨validator, 0, 0, [], none, 0⟩

/-- A slash follows too soon after the last one. -/
def ValidatorSlashHistory.CoolingDown (history : ValidatorSlashHistory) (config : SlashConfig) (now : U64) : Prop :=
  0 < (history.lastSlashTime : Int) ∧ 0 < (config.minSlashIntervalSeconds : Int) ∧
    (now : Int) < u64.wrap (history.lastSlashTime + config.minSlashIntervalSeconds)

instance (history : ValidatorSlashHistory) (config : SlashConfig) (now : U64) :
    Decidable (history.CoolingDown config now) := inferInstanceAs (Decidable (_ ∧ _))

/-- What a slash takes from a validator: the amount requested, up to the stakes on its summary. -/
def slashedAmount (s : State) (validator : Address) (requested : I128) : I128 :=
  requested.min (s.getUserStakeInfo validator).totalStaked

/-- Take a slash off the summary of the validator's stakes; its stakes stay as they are. -/
def slashStakeInfo (s : State) (validator : Address) (amount : I128) : Result State := do
  let info := s.getUserStakeInfo validator
  let totalStaked ← unchecked i128 (info.totalStaked - amount)
  let totalSlashed ← unchecked i128 (info.totalSlashed + amount)
  pure { s with
    tournament.userInfo := s.tournament.userInfo.set validator { info with totalStaked, totalSlashed } }

section

variable (env : Env) (s : State)

/-- Slash a validator: part of the slash goes to the admin, to be burned, and the rest to the treasury. -/
def slashValidator (admin validator : Address) (severity reason : U32) (rationale : String)
    (signers : Option (List Address)) : Result (BytesN32 × State) := do
  requireAdmin env s
  env.requireAuth admin
  let config ← okOr s.penalty.config "slash config not set"
  reject (config.enabled = false) "slashing disabled"
  reject ((severity : Int) ≥ config.slashAmounts.length) "invalid severity level"
  requireSeverity env s severity signers
  let history := s.getHistory validator
  reject (history.CoolingDown config env.timestamp) "slash cooldown active"
  let requested ← okOr (config.slashAmounts[(severity : Int).toNat]?) "severity out of range"
  let actual := slashedAmount s validator requested
  let s ← slashStakeInfo s validator actual
  let burnAmount ← bpsOf actual config.burnBps
  let treasuryAmount ← unchecked i128 (actual - burnAmount)
  let s ← transferIfPositive env s config.axToken env.currentContract admin burnAmount
  let s ← transferIfPositive env s config.axToken env.currentContract config.treasuryAddress treasuryAmount
  let slashId := env.counterToBytesN s.penalty.counter
  let record : SlashRecord := ⟨slashId, validator, actual, severity, reason, rationale, env.timestamp, burnAmount,
    treasuryAmount, false, false, false⟩
  let totalSlashed ← unchecked i128 (history.totalSlashed + actual)
  pure (slashId, { s with
    penalty.counter := u64.wrap (s.penalty.counter + 1)
    penalty.record := s.penalty.record.set slashId record
    penalty.history := s.penalty.history.set validator { history with
      totalSlashed
      slashCount := u32.wrap (history.slashCount + 1)
      slashIds := history.slashIds ++ [slashId]
      lastSlashTime := env.timestamp } })

/-! ## Appeals -/

def appealSlash (validator : Address) (slashId : BytesN32) (reason : U32)
    (appealRationale : String) : Result State := do
  env.requireAuth validator
  let config ← okOr s.penalty.config "slash config not set"
  let record ← okOr (s.penalty.record.get slashId) "slash record not found"
  reject (record.validator ≠ validator) "only the slashed validator may appeal"
  reject (record.appealed = true) "already appealed"
  reject ((config.appealWindowSeconds : Int) = 0) "appeals are disabled"
  reject ((env.timestamp : Int) > u64.wrap (record.slashedAt + config.appealWindowSeconds)) "appeal window expired"
  let history ← okOr (s.penalty.history.get validator) "slash history not found"
  pure { s with
    penalty.record := s.penalty.record.set slashId { record with appealed := true }
    penalty.appeal := s.penalty.appeal.set slashId
      ⟨slashId, validator, reason, appealRationale, env.timestamp, false, false⟩
    penalty.history := s.penalty.history.set validator { history with activeAppeal := some slashId } }

def updateHistory (s : State) (validator : Address) (update : ValidatorSlashHistory → ValidatorSlashHistory) :
    Result State := do
  let history ← okOr (s.penalty.history.get validator) "slash history not found"
  pure { s with penalty.history := s.penalty.history.set validator (update history) }

/-- Reverse a slash: treasury and admin pay back what they got, and the summary of the stakes is restored. -/
def grantAppeal (admin : Address) (record : SlashRecord) : Result State := do
  let config ← okOr s.penalty.config "slash config not set"
  let s ← transferIfPositive env s config.axToken config.treasuryAddress env.currentContract record.treasuryAmount
  let s ← transferIfPositive env s config.axToken admin env.currentContract record.burnedAmount
  let info := s.getUserStakeInfo record.validator
  let totalStaked ← unchecked i128 (info.totalStaked + record.amount)
  let totalSlashed := i128.saturate (info.totalSlashed - record.amount)
  let s := { s with
    tournament.userInfo := s.tournament.userInfo.set record.validator { info with totalStaked, totalSlashed } }
  updateHistory s record.validator fun history => { history with
    totalSlashed := i128.saturate (history.totalSlashed - record.amount)
    activeAppeal := none }

/-- Reverse the slash or let it stand. -/
def settleAppeal (admin : Address) (record : SlashRecord) (grant : Bool) : Result State :=
  if grant then grantAppeal env s admin record
  else updateHistory s record.validator fun history => { history with activeAppeal := none }

def resolveAppeal (admin : Address) (slashId : BytesN32) (grant : Bool) : Result State := do
  requireAdmin env s
  env.requireAuth admin
  let appeal ← okOr (s.penalty.appeal.get slashId) "appeal not found"
  reject (appeal.resolved = true) "appeal already resolved"
  let record ← okOr (s.penalty.record.get slashId) "slash record not found"
  reject (record.appealed = false) "no active appeal on this slash"
  let s ← settleAppeal env s admin record grant
  pure { s with
    penalty.appeal := s.penalty.appeal.set slashId { appeal with resolved := true, granted := grant }
    penalty.record := s.penalty.record.set slashId { record with appealResolved := true, appealGranted := grant } }

end

/-! ## What the operations do -/

section Specs

variable {m : Mode} {env : Env} {s s' : State} {admin validator : Address} {slashId : BytesN32} {amount : I128}

theorem configureSlashing_spec {config : SlashConfig} (h : (configureSlashing env s config).run m = some s') :
    env.AdminSigned s.admin ∧ (config.burnBps : ℤ) ≤ 10000 ∧ s' = { s with penalty.config := some config } := by
  simp only [configureSlashing, run_iff, run_requireAdmin, not_lt] at h
  obtain ⟨-, hadmin, -, hle, -, -, rfl⟩ := h
  exact ⟨hadmin, hle, rfl⟩

theorem slashStakeInfo_spec (h : (slashStakeInfo s validator amount).run m = some s') :
    ∃ info, s' = { s with tournament.userInfo := s.tournament.userInfo.set validator info } := by
  simp only [slashStakeInfo, run_iff] at h
  obtain ⟨_, -, _, -, rfl⟩ := h
  exact ⟨_, rfl⟩

theorem slashValidator_spec {severity reason : U32} {rationale : String} {signers : Option (List Address)}
    (h : (slashValidator env s admin validator severity reason rationale signers).run m = some (slashId, s')) :
    env.AdminSigned s.admin ∧ admin ∈ env.signers ∧ slashId = env.counterToBytesN s.penalty.counter ∧
    ∃ config requested burn info, s.penalty.config = some config ∧
      config.slashAmounts[(severity : ℤ).toNat]? = some requested ∧
      (bpsOf (slashedAmount s validator requested) config.burnBps).run m = some burn ∧
      (m = .exact → i128.Fits (slashedAmount s validator requested - burn) ∧
        i128.Fits ((s.getHistory validator).totalSlashed + slashedAmount s validator requested)) ∧ s' = { s with
        tokens := (s.tokens.move config.axToken env.currentContract admin (max burn 0)).move config.axToken
          env.currentContract config.treasuryAddress
          (max (i128.wrap (slashedAmount s validator requested - burn) : ℤ) 0)
        tournament.userInfo := s.tournament.userInfo.set validator info
        penalty.counter := u64.wrap (s.penalty.counter + 1)
        penalty.record := s.penalty.record.set slashId ⟨slashId, validator, slashedAmount s validator requested,
          severity, reason, rationale, env.timestamp, burn,
          i128.wrap (slashedAmount s validator requested - burn), false, false, false⟩
        penalty.history := s.penalty.history.set validator { s.getHistory validator with
          totalSlashed := i128.wrap ((s.getHistory validator).totalSlashed + slashedAmount s validator requested)
          slashCount := u32.wrap ((s.getHistory validator).slashCount + 1)
          slashIds := (s.getHistory validator).slashIds ++ [slashId]
          lastSlashTime := env.timestamp } } := by
  simp only [slashValidator, run_iff, run_requireAuth, run_requireAdmin, run_unchecked, Prod.mk.injEq] at h
  obtain ⟨-, hstored, -, hadmin, _, hconfig, -, -, -, -, -, -, -, -, _, hrequested, _, hinfo, _, hburn,
    _, ⟨rfl, hfits⟩, _, hpayAdmin, _, hpayTreasury, _, ⟨rfl, htotal⟩, rfl, rfl⟩ := h
  obtain ⟨_, rfl⟩ := slashStakeInfo_spec hinfo
  cases transferIfPositive_spec hpayAdmin
  cases transferIfPositive_spec hpayTreasury
  exact ⟨hstored, hadmin, rfl, _, _, _, _, hconfig, hrequested, hburn,
    fun hm => ⟨hfits hm, htotal hm⟩, rfl⟩

theorem appealSlash_spec {reason : U32} {rationale : String}
    (h : (appealSlash env s validator slashId reason rationale).run m = some s') :
    validator ∈ env.signers ∧ ∃ record history, s.penalty.record.get slashId = some record ∧
      record.validator = validator ∧ record.appealed = false ∧ s.penalty.history.get validator = some history ∧
      s' = { s with
        penalty.record := s.penalty.record.set slashId { record with appealed := true }
        penalty.appeal := s.penalty.appeal.set slashId
          ⟨slashId, validator, reason, rationale, env.timestamp, false, false⟩
        penalty.history := s.penalty.history.set validator { history with activeAppeal := some slashId } } := by
  simp only [appealSlash, run_iff, run_requireAuth, ne_eq, not_not, Bool.not_eq_true] at h
  obtain ⟨-, hvalidator, _, -, _, hrecord, -, howner, -, hnew, -, -, -, -, _, hhistory, rfl⟩ := h
  exact ⟨hvalidator, _, _, hrecord, howner, hnew, hhistory, rfl⟩

theorem updateHistory_spec {update : ValidatorSlashHistory → ValidatorSlashHistory}
    (h : (updateHistory s validator update).run m = some s') :
    ∃ history, s.penalty.history.get validator = some history ∧
      s' = { s with penalty.history := s.penalty.history.set validator (update history) } := by
  simp only [updateHistory, run_iff] at h
  obtain ⟨_, hget, rfl⟩ := h
  exact ⟨_, hget, rfl⟩

/-- The history of a validator after an appeal against a slash of an amount is resolved. -/
def ValidatorSlashHistory.settled (history : ValidatorSlashHistory) (amount : I128) (grant : Bool) :
    ValidatorSlashHistory :=
  { history with
    totalSlashed := if grant then i128.saturate (history.totalSlashed - amount) else history.totalSlashed
    activeAppeal := none }

theorem grantAppeal_spec {record : SlashRecord} (h : (grantAppeal env s admin record).run m = some s') :
    ∃ config info history, s.penalty.config = some config ∧
      s.penalty.history.get record.validator = some history ∧ s' = { s with
        tokens := (s.tokens.move config.axToken config.treasuryAddress env.currentContract
          (max record.treasuryAmount 0)).move config.axToken admin env.currentContract
          (max record.burnedAmount 0)
        tournament.userInfo := s.tournament.userInfo.set record.validator info
        penalty.history := s.penalty.history.set record.validator (history.settled record.amount true) } := by
  simp only [grantAppeal, run_iff, run_unchecked] at h
  obtain ⟨_, hconfig, _, htreasury, _, hadmin, _, ⟨rfl, -⟩, h⟩ := h
  cases transferIfPositive_spec htreasury
  cases transferIfPositive_spec hadmin
  obtain ⟨_, hhistory, rfl⟩ := updateHistory_spec h
  exact ⟨_, _, _, hconfig, hhistory, rfl⟩

/-- A granted appeal brings tokens back; a denied one moves none. -/
theorem resolveAppeal_spec {grant : Bool} (h : (resolveAppeal env s admin slashId grant).run m = some s') :
    env.AdminSigned s.admin ∧ admin ∈ env.signers ∧
    ∃ appeal record history, s.penalty.appeal.get slashId = some appeal ∧
      appeal.resolved = false ∧ s.penalty.record.get slashId = some record ∧ record.appealed = true ∧
      s.penalty.history.get record.validator = some history ∧
      ∃ penalty, penalty = { s.penalty with
          history := s.penalty.history.set record.validator (history.settled record.amount grant)
          appeal := s.penalty.appeal.set slashId { appeal with resolved := true, granted := grant }
          record := s.penalty.record.set slashId { record with appealResolved := true, appealGranted := grant } } ∧
        (s' = { s with penalty := penalty } ∨ ∃ config info, s.penalty.config = some config ∧ s' = { s with
          tokens := (s.tokens.move config.axToken config.treasuryAddress env.currentContract
            (max record.treasuryAmount 0)).move config.axToken admin env.currentContract
            (max record.burnedAmount 0)
          tournament.userInfo := s.tournament.userInfo.set record.validator info
          penalty := penalty }) := by
  simp only [resolveAppeal, run_iff, run_requireAuth, run_requireAdmin, Bool.not_eq_true, Bool.not_eq_false] at h
  obtain ⟨-, hstored, -, hadmin, appeal, happeal, -, hopen, record, hrecord, -, happealed, t, hsettle, rfl⟩ := h
  refine ⟨hstored, hadmin, appeal, record, ?_⟩
  cases grant with
  | true =>
    obtain ⟨_, _, history, hconfig, hhistory, rfl⟩ := grantAppeal_spec hsettle
    exact ⟨history, happeal, hopen, hrecord, happealed, hhistory, _, rfl, .inr ⟨_, _, hconfig, rfl⟩⟩
  | false =>
    obtain ⟨_, hhistory, rfl⟩ := updateHistory_spec hsettle
    exact ⟨_, happeal, hopen, hrecord, happealed, hhistory, _, rfl, .inl rfl⟩

end Specs

end ArenaX.StakingManager
