/-
The ledger of validator penalties: the history of each validator, the record of each slash and the appeal against it.
The total of a history is the sum over its slashes that stand. An open appeal is named in the history only while no
other appeal of the validator is opened or resolved, so the name is right where a validator appeals one slash at a
time.
-/
import ArenaX.StakingManager.Slashing

namespace ArenaX.StakingManager

open Machine Exec Sample
open Host (Address)
open Table (get_set share)

/-- What is left of a slash: nothing, once an appeal is granted. -/
def SlashRecord.standing (record : SlashRecord) : ℤ := if record.appealGranted then 0 else record.amount

/-- The slash is paid out in full, and its marks are made in order. -/
structure SlashRecord.Filed (record : SlashRecord) : Prop where
  parts : (record.burnedAmount : ℤ) + record.treasuryAmount = record.amount
  resolved : record.appealed = false → record.appealResolved = false
  granted : record.appealResolved = false → record.appealGranted = false

/-- An appeal and the record of the slash it is against agree. -/
structure AppealRecord.Against (appeal : AppealRecord) (record : SlashRecord) : Prop where
  appealed : record.appealed = true
  appellant : appeal.appellant = record.validator
  resolved : appeal.resolved = record.appealResolved

/-- The sum of what is left of the slashes of a validator. -/
def State.standing (s : State) (validator : Address) : ℤ :=
  ((s.getHistory validator).slashIds.map fun slashId =>
    share SlashRecord.standing (s.penalty.record.get slashId)).sum

/-- Histories, records and appeals agree. -/
structure State.Audited (s : State) : Prop where
  nodup : ∀ validator, (s.getHistory validator).slashIds.Nodup
  listed : ∀ validator slashId, slashId ∈ (s.getHistory validator).slashIds ↔
    ∃ record ∈ s.penalty.record.get slashId, record.validator = validator
  total : ∀ validator, ((s.getHistory validator).totalSlashed : ℤ) = s.standing validator
  filed : s.penalty.record.All fun _ record => record.Filed
  against : s.penalty.appeal.All fun slashId appeal =>
    ∃ record ∈ s.penalty.record.get slashId, appeal.Against record

/-- An open appeal is the active one of its validator. -/
def State.Tracked (s : State) : Prop := s.penalty.appeal.All fun slashId appeal =>
  appeal.resolved = false → (s.getHistory appeal.appellant).activeAppeal = some slashId

section Updates

variable {s s' : State} {validator : Address} {slashId : BytesN32} {record record' : SlashRecord}
  {history : ValidatorSlashHistory} {appeal : AppealRecord}

theorem getHistory_of_get (h : s.penalty.history.get validator = some history) : s.getHistory validator = history := by
  rw [State.getHistory, h, Option.getD_some]

theorem getHistory_set (h : s'.penalty.history = s.penalty.history.set validator history) (other : Address) :
    s'.getHistory other = if other = validator then history else s.getHistory other := by
  unfold State.getHistory
  rw [h, get_set]
  split <;> rfl

/-- The ledger depends on the three tables only. -/
theorem State.Audited.congr (hs : s.Audited) (hhistory : s'.penalty.history = s.penalty.history)
    (hrecord : s'.penalty.record = s.penalty.record) (happeal : s'.penalty.appeal = s.penalty.appeal) :
    s'.Audited := by
  have hget : s'.getHistory = s.getHistory := by
    funext v
    rw [State.getHistory, hhistory, State.getHistory]
  constructor
  · rw [hget]; exact hs.nodup
  · rw [hget, hrecord]; exact hs.listed
  · unfold State.standing; rw [hget, hrecord]; exact hs.total
  · rw [hrecord]; exact hs.filed
  · rw [happeal, hrecord]; exact hs.against

theorem State.Audited.not_listed (hs : s.Audited) (hnone : s.penalty.record.get slashId = none) (v : Address) :
    slashId ∉ (s.getHistory v).slashIds := by
  rw [hs.listed v, hnone]
  rintro ⟨_, hmem, -⟩
  cases hmem

/-- A new slash is filed under an id of its own. -/
theorem State.Audited.file (hs : s.Audited) (hnone : s.penalty.record.get slashId = none)
    (hrecord : s'.penalty.record = s.penalty.record.set slashId record)
    (hhistory : s'.penalty.history = s.penalty.history.set record.validator history)
    (happeal : s'.penalty.appeal = s.penalty.appeal)
    (hids : history.slashIds = (s.getHistory record.validator).slashIds ++ [slashId])
    (htotal : history.totalSlashed = (s.getHistory record.validator).totalSlashed + record.standing)
    (hfiled : record.Filed) : s'.Audited := by
  have hnot := hs.not_listed hnone
  -- the sum over the ids listed before does not see the new record
  have hkept : ∀ v, ((s.getHistory v).slashIds.map fun id =>
      share SlashRecord.standing (s'.penalty.record.get id)).sum = s.standing v := by
    intro v
    rw [hrecord, Table.sum_share_set, List.count_eq_zero_of_not_mem (hnot v), zero_smul, add_zero]
    rfl
  constructor
  · intro v
    rw [getHistory_set hhistory]
    split
    · rw [hids]
      exact (hs.nodup _).append (List.nodup_singleton _) (by simpa using hnot _)
    · exact hs.nodup v
  · intro v id
    rw [getHistory_set hhistory, hrecord, get_set]
    by_cases hid : id = slashId
    · subst hid
      by_cases hv : v = record.validator
      · simp [hv, hids]
      · simp [hv, hnot v, Ne.symm hv]
    · rw [if_neg hid, ← hs.listed]
      split
      · rename_i hv
        simp [hids, hid, hv]
      · rfl
  · intro v
    unfold State.standing
    rw [getHistory_set hhistory]
    split
    · rw [hids, List.map_append, List.sum_append, hkept, htotal, hs.total, hrecord]
      simp
    · rw [hkept, hs.total]
  · rw [hrecord]
    exact hs.filed.set hfiled
  · rw [happeal, hrecord]
    intro id a ha
    obtain ⟨_, hr, hagainst⟩ := hs.against id a ha
    refine ⟨_, ?_, hagainst⟩
    rw [Table.get_set_of_ne]
    · exact hr
    · rintro rfl
      rw [hnone] at hr
      cases hr

/-- A record is marked, with its appeal and the history of its validator. -/
theorem State.Audited.mark (hs : s.Audited) (hget : s.penalty.record.get slashId = some record)
    (hrecord : s'.penalty.record = s.penalty.record.set slashId record')
    (hhistory : s'.penalty.history = s.penalty.history.set record.validator history)
    (happeal : s'.penalty.appeal = s.penalty.appeal.set slashId appeal)
    (hvalidator : record'.validator = record.validator)
    (hids : history.slashIds = (s.getHistory record.validator).slashIds)
    (htotal : history.totalSlashed =
      (s.getHistory record.validator).totalSlashed + (record'.standing - record.standing))
    (hfiled : record'.Filed) (hagainst : appeal.Against record') : s'.Audited := by
  have hlisted : ∀ v, slashId ∈ (s.getHistory v).slashIds ↔ v = record.validator := by
    intro v
    rw [hs.listed v, hget]
    simp [eq_comm]
  have hsum : ∀ v, ((s.getHistory v).slashIds.map fun id =>
      share SlashRecord.standing (s'.penalty.record.get id)).sum =
      s.standing v + if v = record.validator then record'.standing - record.standing else 0 := by
    intro v
    rw [hrecord, Table.sum_share_set, (hs.nodup v).count, hget]
    simp only [hlisted, ite_smul, one_smul, zero_smul]
    rfl
  constructor
  · intro v
    rw [getHistory_set hhistory]
    split
    · rw [hids]; exact hs.nodup _
    · exact hs.nodup v
  · intro v id
    have hids' : (s'.getHistory v).slashIds = (s.getHistory v).slashIds := by
      rw [getHistory_set hhistory]
      split
      · rename_i hv
        rw [hids, hv]
      · rfl
    rw [hids', hrecord, get_set]
    split
    · rename_i hid
      rw [hid, hlisted]
      simp [hvalidator, eq_comm]
    · exact hs.listed v id
  · intro v
    unfold State.standing
    rw [getHistory_set hhistory]
    split
    · rename_i hv
      rw [hids, hsum, if_pos rfl, htotal, hs.total]
    · rename_i hv
      rw [hsum, if_neg hv, add_zero, hs.total]
  · rw [hrecord]
    exact hs.filed.set hfiled
  · rw [happeal, hrecord]
    intro id a ha
    rw [get_set] at ha ⊢
    split at ha
    · rename_i hid
      cases ha
      exact ⟨record', by simp [hid], hagainst⟩
    · rename_i hid
      rw [if_neg hid]
      exact hs.against id a ha

end Updates

/-! ## Steps -/

/-- A slash gets an id of its own, and it and a granted appeal stay in the range of the amounts. -/
def Call.Ledgered (env : Env) (s : State) : Call → Prop
  | .slashValidator _ validator severity .. =>
    s.penalty.record.get (env.counterToBytesN s.penalty.counter) = none ∧
    ∀ config ∈ s.penalty.config, ∀ requested ∈ config.slashAmounts[(severity : ℤ).toNat]?,
      i128.Fits (slashedAmount s validator requested * config.burnBps) ∧
      i128.Fits ((s.getHistory validator).totalSlashed + slashedAmount s validator requested)
  | .resolveAppeal _ slashId grant => grant = true → ∀ record ∈ s.penalty.record.get slashId,
    i128.Fits ((s.getHistory record.validator).totalSlashed - record.amount)
  | _ => True

instance (env : Env) (s : State) (c : Call) : Decidable (c.Ledgered env s) := by
  apply Call.casesOn (motive := fun c => Decidable (c.Ledgered env s)) c <;> intros <;> dsimp only [Call.Ledgered] <;>
    infer_instance

/-- No appeal is opened while another one of the validator is active. -/
def Call.OneAppeal (s : State) : Call → Prop
  | .appealSlash validator .. => (s.getHistory validator).activeAppeal = none
  | _ => True

instance (s : State) (c : Call) : Decidable (c.OneAppeal s) := by
  apply Call.casesOn (motive := fun c => Decidable (c.OneAppeal s)) c <;> intros <;> dsimp only [Call.OneAppeal] <;>
    infer_instance

/-- How often a call appeals a slash. -/
def Call.appeals (slashId : BytesN32) : Call → ℤ
  | .appealSlash _ id .. => if id = slashId then 1 else 0
  | _ => 0

/-- How often a call restores a slash. -/
def Call.restores (slashId : BytesN32) : Call → ℤ
  | .resolveAppeal _ id grant => if id = slashId ∧ grant = true then 1 else 0
  | _ => 0

section Steps

variable {m : Mode} {env : Env} {s s' : State} {c : Call} {admin validator : Address} {slashId : BytesN32}
  {severity reason : U32} {rationale : String} {signers : Option (List Address)} {grant : Bool}

theorem resolveAppeal_penalty (h : (resolveAppeal env s admin slashId grant).run m = some s') :
    ∃ appeal record history, s.penalty.appeal.get slashId = some appeal ∧ appeal.resolved = false ∧
      s.penalty.record.get slashId = some record ∧ record.appealed = true ∧
      s.getHistory record.validator = history ∧
      s'.penalty.history = s.penalty.history.set record.validator (history.settled record.amount grant) ∧
      s'.penalty.appeal = s.penalty.appeal.set slashId { appeal with resolved := true, granted := grant } ∧
      s'.penalty.record =
        s.penalty.record.set slashId { record with appealResolved := true, appealGranted := grant } := by
  obtain ⟨-, -, _, _, _, happeal, hopen, hrecord, happealed, hhistory, _, rfl, hs'⟩ :=
    resolveAppeal_spec h
  refine ⟨_, _, _, happeal, hopen, hrecord, happealed, getHistory_of_get hhistory, ?_⟩
  rcases hs' with rfl | ⟨_, _, -, rfl⟩ <;> exact ⟨rfl, rfl, rfl⟩

/-- An open appeal is against a slash that stands. -/
theorem State.Audited.open_standing (hs : s.Audited) {appeal : AppealRecord} {record : SlashRecord}
    (happeal : s.penalty.appeal.get slashId = some appeal) (hopen : appeal.resolved = false)
    (hrecord : s.penalty.record.get slashId = some record) :
    appeal.Against record ∧ record.appealGranted = false := by
  obtain ⟨record', hrecord', hagainst⟩ := hs.against slashId appeal happeal
  cases hrecord.symm.trans hrecord'
  exact ⟨hagainst, (hs.filed slashId record hrecord).granted (hagainst.resolved.symm.trans hopen)⟩

theorem slashValidator_audited {ok : Rule} {e : Env} (hreach : (contract m).Reach ok e s) (hs : s.Audited)
    (hok : (Call.slashValidator admin validator severity reason rationale signers).Ledgered env s)
    (h : (slashValidator env s admin validator severity reason rationale signers).run m = some (slashId, s')) :
    s'.Audited := by
  obtain ⟨-, -, rfl, config, requested, burn, _, hconfig, hrequested, hburn, -, rfl⟩ := slashValidator_spec h
  obtain ⟨hfresh, hfits⟩ := hok
  obtain ⟨hproduct, htotal⟩ := hfits config hconfig requested hrequested
  obtain ⟨hpos, hneg⟩ := burn_bounds (burnBps_le hreach config hconfig) ((bpsOf_spec hburn).2 hproduct)
  have hbounds := I128.bounds (slashedAmount s validator requested)
  have hrest : (i128.wrap (slashedAmount s validator requested - burn) : ℤ) =
      slashedAmount s validator requested - burn := wrap_of_fits (i128_fits.2 (by omega))
  refine hs.file hfresh rfl rfl rfl rfl (wrap_of_fits htotal) ⟨?_, fun _ => rfl, fun _ => rfl⟩
  dsimp only
  omega

theorem appealSlash_audited (hs : s.Audited)
    (h : (appealSlash env s validator slashId reason rationale).run m = some s') : s'.Audited := by
  obtain ⟨-, record, history, hrecord, rfl, happealed, hhistory, rfl⟩ := appealSlash_spec h
  have hget := getHistory_of_get hhistory
  have hfiled := hs.filed slashId record hrecord
  have hunresolved := hfiled.resolved happealed
  refine hs.mark hrecord rfl rfl rfl rfl (by rw [hget]) ?_ ⟨hfiled.parts, fun hno => ?_, hfiled.granted⟩
    ⟨rfl, rfl, hunresolved.symm⟩
  · simp [hget, SlashRecord.standing]
  · cases hno

theorem resolveAppeal_audited (hs : s.Audited) (hok : (Call.resolveAppeal admin slashId grant).Ledgered env s)
    (h : (resolveAppeal env s admin slashId grant).run m = some s') : s'.Audited := by
  obtain ⟨appeal, record, history, happeal, hopen, hrecord, happealed, rfl, hhistory', happeal', hrecord'⟩ :=
    resolveAppeal_penalty h
  obtain ⟨hagainst, hstands⟩ := hs.open_standing happeal hopen hrecord
  have hfiled := hs.filed slashId record hrecord
  refine hs.mark hrecord hrecord' hhistory' happeal' rfl rfl ?_ ⟨hfiled.parts, fun hno => ?_, fun hno => ?_⟩
    ⟨happealed, hagainst.appellant, rfl⟩
  · unfold ValidatorSlashHistory.settled SlashRecord.standing
    cases grant with
    | true =>
      simp only [if_true, hstands, Bool.false_eq_true, if_false]
      rw [saturate_of_fits (hok rfl record hrecord)]
      ring
    | false => simp [hstands]
  · rw [happealed] at hno
    cases hno
  · cases hno

theorem execute_audited {ok : Rule} {e : Env} (hreach : (contract m).Reach ok e s) (hs : s.Audited)
    (hok : c.Ledgered env s) (h : (execute env s c).run m = some s') : s'.Audited := by
  cases hc : c.writesPenalty with
  | false =>
    have hkeeps := execute_keepsPenalty hc s' h
    exact hs.congr (by rw [hkeeps]) (by rw [hkeeps]) (by rw [hkeeps])
  | true =>
    cases c with
    | configureSlashing =>
      obtain ⟨-, -, rfl⟩ := configureSlashing_spec h
      exact hs.congr rfl rfl rfl
    | slashValidator =>
      obtain ⟨_, h⟩ := run_snd_map h
      exact slashValidator_audited hreach hs hok h
    | appealSlash => exact appealSlash_audited hs h
    | resolveAppeal => exact resolveAppeal_audited hs hok h
    | _ => cases hc

/-- The marks of a slash follow the calls that appeal and restore it. -/
theorem execute_marks (hs : s.Audited) (hok : c.Ledgered env s) (h : (execute env s c).run m = some s')
    (slashId : BytesN32) :
    share (fun record : SlashRecord => if record.appealed then (1 : ℤ) else 0) (s'.penalty.record.get slashId) =
      share (fun record : SlashRecord => if record.appealed then (1 : ℤ) else 0)
        (s.penalty.record.get slashId) + c.appeals slashId ∧
    share (fun record : SlashRecord => if record.appealGranted then (1 : ℤ) else 0)
        (s'.penalty.record.get slashId) =
      share (fun record : SlashRecord => if record.appealGranted then (1 : ℤ) else 0)
        (s.penalty.record.get slashId) + c.restores slashId := by
  cases hc : c.writesPenalty with
  | false =>
    rw [execute_keepsPenalty hc s' h]
    cases c <;> first | exact ⟨(add_zero _).symm, (add_zero _).symm⟩ | cases hc
  | true =>
    cases c with
    | configureSlashing =>
      obtain ⟨-, -, rfl⟩ := configureSlashing_spec h
      exact ⟨(add_zero _).symm, (add_zero _).symm⟩
    | slashValidator =>
      obtain ⟨id, h⟩ := run_snd_map h
      obtain ⟨-, -, rfl, _, _, _, _, -, -, -, -, rfl⟩ := slashValidator_spec h
      obtain ⟨hfresh, -⟩ := hok
      simp only [Call.appeals, Call.restores, add_zero, get_set]
      split
      · rename_i hid
        rw [hid, hfresh]
        exact ⟨rfl, rfl⟩
      · exact ⟨rfl, rfl⟩
    | appealSlash _ id =>
      obtain ⟨-, _, _, hrecord, -, happealed, -, rfl⟩ := appealSlash_spec h
      simp only [Call.appeals, Call.restores, get_set, eq_comm (a := id)]
      split
      · rename_i hid
        simp [hid, hrecord, happealed]
      · simp
    | resolveAppeal _ id grant =>
      obtain ⟨appeal, _, _, happeal, hopen, hrecord, happealed, -, -, -, hrecord'⟩ :=
        resolveAppeal_penalty h
      obtain ⟨-, hstands⟩ := hs.open_standing happeal hopen hrecord
      simp only [hrecord', Call.appeals, Call.restores, get_set, eq_comm (a := id)]
      split
      · rename_i hid
        simp [hid, hrecord, happealed, hstands]
      · rename_i hid
        simp [hid]
    | _ => cases hc

/-- Where a validator appeals one slash at a time, the open appeal stays the active one. -/
theorem execute_tracked (hs : s.Audited) (htracked : s.Tracked) (hok : c.Ledgered env s) (hone : c.OneAppeal s)
    (h : (execute env s c).run m = some s') : s'.Tracked := by
  cases hc : c.writesPenalty with
  | false =>
    have hkeeps := execute_keepsPenalty hc s' h
    unfold State.Tracked State.getHistory
    rw [hkeeps]
    exact htracked
  | true =>
    cases c with
    | configureSlashing =>
      obtain ⟨-, -, rfl⟩ := configureSlashing_spec h
      exact htracked
    | slashValidator _ validator =>
      obtain ⟨_, h⟩ := run_snd_map h
      obtain ⟨-, -, rfl, _, _, _, _, -, -, -, -, rfl⟩ := slashValidator_spec h
      intro id appeal happeal hopen
      rw [getHistory_set rfl]
      split
      · rename_i hv
        rw [← hv]
        exact htracked id appeal happeal hopen
      · exact htracked id appeal happeal hopen
    | appealSlash validator slashId =>
      obtain ⟨-, _, history, hrecord, -, -, hhistory, rfl⟩ := appealSlash_spec h
      intro id appeal happeal hopen
      rw [getHistory_set rfl]
      rw [get_set] at happeal
      split at happeal
      · rename_i hid
        cases happeal
        rw [if_pos rfl, hid]
      · have hactive := htracked id appeal happeal hopen
        split
        · rename_i hv
          have hnone : (s.getHistory validator).activeAppeal = none := hone
          rw [hv, hnone] at hactive
          cases hactive
        · exact hactive
    | resolveAppeal _ slashId =>
      obtain ⟨resolved, _, _, hresolved, hunresolved, hrecord, -, -, hhistory', happeal', -⟩ :=
        resolveAppeal_penalty h
      obtain ⟨hagainst, -⟩ := hs.open_standing hresolved hunresolved hrecord
      intro id appeal happeal hopen
      rw [getHistory_set hhistory']
      rw [happeal', get_set] at happeal
      split at happeal
      · cases happeal
        cases hopen
      · rename_i hid
        have hactive := htracked id appeal happeal hopen
        split
        · -- two open appeals of one validator would both be its active one
          rename_i hv
          have hother := htracked slashId resolved hresolved hunresolved
          rw [hagainst.appellant, ← hv, hactive] at hother
          exact absurd (Option.some.inj hother) hid
        · exact hactive
    | _ => cases hc

end Steps

/-! ## Runs -/

section Runs

variable {m : Mode} {e : Env} {s : State}

/-- Slashes with ids of their own, and no amount out of range. -/
def Ledgered : Rule := fun _ e' s c => c.Ledgered e' s

instance (e e' : Env) (s : State) (c : Call) : Decidable (Ledgered e e' s c) :=
  inferInstanceAs (Decidable (c.Ledgered e' s))

/-- The same, and every validator appeals one slash at a time. -/
def OneAtATime : Rule := fun _ e' s c => c.Ledgered e' s ∧ c.OneAppeal s
deriving Decidable

theorem init_audited (h : (contract m).init e s) : s.Audited ∧ s.Tracked ∧ s.penalty.record = ∅ := by
  obtain ⟨_, _, _, _, -, -, -, rfl⟩ := contract_init h
  refine ⟨⟨fun _ => List.nodup_nil, fun _ _ => ?_, fun _ => rfl, .empty, .empty⟩, .empty, rfl⟩
  simp [State.getHistory]

theorem Ledgered.audited (h : (contract m).Reach Ledgered e s) : s.Audited := by
  induction h with
  | init hinit => exact (init_audited hinit).1
  | step hreach hok hstep ih => exact execute_audited hreach ih hok hstep

theorem OneAtATime.tracked (h : (contract m).Reach OneAtATime e s) : s.Tracked := by
  induction h with
  | init hinit => exact (init_audited hinit).2.1
  | step hreach hok hstep ih =>
    exact execute_tracked (Ledgered.audited (hreach.mono And.left)) ih hok.1 hok.2 hstep

/-- Calls that set a mark of a slash, one each time, are at most one. -/
theorem Ledgered.tally_le_one (mark : SlashRecord → Bool) {q : Call → ℤ} {slashId : BytesN32} {n : ℤ}
    (hmark : ∀ {env s c s'}, s.Audited → c.Ledgered env s → (execute env s c).run m = some s' →
      share (fun record => if mark record then (1 : ℤ) else 0) (s'.penalty.record.get slashId) =
        share (fun record => if mark record then (1 : ℤ) else 0) (s.penalty.record.get slashId) + q c)
    (h : (contract m).Tally Ledgered (fun _ _ c => q c) n e s) : n ≤ 1 := by
  have hn : n = share (fun record => if mark record then (1 : ℤ) else 0) (s.penalty.record.get slashId) := by
    refine h.invariant (P := fun n _ s =>
      n = share (fun record => if mark record then (1 : ℤ) else 0) (s.penalty.record.get slashId)) ?_ ?_
    · intro e s hinit
      rw [(init_audited hinit).2.2]
      rfl
    · intro n e e' s c s' hreach ih hok hstep
      rw [hmark (Ledgered.audited hreach) hok hstep, ih]
  rw [hn]
  cases s.penalty.record.get slashId with
  | none => exact zero_le_one
  | some record =>
    rw [Table.share_some]
    split <;> omega

/-- In every run in which no amount leaves its range, a history lists the slashes of its validator once each and its
total is the sum of those that stand, every slash is paid out in full, and it is appealed and restored at most once;
where every validator appeals one slash at a time, a history without an active appeal has no open one. -/
theorem slash_ledger (h : (contract m).Reach Ledgered e s) :
    (∀ validator, (s.getHistory validator).slashIds.Nodup ∧
      (∀ slashId, slashId ∈ (s.getHistory validator).slashIds ↔
        ∃ record ∈ s.penalty.record.get slashId, record.validator = validator) ∧
      ((s.getHistory validator).totalSlashed : ℤ) = ((s.getHistory validator).slashIds.map fun slashId =>
        share (fun record : SlashRecord => if record.appealGranted then (0 : ℤ) else record.amount)
          (s.penalty.record.get slashId)).sum) ∧
    (s.penalty.record.All fun _ record =>
      (record.burnedAmount : ℤ) + record.treasuryAmount = record.amount) ∧
    (∀ slashId n, (contract m).Tally Ledgered (fun _ _ c => c.appeals slashId) n e s → n ≤ 1) ∧
    (∀ slashId n, (contract m).Tally Ledgered (fun _ _ c => c.restores slashId) n e s → n ≤ 1) ∧
    ((contract m).Reach OneAtATime e s → ∀ validator, (s.getHistory validator).activeAppeal = none →
      s.penalty.appeal.All fun _ appeal => appeal.appellant = validator → appeal.resolved = true) := by
  have hs := Ledgered.audited h
  refine ⟨fun validator => ⟨hs.nodup validator, hs.listed validator, hs.total validator⟩,
    hs.filed.imp fun _ _ hfiled => hfiled.parts, ?_, ?_, ?_⟩
  · intro slashId n
    exact Ledgered.tally_le_one SlashRecord.appealed fun hs hok hstep => (execute_marks hs hok hstep slashId).1
  · intro slashId n
    exact Ledgered.tally_le_one SlashRecord.appealGranted fun hs hok hstep => (execute_marks hs hok hstep slashId).2
  · rintro hone validator hnone slashId appeal happeal rfl
    by_contra hopen
    have hactive := OneAtATime.tracked hone slashId appeal happeal (Bool.not_eq_true _ ▸ hopen)
    rw [hnone] at hactive
    cases hactive

/-- Alice is slashed twice. -/
def slashedTwice : List (Env × Call) :=
  stakedBy alice ++
    [signed 20 (.slashValidator admin alice 0 0 "late" none), signed 30 (.slashValidator admin alice 0 0 "late" none)]

/-- After one of two slashes is appealed and restored, the other one stands. -/
theorem ledger_after_one_appeal : ∃ r, (deployment .wrapping).after OneAtATime (slashedTwice ++
      [signed 40 (.appealSlash alice 0 0 "unfair"), signed 50 (.resolveAppeal admin 0 true)]) = some r ∧
    ((r.2.getHistory alice).totalSlashed : ℤ) = 500 ∧ (r.2.getHistory alice).slashIds = [0, 1] ∧
    (∀ n, (contract .wrapping).Tally Ledgered (fun _ _ c => c.restores 0) n r.1 r.2 → n ≤ 1) ∧
    r.2.penalty.appeal.All fun _ appeal => appeal.appellant = alice → appeal.resolved = true := by
  refine ⟨_, evaluated, by decide +kernel, by decide +kernel, ?_, ?_⟩
  · exact (slash_ledger ((reach_after (evaluated _)).mono And.left)).2.2.2.1 0
  · exact (slash_ledger ((reach_after (evaluated _)).mono And.left)).2.2.2.2
      (reach_after (evaluated _)) alice (by decide +kernel)

/-- Alice appeals both slashes; once the second appeal is denied, none is active, and the first one is still open. -/
theorem open_appeal_is_forgotten : ∃ e s appeal, (contract .exact).Reach Unrestricted e s ∧
    (s.getHistory alice).activeAppeal = none ∧ s.penalty.appeal.get 0 = some appeal ∧
    appeal.appellant = alice ∧ appeal.resolved = false := by
  have hreach := reach_after (evaluated
    (o := (deployment .exact).after Unrestricted (slashedTwice ++ [signed 40 (.appealSlash alice 0 0 "unfair"),
      signed 40 (.appealSlash alice 1 0 "unfair"), signed 50 (.resolveAppeal admin 1 false)])))
  exact ⟨_, _, _, hreach, by decide +kernel, evaluated, by decide +kernel⟩

end Runs

end ArenaX.StakingManager
