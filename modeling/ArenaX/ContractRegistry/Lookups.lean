/-
What the lookups return. The list, the records and the pointer of the versions of a name agree in every run, so that at
most one version is active and `get_active_version` finds it. The entry under an address is about that address; but a
contract that has been deprecated stays so when it becomes the successor of another, and then `get_current` does not
return it.
-/
import ArenaX.ContractRegistry.Contract

namespace ArenaX.ContractRegistry

open Machine Exec
open Host (Address Env)
open Table (get_remove get_set get_set_of_ne get_set_self)

/-- The list, the records and the pointer of the versions of a name agree, and an entry is about the address it is
under. -/
structure State.Kept (s : State) : Prop where
  nodup : ∀ name, ((s.versionList.get name).getD []).Nodup
  listed : ∀ name v, v ∈ (s.versionList.get name).getD [] ↔ s.contractVersion.get (name, v) ≠ none
  active : ∀ name v, s.activeVersion.get name = some v ↔ (s.contractVersion.get (name, v)).map (·.isActive) = some true
  placed : s.contractByAddress.All fun address info => info.address = address

section Calls

variable {m : Mode} {env : Env} {s s' : State} {c : Call} {name : Symbol} {version : U32} {admin address : Address}

/-- A record that takes the place of another leaves the list right. -/
theorem listed_set {cv cv' : ContractVersion} (hs : s.Kept) (hget : s.contractVersion.get (name, version) = some cv)
    (n : Symbol) (v : U32) :
    v ∈ (s.versionList.get n).getD [] ↔ (s.contractVersion.set (name, version) cv').get (n, v) ≠ none := by
  rw [hs.listed, get_set]
  split
  · rename_i hkey
    simp [hkey, hget]
  · rfl

/-- The version that is unmarked loses the pointer, if it has it. -/
theorem State.Kept.unmark {cv : ContractVersion} (hs : s.Kept)
    (hget : s.contractVersion.get (name, version) = some cv) : { s with
      contractVersion := s.contractVersion.set (name, version) { cv with isActive := false }
      activeVersion := if s.activeVersion.get name = some version then s.activeVersion.remove name
        else s.activeVersion }.Kept := by
  refine ⟨hs.nodup, listed_set hs hget, fun n v => ?_, hs.placed⟩
  by_cases hkey : (n, v) = (name, version)
  · -- its record is not marked, and the pointer is gone from it
    obtain ⟨rfl, rfl⟩ := Prod.mk.inj hkey
    simp only [get_set_self, Option.map_some, Option.some.injEq, Bool.false_eq_true, iff_false]
    split
    · simp
    · assumption
  · rw [get_set_of_ne _ _ hkey, ← hs.active]
    split
    · rename_i hpointer
      rw [get_remove]
      split
      · rename_i hname
        subst hname
        simp only [hpointer, reduceCtorEq, Option.some.injEq, false_iff]
        exact fun h => hkey (congrArg _ h.symm)
      · rfl
    · rfl

/-- The version that is marked gets the pointer, which must not be to another. -/
theorem State.Kept.mark {cv : ContractVersion} (hs : s.Kept) (hget : s.contractVersion.get (name, version) = some cv)
    (hfree : ∀ v, s.activeVersion.get name = some v → v = version) :
    { s with
      contractVersion := s.contractVersion.set (name, version) { cv with isActive := true }
      activeVersion := s.activeVersion.set name version }.Kept := by
  refine ⟨hs.nodup, listed_set hs hget, fun n v => ?_, hs.placed⟩
  by_cases hkey : (n, v) = (name, version)
  · obtain ⟨rfl, rfl⟩ := Prod.mk.inj hkey
    simp
  · rw [get_set_of_ne _ _ hkey, ← hs.active, get_set]
    split
    · rename_i hname
      subst hname
      have hne : v ≠ version := fun h => hkey (congrArg _ h)
      exact iff_of_false (fun h => hne (Option.some.inj h).symm) fun h => hne (hfree v h)
    · rfl

/-- A version that is new is not in the list, and the pointer is not to it: the first one gets it. -/
theorem registerVersion_kept {notes : Symbol} (hs : s.Kept)
    (h : (registerVersion env s admin name version address notes).run m = some s') : s'.Kept := by
  simp only [registerVersion, run_iff, Bool.not_eq_true, Option.isSome_eq_false_iff, Option.isNone_iff_eq_none] at h
  obtain ⟨-, -, -, -, -, -, -, hnone, rfl⟩ := h
  have hfresh : version ∉ (s.versionList.get name).getD [] := fun hmem => (hs.listed _ _).1 hmem hnone
  refine ⟨fun n => ?_, fun n v => ?_, fun n v => ?_, hs.placed⟩
  · rw [get_set]
    split
    · exact List.nodup_append.2 ⟨hs.nodup name, List.nodup_singleton _, by grind⟩
    · exact hs.nodup n
  · have hlisted := hs.listed n v
    grind [get_set]
  · have hactive := hs.active n v
    have hlisted := hs.listed n v
    grind [get_set]

/-- Only the version the pointer is to has to be unmarked. -/
theorem setActiveVersion_kept (hs : s.Kept) (h : (setActiveVersion env s admin name version).run m = some s') :
    s'.Kept := by
  simp only [setActiveVersion, deactivateCurrent, run_iff] at h
  obtain ⟨-, -, -, -, cv, hget, t, ht, rfl⟩ := h
  split at ht
  · rename_i hnone
    cases (run_pure_iff m).1 ht
    exact hs.mark hget (by simp [hnone])
  rename_i current hcurrent
  split at ht
  · rename_i hsame
    cases (run_pure_iff m).1 ht
    exact hs.mark hget (by simp [hcurrent, hsame])
  · rename_i hother
    simp only [run_iff] at ht
    obtain ⟨old, hold, rfl⟩ := ht
    have hunmarked := hs.unmark hold
    rw [if_pos hcurrent] at hunmarked
    have hget' : (s.contractVersion.set (name, current) { old with isActive := false }).get
        (name, version) = some cv := by
      rw [get_set_of_ne _ _ fun h => hother (Prod.mk.inj h).2.symm, hget]
    have hmarked := hunmarked.mark hget' (by simp)
    -- the pointer moves from one version to the other in one write
    have hmove : (s.activeVersion.remove name).set name version = s.activeVersion.set name version := by
      ext1 n
      by_cases hn : n = name <;> simp [get_set, get_remove, hn]
    rwa [hmove] at hmarked

theorem deprecateVersion_kept (hs : s.Kept) (h : (deprecateVersion env s admin name version).run m = some s') :
    s'.Kept := by
  simp only [deprecateVersion, run_iff] at h
  obtain ⟨-, -, -, -, cv, hget, rfl⟩ := h
  exact hs.unmark hget

theorem address_of_entryAt (hs : s.Kept) {info : ContractInfo} (h : s.entryAt address = some info) :
    info.address = address := by
  rcases Option.or_eq_some_iff.1 h with h | ⟨-, h⟩
  · exact hs.placed _ _ h
  · obtain ⟨_, -, hfilter⟩ := List.exists_of_findSome?_eq_some h
    simpa using (Option.filter_eq_some_iff.1 hfilter).2

theorem insertAll_kept {entries : List (Symbol × Address)} (hs : s.Kept)
    (h : (insertAll env s entries).run m = some s') : s'.Kept :=
  foldlM_inv m (fun _ s => s.Kept) (fun _ _ _ _ hs h => by
    obtain ⟨-, rfl⟩ := insertContract_spec h
    exact { hs with placed := hs.placed.set rfl }) hs h

theorem execute_kept (hs : s.Kept) (h : (execute env s c).run m = some s') : s'.Kept := by
  cases c with
  | registerContract => obtain ⟨-, -, rfl⟩ := registerContract_spec h; exact { hs with placed := hs.placed.set rfl }
  | updateContract =>
    obtain ⟨-, _, -, -, rfl⟩ := updateContract_spec h
    exact { hs with placed := (hs.placed.remove _).set rfl }
  | removeContract => obtain ⟨-, _, -, rfl⟩ := removeContract_spec h; exact { hs with placed := hs.placed.remove _ }
  | deprecateContract address successor =>
    obtain ⟨-, entry, hentry, h⟩ := deprecateContract_spec h
    have haddress := address_of_entryAt hs hentry
    have hplaced := hs.placed.set (v := entry.deprecate env successor) haddress
    rcases h with ⟨_, -, h⟩ | ⟨-, rfl⟩
    · rcases linkSuccessor_spec h with ⟨_, -, rfl⟩ | ⟨-, _, rfl⟩
      · exact { hs with placed := hplaced }
      · exact { hs with placed := hplaced.set rfl }
    · unfold keepDeprecated
      split
      · split <;> exact { hs with placed := hplaced }
      · exact { hs with placed := hplaced }
  | batchRegisterContracts =>
    obtain ⟨-, -, t, ht, rfl⟩ := batchRegisterContracts_spec h
    exact { insertAll_kept hs ht with }
  | setPaused | transferAdmin => obtain ⟨-, rfl⟩ := run_then_pure h; exact { hs with }
  | registerVersion => exact registerVersion_kept hs h
  | setActiveVersion => exact setActiveVersion_kept hs h
  | deprecateVersion => exact deprecateVersion_kept hs h
  | setContractCategory | setContractStatus =>
    simp only [execute, setContractCategory, setContractStatus, run_iff] at h
    obtain ⟨-, -, -, -, -, -, rfl⟩ := h
    exact { hs with }

theorem kept_of_reach {ok : Rule} (h : (registry m).Reach ok env s) : s.Kept := by
  refine h.invariant (P := fun _ s => s.Kept) ?_ fun hs _ hstep => execute_kept hs hstep
  rintro e s ⟨admin, h⟩
  cases initializeRegistry_spec h
  exact ⟨fun _ => List.nodup_nil, by simp, by simp, .empty⟩

/-- What `get_current` comes to is not deprecated, and is the entry it starts from or one under an address. -/
theorem follow_spec {r : ContractInfo} : ∀ {hops : ℕ} {info : ContractInfo}, (s.follow hops info).run m = some r →
    r.deprecated = false ∧ (r = info ∨ ∃ a, s.contractByAddress.get a = some r)
  | 0, info, h => by
    unfold State.follow at h
    split at h
    · cases h
    · rename_i hlive
      cases (run_pure_iff m).1 h
      exact ⟨eq_false_of_ne_true hlive, .inl rfl⟩
  | hops + 1, info, h => by
    unfold State.follow at h
    split at h
    · split at h
      · rename_i succInfo hsucc
        obtain ⟨a, -, ha⟩ := Option.bind_eq_some_iff.1 hsucc
        obtain ⟨hr, rfl | hr'⟩ := follow_spec h
        · exact ⟨hr, .inr ⟨a, ha⟩⟩
        · exact ⟨hr, .inr hr'⟩
      · cases h
    · rename_i hlive
      cases (run_pure_iff m).1 h
      exact ⟨eq_false_of_ne_true hlive, .inl rfl⟩

end Calls

/-! ## Runs -/

section Runs

variable {m : Mode} {ok : Rule} {env env' : Env} {s s' s'' : State}

/-- **The active version.** In every run the list of a name is without repetition and lists the versions that are
stored, a version is marked active exactly if the pointer is to it, and the lookup fails only where no version is
active. -/
theorem one_active_version (h : (registry m).Reach ok env s) (name : Symbol) :
    ((s.versionList.get name).getD []).Nodup ∧
    (∀ v, v ∈ (s.versionList.get name).getD [] ↔ (s.contractVersion.get (name, v)).isSome) ∧
    (∀ v, (∃ cv, s.contractVersion.get (name, v) = some cv ∧ cv.isActive = true) ↔ s.activeVersion.get name = some v) ∧
    ((s.getActiveVersion name).run m = none ↔
      ∀ v cv, s.contractVersion.get (name, v) = some cv → cv.isActive = false) := by
  obtain ⟨hnodup, hlisted, hactive, -⟩ := kept_of_reach h
  refine ⟨hnodup name, fun v => (hlisted name v).trans Option.ne_none_iff_isSome, fun v => ?_, ?_⟩
  · rw [hactive, Option.map_eq_some_iff]
  · rw [State.getActiveVersion, run_bind, run_okOr]
    cases hget : s.activeVersion.get name with
    | none => grind
    | some v =>
      obtain ⟨cv, hcv, htrue⟩ := Option.map_eq_some_iff.1 ((hactive name v).1 hget)
      grind [run_okOr]

/-- **The successor.** After a deprecation of an entry for another address, as long as the entries of its name and of
that address stay, `get_current` returns an entry at the address if and only if the address had no entry that was
deprecated before. -/
theorem successor_current {a t : Address} {entry : ContractInfo} (hne : t ≠ a) (hentry : s.entryAt a = some entry)
    (hstep : (deprecateContract env' s a (some t)).run m = some s') (h : (registry m).Reach ok env s'')
    (hname : s''.contract.get entry.name = s'.contract.get entry.name)
    (haddress : s''.contractByAddress.get t = s'.contractByAddress.get t) :
    (∃ info, (s''.getCurrent entry.name).run m = some info ∧ info.address = t) ↔
      ∀ info, s.contractByAddress.get t = some info → info.deprecated = false := by
  obtain ⟨-, entry', hentry', ⟨_, ⟨⟩, hlink⟩ | ⟨⟨⟩, -⟩⟩ := deprecateContract_spec hstep
  cases hentry.symm.trans hentry'
  -- under the name and under the address stands the entry there was, or a new one
  have hlinked : ∃ info, s''.contract.get entry.name = some info ∧ s''.contractByAddress.get t = some info ∧
      (s.contractByAddress.get t = some info ∨ s.contractByAddress.get t = none ∧ info.deprecated = false) := by
    rw [hname, haddress]
    rcases linkSuccessor_spec hlink with ⟨info, hget, rfl⟩ | ⟨hget, _, rfl⟩
    · exact ⟨info, get_set_self _ _ _, hget, .inl ((get_set_of_ne _ _ hne).symm.trans hget)⟩
    · exact ⟨_, get_set_self _ _ _, get_set_self _ _ _, .inr ⟨(get_set_of_ne _ _ hne).symm.trans hget, rfl⟩⟩
  obtain ⟨info, hn, ht, hold⟩ := hlinked
  have hplaced := (kept_of_reach h).placed
  simp only [State.getCurrent, hn, run_bind, run_okOr, Option.bind_some]
  constructor
  · -- what is returned is not deprecated, and under the address stands nothing else
    rintro ⟨r, hr, rfl⟩ old hget
    obtain ⟨hlive, hr⟩ := follow_spec hr
    have hsame : r = info := by
      rcases hr with rfl | ⟨a, ha⟩
      · rfl
      · cases hplaced a r ha
        exact Option.some.inj (ha.symm.trans ht)
    rcases hold with hold | ⟨hold, -⟩
    · cases hget.symm.trans hold
      exact hsame ▸ hlive
    · cases hget.symm.trans hold
  · intro hlive
    have hinfo : info.deprecated = false := hold.elim (hlive info) And.right
    refine ⟨info, ?_, hplaced t info ht⟩
    rw [State.follow, hinfo]
    exact run_pure m info

end Runs

namespace Sample

theorem reach_after {m : Mode} {calls : List (Env × Call)} {s : State} (h : after m calls = some s) :
    ∃ env, (registry m).Reach Unrestricted env s := by
  obtain ⟨r, hr, rfl⟩ := Option.map_eq_some_iff.1 h
  exact ⟨r.1, TransitionSystem.Deployment.reach_after hr⟩

/-- Two versions, of which the first was active and is deprecated. -/
theorem one_active_version_none : ∃ s, after .wrapping [(byAdmin, .registerContract "arena" tournament),
      (byAdmin, .registerVersion admin "arena" 1 tournament ""),
      (byAdmin, .registerVersion admin "arena" 2 wallet ""), (byAdmin, .deprecateVersion admin "arena" 1)] =
    some s ∧ (s.getActiveVersion "arena").run .wrapping = none ∧ s.activeVersion.get "arena" ≠ some (u32.wrap 1) := by
  refine ⟨_, evaluated, by decide +kernel, fun hactive => ?_⟩
  obtain ⟨_, hreach⟩ := reach_after (evaluated _)
  obtain ⟨-, -, hmarked, hnone⟩ := one_active_version hreach "arena"
  obtain ⟨cv, hget, htrue⟩ := (hmarked _).2 hactive
  exact absurd (hnone.1 (by decide +kernel) _ cv hget) (by rw [htrue]; decide)

/-- A contract and its successor. -/
def replaced : List (Env × Call) :=
  [(byAdmin, .registerContract "arena" tournament), (byAdmin, .deprecateContract tournament (some wallet))]

theorem successor_current_new : ∃ s s', after .wrapping (replaced.take 1) = some s ∧
    (deprecateContract byAdmin s tournament (some wallet)).run .wrapping = some s' ∧
    ∃ info, (s'.getCurrent "arena").run .wrapping = some info ∧ info.address = wallet := by
  have hrun : (after .wrapping (replaced.take 1)).map (fun s => (s.entryAt tournament, s.contractByAddress.get wallet,
      ((deprecateContract byAdmin s tournament (some wallet)).run .wrapping).isSome)) =
        some (some (newInfo byAdmin "arena" tournament 1), none, true) := by decide +kernel
  obtain ⟨s, hs, hvalues⟩ := Option.map_eq_some_iff.1 hrun
  simp only [Prod.mk.injEq] at hvalues
  obtain ⟨hentry, hnone, hsome⟩ := hvalues
  obtain ⟨s', hstep⟩ := Option.isSome_iff_exists.1 hsome
  obtain ⟨_, hreach⟩ := reach_after hs
  have hreach' := hreach.step trivial
    (show (registry .wrapping).step byAdmin s (.deprecateContract tournament (some wallet)) = some s' from hstep)
  refine ⟨s, s', hs, hstep, (successor_current (by decide) hentry hstep hreach' rfl rfl).2 fun info hget => ?_⟩
  cases hnone.symm.trans hget

/-- The successor is deprecated for the contract it replaced: both are deprecated, and `get_current` finds neither. -/
theorem successor_lost : ∃ s s', after .wrapping replaced = some s ∧ (s.entryAt wallet).map (·.name) = some "arena" ∧
    (deprecateContract byAdmin s wallet (some tournament)).run .wrapping = some s' ∧
    (s'.getCurrent "arena").run .wrapping = none :=
  ⟨_, _, evaluated, by decide +kernel, evaluated,
    by decide +kernel⟩

end Sample

end ArenaX.ContractRegistry
