/-
The three indexes of the registry: the entries under names, the entries under addresses and the list of names. No entry
point asks whether an address is in use. Two contracts at one address share its entry; a deprecation links a name to
whatever entry the successor has, also to another contract's; and the entry under an address outlives the removal of its
name, which a deprecation then brings back without listing it. The indexes agree along the runs that avoid these three,
and along no others.
-/
import ArenaX.ContractRegistry.Contract

namespace ArenaX.ContractRegistry

open Machine Exec
open Host (Address Env)
open Table (get_empty get_remove get_set get_set_of_ne get_set_self)

/-- The list holds the registered names once each, and the entry under a contract's address is about the same
contract. -/
structure State.Consistent (s : State) : Prop where
  nodup : s.contractList.Nodup
  listed : ∀ n, n ∈ s.contractList ↔ (s.contract.get n).isSome
  indexed : ∀ n info, s.contract.get n = some info → ∃ r, s.contractByAddress.get info.address = some r ∧
    r.name = n ∧ r.deprecated = info.deprecated ∧ r.successor = info.successor

/-- A registered contract is at the address. -/
def State.InUse (s : State) (a : Address) : Prop := ∃ n info, s.contract.get n = some info ∧ info.address = a

/-- The call uses no address of a registered contract a second time, and links a registered name to a successor that is
new or has had the name before. -/
def Call.Apart (s : State) : Call → Prop
  | .registerContract _ address | .updateContract _ address => ¬ s.InUse address
  | .batchRegisterContracts _ addresses => addresses.Nodup ∧ ∀ a ∈ addresses, ¬ s.InUse a
  | .deprecateContract address (some successor) => ∀ entry, s.contractByAddress.get address = some entry →
    (s.contract.get entry.name).isSome ∧ ∀ r, s.contractByAddress.get successor = some r → r.name = entry.name
  | _ => True

/-! ## What the indexes are like as long as calls are apart -/

/-- The names are those of a list, an entry under a name is the entry under its address, and entries under addresses
know where they are. -/
structure State.Sound (names : List Symbol) (s : State) : Prop where
  nodup : names.Nodup
  listed : ∀ n, n ∈ names ↔ (s.contract.get n).isSome
  indexed : ∀ n info, s.contract.get n = some info → info.name = n ∧ s.contractByAddress.get info.address = some info
  placed : ∀ a r, s.contractByAddress.get a = some r → r.address = a

section Indexes

variable {m : Mode} {env : Env} {s s' : State} {names : List Symbol} {n n' name : Symbol} {address : Address}
  {info info' entry : ContractInfo}

theorem State.Sound.consistent (h : s.Sound s.contractList) : s.Consistent := by
  refine ⟨h.nodup, h.listed, fun n info hinfo => ?_⟩
  obtain ⟨hname, hentry⟩ := h.indexed n info hinfo
  exact ⟨info, hentry, hname, rfl, rfl⟩

/-- Consistent registries have no two contracts at one address. -/
theorem State.Consistent.name_eq (h : s.Consistent) (hn : s.contract.get n = some info)
    (hn' : s.contract.get n' = some info') (haddress : info.address = info'.address) : n = n' := by
  obtain ⟨r, hr, hname, -⟩ := h.indexed n info hn
  obtain ⟨r', hr', hname', -⟩ := h.indexed n' info' hn'
  rw [haddress, hr', Option.some.injEq] at hr
  rw [← hname, ← hname', hr]

namespace State.Sound

variable (h : s.Sound names)

include h

/-- The contract at an address is the one whose entry is there. -/
theorem name_eq (hentry : s.contractByAddress.get address = some entry) (hn : s.contract.get n = some info)
    (haddress : info.address = address) : n = entry.name ∧ info = entry := by
  obtain ⟨hname, hinfo⟩ := h.indexed n info hn
  rw [haddress, hentry, Option.some.injEq] at hinfo
  exact ⟨hinfo ▸ hname.symm, hinfo.symm⟩

theorem entryAt_eq (a : Address) : s.entryAt a = s.contractByAddress.get a := by
  unfold State.entryAt
  cases hentry : s.contractByAddress.get a with
  | some entry => rfl
  | none =>
    rw [Option.none_or, List.findSome?_eq_none_iff]
    intro name _
    rw [Option.filter_eq_none_iff]
    intro info hinfo haddress
    have hat := (h.indexed name info hinfo).2
    rw [of_decide_eq_true haddress, hentry] at hat
    cases hat

/-- Only the entries count. -/
theorem congr (hcontract : s'.contract = s.contract) (hbyAddress : s'.contractByAddress = s.contractByAddress) :
    s'.Sound names :=
  ⟨h.nodup, hcontract ▸ h.listed, hcontract ▸ hbyAddress ▸ h.indexed, hbyAddress ▸ h.placed⟩

/-- A new name at a free address. -/
theorem insert (hnone : s.contract.get n = none) (hfree : ¬ s.InUse address) (hname : info.name = n)
    (haddress : info.address = address) :
    State.Sound (names ++ [n]) { s with
      contract := s.contract.set n info
      contractByAddress := s.contractByAddress.set address info } := by
  have hnew : n ∉ names := by
    rw [h.listed, hnone]
    exact Bool.false_ne_true
  refine ⟨?_, fun n' => ?_, fun n' i hi => ?_, fun a r hr => ?_⟩
  · exact h.nodup.append (List.nodup_singleton n) (List.disjoint_singleton.mpr hnew)
  · rw [List.mem_append, get_set, h.listed]
    by_cases hn' : n' = n
    · simp [hn']
    · simp [hn']
  · rw [get_set] at hi
    split at hi
    · rename_i hn'
      cases hi
      exact ⟨hname.trans hn'.symm, haddress ▸ get_set_self _ _ _⟩
    · obtain ⟨hiname, hentry⟩ := h.indexed n' i hi
      have hne : i.address ≠ address := fun heq => hfree ⟨n', i, hi, heq⟩
      exact ⟨hiname, (get_set_of_ne _ _ hne).trans hentry⟩
  · rw [get_set] at hr
    split at hr
    · rename_i ha
      cases hr
      exact haddress.trans ha.symm
    · exact h.placed a r hr

theorem update (hn : s.contract.get n = some info) (hfree : ¬ s.InUse address) (hname : info'.name = n)
    (haddress : info'.address = address) :
    State.Sound names { s with
      contract := s.contract.set n info'
      contractByAddress := (s.contractByAddress.remove info.address).set address info' } := by
  refine ⟨h.nodup, fun n' => ?_, fun n' i hi => ?_, fun a r hr => ?_⟩
  · rw [get_set, h.listed]
    by_cases hn' : n' = n
    · simp [hn', hn]
    · simp [hn']
  · rw [get_set] at hi
    split at hi
    · rename_i hn'
      cases hi
      exact ⟨hname.trans hn'.symm, haddress ▸ get_set_self _ _ _⟩
    · rename_i hn'
      obtain ⟨hiname, hentry⟩ := h.indexed n' i hi
      have hnew : i.address ≠ address := fun heq => hfree ⟨n', i, hi, heq⟩
      have hold : i.address ≠ info.address := fun heq => hn' <| by
        rw [(h.name_eq (h.indexed n info hn).2 hi heq).1, (h.indexed n info hn).1]
      exact ⟨hiname, (get_set_of_ne _ _ hnew).trans ((Table.get_remove_of_ne _ hold).trans hentry)⟩
  · rw [get_set] at hr
    split at hr
    · rename_i ha
      cases hr
      exact haddress.trans ha.symm
    · rw [get_remove] at hr
      split at hr
      · cases hr
      · exact h.placed a r hr

theorem remove (hn : s.contract.get n = some info) :
    State.Sound (names.erase n) { s with
      contract := s.contract.remove n
      contractByAddress := s.contractByAddress.remove info.address
      contractList := s.contractList.erase n } := by
  refine ⟨h.nodup.erase n, fun n' => ?_, fun n' i hi => ?_, fun a r hr => ?_⟩
  · rw [h.nodup.mem_erase_iff, get_remove, h.listed]
    by_cases hn' : n' = n
    · simp [hn']
    · simp [hn']
  · rw [get_remove] at hi
    split at hi
    · cases hi
    · rename_i hn'
      obtain ⟨hiname, hentry⟩ := h.indexed n' i hi
      have hold : i.address ≠ info.address := fun heq => hn' <| by
        rw [(h.name_eq (h.indexed n info hn).2 hi heq).1, (h.indexed n info hn).1]
      exact ⟨hiname, (Table.get_remove_of_ne _ hold).trans hentry⟩
  · rw [get_remove] at hr
    split at hr
    · cases hr
    · exact h.placed a r hr

/-- The entry under an address is written again, under the same name, and the name may be linked to an entry at another
address or stay where it is. -/
theorem relink (hentry : s.contractByAddress.get address = some entry)
    (hregistered : (s.contract.get entry.name).isSome) {byAddress : Table Address ContractInfo}
    (hname : info.name = entry.name) (hinfo : byAddress.get info.address = some info)
    (hplaced : ∀ a r, byAddress.get a = some r → r.address = a)
    (hother : ∀ a r, s.contractByAddress.get a = some r → a ≠ address → byAddress.get a = some r) :
    State.Sound names { s with contract := s.contract.set entry.name info, contractByAddress := byAddress } := by
  refine ⟨h.nodup, fun n' => ?_, fun n' i hi => ?_, hplaced⟩
  · rw [get_set, h.listed]
    by_cases hn' : n' = entry.name
    · simp [hn', hregistered]
    · simp [hn']
  · rw [get_set] at hi
    split at hi
    · rename_i hn'
      cases hi
      exact ⟨hname.trans hn'.symm, hinfo⟩
    · rename_i hn'
      obtain ⟨hiname, hold⟩ := h.indexed n' i hi
      exact ⟨hiname, hother _ _ hold fun heq => hn' (h.name_eq hentry hi heq).1⟩

/-- Entries under addresses know where they are, also after a write. -/
theorem placed_set {r : ContractInfo} (hr : r.address = address) :
    ∀ a r', (s.contractByAddress.set address r).get a = some r' → r'.address = a := by
  intro a r' hr'
  rw [get_set] at hr'
  split at hr'
  · rename_i ha
    cases hr'
    exact hr.trans ha.symm
  · exact h.placed a r' hr'

theorem keepDeprecated (hentry : s.contractByAddress.get address = some entry) (hname : info.name = entry.name)
    (haddress : info.address = address) :
    State.Sound names (keepDeprecated { s with contractByAddress := s.contractByAddress.set address info }
      info address) := by
  have hother : ∀ a r, s.contractByAddress.get a = some r → a ≠ address →
      (s.contractByAddress.set address info).get a = some r := fun a r hr hne => (get_set_of_ne _ _ hne).trans hr
  -- if the name is not at the address, no contract is
  have hstay : (∀ current, s.contract.get entry.name = some current → current.address ≠ address) →
      State.Sound names { s with contractByAddress := s.contractByAddress.set address info } := by
    intro hcurrent
    refine ⟨h.nodup, h.listed, fun n i hi => ?_, h.placed_set haddress⟩
    obtain ⟨hiname, hold⟩ := h.indexed n i hi
    refine ⟨hiname, hother _ _ hold fun heq => ?_⟩
    obtain ⟨rfl, -⟩ := h.name_eq hentry hi heq
    exact hcurrent i hi heq
  unfold ContractRegistry.keepDeprecated
  simp only [hname]
  cases hcurrent : s.contract.get entry.name with
  | none => exact hstay fun current h => by rw [hcurrent] at h; cases h
  | some current =>
    by_cases hat : current.address = address
    · simp only [if_pos hat]
      exact h.relink hentry (by rw [hcurrent]; rfl) hname (haddress ▸ get_set_self _ _ _) (h.placed_set haddress) hother
    · simp only [if_neg hat]
      exact hstay fun current' h => by rw [hcurrent] at h; cases h; exact hat

/-- The name of a deprecated entry goes over to a successor: the indexes stay in order if the name is registered and the
successor's entry, if there is one, has the same name. -/
theorem link (hentry : s.contractByAddress.get address = some entry) (hname : info.name = entry.name)
    (haddress : info.address = address) {successor : Address} (hregistered : (s.contract.get entry.name).isSome)
    (hsucc : ∀ r, s.contractByAddress.get successor = some r → r.name = entry.name)
    (hlink : (linkSuccessor env { s with contractByAddress := s.contractByAddress.set address info } info
      successor).run m = some s') : s'.Sound names := by
  have hother : ∀ a r, s.contractByAddress.get a = some r → a ≠ address →
      (s.contractByAddress.set address info).get a = some r := fun a r hr hne => (get_set_of_ne _ _ hne).trans hr
  have hplaced := h.placed_set haddress
  rcases linkSuccessor_spec hlink with ⟨existing, hexisting, rfl⟩ | ⟨hnone, version, rfl⟩
  · have hsame : existing.name = entry.name := by
      rw [get_set] at hexisting
      split at hexisting
      · cases hexisting
        exact hname
      · exact hsucc existing hexisting
    simp only [hname]
    exact h.relink hentry hregistered hsame ((hplaced _ _ hexisting).symm ▸ hexisting) hplaced hother
  · -- a new entry: nothing was at the successor's address
    simp only [hname]
    refine h.relink hentry hregistered rfl (get_set_self _ _ _) ?_ ?_
    · intro a r hr
      rw [get_set] at hr
      split at hr
      · rename_i ha
        cases hr
        exact ha.symm
      · exact hplaced a r hr
    · intro a r hr ha
      have hsuccessor : a ≠ successor := by
        rintro rfl
        rw [hother a r hr ha] at hnone
        cases hnone
      exact (get_set_of_ne _ _ hsuccessor).trans (hother a r hr ha)

/-- And only then. -/
theorem apart_of_link (hentry : s.contractByAddress.get address = some entry) (hname : info.name = entry.name)
    {successor : Address} (hlist : names = s.contractList)
    (hlink : (linkSuccessor env { s with contractByAddress := s.contractByAddress.set address info } info
      successor).run m = some s') (hs' : s'.Consistent) :
    (s.contract.get entry.name).isSome ∧ ∀ r, s.contractByAddress.get successor = some r → r.name = entry.name := by
  subst hlist
  -- the name has an entry now, so it is listed, and the list is as before
  have hlisted : entry.name ∈ s.contractList := by
    rcases linkSuccessor_spec hlink with ⟨_, -, rfl⟩ | ⟨-, version, rfl⟩
    · exact (hs'.listed entry.name).mpr (by rw [hname, get_set_self]; rfl)
    · exact (hs'.listed entry.name).mpr (by rw [hname, get_set_self]; rfl)
  refine ⟨(h.listed _).mp hlisted, fun r hr => ?_⟩
  by_cases hsame : successor = address
  · subst hsame
    rw [hentry, Option.some.injEq] at hr
    rw [hr]
  · have hkept : (s.contractByAddress.set address info).get successor = some r := (get_set_of_ne _ _ hsame).trans hr
    rcases linkSuccessor_spec hlink with ⟨_, hexisting, rfl⟩ | ⟨hnone, -⟩
    · rw [hkept, Option.some.injEq] at hexisting
      subst hexisting
      obtain ⟨r', hr', hrname, -⟩ := hs'.indexed entry.name r (by rw [hname]; exact get_set_self _ _ _)
      rw [h.placed _ _ hr, hkept, Option.some.injEq] at hr'
      rw [hr', hrname]
    · rw [hkept] at hnone
      cases hnone

end State.Sound

theorem contractList_keepDeprecated : (keepDeprecated s entry address).contractList = s.contractList := by
  unfold keepDeprecated
  split
  · split <;> rfl
  · rfl

/-! ## Batches -/

/-- The entry under a name is not lost when another name gets one. -/
theorem get_set_of_fresh (hnone : s.contract.get n = none) (hn' : s.contract.get n' = some info') :
    n' ≠ n ∧ (s.contract.set n info).get n' = some info' := by
  have hne : n' ≠ n := by
    rintro rfl
    rw [hnone] at hn'
    cases hn'
  exact ⟨hne, (get_set_of_ne _ _ hne).trans hn'⟩

/-- A batch adds its names, and keeps the entries under the others. -/
theorem get_insertAll : ∀ {entries : List (Symbol × Address)} {s t : State}, (insertAll env s entries).run m = some t →
    t.contractList = s.contractList ∧ ∀ n info, s.contract.get n = some info → t.contract.get n = some info
  | [], s, t, h => by
    cases (run_pure m s).symm.trans h
    exact ⟨rfl, fun _ _ => id⟩
  | (name, address) :: rest, s, t, h => by
    rw [insertAll, List.foldlM_cons, run_bind] at h
    obtain ⟨s₁, h₁, hrest⟩ := Option.bind_eq_some_iff.1 h
    obtain ⟨hnone, rfl⟩ := insertContract_spec h₁
    obtain ⟨hlist, hkeep⟩ := get_insertAll hrest
    exact ⟨hlist, fun n info hn => hkeep n info (get_set_of_fresh hnone hn).2⟩

theorem State.Sound.insertAll :
    ∀ {entries : List (Symbol × Address)} {s t : State} {names : List Symbol}, s.Sound names →
    (entries.map Prod.snd).Nodup → (∀ a ∈ entries.map Prod.snd, ¬ s.InUse a) →
    (insertAll env s entries).run m = some t →
    t.Sound (names ++ entries.map Prod.fst)
  | [], s, t, names, hs, _, _, h => by
    cases (run_pure m s).symm.trans h
    rwa [List.map_nil, List.append_nil]
  | (name, address) :: rest, s, t, names, hs, hnodup, hfree, h => by
    rw [ContractRegistry.insertAll, List.foldlM_cons, run_bind] at h
    obtain ⟨s₁, h₁, hrest⟩ := Option.bind_eq_some_iff.1 h
    obtain ⟨hnone, rfl⟩ := insertContract_spec h₁
    rw [List.map_cons, List.nodup_cons] at hnodup
    have hs₁ := hs.insert hnone (hfree address (by simp)) (show (newInfo env name address 1).name = name from rfl) rfl
    have hresult := hs₁.insertAll hnodup.2 (fun a ha => ?_) hrest
    · rwa [List.append_assoc] at hresult
    · -- the address of the new name is not among the rest
      rintro ⟨n, info, hn, rfl⟩
      rw [get_set] at hn
      split at hn
      · cases hn
        exact hnodup.1 ha
      · exact hfree info.address (List.mem_cons_of_mem _ ha) ⟨n, info, hn, rfl⟩

/-- If no two contracts are at one address after a batch, its addresses were free and distinct. -/
theorem apart_of_insertAll : ∀ {entries : List (Symbol × Address)} {s t : State},
    (∀ {n n' info info'}, t.contract.get n = some info → t.contract.get n' = some info' →
      info.address = info'.address → n = n') →
    (insertAll env s entries).run m = some t → (entries.map Prod.snd).Nodup ∧ ∀ a ∈ entries.map Prod.snd, ¬ s.InUse a
  | [], s, t, _, _ => ⟨List.nodup_nil, by simp⟩
  | (name, address) :: rest, s, t, ht, h => by
    rw [insertAll, List.foldlM_cons, run_bind] at h
    obtain ⟨s₁, h₁, hrest⟩ := Option.bind_eq_some_iff.1 h
    obtain ⟨hnone, rfl⟩ := insertContract_spec h₁
    obtain ⟨hnodup, hfree⟩ := apart_of_insertAll ht hrest
    have hkeep := (get_insertAll hrest).2
    have hself := get_set_self s.contract name (newInfo env name address 1)
    refine ⟨List.nodup_cons.mpr ⟨fun hmem => hfree address hmem ⟨name, _, hself, rfl⟩, hnodup⟩, ?_⟩
    rintro a ha ⟨n, info, hn, rfl⟩
    obtain ⟨hne, hn⟩ := get_set_of_fresh hnone hn
    rcases List.mem_cons.mp ha with haddress | hmem
    · exact hne (ht (hkeep n info hn) (hkeep name _ hself) haddress)
    · exact hfree info.address hmem ⟨n, info, hn, rfl⟩

/-! ## Calls and runs -/

/-- What one call does to indexes that are in order. -/
theorem execute_apart (hs : s.Sound s.contractList) {c : Call} (h : (execute env s c).run m = some s') :
    (c.Apart s → s'.Sound s'.contractList) ∧ (s'.Consistent → c.Apart s) := by
  cases c with
  | registerContract name address =>
    obtain ⟨-, hnone, rfl⟩ := registerContract_spec h
    refine ⟨fun hfree => (hs.insert hnone hfree rfl rfl).congr rfl rfl, ?_⟩
    rintro hs' ⟨n, info, hn, rfl⟩
    obtain ⟨hne, hn⟩ := get_set_of_fresh hnone hn
    exact hne (hs'.name_eq hn (get_set_self _ _ _) rfl)
  | updateContract name address =>
    obtain ⟨-, info, hinfo, hne, rfl⟩ := updateContract_spec h
    refine ⟨fun hfree => hs.update hinfo hfree (hs.indexed name info hinfo).1 rfl, ?_⟩
    rintro hs' ⟨n, info', hn, rfl⟩
    have hother : n ≠ name := by
      rintro rfl
      rw [hinfo, Option.some.injEq] at hn
      exact hne (congrArg _ hn)
    exact hother (hs'.name_eq ((get_set_of_ne _ _ hother).trans hn) (get_set_self _ _ _) rfl)
  | removeContract name =>
    obtain ⟨-, info, hinfo, rfl⟩ := removeContract_spec h
    exact ⟨fun _ => hs.remove hinfo, fun _ => trivial⟩
  | deprecateContract address successor =>
    obtain ⟨-, entry, hentry, hresult⟩ := deprecateContract_spec h
    rw [hs.entryAt_eq] at hentry
    have haddress := hs.placed address entry hentry
    rcases hresult with ⟨succAddr, rfl, hlink⟩ | ⟨rfl, rfl⟩
    · have hlist : s'.contractList = s.contractList := by
        rcases linkSuccessor_spec hlink with ⟨-, -, rfl⟩ | ⟨-, -, rfl⟩ <;> rfl
      rw [hlist]
      constructor
      · intro hapart
        obtain ⟨hregistered, hsucc⟩ := hapart entry hentry
        exact hs.link hentry (show (entry.deprecate env (some succAddr)).name = entry.name from rfl)
          haddress hregistered hsucc hlink
      · intro hs' entry' hentry'
        rw [hentry, Option.some.injEq] at hentry'
        subst hentry'
        exact hs.apart_of_link hentry (show (entry.deprecate env (some succAddr)).name =
          entry.name from rfl) rfl hlink hs'
    · rw [contractList_keepDeprecated]
      exact ⟨fun _ => hs.keepDeprecated hentry rfl haddress, fun _ => trivial⟩
  | batchRegisterContracts names addresses =>
    obtain ⟨-, hlength, t, ht, rfl⟩ := batchRegisterContracts_spec h
    have hfst : (names.zip addresses).map Prod.fst = names := List.map_fst_zip hlength.le
    have hsnd : (names.zip addresses).map Prod.snd = addresses := List.map_snd_zip hlength.ge
    constructor
    · rintro ⟨hnodup, hfree⟩
      have hbatch := hs.insertAll (hsnd.symm ▸ hnodup) (hsnd.symm ▸ hfree) ht
      rw [hfst, ← (get_insertAll ht).1] at hbatch
      exact hbatch.congr rfl rfl
    · intro hs'
      have hunique : ∀ {n n' info info'}, t.contract.get n = some info → t.contract.get n' = some info' →
          info.address = info'.address → n = n' := fun hn hn' heq => hs'.name_eq hn hn' heq
      have hapart := apart_of_insertAll hunique ht
      rwa [hsnd] at hapart
  | setPaused | transferAdmin =>
    obtain ⟨-, rfl⟩ := run_then_pure h
    exact ⟨fun _ => hs.congr rfl rfl, fun _ => trivial⟩
  | registerVersion admin | setActiveVersion admin | deprecateVersion admin | setContractCategory admin
  | setContractStatus admin =>
    have hsame := (execute_of_namedAdmin rfl h).2
    exact ⟨fun _ => hsame.contractList ▸ hs.congr hsame.contract hsame.contractByAddress, fun _ => trivial⟩

theorem sound_of_init (h : (registry m).init env s) : s.Sound s.contractList := by
  obtain ⟨admin, h⟩ := h
  cases initializeRegistry_spec h
  refine ⟨List.nodup_nil, fun n => ?_, fun n info hn => ?_, fun a r hr => ?_⟩
  · simp
  · rw [get_empty] at hn
    cases hn
  · rw [get_empty] at hr
    cases hr

end Indexes

/-- **The indexes.** Along the runs that a rule allows, the three indexes agree in every state exactly if every call
that is made and succeeds is apart. -/
theorem indexes_consistent (m : Mode) (ok : Rule) :
    (∀ {env s}, (registry m).Reach ok env s → s.Consistent) ↔
    ∀ {e s e' c s'}, (registry m).Reach ok e s → ok e e' s c → (execute e' s c).run m = some s' → c.Apart s := by
  constructor
  · intro hconsistent
    -- every state of a run that never breaks the indexes is in order
    have hsound : ∀ {env s}, (registry m).Reach ok env s → s.Sound s.contractList := by
      intro env s hreach
      induction hreach with
      | init h => exact sound_of_init h
      | step hreach hok hstep ih =>
        obtain ⟨hkeep, hapart⟩ := execute_apart ih hstep
        exact hkeep (hapart (hconsistent (.step hreach hok hstep)))
    intro e s e' c s' hreach hok hstep
    exact (execute_apart (hsound hreach) hstep).2 (hconsistent (.step hreach hok hstep))
  · intro hapart env s hreach
    have hsound : s.Sound s.contractList := by
      induction hreach with
      | init h => exact sound_of_init h
      | step hreach hok hstep ih => exact (execute_apart ih hstep).1 (hapart hreach hok hstep)
    exact hsound.consistent

namespace Sample

/-- The name in the entry under the address of a contract. -/
def nameAt (s : State) (n : Symbol) : Option Symbol :=
  (s.contract.get n).bind fun info => (s.contractByAddress.get info.address).map (·.name)

theorem nameAt_of_consistent {s : State} {n : Symbol} (h : s.Consistent) (hn : (s.contract.get n).isSome) :
    nameAt s n = some n := by
  obtain ⟨info, hinfo⟩ := Option.isSome_iff_exists.mp hn
  obtain ⟨r, hr, hname, -⟩ := h.indexed n info hinfo
  simp [nameAt, hinfo, hr, hname]

def apartCalls : Rule := fun _ _ s c => c.Apart s

def arenaInfo : ContractInfo := newInfo byAdmin "arena" tournament 1

/-- The registry after the registration of a contract. -/
def registered : State :=
  { deployed with
    contract := deployed.contract.set "arena" arenaInfo
    contractByAddress := deployed.contractByAddress.set tournament arenaInfo
    contractList := ["arena"] }

theorem reach_registered : (registry .wrapping).Reach apartCalls byAdmin registered := by
  refine .step (.init (deployment _).starts) (c := .registerContract "arena" tournament) ?_ rfl
  rintro ⟨n, info, hn, -⟩
  cases (get_empty n).symm.trans hn

/-- The deprecation of a contract for a new one. -/
theorem indexes_consistent_replaced :
    ∃ s, (execute byAdmin registered (.deprecateContract tournament (some wallet))).run .wrapping = some s ∧
      s.Consistent := by
  have hsome : ((execute byAdmin registered (.deprecateContract tournament (some wallet))).run .wrapping).isSome =
    true := by
    decide +kernel
  obtain ⟨s, hs⟩ := Option.isSome_iff_exists.mp hsome
  have hstep : (registry .wrapping).step byAdmin registered (.deprecateContract tournament (some wallet)) = some s := hs
  refine ⟨s, hs, (indexes_consistent .wrapping apartCalls).mpr (fun _ hok _ => hok) (.step reach_registered ?_ hstep)⟩
  intro entry hentry
  cases (get_set_self _ _ _).symm.trans hentry
  refine ⟨by decide +kernel, fun r hr => ?_⟩
  have hnone : registered.contractByAddress.get wallet = none := by decide +kernel
  cases hnone.symm.trans hr

/-- Two contracts at one address. -/
def shared : List (Env × Call) :=
  [(byAdmin, .registerContract "arena" tournament), (byAdmin, .registerContract "shop" tournament)]

/-- A contract deprecated for one that has another name. -/
def foreign : List (Env × Call) :=
  [(byAdmin, .registerContract "arena" tournament), (byAdmin, .registerContract "shop" wallet),
    (byAdmin, .deprecateContract tournament (some wallet))]

/-- A contract deprecated for a new one, removed, and deprecated again at its old address. -/
def revived : List (Env × Call) :=
  [(byAdmin, .registerContract "arena" tournament), (byAdmin, .deprecateContract tournament (some wallet)),
    (byAdmin, .removeContract "arena"), (byAdmin, .deprecateContract tournament (some ⟨12⟩))]

theorem not_consistent_of_nameAt {calls : List (Env × Call)}
    (h : (after .wrapping calls).map (fun s => nameAt s "arena") = some (some "shop")) :
    ∃ s, after .wrapping calls = some s ∧ ¬ s.Consistent := by
  obtain ⟨s, hs, hname⟩ := Option.map_eq_some_iff.mp h
  refine ⟨s, hs, fun hconsistent => ?_⟩
  have hsome : (s.contract.get "arena").isSome := by
    cases hinfo : s.contract.get "arena" with
    | none => simp [nameAt, hinfo] at hname
    | some info => rfl
  have hnames : some "arena" = some "shop" := (nameAt_of_consistent hconsistent hsome).symm.trans hname
  exact absurd hnames (by decide)

/-- In the first two, the entry under the address of "arena" is about "shop"; in the third, "arena" has an entry and is
not listed. -/
theorem indexes_broken : (∃ s, after .wrapping shared = some s ∧ ¬ s.Consistent) ∧
    (∃ s, after .wrapping foreign = some s ∧ ¬ s.Consistent) ∧
    ∃ s, after .wrapping revived = some s ∧ ¬ s.Consistent := by
  refine ⟨not_consistent_of_nameAt (by decide +kernel), not_consistent_of_nameAt (by decide +kernel), ?_⟩
  have hsummary : (after .wrapping revived).map (fun s => (s.contractList, (s.contract.get "arena").isSome)) =
      some ([], true) := by decide +kernel
  obtain ⟨s, hs, hpair⟩ := Option.map_eq_some_iff.mp hsummary
  obtain ⟨hlist, hsome⟩ := Prod.mk.inj hpair
  refine ⟨s, hs, fun hconsistent => ?_⟩
  have hlisted := (hconsistent.listed "arena").mpr hsome
  rw [hlist] at hlisted
  cases hlisted

end Sample

end ArenaX.ContractRegistry
