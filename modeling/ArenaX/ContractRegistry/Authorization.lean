/-
Who can change the registry. Registering, updating, removing and deprecating contracts, pausing and handing over the
admin role need the signature of the stored admin. Versions, categories and statuses need only that of the address the
call names as the admin, which nobody compares with the stored one: whoever signs for themselves can change which
version is active. What name and address lookups return is out of their reach.
-/
import ArenaX.ContractRegistry.Contract

namespace ArenaX.ContractRegistry

open Machine Exec
open Host (Address Env)

section Calls

variable {m : Mode} {env : Env} {s s' : State} {c : Call}

/-- The admin that the call names, if it names one, is the stored one. -/
def Call.NamesStored (c : Call) (s : State) : Prop := ∀ a ∈ c.namedAdmin, s.admin = some a

/-- The other entry points ask the stored admin. -/
theorem execute_of_unnamed (hc : c.namedAdmin = none) (h : (execute env s c).run m = some s') :
    env.AdminSigned s.admin := by
  cases c with
  | registerContract => exact (registerContract_spec h).1
  | updateContract => exact (updateContract_spec h).1
  | removeContract => exact (removeContract_spec h).1
  | deprecateContract => exact (deprecateContract_spec h).1
  | batchRegisterContracts => exact (batchRegisterContracts_spec h).1
  | setPaused | transferAdmin => exact run_requireAdmin.1 (run_then_pure h).1
  | _ => cases hc

theorem adminSigned_of_namesStored (hc : c.NamesStored s) (h : (execute env s c).run m = some s') :
    env.AdminSigned s.admin := by
  cases hnamed : c.namedAdmin with
  | none => exact execute_of_unnamed hnamed h
  | some a => exact ⟨a, hc a hnamed, (execute_of_namedAdmin hnamed h).1⟩

/-- For an entry point that is given an admin, the signature of that address is enough. -/
theorem execute_signedAlone {a : Address} (hc : c.namedAdmin = some a) (ha : a ∈ env.signers) :
    execute (env.signedAlone ha) s c = execute env s c := by
  have hauth : ∀ env' : Env, a ∈ env'.signers → (env'.requireAuth a : Result Unit) = pure () := fun _ h => if_pos h
  cases c with
  | registerVersion =>
    cases hc
    simp only [execute, registerVersion, hauth env ha, hauth (env.signedAlone ha) (List.mem_singleton_self a)]
    rfl
  | setActiveVersion | deprecateVersion | setContractCategory | setContractStatus =>
    cases hc
    simp only [execute, setActiveVersion, deprecateVersion, setContractCategory, setContractStatus, hauth env ha,
      hauth (env.signedAlone ha) (List.mem_singleton_self a)]
  | _ => cases hc

/-- A call that succeeds can only do so with the admin's signature if and only if the admin it names, where it names
one, is the stored one. -/
theorem adminSigned_iff_namesStored (h : (execute env s c).run m = some s') :
    (∀ env' : Env, env'.currentContract = env.currentContract → env'.timestamp = env.timestamp →
      (execute env' s c).run m ≠ none → env'.AdminSigned s.admin) ↔ c.NamesStored s := by
  constructor
  · intro hall a ha
    obtain ⟨hsigned, -⟩ := execute_of_namedAdmin ha h
    have halone : (execute (env.signedAlone hsigned) s c).run m ≠ none := by
      rw [execute_signedAlone ha hsigned, h]
      exact Option.some_ne_none s'
    obtain ⟨admin, hadmin, hmem⟩ := hall (env.signedAlone hsigned) rfl rfl halone
    exact List.mem_singleton.1 hmem ▸ hadmin
  · intro hc env' _ _ hrun
    obtain ⟨s'', hs''⟩ := Option.ne_none_iff_exists'.1 hrun
    exact adminSigned_of_namesStored hc hs''

/-- What the stored admin did not sign leaves the contracts alone. -/
theorem sameContracts_of_not_adminSigned (hsigned : ¬ env.AdminSigned s.admin) (h : (execute env s c).run m = some s') :
    s.SameContracts s' := by
  cases hnamed : c.namedAdmin with
  | none => exact absurd (execute_of_unnamed hnamed h) hsigned
  | some a => exact (execute_of_namedAdmin hnamed h).2

namespace State.SameContracts

theorem refl (s : State) : s.SameContracts s := ⟨rfl, rfl, rfl, rfl, rfl⟩

theorem trans {s'' : State} (h : s.SameContracts s') (h' : s'.SameContracts s'') : s.SameContracts s'' :=
  ⟨h'.admin.trans h.admin, h'.contract.trans h.contract, h'.contractByAddress.trans h.contractByAddress,
    h'.contractList.trans h.contractList, h'.paused.trans h.paused⟩

theorem getContract_eq (h : s.SameContracts s') (name : Symbol) : s'.getContract name = s.getContract name := by
  rw [getContract, getContract, h.contract]

theorem follow_eq (h : s.SameContracts s') :
    ∀ (hops : ℕ) (info : ContractInfo), s'.follow hops info = s.follow hops info
  | 0, _ => rfl
  | hops + 1, info => by
    rw [follow, follow, h.contractByAddress]
    cases info.successor.bind s.contractByAddress.get with
    | none => rfl
    | some succInfo =>
      simp only
      rw [h.follow_eq hops succInfo]

theorem getCurrent_eq (h : s.SameContracts s') (name : Symbol) : s'.getCurrent name = s.getCurrent name := by
  rw [getCurrent, getCurrent, h.contract]
  simp only [h.follow_eq]

end State.SameContracts

end Calls

/-! ## Runs -/

/-- The stored admin signs no call. -/
def Unsigned : Rule := fun _ env s _ => ¬ env.AdminSigned s.admin

/-- **Authorization.** A call that succeeds needs the stored admin's signature if and only if the admin it names, where
it names one, is the stored one; so nobody else changes anything by such calls. By no calls at all can anybody else
change what the lookups by name return, the active version apart. -/
theorem registry_authorized (m : Mode) :
    (∀ {env s c s'}, (execute env s c).run m = some s' →
      ((∀ env' : Env, env'.currentContract = env.currentContract → env'.timestamp = env.timestamp →
        (execute env' s c).run m ≠ none → env'.AdminSigned s.admin) ↔ c.NamesStored s)) ∧
    (∀ {s₀ env s},
      ((registry m).restart fun _ s => s = s₀).Reach (fun e e' s c => Unsigned e e' s c ∧ c.NamesStored s) env s →
      ∀ name, s.getContract name = s₀.getContract name ∧ s.getCurrent name = s₀.getCurrent name ∧
        s.getActiveVersion name = s₀.getActiveVersion name) ∧
    (∀ {s₀ env s}, ((registry m).restart fun _ s => s = s₀).Reach Unsigned env s →
      ∀ name, s.getContract name = s₀.getContract name ∧ s.getCurrent name = s₀.getCurrent name) := by
  refine ⟨adminSigned_iff_namesStored, fun {s₀ env s} hreach => ?_, fun {s₀ env s} hreach name => ?_⟩
  · -- no such call succeeds, so the run never leaves its start
    have hsame : s = s₀ := by
      refine hreach.invariant (P := fun _ s => s = s₀) id ?_
      intro e e' s c s' _ hok hstep
      exact absurd (adminSigned_of_namesStored hok.2 hstep) hok.1
    rw [hsame]
    exact fun name => ⟨rfl, rfl, rfl⟩
  · have hsame : s₀.SameContracts s := by
      refine hreach.invariant (P := fun _ s => s₀.SameContracts s) ?_ ?_
      · rintro e s rfl
        exact .refl s
      · intro e e' s c s' hs hunsigned hstep
        exact hs.trans (sameContracts_of_not_adminSigned hunsigned hstep)
    exact ⟨hsame.getContract_eq name, hsame.getCurrent_eq name⟩

namespace Sample

def byMallory : Env := .signed [mallory] 0 0

/-- The admin registers a contract and its first version, which is active. -/
def published : List (Env × Call) :=
  [(byAdmin, .registerContract "arena" tournament), (byAdmin, .registerVersion admin "arena" 1 tournament "first")]

/-- Mallory registers a version of their own and activates it. -/
def takeover : List (Env × Call) :=
  [(byMallory, .registerVersion mallory "arena" 2 wallet "second"),
    (byMallory, .setActiveVersion mallory "arena" 2)]

/-- The contract that is active under a name. -/
def activeAddress (m : Mode) (s : State) (name : Symbol) : Option Address :=
  ((s.getActiveVersion name).run m).map (·.address)

/-- The admin registers a version of a contract: nobody could have done so without them. -/
theorem registry_authorized_published : ∃ s s', after .wrapping (published.take 1) = some s ∧
    (execute byAdmin s (.registerVersion admin "arena" 1 tournament "first")).run .wrapping = some s' ∧
    ∀ env : Env, env.currentContract = byAdmin.currentContract → env.timestamp = byAdmin.timestamp →
      (execute env s (.registerVersion admin "arena" 1 tournament "first")).run .wrapping ≠ none →
      env.AdminSigned s.admin := by
  have hrun : (after .wrapping (published.take 1)).map (fun s => (s.admin, ((execute byAdmin s
      (.registerVersion admin "arena" 1 tournament "first")).run .wrapping).isSome)) =
        some (some admin, true) := by decide +kernel
  obtain ⟨s, hs, hvalues⟩ := Option.map_eq_some_iff.1 hrun
  obtain ⟨hadmin, hsome⟩ := Prod.mk.inj hvalues
  obtain ⟨s', hs'⟩ := Option.isSome_iff_exists.1 hsome
  refine ⟨s, s', hs, hs', ((registry_authorized .wrapping).1 hs').2 ?_⟩
  rintro a ⟨⟩
  exact hadmin

/-- Mallory alone signs two calls, and the active version of the contract is theirs. -/
theorem version_taken_over :
    mallory ≠ admin ∧ (∀ call ∈ takeover, call.1.signers = [mallory]) ∧
    (after .wrapping published).map (fun s => (s.admin, activeAddress .wrapping s "arena")) =
      some (some admin, some tournament) ∧
    (after .wrapping (published ++ takeover)).map (fun s => (s.admin, activeAddress .wrapping s "arena")) =
      some (some admin, some wallet) := by
  refine ⟨by decide, by decide, ?_, ?_⟩ <;> decide +kernel

end Sample

end ArenaX.ContractRegistry
