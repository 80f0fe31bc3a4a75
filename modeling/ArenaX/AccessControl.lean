/-
The permissions of the access-control contract. A query evaluates an account's roles once and caches the answer, and no
later grant or revocation clears the cache. So the answers follow the roles exactly as long as no such call changes what
a cached answer is about.
-/
import ArenaX.Lib.Host
import ArenaX.Lib.Runs
import ArenaX.Lib.Table

namespace ArenaX.AccessControl

open Machine Exec
open Host (Address Env)

/-- `ALL_ROLE_IDS`, in the order in which a query tries them: admin, governance, operator, whitelist, moderator,
tournament organizer, game developer, analytics viewer, analyst, staking manager and cross-game admin. -/
def allRoleIds : List U32 := [1, 2, 3, 4, 5, 6, 7, 8, 11, 9, 10].map (u32.wrap ·)

structure State where
  admin : Option Address := none
  role : Table (Address × U32) Bool := ∅
  rolePermissions : Table U32 (List String) := ∅
  permissionCache : Table (Address × String) Bool := ∅

/-- A panic carries its message. -/
abbrev Result := Exec String

/-! ## Entry points -/

section

variable (env : Env) (s : State)

def initializeRoles (admin : Address) : Result State := do
  reject (s.admin.isSome = true) "already initialized"
  env.requireAuth admin
  pure { s with admin := some admin, role := s.role.set (admin, u32.wrap 1) true }

def requireAdmin : Result Unit := do
  let admin ← okOr s.admin "not initialized"
  env.requireAuth admin

def hasRole (s : State) (account : Address) (role : U32) : Result Bool := do
  let admin ← okOr s.admin "not initialized"
  pure (account = admin || (s.role.get (account, role)).getD false)

def grantRole (account : Address) (role : U32) : Result State := do
  requireAdmin env s
  pure { s with role := s.role.set (account, role) true }

def revokeRole (account : Address) (role : U32) : Result State := do
  requireAdmin env s
  pure { s with role := s.role.remove (account, role) }

def getRolePermissions (s : State) (role : U32) : List String := (s.rolePermissions.get role).getD []

def hasPermission (s : State) (role : U32) (permissionName : String) : Bool :=
  permissionName ∈ getRolePermissions s role

def assignPermissionToRole (role : U32) (permissionName : String) : Result State := do
  requireAdmin env s
  if hasPermission s role permissionName then pure s
  else pure { s with rolePermissions := s.rolePermissions.set role (getRolePermissions s role ++ [permissionName]) }

def removePermissionFromRole (role : U32) (permissionName : String) : Result State := do
  requireAdmin env s
  pure { s with
    rolePermissions := s.rolePermissions.set role ((getRolePermissions s role).filter (· ≠ permissionName)) }

end

/-- The loop of a query over the roles. -/
def checkRoles (s : State) (account : Address) (permissionName : String) : List U32 → Result Bool
  | [] => pure false
  | role :: rest => do
    let held ← hasRole s account role
    if held && hasPermission s role permissionName then pure true else checkRoles s account permissionName rest

def accountHasPermission (s : State) (account : Address) (permissionName : String) : Result (Bool × State) :=
  match s.permissionCache.get (account, permissionName) with
  | some cached => pure (cached, s)
  | none => do
    let hasPerm ← checkRoles s account permissionName allRoleIds
    pure (hasPerm, { s with permissionCache := s.permissionCache.set (account, permissionName) hasPerm })

def clearPermissionCache (s : State) (account : Address) (permissionName : String) : Result State :=
  pure { s with permissionCache := s.permissionCache.remove (account, permissionName) }

inductive Call where
  | grantRole (account : Address) (role : U32)
  | revokeRole (account : Address) (role : U32)
  | assignPermissionToRole (role : U32) (permissionName : String)
  | removePermissionFromRole (role : U32) (permissionName : String)
  | accountHasPermission (account : Address) (permissionName : String)
  | clearPermissionCache (account : Address) (permissionName : String)

def execute (env : Env) (s : State) : Call → Result State
  | .grantRole account role => grantRole env s account role
  | .revokeRole account role => revokeRole env s account role
  | .assignPermissionToRole role permissionName => assignPermissionToRole env s role permissionName
  | .removePermissionFromRole role permissionName => removePermissionFromRole env s role permissionName
  | .accountHasPermission account permissionName => Prod.snd <$> accountHasPermission s account permissionName
  | .clearPermissionCache account permissionName => clearPermissionCache s account permissionName

/-- The contract from its `initialize` on. -/
def roles (m : Mode) : TransitionSystem Env State Call where
  init env s := ∃ admin, (initializeRoles env {} admin).run m = some s
  step env s c := (execute env s c).run m

/-! ## Permissions -/

namespace State

/-- Some role has the permission, and the account is the admin or holds the role. -/
def Permitted (s : State) (account : Address) (permissionName : String) : Prop :=
  ∃ role ∈ allRoleIds, permissionName ∈ getRolePermissions s role ∧
    (s.admin = some account ∨ s.role.get (account, role) = some true)
deriving Decidable

/-- The cached answers are right. -/
def CacheTrue (s : State) : Prop :=
  ∀ account name cached, s.permissionCache.get (account, name) = some cached →
    (cached = true ↔ s.Permitted account name)

end State

section Steps

variable {m : Mode} {env : Env} {s s' : State} {account : Address} {name : String} {answer : Bool} {c : Call}

theorem checkRoles_spec : ∀ {ids : List U32}, ids ≠ [] → (checkRoles s account name ids).run m = some answer →
    (answer = true ↔ ∃ role ∈ ids, name ∈ getRolePermissions s role ∧
      (s.admin = some account ∨ s.role.get (account, role) = some true))
  | [], hne, _ => absurd rfl hne
  | role :: rest, _, h => by
    simp only [checkRoles, hasRole, run_iff, run_pure, Option.some.injEq, run_ite] at h
    obtain ⟨held, ⟨admin, hadmin, rfl⟩, h⟩ := h
    have hrole : (account = admin || (s.role.get (account, role)).getD false) = true ↔
        (s.admin = some account ∨ s.role.get (account, role) = some true) := by
      rw [hadmin, Option.some.injEq, eq_comm (a := admin)]
      cases s.role.get (account, role) <;> simp
    rw [List.exists_mem_cons_iff]
    split at h
    · rename_i hheld
      rw [Bool.and_eq_true, hrole, hasPermission, decide_eq_true_iff] at hheld
      cases h
      exact iff_of_true rfl (Or.inl hheld.symm)
    · rename_i hheld
      rw [Bool.and_eq_true, hrole, hasPermission, decide_eq_true_iff] at hheld
      rw [or_iff_right fun hrole => hheld hrole.symm]
      cases rest with
      | nil =>
        cases h.symm.trans (run_pure m false)
        simp
      | cons next rest => exact checkRoles_spec (List.cons_ne_nil _ _) h

/-- A query answers from the cache, or evaluates and caches what is true. -/
theorem accountHasPermission_spec (h : (accountHasPermission s account name).run m = some (answer, s')) :
    s.permissionCache.get (account, name) = some answer ∧ s' = s ∨
    s.permissionCache.get (account, name) = none ∧ (answer = true ↔ s.Permitted account name) ∧
      s' = { s with permissionCache := s.permissionCache.set (account, name) answer } := by
  unfold accountHasPermission at h
  cases hcache : s.permissionCache.get (account, name) with
  | some cached =>
    simp only [hcache, run_pure_iff, Prod.mk.injEq] at h
    obtain ⟨rfl, rfl⟩ := h
    exact Or.inl ⟨rfl, rfl⟩
  | none =>
    simp only [hcache, run_iff, Prod.mk.injEq] at h
    obtain ⟨_, hcheck, rfl, rfl⟩ := h
    exact Or.inr ⟨rfl, checkRoles_spec (by decide) hcheck, rfl⟩

/-- A call leaves the cache alone, or it leaves the permissions alone and caches nothing but what is true. -/
theorem execute_cases (h : (execute env s c).run m = some s') :
    s'.permissionCache = s.permissionCache ∨
    (∀ account name, s'.Permitted account name ↔ s.Permitted account name) ∧
      ∀ account name cached, s'.permissionCache.get (account, name) = some cached →
        s.permissionCache.get (account, name) = some cached ∨ (cached = true ↔ s.Permitted account name) := by
  cases c with
  | grantRole | revokeRole | removePermissionFromRole =>
    simp only [execute, grantRole, revokeRole, removePermissionFromRole, run_iff] at h
    obtain ⟨-, -, rfl⟩ := h
    exact Or.inl rfl
  | assignPermissionToRole =>
    simp only [execute, assignPermissionToRole, run_iff, run_ite] at h
    obtain ⟨-, -, h⟩ := h
    split at h <;> cases h.symm.trans (run_pure m _) <;> exact Or.inl rfl
  | accountHasPermission account name =>
    obtain ⟨answer, h⟩ := run_snd_map h
    rcases accountHasPermission_spec h with ⟨-, rfl⟩ | ⟨-, htrue, rfl⟩
    · exact Or.inl rfl
    · refine Or.inr ⟨fun _ _ => Iff.rfl, fun account' name' cached hcached => ?_⟩
      rw [Table.get_set] at hcached
      split at hcached
      · rename_i heq
        cases heq
        cases hcached
        exact Or.inr htrue
      · exact Or.inl hcached
  | clearPermissionCache account name =>
    cases h.symm.trans (run_pure m _)
    refine Or.inr ⟨fun _ _ => Iff.rfl, fun account' name' cached hcached => Or.inl ?_⟩
    rw [Table.get_remove] at hcached
    split at hcached
    · cases hcached
    · exact hcached

end Steps

abbrev Rule := TransitionSystem.Rule Env State Call

/-- **Permissions follow roles** in all queries along the runs by a rule exactly if no call of such a run changes a
permission about which an answer is cached. -/
theorem permissions_follow_roles (m : Mode) (ok : Rule) :
    (∀ {env s}, (roles m).Reach ok env s → ∀ {account name answer s'},
      (accountHasPermission s account name).run m = some (answer, s') → (answer = true ↔ s.Permitted account name)) ↔
    ∀ {env s env' c s'}, (roles m).Reach ok env s → ok env env' s c → (execute env' s c).run m = some s' →
      ∀ account name, s.permissionCache.get (account, name) ≠ none →
        (s'.Permitted account name ↔ s.Permitted account name) := by
  constructor
  · intro hanswers env s env' c s' hreach hok hstep account name hcached
    rcases execute_cases hstep with hsame | ⟨hpermitted, -⟩
    · -- the cached answer is given before the call and after it
      obtain ⟨cached, hcached⟩ := Option.ne_none_iff_exists'.1 hcached
      have hbefore : (accountHasPermission s account name).run m = some (cached, s) := by
        rw [accountHasPermission, hcached]
        exact run_pure m _
      have hafter : (accountHasPermission s' account name).run m = some (cached, s') := by
        rw [accountHasPermission, hsame, hcached]
        exact run_pure m _
      exact (hanswers (.step hreach hok hstep) hafter).symm.trans (hanswers hreach hbefore)
    · exact hpermitted account name
  · intro hkept
    have htrue : ∀ {env s}, (roles m).Reach ok env s → s.CacheTrue := by
      intro env s hreach
      induction hreach with
      | init hinit =>
        obtain ⟨admin, hinit⟩ := hinit
        simp only [initializeRoles, run_iff] at hinit
        obtain ⟨-, -, -, -, rfl⟩ := hinit
        exact nofun
      | step hreach hok hstep ih =>
        intro account name cached hcached
        rcases execute_cases hstep with hsame | ⟨hpermitted, hnew⟩
        · rw [hsame] at hcached
          rw [ih account name cached hcached,
            hkept hreach hok hstep account name (by rw [hcached]; exact Option.some_ne_none _)]
        · rw [hpermitted]
          exact (hnew account name cached hcached).elim (ih account name cached) id
    intro env s hreach account name answer s' hquery
    rcases accountHasPermission_spec hquery with ⟨hcached, -⟩ | ⟨-, hanswer, -⟩
    · exact htrue hreach account name answer hcached
    · exact hanswer

namespace Sample

def admin : Address := ⟨1⟩

def moderator : Address := ⟨2⟩

def env : Env := ⟨⟨0⟩, 0, 0, [admin], by decide⟩

/-- An account is granted a role with a permission, asks for it, and loses the role. -/
def revoked : List (Env × Call) :=
  [(env, .grantRole moderator 5), (env, .assignPermissionToRole 5 "ban"),
    (env, .accountHasPermission moderator "ban"), (env, .revokeRole moderator 5)]

/-- The call clears a cached answer. -/
def clears : Call → Bool
  | .clearPermissionCache .. => true
  | _ => false

/-- While an answer is cached, the cache is cleared. -/
def cleared : Rule := fun _ _ s c => s.permissionCache.map.keys = ∅ ∨ clears c = true
deriving Decidable

/-- With the answer cleared before the role is revoked, the next query says no. -/
theorem permissions_follow_roles_cleared : ∃ s₀ r s, (initializeRoles env {} admin).run .wrapping = some s₀ ∧
    (roles .wrapping).replay cleared env s₀ (revoked.insertIdx 3 (env, .clearPermissionCache moderator "ban")) =
      some r ∧
    (accountHasPermission r.2 moderator "ban").run .wrapping = some (false, s) := by
  obtain ⟨s₀, hstart, r, hrun, hlost, ⟨answer, s⟩, hquery⟩ : ∃ s₀ ∈ (initializeRoles env {} admin).run .wrapping,
      ∃ r ∈ (roles .wrapping).replay cleared env s₀ (revoked.insertIdx 3 (env, .clearPermissionCache moderator "ban")),
        ¬ r.2.Permitted moderator "ban" ∧ ∃ p, (accountHasPermission r.2 moderator "ban").run .wrapping = some p :=
    ⟨_, evaluated, _, evaluated, by decide +kernel, _, evaluated⟩
  have hanswer := (permissions_follow_roles .wrapping cleared).2 ?_ (.replay (.init ⟨admin, hstart⟩) hrun) hquery
  · obtain rfl : answer = false := Bool.eq_false_iff.2 (mt hanswer.1 hlost)
    exact ⟨s₀, r, s, hstart, hrun, hquery⟩
  · intro env s env' c s' _ hok hstep account name hcached
    rcases hok with hempty | hclears
    · refine absurd (Finmap.lookup_eq_none.2 fun hmem => ?_) hcached
      simpa [hempty] using Finmap.mem_keys.2 hmem
    · cases c with
      | clearPermissionCache =>
        cases hstep.symm.trans (run_pure _ _)
        exact Iff.rfl
      | _ => cases hclears

/-- The next query still says yes. -/
theorem revoked_still_permitted :
    (((initializeRoles env {} admin).run .wrapping).bind fun s =>
      ((roles .wrapping).replay TransitionSystem.Unrestricted env s revoked).map fun r =>
        (decide (r.2.Permitted moderator "ban"),
          ((accountHasPermission r.2 moderator "ban").run .wrapping).map Prod.fst)) =
      some (false, some true) := by
  decide +kernel

end Sample

end ArenaX.AccessControl
