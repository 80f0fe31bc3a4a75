/-
The registry of contracts: its storage, the entry points that write, the lookups, and its runs. A contract is stored
under its name and again under its address, and its name is in a list; versions, categories and statuses hang on the
name. Some entry points ask for the signature of the stored admin, others for that of an address they are given. The
texts are those of the contract's panics.
-/
import ArenaX.Lib.Host
import ArenaX.Lib.Runs
import ArenaX.Lib.Table

namespace ArenaX.ContractRegistry

open Machine Exec
open Host (Address Env)

abbrev Symbol := String

/-- What a function of the contract returns, or the text it panics with. -/
abbrev Result (α : Type) := Exec String α

structure ContractInfo where
  address : Address
  name : Symbol
  registeredAt : U64
  updatedAt : Option U64
  registeredBy : Address
  version : U32
  deprecated : Bool
  deprecatedAt : U64
  successor : Option Address
deriving DecidableEq

structure ContractVersion where
  version : U32
  address : Address
  deployedAt : U64
  deployedBy : Address
  notes : Symbol
  isActive : Bool
deriving DecidableEq

/-- The contract's storage under the names of its keys. -/
structure State where
  admin : Option Address := none
  contract : Table Symbol ContractInfo := ∅
  contractByAddress : Table Address ContractInfo := ∅
  contractList : List Symbol := []
  paused : Bool := false
  contractVersion : Table (Symbol × U32) ContractVersion := ∅
  activeVersion : Table Symbol U32 := ∅
  versionList : Table Symbol (List U32) := ∅
  contractCategory : Table Symbol Symbol := ∅
  contractStatus : Table Symbol Symbol := ∅
  categoryList : List Symbol := []

/-! ## Checks -/

section

variable (env : Env) (s : State)

def requireAdmin : Result Unit := do
  let admin ← okOr s.admin "not initialized"
  env.requireAuth admin

def requireNotPaused (s : State) : Result Unit := reject (s.paused = true) "contract is paused"

def requireRegistered (s : State) (name : Symbol) : Result Unit :=
  reject (s.contract.get name = none) "contract not registered"

/-! ## Contracts -/

def initializeRegistry (admin : Address) : Result State := do
  reject (s.admin.isSome = true) "already initialized"
  env.requireAuth admin
  pure { s with admin := some admin, paused := false, contractList := [], categoryList := [] }

/-- The entry of a contract that is new. -/
def newInfo (env : Env) (name : Symbol) (address : Address) (version : U32) : ContractInfo where
  address := address
  name := name
  registeredAt := env.timestamp
  updatedAt := none
  registeredBy := env.currentContract
  version := version
  deprecated := false
  deprecatedAt := 0
  successor := none

/-- What `register_contract` and each turn of `batch_register_contracts` do, the list of names apart. -/
def insertContract (name : Symbol) (address : Address) : Result State := do
  reject (name = "") "contract name cannot be empty"
  reject ((s.contract.get name).isSome = true) "contract name already registered"
  let contractInfo := newInfo env name address 1
  pure { s with
    contract := s.contract.set name contractInfo
    contractByAddress := s.contractByAddress.set address contractInfo }

def registerContract (name : Symbol) (address : Address) : Result State := do
  requireAdmin env s
  requireNotPaused s
  let s ← insertContract env s name address
  pure { s with contractList := s.contractList ++ [name] }

def updateContract (name : Symbol) (newAddress : Address) : Result State := do
  requireAdmin env s
  requireNotPaused s
  let contractInfo ← okOr (s.contract.get name) "contract not registered"
  reject (contractInfo.address = newAddress) "new address is the same as current address"
  let oldAddress := contractInfo.address
  let contractInfo := { contractInfo with address := newAddress, updatedAt := some env.timestamp }
  pure { s with
    contract := s.contract.set name contractInfo
    contractByAddress := (s.contractByAddress.remove oldAddress).set newAddress contractInfo }

def removeContract (name : Symbol) : Result State := do
  requireAdmin env s
  requireNotPaused s
  let contractInfo ← okOr (s.contract.get name) "contract not registered"
  pure { s with
    contract := s.contract.remove name
    contractByAddress := s.contractByAddress.remove contractInfo.address
    contractList := s.contractList.erase name }

end

/-- The entry under an address, or else the first listed contract that has the address. -/
def State.entryAt (s : State) (address : Address) : Option ContractInfo :=
  (s.contractByAddress.get address).or
    (s.contractList.findSome? fun name => (s.contract.get name).filter fun info => info.address = address)

section

variable (env : Env) (s : State)

/-- The name goes over to the successor, whose entry is made if there is none. -/
def linkSuccessor (entry : ContractInfo) (successor : Address) : Result State :=
  match s.contractByAddress.get successor with
  | some existing => pure { s with contract := s.contract.set entry.name existing }
  | none => do
    let version ← unchecked u32 (entry.version + 1)
    let info := newInfo env entry.name successor version
    pure { s with
      contractByAddress := s.contractByAddress.set successor info
      contract := s.contract.set entry.name info }

/-- Without a successor, the name keeps the entry if it is at the address. -/
def keepDeprecated (s : State) (entry : ContractInfo) (address : Address) : State :=
  match s.contract.get entry.name with
  | some current => if current.address = address then { s with contract := s.contract.set entry.name entry } else s
  | none => s

def deprecateContract (address : Address) (successor : Option Address) : Result State := do
  requireAdmin env s
  requireNotPaused s
  let entry ← okOr (s.entryAt address) "contract not registered"
  let entry := { entry with deprecated := true, deprecatedAt := env.timestamp, successor := successor }
  let s := { s with contractByAddress := s.contractByAddress.set address entry }
  match successor with
  | some succAddr => linkSuccessor env s entry succAddr
  | none => pure (keepDeprecated s entry address)

def setPaused (paused : Bool) : Result State := do
  requireAdmin env s
  pure { s with paused := paused }

/-- The loop of a batch. -/
def insertAll (entries : List (Symbol × Address)) : Result State :=
  entries.foldlM (fun s entry => insertContract env s entry.1 entry.2) s

def batchRegisterContracts (names : List Symbol) (addresses : List Address) : Result State := do
  requireAdmin env s
  requireNotPaused s
  reject (names.length ≠ addresses.length) "names and addresses arrays must have same length"
  let s ← insertAll env s (names.zip addresses)
  pure { s with contractList := s.contractList ++ names }

def transferAdmin (newAdmin : Address) : Result State := do
  requireAdmin env s
  pure { s with admin := some newAdmin }

/-! ## Versions, categories and statuses -/

def registerVersion (admin : Address) (name : Symbol) (version : U32) (address : Address) (notes : Symbol) :
    Result State := do
  env.requireAuth admin
  requireNotPaused s
  requireRegistered s name
  reject ((s.contractVersion.get (name, version)).isSome = true) "version already exists"
  let versionList := (s.versionList.get name).getD []
  let isActive := versionList.isEmpty
  let contractVersion : ContractVersion := ⟨version, address, env.timestamp, admin, notes, isActive⟩
  pure { s with
    contractVersion := s.contractVersion.set (name, version) contractVersion
    versionList := s.versionList.set name (versionList ++ [version])
    activeVersion := if isActive then s.activeVersion.set name version else s.activeVersion }

/-- The version that is active stops being so, unless it is the one that is activated. -/
def deactivateCurrent (s : State) (name : Symbol) (version : U32) : Result State :=
  match s.activeVersion.get name with
  | none => pure s
  | some currentActiveVersion =>
    if currentActiveVersion = version then pure s
    else do
      let oldVersion ← okOr (s.contractVersion.get (name, currentActiveVersion)) "current active version not found"
      pure { s with
        contractVersion := s.contractVersion.set (name, currentActiveVersion) { oldVersion with isActive := false } }

def setActiveVersion (admin : Address) (name : Symbol) (version : U32) : Result State := do
  env.requireAuth admin
  requireNotPaused s
  let contractVersion ← okOr (s.contractVersion.get (name, version)) "version not found"
  let s ← deactivateCurrent s name version
  pure { s with
    contractVersion := s.contractVersion.set (name, version) { contractVersion with isActive := true }
    activeVersion := s.activeVersion.set name version }

def deprecateVersion (admin : Address) (name : Symbol) (version : U32) : Result State := do
  env.requireAuth admin
  requireNotPaused s
  let contractVersion ← okOr (s.contractVersion.get (name, version)) "version not found"
  pure { s with
    contractVersion := s.contractVersion.set (name, version) { contractVersion with isActive := false }
    activeVersion := if s.activeVersion.get name = some version then s.activeVersion.remove name else s.activeVersion }

def setContractCategory (admin : Address) (name category : Symbol) : Result State := do
  env.requireAuth admin
  requireNotPaused s
  requireRegistered s name
  pure { s with
    contractCategory := s.contractCategory.set name category
    categoryList := if category ∈ s.categoryList then s.categoryList else s.categoryList ++ [category] }

def setContractStatus (admin : Address) (name status : Symbol) : Result State := do
  env.requireAuth admin
  requireNotPaused s
  requireRegistered s name
  pure { s with contractStatus := s.contractStatus.set name status }

end

/-! ## Lookups -/

namespace State

def getContract (s : State) (name : Symbol) : Result Address := do
  let contractInfo ← okOr (s.contract.get name) "contract not registered"
  pure contractInfo.address

/-- The loop of `get_current`, which follows at most `hops` more successors. -/
def follow (s : State) : ℕ → ContractInfo → Result ContractInfo
  | 0, current => if current.deprecated then throw "all entries for contract are deprecated" else pure current
  | hops + 1, current =>
    if current.deprecated then
      match current.successor.bind s.contractByAddress.get with
      | some succInfo => s.follow hops succInfo
      | none => throw "all entries for contract are deprecated"
    else pure current

def getCurrent (s : State) (name : Symbol) : Result ContractInfo := do
  let current ← okOr (s.contract.get name) "contract not registered"
  s.follow 50 current

def getActiveVersion (s : State) (name : Symbol) : Result ContractVersion := do
  let version ← okOr (s.activeVersion.get name) "no active version for contract"
  okOr (s.contractVersion.get (name, version)) "active version not found"

end State

/-! ## The contract -/

/-- The entry points that write, `initialize` apart. -/
inductive Call where
  | registerContract (name : Symbol) (address : Address)
  | updateContract (name : Symbol) (newAddress : Address)
  | removeContract (name : Symbol)
  | deprecateContract (address : Address) (successor : Option Address)
  | setPaused (paused : Bool)
  | batchRegisterContracts (names : List Symbol) (addresses : List Address)
  | transferAdmin (newAdmin : Address)
  | registerVersion (admin : Address) (name : Symbol) (version : U32) (address : Address) (notes : Symbol)
  | setActiveVersion (admin : Address) (name : Symbol) (version : U32)
  | deprecateVersion (admin : Address) (name : Symbol) (version : U32)
  | setContractCategory (admin : Address) (name category : Symbol)
  | setContractStatus (admin : Address) (name status : Symbol)

def execute (env : Env) (s : State) : Call → Result State
  | .registerContract name address => registerContract env s name address
  | .updateContract name newAddress => updateContract env s name newAddress
  | .removeContract name => removeContract env s name
  | .deprecateContract address successor => deprecateContract env s address successor
  | .setPaused paused => setPaused env s paused
  | .batchRegisterContracts names addresses => batchRegisterContracts env s names addresses
  | .transferAdmin newAdmin => transferAdmin env s newAdmin
  | .registerVersion admin name version address notes => registerVersion env s admin name version address notes
  | .setActiveVersion admin name version => setActiveVersion env s admin name version
  | .deprecateVersion admin name version => deprecateVersion env s admin name version
  | .setContractCategory admin name category => setContractCategory env s admin name category
  | .setContractStatus admin name status => setContractStatus env s admin name status

/-- The registry from `initialize` on, in a build that reads arithmetic by a mode. -/
def registry (m : Mode) : TransitionSystem Env State Call where
  init env s := ∃ admin, (initializeRegistry env {} admin).run m = some s
  step env s c := (execute env s c).run m

abbrev Rule := TransitionSystem.Rule Env State Call

export TransitionSystem (Unrestricted)

/-! ## What the entry points do -/

section Specs

variable {m : Mode} {env : Env} {s s' : State} {name : Symbol} {address admin : Address} {u : Unit}

@[simp] theorem run_requireAdmin : (requireAdmin env s).run m = some u ↔ env.AdminSigned s.admin :=
  Env.run_requireAdmin (run_okOr m _ _) u

theorem initializeRegistry_spec (h : (initializeRegistry env s admin).run m = some s') :
    s' = { s with admin := some admin, paused := false, contractList := [], categoryList := [] } := by
  simp only [initializeRegistry, run_iff] at h
  obtain ⟨-, -, -, -, rfl⟩ := h
  rfl

theorem insertContract_spec (h : (insertContract env s name address).run m = some s') :
    s.contract.get name = none ∧ s' = { s with
      contract := s.contract.set name (newInfo env name address 1)
      contractByAddress := s.contractByAddress.set address (newInfo env name address 1) } := by
  simp only [insertContract, run_iff, Bool.not_eq_true, Option.isSome_eq_false_iff, Option.isNone_iff_eq_none] at h
  obtain ⟨-, -, -, hnone, rfl⟩ := h
  exact ⟨hnone, rfl⟩

theorem registerContract_spec (h : (registerContract env s name address).run m = some s') :
    env.AdminSigned s.admin ∧ s.contract.get name = none ∧ s' = { s with
      contract := s.contract.set name (newInfo env name address 1)
      contractByAddress := s.contractByAddress.set address (newInfo env name address 1)
      contractList := s.contractList ++ [name] } := by
  simp only [registerContract, run_iff, run_requireAdmin] at h
  obtain ⟨-, hadmin, -, -, t, hinsert, rfl⟩ := h
  obtain ⟨hnone, rfl⟩ := insertContract_spec hinsert
  exact ⟨hadmin, hnone, rfl⟩

theorem updateContract_spec {newAddress : Address} (h : (updateContract env s name newAddress).run m = some s') :
    env.AdminSigned s.admin ∧ ∃ info, s.contract.get name = some info ∧ info.address ≠ newAddress ∧ s' = { s with
      contract := s.contract.set name { info with address := newAddress, updatedAt := some env.timestamp }
      contractByAddress := (s.contractByAddress.remove info.address).set newAddress
        { info with address := newAddress, updatedAt := some env.timestamp } } := by
  simp only [updateContract, run_iff, run_requireAdmin] at h
  obtain ⟨-, hadmin, -, -, _, hinfo, -, hne, rfl⟩ := h
  exact ⟨hadmin, _, hinfo, hne, rfl⟩

theorem removeContract_spec (h : (removeContract env s name).run m = some s') :
    env.AdminSigned s.admin ∧ ∃ info, s.contract.get name = some info ∧ s' = { s with
      contract := s.contract.remove name
      contractByAddress := s.contractByAddress.remove info.address
      contractList := s.contractList.erase name } := by
  simp only [removeContract, run_iff, run_requireAdmin] at h
  obtain ⟨-, hadmin, -, -, _, hinfo, rfl⟩ := h
  exact ⟨hadmin, _, hinfo, rfl⟩

/-- The entry as it is deprecated. -/
def ContractInfo.deprecate (env : Env) (info : ContractInfo) (successor : Option Address) : ContractInfo :=
  { info with deprecated := true, deprecatedAt := env.timestamp, successor := successor }

theorem linkSuccessor_spec {entry : ContractInfo} {succAddr : Address}
    (h : (linkSuccessor env s entry succAddr).run m = some s') :
    (∃ existing, s.contractByAddress.get succAddr = some existing ∧
      s' = { s with contract := s.contract.set entry.name existing }) ∨
    s.contractByAddress.get succAddr = none ∧ ∃ version, s' = { s with
      contractByAddress := s.contractByAddress.set succAddr (newInfo env entry.name succAddr version)
      contract := s.contract.set entry.name (newInfo env entry.name succAddr version) } := by
  unfold linkSuccessor at h
  cases hsucc : s.contractByAddress.get succAddr with
  | some existing =>
    rw [hsucc, run_pure] at h
    cases h
    exact Or.inl ⟨existing, rfl, rfl⟩
  | none =>
    simp only [hsucc, run_iff] at h
    obtain ⟨_, -, rfl⟩ := h
    exact Or.inr ⟨rfl, _, rfl⟩

theorem deprecateContract_spec {successor : Option Address}
    (h : (deprecateContract env s address successor).run m = some s') :
    env.AdminSigned s.admin ∧ ∃ entry, s.entryAt address = some entry ∧
      ((∃ succAddr, successor = some succAddr ∧
        (linkSuccessor env { s with
          contractByAddress := s.contractByAddress.set address (entry.deprecate env successor) }
          (entry.deprecate env successor) succAddr).run m = some s') ∨
      successor = none ∧
        s' = keepDeprecated { s with
          contractByAddress := s.contractByAddress.set address (entry.deprecate env successor) }
          (entry.deprecate env successor) address) := by
  simp only [deprecateContract, run_iff, run_requireAdmin] at h
  obtain ⟨-, hadmin, -, -, _, hentry, h⟩ := h
  refine ⟨hadmin, _, hentry, ?_⟩
  cases successor with
  | some succAddr => exact Or.inl ⟨succAddr, rfl, h⟩
  | none =>
    rw [run_pure] at h
    cases h
    exact Or.inr ⟨rfl, rfl⟩

theorem batchRegisterContracts_spec {names : List Symbol} {addresses : List Address}
    (h : (batchRegisterContracts env s names addresses).run m = some s') :
    env.AdminSigned s.admin ∧ names.length = addresses.length ∧
    ∃ t, (insertAll env s (names.zip addresses)).run m = some t ∧
      s' = { t with contractList := t.contractList ++ names } := by
  simp only [batchRegisterContracts, run_iff, run_requireAdmin, not_not] at h
  obtain ⟨-, hadmin, -, -, -, hlength, _, ht, rfl⟩ := h
  exact ⟨hadmin, hlength, _, ht, rfl⟩

/-- The address that an entry point takes for the admin, and whose signature it asks for. -/
def Call.namedAdmin : Call → Option Address
  | .registerVersion admin .. | .setActiveVersion admin .. | .deprecateVersion admin .. | .setContractCategory admin ..
  | .setContractStatus admin .. => some admin
  | _ => none

/-- The contracts, the admin and the pause are the same. -/
structure State.SameContracts (s s' : State) : Prop where
  admin : s'.admin = s.admin
  contract : s'.contract = s.contract
  contractByAddress : s'.contractByAddress = s.contractByAddress
  contractList : s'.contractList = s.contractList
  paused : s'.paused = s.paused

theorem deactivateCurrent_same {version : U32} (h : (deactivateCurrent s name version).run m = some s') :
    s.SameContracts s' := by
  unfold deactivateCurrent at h
  split at h
  · cases (run_pure m s).symm.trans h
    exact ⟨rfl, rfl, rfl, rfl, rfl⟩
  · split at h
    · cases (run_pure m s).symm.trans h
      exact ⟨rfl, rfl, rfl, rfl, rfl⟩
    · simp only [run_iff] at h
      obtain ⟨_, -, rfl⟩ := h
      exact ⟨rfl, rfl, rfl, rfl, rfl⟩

/-- An entry point that is given an admin is signed by that address, and leaves the contracts alone. -/
theorem execute_of_namedAdmin {c : Call} (hc : c.namedAdmin = some admin) (h : (execute env s c).run m = some s') :
    admin ∈ env.signers ∧ s.SameContracts s' := by
  cases c with
  | registerVersion =>
    cases hc
    simp only [execute, registerVersion, run_iff, Env.run_requireAuth] at h
    obtain ⟨-, hsigned, -, -, -, -, -, -, rfl⟩ := h
    exact ⟨hsigned, rfl, rfl, rfl, rfl, rfl⟩
  | setActiveVersion =>
    cases hc
    simp only [execute, setActiveVersion, run_iff, Env.run_requireAuth] at h
    obtain ⟨-, hsigned, -, -, _, -, t, ht, rfl⟩ := h
    have hsame := deactivateCurrent_same ht
    exact ⟨hsigned, hsame.admin, hsame.contract, hsame.contractByAddress, hsame.contractList, hsame.paused⟩
  | deprecateVersion | setContractCategory | setContractStatus =>
    cases hc
    simp only [execute, deprecateVersion, setContractCategory, setContractStatus, run_iff, Env.run_requireAuth] at h
    obtain ⟨-, hsigned, -, -, _, -, rfl⟩ := h
    exact ⟨hsigned, rfl, rfl, rfl, rfl, rfl⟩
  | _ => cases hc

end Specs

namespace Sample

export Host.Accounts (admin)

def mallory : Address := ⟨2⟩
def tournament : Address := ⟨10⟩
def wallet : Address := ⟨11⟩

def byAdmin : Env := .signed [admin] 0 0

/-- The registry after `initialize`. -/
def deployed : State := { admin := some admin }

def deployment (m : Mode) : (registry m).Deployment where
  env := byAdmin
  state := deployed
  starts := ⟨admin, by cases m <;> rfl⟩

/-- The state after calls on the registry after `initialize`. -/
def after (m : Mode) (calls : List (Env × Call)) : Option State :=
  ((deployment m).after Unrestricted calls).map Prod.snd

end Sample

end ArenaX.ContractRegistry
