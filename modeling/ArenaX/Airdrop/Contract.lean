/-
The airdrop contract: its storage, its entry points and its runs. Whoever is entitled by the Merkle root claims an
amount once, by a directed proof, by a sorted proof, or with others in a batch; the admin changes the root, the total
and the expiry, and sweeps what is left after it. Amounts are `i128` and tracked for overflow. The texts are those of
the contract's panics.
-/
import ArenaX.Airdrop.Merkle
import ArenaX.Lib.Table
import ArenaX.Lib.Runs

namespace ArenaX.Airdrop

open Machine Exec
open Host (Address Holdings)

/-- What a function of the contract returns, or the text it panics with. -/
abbrev Result (α : Type) := Exec String α

/-- The receipt of a claim. -/
structure ClaimResult where
  claimant : Address
  amount : I128
  claimedAt : U64
deriving DecidableEq

/-- The contract's storage under the names of its keys, and what everyone holds at the token contracts. -/
structure State where
  tokens : Holdings
  admin : Option Address := none
  token : Option Address := none
  merkleRoot : Option (BytesN 32) := none
  totalAmount : Option I128 := none
  claimedAmount : I128 := 0
  expiresAt : Option U64 := none
  recoveryAddress : Option Address := none
  paused : Bool := false
  claimed : Table Address Bool := ∅
  tokenAmountPerAddress : Option I128 := none

def State.hasClaimed (s : State) (claimant : Address) : Bool := (s.claimed.get claimant).getD false

/-! ## Checks -/

section

variable (env : Env) (s : State)

def requireAdmin : Result Unit := do
  let admin ← okOr s.admin "not initialized"
  env.requireAuth admin

def requireNotPaused (s : State) : Result Unit := reject (s.paused = true) "contract is paused"

/-- Without an expiry on record the airdrop ends with the last timestamp. -/
def requireNotExpired : Result Unit :=
  reject (((s.expiresAt.elim u64.max fun t => t : Int)) ≤ env.timestamp) "airdrop has expired"

/-- The amount that `configure_airdrop` fixed is the only one that may be claimed. -/
def requireSnapshotAmount (s : State) (amount : I128) : Result Unit :=
  reject (∃ expected ∈ s.tokenAmountPerAddress, amount ≠ expected) "amount does not match snapshot"

/-! ## Setting up -/

def initializeContract (admin token : Address) (merkleRoot : BytesN 32) (totalAmount : I128)
    (expiresAt : U64) (recoveryAddress : Address) : Result State := do
  reject (s.admin.isSome = true) "already initialized"
  env.requireAuth admin
  reject ((totalAmount : Int) ≤ 0) "total_amount must be positive"
  reject ((expiresAt : Int) ≤ env.timestamp) "expires_at must be in the future"
  pure { s with
    admin := some admin
    token := some token
    merkleRoot := some merkleRoot
    totalAmount := some totalAmount
    claimedAmount := 0
    expiresAt := some expiresAt
    recoveryAddress := some recoveryAddress
    paused := false }

def configureAirdrop (merkleRoot : BytesN 32) (tokenAmountPerAddress : I128) (expiry : U64) :
    Result State := do
  requireAdmin env s
  reject ((tokenAmountPerAddress : Int) ≤ 0) "token_amount_per_address must be positive"
  reject ((expiry : Int) ≤ env.timestamp) "expiry must be in the future"
  pure { s with
    merkleRoot := some merkleRoot
    tokenAmountPerAddress := some tokenAmountPerAddress
    expiresAt := some expiry }

/-! ## Claims -/

/-- What both kinds of single claim do once the caller and the amount are checked; they differ in how a proof is
verified. -/
def settleClaim (claimant : Address) (amount : I128)
    (verify : BytesN 32 → BytesN 32 → Bool) : Result (ClaimResult × State) := do
  requireSnapshotAmount s amount
  reject (s.hasClaimed claimant = true) "already claimed"
  let root ← unwrap s.merkleRoot
  let leaf := computeLeaf env claimant amount
  reject (verify leaf root = false) "invalid merkle proof"
  let total : I128 ← unwrap s.totalAmount
  let claimed ← unchecked i128 (s.claimedAmount + amount)
  reject ((claimed : Int) > total) "insufficient airdrop balance"
  let token ← unwrap s.token
  let tokens ← s.tokens.transfer env.accepts token env.currentContract claimant amount
  pure (⟨claimant, amount, env.timestamp⟩,
    { s with claimed := s.claimed.set claimant true, claimedAmount := claimed, tokens := tokens })

def claimWithProofNodes (claimant : Address) (proof : List ProofNode) (amount : I128) :
    Result (ClaimResult × State) := do
  env.requireAuth claimant
  requireNotPaused s
  requireNotExpired env s
  reject ((amount : Int) ≤ 0) "amount must be positive"
  settleClaim env s claimant amount fun leaf root => verifyMerkleProof env leaf proof root

def claim (claimant : Address) (proof : List (BytesN 32)) (amount : I128) :
    Result (ClaimResult × State) := do
  env.requireAuth claimant
  requireNotPaused s
  requireNotExpired env s
  reject ((amount : Int) ≤ 0) "amount must be positive"
  reject (proof.length > 32) "merkle proof too deep"
  settleClaim env s claimant amount fun leaf root => verifySortedMerkleProof env leaf proof root

/-- An entry of a batch: who claims, the proof and the amount. -/
abbrev Entry := Address × List ProofNode × I128

/-- One turn of the loop of `batch_claim`: the receipts so far, the running total and the state. The snapshot amount is
not asked for. -/
def claimEntry (env : Env) (root : BytesN 32) (token : Address) (total : I128) :
    List ClaimResult × I128 × State → Entry → Result (List ClaimResult × I128 × State)
  | (results, claimedTotal, s), (claimant, proof, amount) => do
    env.requireAuth claimant
    reject ((amount : Int) ≤ 0) "amount must be positive"
    reject (s.hasClaimed claimant = true) "already claimed"
    let leaf := computeLeaf env claimant amount
    reject (verifyMerkleProof env leaf proof root = false) "invalid merkle proof"
    let claimed ← unchecked i128 (claimedTotal + amount)
    reject ((claimed : Int) > total) "insufficient airdrop balance"
    let tokens ← s.tokens.transfer env.accepts token env.currentContract claimant amount
    pure (results ++ [⟨claimant, amount, env.timestamp⟩], claimed,
      { s with claimed := s.claimed.set claimant true, tokens := tokens })

/-- The claimed total is read before the loop and written after it. -/
def batchClaim (entries : List Entry) : Result (List ClaimResult × State) := do
  requireNotPaused s
  requireNotExpired env s
  let root ← unwrap s.merkleRoot
  let token ← unwrap s.token
  let total : I128 ← unwrap s.totalAmount
  let (results, claimedTotal, s) ← entries.foldlM (claimEntry env root token total) ([], s.claimedAmount, s)
  pure (results, { s with claimedAmount := claimedTotal })

/-! ## Administration -/

def recoverUnclaimed : Result (Int × State) := do
  requireAdmin env s
  let expiresAt : U64 ← unwrap s.expiresAt
  reject ((env.timestamp : Int) < expiresAt) "airdrop has not expired yet"
  let token ← unwrap s.token
  let recovery ← unwrap s.recoveryAddress
  let balance := s.tokens token env.currentContract
  if balance ≤ 0 then pure (0, s)
  else do
    let tokens ← s.tokens.transfer env.accepts token env.currentContract recovery balance
    pure (balance, { s with tokens := tokens })

def updateMerkleRoot (newRoot : BytesN 32) (additionalAmount : I128) : Result State := do
  requireAdmin env s
  requireNotExpired env s
  reject ((additionalAmount : Int) < 0) "additional_amount cannot be negative"
  let s := { s with merkleRoot := some newRoot }
  if (additionalAmount : Int) > 0 then do
    let total : I128 ← unwrap s.totalAmount
    let total' ← unchecked i128 (total + additionalAmount)
    pure { s with totalAmount := some total' }
  else pure s

def extendExpiry (newExpiresAt : U64) : Result State := do
  requireAdmin env s
  let current : U64 ← unwrap s.expiresAt
  reject ((newExpiresAt : Int) ≤ current) "new expiry must be later than current expiry"
  pure { s with expiresAt := some newExpiresAt }

def setPaused (paused : Bool) : Result State := do
  requireAdmin env s
  pure { s with paused := paused }

def setRecoveryAddress (newRecovery : Address) : Result State := do
  requireAdmin env s
  pure { s with recoveryAddress := some newRecovery }

end

/-! ## The contract -/

/-- The entry points that write. -/
inductive Call where
  | configureAirdrop (merkleRoot : BytesN 32) (tokenAmountPerAddress : I128) (expiry : U64)
  | claimWithProofNodes (claimant : Address) (proof : List ProofNode) (amount : I128)
  | claim (claimant : Address) (proof : List (BytesN 32)) (amount : I128)
  | batchClaim (entries : List Entry)
  | recoverUnclaimed
  | updateMerkleRoot (newRoot : BytesN 32) (additionalAmount : I128)
  | extendExpiry (newExpiresAt : U64)
  | setPaused (paused : Bool)
  | setRecoveryAddress (newRecovery : Address)

/-- The receipts a call returns, and the state it leaves behind. -/
def execute (env : Env) (s : State) : Call → Result (List ClaimResult × State)
  | .configureAirdrop merkleRoot amount expiry => Prod.mk [] <$> configureAirdrop env s merkleRoot amount expiry
  | .claimWithProofNodes claimant proof amount =>
    Prod.map ([·]) id <$> claimWithProofNodes env s claimant proof amount
  | .claim claimant proof amount => Prod.map ([·]) id <$> claim env s claimant proof amount
  | .batchClaim entries => batchClaim env s entries
  | .recoverUnclaimed => (fun r => ([], r.2)) <$> recoverUnclaimed env s
  | .updateMerkleRoot newRoot additionalAmount => Prod.mk [] <$> updateMerkleRoot env s newRoot additionalAmount
  | .extendExpiry newExpiresAt => Prod.mk [] <$> extendExpiry env s newExpiresAt
  | .setPaused paused => Prod.mk [] <$> setPaused env s paused
  | .setRecoveryAddress newRecovery => Prod.mk [] <$> setRecoveryAddress env s newRecovery

/-- The call is one of the three ways to claim. -/
def Call.claims : Call → Bool
  | .claimWithProofNodes .. | .claim .. | .batchClaim .. => true
  | _ => false

/-- The contract from `initialize` on, in a build that reads arithmetic by a mode. -/
def contract (m : Mode) : TransitionSystem Env State Call where
  init env s := ∃ tokens admin token merkleRoot totalAmount expiresAt recoveryAddress,
    (initializeContract env { tokens } admin token merkleRoot totalAmount expiresAt recoveryAddress).run m = some s
  step env s c := ((execute env s c).run m).map Prod.snd

abbrev Rule := TransitionSystem.Rule Env State Call

export TransitionSystem (Unrestricted)

/-! ## What the operations do -/

section Checks

variable {m : Mode} {env : Env} {s s' : State} {amount : I128} {u : Unit}

/-- Neither paused nor expired. -/
def State.Open (env : Env) (s : State) : Prop :=
  s.paused = false ∧ (env.timestamp : ℤ) < s.expiresAt.elim u64.max fun t => t
deriving Decidable

/-- The amount is the one of the snapshot, if there is one. -/
def State.Snapshot (s : State) (amount : I128) : Prop := ∀ expected ∈ s.tokenAmountPerAddress, amount = expected
deriving Decidable

@[simp] theorem run_requireAdmin : (requireAdmin env s).run m = some u ↔ env.AdminSigned s.admin :=
  Host.Env.run_requireAdmin (run_okOr m _ _) u

@[simp] theorem run_requireSnapshotAmount : (requireSnapshotAmount s amount).run m = some u ↔ s.Snapshot amount := by
  simp [requireSnapshotAmount, State.Snapshot]

theorem run_requireOpen : (requireNotPaused s).run m = some u ∧ (requireNotExpired env s).run m = some u ↔
    s.Open env := by
  simp [requireNotPaused, requireNotExpired, State.Open]

end Checks

/-- What entitles an address to an amount when a total has been claimed before. -/
structure Entitled (m : Mode) (env : Env) (s : State) (token : Address) (total claimedTotal : I128) (claimant : Address)
    (amount : I128) : Prop where
  signed : claimant ∈ env.signers
  positive : 0 < (amount : ℤ)
  fresh : s.hasClaimed claimant = false
  within : (i128.wrap (claimedTotal + amount) : ℤ) ≤ total
  fits : m = .exact → i128.Fits (claimedTotal + amount)
  accepted : env.accepts s.tokens token env.currentContract claimant amount = true

/-- The state after a payment, the claimed total apart. -/
def State.pay (env : Env) (s : State) (token claimant : Address) (amount : I128) : State :=
  { s with
    claimed := s.claimed.set claimant true
    tokens := s.tokens.move token env.currentContract claimant amount }

section Specs

variable {m : Mode} {env : Env} {s s' : State} {claimant token : Address} {amount total claimedTotal : I128}
  {r : ClaimResult × State}
  {root : BytesN 32}

theorem initializeContract_spec {admin recovery : Address} {expires : U64}
    (h : (initializeContract env s admin token root total expires recovery).run m = some s') :
    0 < (total : ℤ) ∧ s' = { s with
      admin := some admin
      token := some token
      merkleRoot := some root
      totalAmount := some total
      claimedAmount := 0
      expiresAt := some expires
      recoveryAddress := some recovery
      paused := false } := by
  simp only [initializeContract, run_iff, run_requireAuth, not_le] at h
  obtain ⟨-, -, -, -, -, hpos, -, -, rfl⟩ := h
  exact ⟨hpos, rfl⟩

theorem configureAirdrop_spec {amount : I128} {expiry : U64}
    (h : (configureAirdrop env s root amount expiry).run m = some s') :
    env.AdminSigned s.admin ∧ 0 < (amount : ℤ) ∧ s' = { s with
      merkleRoot := some root
      tokenAmountPerAddress := some amount
      expiresAt := some expiry } := by
  simp only [configureAirdrop, run_iff, run_requireAdmin, not_le] at h
  obtain ⟨-, hadmin, -, hpos, -, -, rfl⟩ := h
  exact ⟨hadmin, hpos, rfl⟩

/-- One claim, in a state that has a root, a total and a token. -/
theorem run_settleClaim {verify : BytesN 32 → BytesN 32 → Bool}
    (hroot : s.merkleRoot = some root) (htotal : s.totalAmount = some total) (htoken : s.token = some token)
    (hsigned : claimant ∈ env.signers) (hpos : 0 < (amount : ℤ)) :
    (settleClaim env s claimant amount verify).run m = some r ↔
      s.Snapshot amount ∧ verify (computeLeaf env claimant amount) root = true ∧
      Entitled m env s token total s.claimedAmount claimant amount ∧
      r = (⟨claimant, amount, env.timestamp⟩,
        { s.pay env token claimant amount with claimedAmount := i128.wrap (s.claimedAmount + amount) }) := by
  simp only [settleClaim, run_iff, run_requireSnapshotAmount, run_unwrap, run_unchecked, Holdings.run_transfer, not_lt,
    Bool.not_eq_true, Bool.not_eq_false]
  constructor
  · rintro ⟨-, hsnapshot, -, hfresh, _, hroot', -, hvalid, _, htotal', _, ⟨rfl, hfits⟩, -, hwithin, _, htoken', _,
      ⟨haccepted, rfl⟩, rfl⟩
    cases hroot.symm.trans hroot'
    cases htotal.symm.trans htotal'
    cases htoken.symm.trans htoken'
    exact ⟨hsnapshot, hvalid, ⟨hsigned, hpos, hfresh, hwithin, hfits, haccepted⟩, rfl⟩
  · rintro ⟨hsnapshot, hvalid, ⟨-, -, hfresh, hwithin, hfits, haccepted⟩, rfl⟩
    exact ⟨(), hsnapshot, (), hfresh, root, hroot, (), hvalid, total, htotal, _, ⟨rfl, hfits⟩, (), hwithin, token,
      htoken, _, ⟨haccepted, rfl⟩, rfl⟩

theorem run_claimWithProofNodes {proof : List ProofNode}
    (hroot : s.merkleRoot = some root) (htotal : s.totalAmount = some total) (htoken : s.token = some token) :
    (claimWithProofNodes env s claimant proof amount).run m = some r ↔
      s.Open env ∧ s.Snapshot amount ∧ verifyMerkleProof env (computeLeaf env claimant amount) proof root = true ∧
      Entitled m env s token total s.claimedAmount claimant amount ∧
      r = (⟨claimant, amount, env.timestamp⟩,
        { s.pay env token claimant amount with claimedAmount := i128.wrap (s.claimedAmount + amount) }) := by
  simp only [claimWithProofNodes, run_iff, run_requireAuth, not_le]
  constructor
  · rintro ⟨⟨⟩, hsigned, ⟨⟩, hpaused, ⟨⟩, hexpired, ⟨⟩, hpos, h⟩
    exact ⟨run_requireOpen.1 ⟨hpaused, hexpired⟩, (run_settleClaim hroot htotal htoken hsigned hpos).1 h⟩
  · rintro ⟨hopen, h⟩
    obtain ⟨hpaused, hexpired⟩ := run_requireOpen.2 hopen
    exact ⟨(), h.2.2.1.signed, (), hpaused, (), hexpired, (), h.2.2.1.positive,
      (run_settleClaim hroot htotal htoken h.2.2.1.signed h.2.2.1.positive).2 h⟩

theorem claim_spec {proof : List (BytesN 32)}
    (hroot : s.merkleRoot = some root) (htotal : s.totalAmount = some total) (htoken : s.token = some token)
    (h : (claim env s claimant proof amount).run m = some r) :
    s.Open env ∧ proof.length ≤ 32 ∧ s.Snapshot amount ∧
      verifySortedMerkleProof env (computeLeaf env claimant amount) proof root = true ∧
      Entitled m env s token total s.claimedAmount claimant amount ∧
      r = (⟨claimant, amount, env.timestamp⟩,
        { s.pay env token claimant amount with claimedAmount := i128.wrap (s.claimedAmount + amount) }) := by
  simp only [claim, run_iff, run_requireAuth, not_le, not_lt] at h
  obtain ⟨⟨⟩, hsigned, ⟨⟩, hpaused, ⟨⟩, hexpired, ⟨⟩, hpos, ⟨⟩, hdepth, h⟩ := h
  exact ⟨run_requireOpen.1 ⟨hpaused, hexpired⟩, hdepth, (run_settleClaim hroot htotal htoken hsigned hpos).1 h⟩

theorem run_claimEntry {results : List ClaimResult} {proof : List ProofNode} {r : List ClaimResult × I128 × State} :
    (claimEntry env root token total (results, claimedTotal, s) (claimant, proof, amount)).run m = some r ↔
      verifyMerkleProof env (computeLeaf env claimant amount) proof root = true ∧
      Entitled m env s token total claimedTotal claimant amount ∧
      r = (results ++ [⟨claimant, amount, env.timestamp⟩], i128.wrap (claimedTotal + amount),
        s.pay env token claimant amount) := by
  simp only [claimEntry, run_iff, run_requireAuth, run_unchecked, Holdings.run_transfer, not_lt, not_le,
    Bool.not_eq_true, Bool.not_eq_false]
  constructor
  · rintro ⟨-, hsigned, -, hpos, -, hfresh, -, hvalid, _, ⟨rfl, hfits⟩, -, hwithin, _, ⟨haccepted, rfl⟩, rfl⟩
    exact ⟨hvalid, ⟨hsigned, hpos, hfresh, hwithin, hfits, haccepted⟩, rfl⟩
  · rintro ⟨hvalid, ⟨hsigned, hpos, hfresh, hwithin, hfits, haccepted⟩, rfl⟩
    exact ⟨(), hsigned, (), hpos, (), hfresh, (), hvalid, _, ⟨rfl, hfits⟩, (), hwithin, _, ⟨haccepted, rfl⟩, rfl⟩

theorem run_batchClaim {entries : List Entry} (hroot : s.merkleRoot = some root) (htotal : s.totalAmount = some total)
    (htoken : s.token = some token) :
    (batchClaim env s entries).run m = if s.Open env then
      ((entries.foldlM (claimEntry env root token total) ([], s.claimedAmount, s)).run m).map
        fun r => (r.1, { r.2.2 with claimedAmount := r.2.1 }) else none := by
  have hloop (x : Result (List ClaimResult × I128 × State)) :
      (x >>= fun r => pure (r.1, { r.2.2 with claimedAmount := r.2.1 }) : Result (List ClaimResult × State)).run m =
        (x.run m).map fun r => (r.1, { r.2.2 with claimedAmount := r.2.1 }) := by
    rw [run_bind, Option.map_eq_bind]
    congr 1
    funext r
    exact run_pure m _
  unfold batchClaim
  simp only [run_bind, hroot, htotal, htoken, run_unwrap, Option.bind_some]
  split
  · rename_i hopen
    obtain ⟨hpaused, hexpired⟩ := (run_requireOpen (m := m) (u := ())).2 hopen
    rw [hpaused, hexpired, Option.bind_some, Option.bind_some, ← hloop, run_bind]
  · rename_i hopen
    cases hpaused : (requireNotPaused s).run m with
    | none => rfl
    | some u =>
      cases hexpired : (requireNotExpired env s).run m with
      | none => rfl
      | some u' => exact absurd (run_requireOpen.1 ⟨hpaused, hexpired⟩) hopen

theorem recoverUnclaimed_spec {r : ℤ × State} (h : (recoverUnclaimed env s).run m = some r) :
    env.AdminSigned s.admin ∧ ∃ tokens, r.2 = { s with tokens := tokens } := by
  simp only [recoverUnclaimed, run_bind, Option.bind_eq_some_iff, run_requireAdmin, run_unwrap, run_reject, run_ite,
    run_pure] at h
  obtain ⟨-, hadmin, _, -, -, -, _, -, _, -, h⟩ := h
  refine ⟨hadmin, ?_⟩
  split at h
  · cases h
    exact ⟨s.tokens, rfl⟩
  · obtain ⟨_, -, h⟩ := Option.bind_eq_some_iff.1 h
    cases h
    exact ⟨_, rfl⟩

/-- The total is never lowered. -/
theorem updateMerkleRoot_spec {additional : I128} (h : (updateMerkleRoot env s root additional).run m = some s') :
    env.AdminSigned s.admin ∧ 0 ≤ (additional : ℤ) ∧
      ((additional : ℤ) = 0 ∧ s' = { s with merkleRoot := some root } ∨
        ∃ total, s.totalAmount = some total ∧ (m = .exact → i128.Fits (total + additional)) ∧
          s' = { s with merkleRoot := some root, totalAmount := some (i128.wrap (total + additional)) }) := by
  simp only [updateMerkleRoot, run_bind, Option.bind_eq_some_iff, run_requireAdmin, run_reject, run_ite, run_unwrap,
    run_pure, not_lt] at h
  obtain ⟨-, hadmin, -, -, -, hnonneg, h⟩ := h
  refine ⟨hadmin, hnonneg, ?_⟩
  split at h
  · obtain ⟨_, htotal, h⟩ := Option.bind_eq_some_iff.1 h
    obtain ⟨_, hsum, h⟩ := Option.bind_eq_some_iff.1 h
    obtain ⟨rfl, hfits⟩ := (run_unchecked ..).1 hsum
    cases h
    exact .inr ⟨_, htotal, hfits, rfl⟩
  · cases h
    exact .inl ⟨by omega, rfl⟩

theorem extendExpiry_spec {expires : U64} (h : (extendExpiry env s expires).run m = some s') :
    env.AdminSigned s.admin ∧ s' = { s with expiresAt := some expires } := by
  simp only [extendExpiry, run_iff, run_requireAdmin, run_unwrap] at h
  obtain ⟨-, hadmin, _, -, -, -, rfl⟩ := h
  exact ⟨hadmin, rfl⟩

end Specs

/-! ## A small deployment

A total of 1000, claims until time 1000, and a contract that holds more than that. -/

namespace Sample

export TransitionSystem.Deployment (reach_after)

/-- Everyone has tokens. -/
def endowed : Holdings := fun _ _ => 1000000

def signed (time : Int) (c : Call) : Env × Call := (signedAt time, c)

/-- The contract after `initialize`, with Alice as the only leaf. -/
def deployed : State :=
  { tokens := endowed
    admin := some admin
    token := some token
    merkleRoot := some (leafOf alice 500)
    totalAmount := some 1000
    expiresAt := some 1000
    recoveryAddress := some admin }

def deployment (m : Mode) : (contract m).Deployment where
  env := signedAt 0
  state := deployed
  starts := ⟨endowed, admin, token, leafOf alice 500, 1000, 1000, admin, by cases m <;> rfl⟩

/-- Alice claims by a directed proof, Bob by a sorted one, Carol in a batch. -/
def threeClaims : List (Env × Call) :=
  [signed 10 (.claimWithProofNodes alice [] 500),
    signed 20 (.updateMerkleRoot (leafOf bob 300) 0),
    signed 30 (.claim bob [] 300),
    signed 40 (.updateMerkleRoot (leafOf carol 100) 0),
    signed 50 (.batchClaim [(carol, [], i128.wrap 100)])]

end Sample

end ArenaX.Airdrop
