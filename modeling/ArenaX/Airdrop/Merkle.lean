/-
The Merkle proofs of the airdrop. A leaf is the hash of an address and an amount, a node the hash of the digests of its
children; a directed proof says for each sibling on which side it stands, a sorted one leaves the side to the order of
the two digests. Neither kind of hash has a tag for what is hashed: leaves and nodes are told apart by the length of
the hashed string, 64 bytes for a node and never for a leaf.
-/
import ArenaX.Lib.Bytes
import ArenaX.Lib.Holdings
import ArenaX.Lib.Merkle

namespace ArenaX.Airdrop

open Machine Exec
open Host (Address)
open Merkle (Encoding)

/-- The environment of a call: which transfers the token contracts accept, the hash function and the encoding of
addresses. -/
structure Env extends Host.Env where
  accepts : Host.TokenPolicy
  sha256 : Bytes → BytesN 32
  toXdr : Address → Bytes

/-- A step of a directed proof: the sibling, and whether the current node is the right child. -/
structure ProofNode where
  sibling : BytesN 32
  isRight : Bool
deriving DecidableEq

def leafPreimage (env : Env) (claimant : Address) (amount : I128) : Bytes := env.toXdr claimant ++ amount.toBeBytes

def computeLeaf (env : Env) (claimant : Address) (amount : I128) : BytesN 32 :=
  env.sha256 (leafPreimage env claimant amount)

/-- What is hashed for a node from one of its children and the sibling. -/
def nodePreimage (current : BytesN 32) (node : ProofNode) : Bytes :=
  if node.isRight then node.sibling.1 ++ current.1 else current.1 ++ node.sibling.1

def verifyMerkleProof (env : Env) (leaf : BytesN 32) (proof : List ProofNode) (expectedRoot : BytesN 32) : Bool :=
  decide (proof.foldl (fun current node => env.sha256 (nodePreimage current node)) leaf = expectedRoot)

def sortedPair (left right : BytesN 32) : Bytes :=
  if left.1 ≤ right.1 then left.1 ++ right.1 else right.1 ++ left.1

def hashSortedPair (env : Env) (left right : BytesN 32) : BytesN 32 := env.sha256 (sortedPair left right)

def verifySortedMerkleProof (env : Env) (leaf : BytesN 32) (proof : List (BytesN 32)) (expectedRoot : BytesN 32) :
    Bool :=
  decide (proof.foldl (fun current sibling => hashSortedPair env current sibling) leaf = expectedRoot)

/-! ## What is hashed -/

section Preimages

variable {env : Env} {claimant : Address} {amount : I128} {d d' l r : BytesN 32} {node : ProofNode}

theorem length_nodePreimage : (nodePreimage d node).length = 64 := by
  unfold nodePreimage
  split <;> rw [List.length_append, d.2, node.sibling.2]

theorem length_sortedPair : (sortedPair l r).length = 64 := by
  unfold sortedPair
  split <;> rw [List.length_append, l.2, r.2]

/-- An address whose encoding has not 48 bytes makes a leaf of other than 64. -/
theorem length_leafPreimage (hlength : (env.toXdr claimant).length ≠ 48) :
    (leafPreimage env claimant amount).length ≠ 64 := by
  rw [leafPreimage, List.length_append, I128.length_toBeBytes]
  omega

theorem leafPreimage_injective (hxdr : Function.Injective env.toXdr) :
    Function.Injective fun entry : Address × I128 => leafPreimage env entry.1 entry.2 := by
  rintro ⟨a, x⟩ ⟨b, y⟩ h
  obtain ⟨haddress, hamount⟩ := List.append_inj' h (by rw [I128.length_toBeBytes, I128.length_toBeBytes])
  exact Prod.ext (hxdr haddress) (I128.toBeBytes_injective hamount)

theorem nodePreimage_eq_iff : nodePreimage d node = l.1 ++ r.1 ↔
    (d = l ∧ node = ⟨r, false⟩) ∨ (d = r ∧ node = ⟨l, true⟩) := by
  obtain ⟨sibling, isRight⟩ := node
  cases isRight with
  | false =>
    simp only [nodePreimage, Bool.false_eq_true, if_false, ProofNode.mk.injEq, and_true, and_false, or_false]
    exact ⟨BytesN.append_inj, by rintro ⟨rfl, rfl⟩; rfl⟩
  | true =>
    simp only [nodePreimage, if_true, ProofNode.mk.injEq, Bool.true_eq_false, and_true, and_false, false_or]
    exact ⟨fun h => (BytesN.append_inj h).symm, by rintro ⟨rfl, rfl⟩; rfl⟩

theorem nodePreimage_cancel (h : nodePreimage d node = nodePreimage d' node) : d = d' := by
  unfold nodePreimage at h
  split at h
  · exact (BytesN.append_inj h).2
  · exact (BytesN.append_inj h).1

theorem sortedPair_comm : sortedPair l r = sortedPair r l := by
  unfold sortedPair
  by_cases hlr : l.1 ≤ r.1
  · by_cases hrl : r.1 ≤ l.1
    · rw [List.le_antisymm hlr hrl]
    · rw [if_pos hlr, if_neg hrl]
  · rw [if_neg hlr, if_pos ((List.le_total l.1 r.1).resolve_left hlr)]

/-- A sorted pair is one of the two ways to put its digests. -/
theorem sortedPair_eq_or : sortedPair l r = l.1 ++ r.1 ∨ sortedPair l r = r.1 ++ l.1 := by
  unfold sortedPair
  split
  · exact .inl rfl
  · exact .inr rfl

theorem sortedPair_eq_iff : sortedPair d d' = sortedPair l r ↔ (d = l ∧ d' = r) ∨ (d = r ∧ d' = l) := by
  constructor
  · intro h
    rcases sortedPair_eq_or (l := d) (r := d') with hd | hd <;>
      rcases sortedPair_eq_or (l := l) (r := r) with hn | hn <;>
      rw [hd, hn] at h <;> have := BytesN.append_inj h <;> tauto
  · rintro (⟨rfl, rfl⟩ | ⟨rfl, rfl⟩)
    · rfl
    · exact sortedPair_comm

theorem sortedPair_cancel {sibling : BytesN 32} (h : sortedPair d sibling = sortedPair d' sibling) : d = d' := by
  rcases sortedPair_eq_iff.1 h with ⟨hd, -⟩ | ⟨hd, hsibling⟩
  · exact hd
  · exact hd.trans hsibling

end Preimages

/-! ## Accepted proofs -/

section Proofs

variable (env : Env) (hxdr : Function.Injective env.toXdr) (hlength : ∀ a, (env.toXdr a).length ≠ 48)

/-- Trees and proofs of the directed kind. -/
def directed : Encoding (Address × I128) (BytesN 32) ProofNode Bytes where
  leaf entry := leafPreimage env entry.1 entry.2
  node l r := l.1 ++ r.1
  climb := nodePreimage
  fromLeft d := ⟨d, false⟩
  fromRight d := ⟨d, true⟩
  leaf_injective := leafPreimage_injective hxdr
  leaf_ne_climb entry _ _ h := length_leafPreimage (hlength entry.1) (h ▸ length_nodePreimage)
  climb_eq_node := nodePreimage_eq_iff
  climb_cancel := nodePreimage_cancel

/-- Trees and proofs of the sorted kind. -/
def sorted : Encoding (Address × I128) (BytesN 32) (BytesN 32) Bytes where
  leaf entry := leafPreimage env entry.1 entry.2
  node := sortedPair
  climb := sortedPair
  fromLeft d := d
  fromRight d := d
  leaf_injective := leafPreimage_injective hxdr
  leaf_ne_climb entry _ _ h := length_leafPreimage (hlength entry.1) (h ▸ length_sortedPair)
  climb_eq_node := sortedPair_eq_iff
  climb_cancel := sortedPair_cancel

variable {env hxdr hlength}

theorem verifyMerkleProof_iff {claimant : Address} {amount : I128} {proof : List ProofNode} {root : BytesN 32} :
    verifyMerkleProof env (computeLeaf env claimant amount) proof root = true ↔
      Merkle.climbTo (directed env hxdr hlength) env.sha256 (computeLeaf env claimant amount) proof = root :=
  decide_eq_true_iff

theorem verifySortedMerkleProof_iff {claimant : Address} {amount : I128} {proof : List (BytesN 32)}
    {root : BytesN 32} :
    verifySortedMerkleProof env (computeLeaf env claimant amount) proof root = true ↔
      Merkle.climbTo (sorted env hxdr hlength) env.sha256 (computeLeaf env claimant amount) proof = root :=
  decide_eq_true_iff

/-- What a verifier accepts against the root of a tree are the paths of its leaves, and against any root no accepted
path is the end of another one. -/
structure AcceptsPaths {S : Type} (env : Env) (enc : Encoding (Address × I128) (BytesN 32) S Bytes)
    (verify : BytesN 32 → List S → BytesN 32 → Bool) (hashed : Set Bytes) : Prop where
  accepts_iff : ∀ tree : Merkle.Tree (Address × I128), (∀ x ∈ tree.messages enc env.sha256, x ∈ hashed) →
    ∀ claimant amount proof, (∀ x ∈ Merkle.proofMessages enc env.sha256 (claimant, amount) proof, x ∈ hashed) →
      (verify (computeLeaf env claimant amount) proof (tree.root enc env.sha256) = true ↔
        ((claimant, amount), proof) ∈ tree.paths enc env.sha256)
  suffix_free : ∀ root claimant amount proof claimant' amount' proof',
    (∀ x ∈ Merkle.proofMessages enc env.sha256 (claimant, amount) proof, x ∈ hashed) →
    (∀ x ∈ Merkle.proofMessages enc env.sha256 (claimant', amount') proof', x ∈ hashed) →
    verify (computeLeaf env claimant amount) proof root = true →
    verify (computeLeaf env claimant' amount') proof' root = true → proof' <:+ proof →
      claimant = claimant' ∧ amount = amount' ∧ proof = proof'

/-- A verifier that climbs by an encoding accepts the paths of its trees. -/
theorem acceptsPaths_of_climbs {S : Type} {enc : Encoding (Address × I128) (BytesN 32) S Bytes}
    {verify : BytesN 32 → List S → BytesN 32 → Bool} {hashed : Set Bytes} (hinj : Set.InjOn env.sha256 hashed)
    (hleaf : ∀ claimant amount, env.sha256 (enc.leaf (claimant, amount)) = computeLeaf env claimant amount)
    (hverify : ∀ {claimant amount proof root}, verify (computeLeaf env claimant amount) proof root = true ↔
      Merkle.climbTo enc env.sha256 (computeLeaf env claimant amount) proof = root) :
    AcceptsPaths env enc verify hashed := by
  constructor
  · intro tree htree claimant amount proof hproof
    rw [hverify, ← hleaf]
    exact Merkle.climbTo_eq_root_iff hinj htree hproof
  · intro root claimant amount proof claimant' amount' proof' hproof hproof' haccepts haccepts' hsuffix
    rw [hverify, ← hleaf] at haccepts haccepts'
    obtain ⟨hentry, heq⟩ := Merkle.suffix_free hinj hproof hproof' (haccepts.trans haccepts'.symm) hsuffix
    exact ⟨congrArg Prod.fst hentry, congrArg Prod.snd hentry, heq⟩

/-- Where address encodings differ and none has 48 bytes, and the hash has no collision among the strings that are
hashed, both verifiers accept exactly the paths of the leaves. -/
theorem merkle_proofs_are_paths (hxdr : Function.Injective env.toXdr) (hlength : ∀ a, (env.toXdr a).length ≠ 48)
    {hashed : Set Bytes} (hinj : Set.InjOn env.sha256 hashed) :
    AcceptsPaths env (directed env hxdr hlength) (verifyMerkleProof env) hashed ∧
      AcceptsPaths env (sorted env hxdr hlength) (verifySortedMerkleProof env) hashed :=
  ⟨acceptsPaths_of_climbs hinj (fun _ _ => rfl) verifyMerkleProof_iff,
    acceptsPaths_of_climbs hinj (fun _ _ => rfl) verifySortedMerkleProof_iff⟩

end Proofs

/-! ## A small host

Addresses encoded by their number in unary, leaving out the length 48, and a checksum for a hash. -/

namespace Sample

export Host.Accounts (admin alice bob carol)

def token : Address := ⟨5⟩

def unary (a : Address) : Bytes := List.replicate (if a.id < 48 then a.id else a.id + 1) 0

def checksum (x : Bytes) : BytesN 32 :=
  ⟨beBytes 32 (x.foldl (fun sum b => sum * 257 + b.toNat + 1) 0), length_beBytes 32 _⟩

/-- A transaction at a time, signed by everyone; tokens accept what the sender can pay. -/
def signedAt (time : Int) : Env where
  toEnv := .signed [admin, alice, bob, carol] 0 time
  accepts := Host.Holdings.payable
  sha256 := checksum
  toXdr := unary

theorem length_unary (a : Address) : (unary a).length ≠ 48 := by
  rw [unary, List.length_replicate]
  split <;> omega

theorem unary_injective : Function.Injective unary := by
  intro a b h
  have hlength := congrArg List.length h
  rw [unary, unary, List.length_replicate, List.length_replicate] at hlength
  have hid : a.id = b.id := by
    split at hlength <;> split at hlength <;> omega
  cases a
  exact congrArg _ hid

/-- Three leaves, one of them next to the root. -/
def threeLeaves : Merkle.Tree (Address × I128) :=
  .node (.node (.leaf (alice, i128.wrap 500)) (.leaf (bob, i128.wrap 300))) (.leaf (carol, i128.wrap 100))

def leafOf (a : Address) (amount : Int) : BytesN 32 := computeLeaf (signedAt 0) a (i128.wrap amount)

def directedTrees : Encoding (Address × I128) (BytesN 32) ProofNode Bytes :=
  directed (signedAt 0) unary_injective length_unary

def sortedTrees : Encoding (Address × I128) (BytesN 32) (BytesN 32) Bytes :=
  sorted (signedAt 0) unary_injective length_unary

def alicesPath : List ProofNode := [⟨leafOf bob 300, false⟩, ⟨leafOf carol 100, false⟩]

/-- The strings hashed for the tree and for the two proofs below. -/
def hashed : List Bytes :=
  threeLeaves.messages directedTrees checksum ++
    Merkle.proofMessages directedTrees checksum (alice, i128.wrap 500) alicesPath ++
    threeLeaves.messages sortedTrees checksum ++
    Merkle.proofMessages sortedTrees checksum (alice, i128.wrap 500) [leafOf carol 100]

theorem injOn_hashed : Set.InjOn checksum {x | x ∈ hashed} := by
  have h : ∀ x ∈ hashed, ∀ y ∈ hashed, checksum x = checksum y → x = y := by decide +kernel
  exact fun x hx y hy => h x hx y hy

end Sample

open Sample in
/-- The path of a leaf is accepted, and a path that leaves out a level is not. -/
theorem alices_path_is_accepted :
    verifyMerkleProof (signedAt 0) (leafOf alice 500) alicesPath (threeLeaves.root directedTrees checksum) = true ∧
    verifySortedMerkleProof (signedAt 0) (leafOf alice 500) [leafOf carol 100]
      (threeLeaves.root sortedTrees checksum) = false := by
  obtain ⟨hdirected, hsorted⟩ : AcceptsPaths (signedAt 0) directedTrees (verifyMerkleProof (signedAt 0)) _ ∧
      AcceptsPaths (signedAt 0) sortedTrees (verifySortedMerkleProof (signedAt 0)) _ :=
    merkle_proofs_are_paths unary_injective length_unary injOn_hashed
  have hsub : (∀ x ∈ threeLeaves.messages directedTrees checksum, x ∈ hashed) ∧
      (∀ x ∈ Merkle.proofMessages directedTrees checksum (alice, i128.wrap 500) alicesPath, x ∈ hashed) ∧
      (∀ x ∈ threeLeaves.messages sortedTrees checksum, x ∈ hashed) ∧
      ∀ x ∈ Merkle.proofMessages sortedTrees checksum (alice, i128.wrap 500) [leafOf carol 100], x ∈ hashed := by
    decide +kernel
  have hpath : ((alice, i128.wrap 500), alicesPath) ∈ threeLeaves.paths directedTrees checksum := by decide +kernel
  have hshort : ((alice, i128.wrap 500), [leafOf carol 100]) ∉ threeLeaves.paths sortedTrees checksum := by
    decide +kernel
  constructor
  · exact (hdirected.accepts_iff threeLeaves hsub.1 alice 500 alicesPath hsub.2.1).2 hpath
  · rw [← Bool.not_eq_true]
    exact fun h => hshort
      ((hsorted.accepts_iff threeLeaves hsub.2.2.1 alice 500 [leafOf carol 100] hsub.2.2.2).1 h)

end ArenaX.Airdrop
