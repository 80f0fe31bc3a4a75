/-
Merkle trees: binary trees whose digests are hashes of the digests below, and proofs that a leaf belongs to a tree,
which list the siblings met on the way up. What is hashed at a leaf, at a node and at a step of a proof is an encoding;
an encoding that keeps leaves apart from nodes and lets a step end in a node in two ways only, from its left and from
its right child, makes the accepted proofs those of the tree. The hash need not be injective, which a hash into short
digests cannot be: nothing more is asked than that it has no collision among the messages hashed.
-/
import Mathlib.Tactic

namespace Merkle

/-- A binary tree with entries at its leaves. -/
inductive Tree (α : Type) where
  | leaf (entry : α)
  | node (left right : Tree α)

/-- The messages hashed for entries `α`, digests `D` and steps `S` of a proof. -/
structure Encoding (α D S M : Type) where
  leaf : α → M
  node : D → D → M
  climb : D → S → M
  /-- The step up from a left child whose sibling has this digest. -/
  fromLeft : D → S
  /-- The step up from a right child whose sibling has this digest. -/
  fromRight : D → S
  leaf_injective : Function.Injective leaf
  leaf_ne_climb : ∀ a d s, leaf a ≠ climb d s
  climb_eq_node : ∀ {d s l r}, climb d s = node l r ↔ (d = l ∧ s = fromLeft r) ∨ (d = r ∧ s = fromRight l)
  climb_cancel : ∀ {d d' s}, climb d s = climb d' s → d = d'

variable {α D S M : Type} (enc : Encoding α D S M) (hash : M → D)

/-- The digest of a tree. -/
def Tree.root : Tree α → D
  | .leaf a => hash (enc.leaf a)
  | .node l r => hash (enc.node l.root r.root)

/-- The digest at the end of a proof. -/
def climbTo (d : D) (proof : List S) : D := proof.foldl (fun d s => hash (enc.climb d s)) d

/-- The entries of a tree, each with the siblings on its way to the root. -/
def Tree.paths : Tree α → List (α × List S)
  | .leaf a => [(a, [])]
  | .node l r => l.paths.map (fun q => (q.1, q.2 ++ [enc.fromLeft (r.root enc hash)])) ++
      r.paths.map (fun q => (q.1, q.2 ++ [enc.fromRight (l.root enc hash)]))

/-- The messages hashed to build a tree. -/
def Tree.messages : Tree α → List M
  | .leaf a => [enc.leaf a]
  | .node l r => enc.node (l.root enc hash) (r.root enc hash) :: (l.messages ++ r.messages)

/-- The messages hashed on the way up. -/
def climbMessages (d : D) : List S → List M
  | [] => []
  | s :: proof => enc.climb d s :: climbMessages (hash (enc.climb d s)) proof

/-- The messages hashed to check a proof. -/
def proofMessages (a : α) (proof : List S) : List M := enc.leaf a :: climbMessages enc hash (hash (enc.leaf a)) proof

variable {enc hash}

theorem climbTo_cons (d : D) (s : S) (proof : List S) :
    climbTo enc hash d (s :: proof) = climbTo enc hash (hash (enc.climb d s)) proof := rfl

theorem climbTo_append (d : D) (p q : List S) :
    climbTo enc hash d (p ++ q) = climbTo enc hash (climbTo enc hash d p) q := List.foldl_append

theorem climbTo_concat (d : D) (proof : List S) (s : S) :
    climbTo enc hash d (proof ++ [s]) = hash (enc.climb (climbTo enc hash d proof) s) := climbTo_append d proof [s]

theorem climbMessages_append : ∀ (d : D) (p q : List S),
    climbMessages enc hash d (p ++ q) = climbMessages enc hash d p ++ climbMessages enc hash (climbTo enc hash d p) q
  | _, [], _ => rfl
  | d, s :: p, q => by
    rw [List.cons_append, climbMessages, climbMessages_append, climbMessages, climbTo_cons, List.cons_append]

theorem mem_proofMessages_concat (a : α) (proof : List S) (s : S) :
    enc.climb (climbTo enc hash (hash (enc.leaf a)) proof) s ∈ proofMessages enc hash a (proof ++ [s]) := by
  rw [proofMessages, climbMessages_append]
  exact List.mem_cons_of_mem _ (List.mem_append_right _ (List.mem_singleton_self _))

theorem proofMessages_subset_concat (a : α) (proof : List S) (s : S) :
    proofMessages enc hash a proof ⊆ proofMessages enc hash a (proof ++ [s]) := by
  rw [proofMessages, proofMessages, climbMessages_append]
  exact List.cons_subset_cons _ (List.subset_append_left _ _)

theorem mem_paths_node {l r : Tree α} {a : α} {proof : List S} :
    (a, proof) ∈ (Tree.node l r).paths enc hash ↔
      (∃ p, (a, p) ∈ l.paths enc hash ∧ proof = p ++ [enc.fromLeft (r.root enc hash)]) ∨
      ∃ p, (a, p) ∈ r.paths enc hash ∧ proof = p ++ [enc.fromRight (l.root enc hash)] := by
  simp only [Tree.paths, List.mem_append, List.mem_map, Prod.mk.injEq, Prod.exists]
  constructor
  · rintro (⟨_, p, hp, rfl, rfl⟩ | ⟨_, p, hp, rfl, rfl⟩)
    · exact .inl ⟨p, hp, rfl⟩
    · exact .inr ⟨p, hp, rfl⟩
  · rintro (⟨p, hp, rfl⟩ | ⟨p, hp, rfl⟩)
    · exact .inl ⟨a, p, hp, rfl, rfl⟩
    · exact .inr ⟨a, p, hp, rfl, rfl⟩

/-- The siblings of an entry lead from its leaf to the root. -/
theorem climbTo_of_mem_paths {a : α} : ∀ {t : Tree α} {proof : List S}, (a, proof) ∈ t.paths enc hash →
    climbTo enc hash (hash (enc.leaf a)) proof = t.root enc hash
  | .leaf b, proof, h => by
    cases List.mem_singleton.1 h
    rfl
  | .node l r, proof, h => by
    rcases mem_paths_node.1 h with ⟨_, hp, rfl⟩ | ⟨_, hp, rfl⟩
    · rw [climbTo_concat, climbTo_of_mem_paths hp, enc.climb_eq_node.2 (.inl ⟨rfl, rfl⟩), Tree.root]
    · rw [climbTo_concat, climbTo_of_mem_paths hp, enc.climb_eq_node.2 (.inr ⟨rfl, rfl⟩), Tree.root]

section CollisionFree

variable {X : Set M} (hX : Set.InjOn hash X)

include hX

/-- A proof that ends at the root of a tree is the way up from one of its entries. The induction goes from the root
down: the last step of the proof hashes what the root hashes. -/
theorem mem_paths_of_climbTo {a : α} : ∀ {t : Tree α} {proof : List S}, (∀ x ∈ t.messages enc hash, x ∈ X) →
    (∀ x ∈ proofMessages enc hash a proof, x ∈ X) →
    climbTo enc hash (hash (enc.leaf a)) proof = t.root enc hash → (a, proof) ∈ t.paths enc hash
  | .leaf b, proof, ht, hp, h => by
    have hroot : enc.leaf b ∈ X := ht _ (List.mem_singleton_self _)
    obtain rfl | ⟨p, s, rfl⟩ := List.eq_nil_or_concat' proof
    · have heq := hX (hp _ List.mem_cons_self) hroot h
      rw [enc.leaf_injective heq]
      exact List.mem_singleton_self _
    · rw [climbTo_concat] at h
      exact absurd (hX (hp _ (mem_proofMessages_concat a p s)) hroot h).symm (enc.leaf_ne_climb _ _ _)
  | .node l r, proof, ht, hp, h => by
    have hroot : enc.node (l.root enc hash) (r.root enc hash) ∈ X := ht _ List.mem_cons_self
    have hl : ∀ x ∈ l.messages enc hash, x ∈ X := fun x hx =>
      ht x (List.mem_cons_of_mem _ (List.mem_append_left _ hx))
    have hr : ∀ x ∈ r.messages enc hash, x ∈ X := fun x hx =>
      ht x (List.mem_cons_of_mem _ (List.mem_append_right _ hx))
    obtain rfl | ⟨p, s, rfl⟩ := List.eq_nil_or_concat' proof
    · -- a leaf in the place of a node
      have heq := hX (hp _ List.mem_cons_self) hroot h
      rw [enc.climb_eq_node.2 (.inl ⟨rfl, rfl⟩) |>.symm] at heq
      exact absurd heq (enc.leaf_ne_climb _ _ _)
    · rw [climbTo_concat] at h
      have hpre : ∀ x ∈ proofMessages enc hash a p, x ∈ X := fun x hx => hp x (proofMessages_subset_concat a p s hx)
      have heq := hX (hp _ (mem_proofMessages_concat a p s)) hroot h
      rw [mem_paths_node]
      rcases enc.climb_eq_node.1 heq with ⟨hd, rfl⟩ | ⟨hd, rfl⟩
      · exact .inl ⟨p, mem_paths_of_climbTo hl hpre hd, rfl⟩
      · exact .inr ⟨p, mem_paths_of_climbTo hr hpre hd, rfl⟩

theorem climbTo_eq_root_iff {a : α} {t : Tree α} {proof : List S} (ht : ∀ x ∈ t.messages enc hash, x ∈ X)
    (hp : ∀ x ∈ proofMessages enc hash a proof, x ∈ X) :
    climbTo enc hash (hash (enc.leaf a)) proof = t.root enc hash ↔ (a, proof) ∈ t.paths enc hash :=
  ⟨mem_paths_of_climbTo hX ht hp, climbTo_of_mem_paths⟩

/-- The same steps from different digests end in different digests. -/
theorem climbTo_cancel : ∀ {d d' : D} {proof : List S}, (∀ x ∈ climbMessages enc hash d proof, x ∈ X) →
    (∀ x ∈ climbMessages enc hash d' proof, x ∈ X) →
    climbTo enc hash d proof = climbTo enc hash d' proof → d = d'
  | _, _, [], _, _, h => h
  | d, d', s :: proof, hp, hp', h => by
    rw [climbMessages, List.forall_mem_cons] at hp hp'
    exact enc.climb_cancel (hX hp.1 hp'.1 (climbTo_cancel hp.2 hp'.2 h))

/-- No accepted proof is the end of another one: what lies above a leaf cannot be passed off as a leaf. -/
theorem suffix_free {a b : α} {p q : List S} (hp : ∀ x ∈ proofMessages enc hash a p, x ∈ X)
    (hq : ∀ x ∈ proofMessages enc hash b q, x ∈ X)
    (h : climbTo enc hash (hash (enc.leaf a)) p = climbTo enc hash (hash (enc.leaf b)) q) (hsuffix : q <:+ p) :
    a = b ∧ p = q := by
  obtain ⟨above, rfl⟩ := hsuffix
  rw [proofMessages, climbMessages_append, List.forall_mem_cons] at hp
  rw [proofMessages, List.forall_mem_cons] at hq
  rw [climbTo_append] at h
  have hbelow := climbTo_cancel hX (fun x hx => hp.2 x (List.mem_append_right _ hx)) hq.2 h
  obtain rfl | ⟨p, s, rfl⟩ := List.eq_nil_or_concat' above
  · exact ⟨enc.leaf_injective (hX hp.1 hq.1 hbelow), rfl⟩
  · rw [climbTo_concat] at hbelow
    refine absurd (hX (hp.2 _ (List.mem_append_left _ ?_)) hq.1 hbelow).symm (enc.leaf_ne_climb _ _ _)
    rw [climbMessages_append]
    exact List.mem_append_right _ (List.mem_singleton_self _)

end CollisionFree

end Merkle
