/-
The zk-proof contract: proofs are stored and verified, and a verified one is used for a private transaction, an
anonymous vote or a piece of confidential data. The id of what is stored is the time of the ledger, and nothing marks a
proof as spent: as soon as one proof can be verified at all, it can be used any number of times, and within one ledger
each use replaces the record of the last. That ids are not given twice, records are kept and a proof counts once is up
to what the callers present.
-/
import ArenaX.Lib.Host
import ArenaX.Lib.Runs
import ArenaX.Lib.Table

namespace ArenaX.ZkProof

open Machine Exec
open Host (Address Env)
open TransitionSystem (Unrestricted Tally)
open TransitionSystem.Deployment (tally_after)

abbrev Bytes := List (Fin 256)

structure VerifyingKey where
  alphaG1 : Bytes
  betaG2 : Bytes
  gammaG2 : Bytes
  deltaG2 : Bytes
  ic : List Bytes

structure Proof where
  id : U64
  proofType : U32
  generator : Address
  verified : Bool
  proofData : Bytes
  publicInputs : List Bytes
  timestamp : U64

structure PrivateTransaction where
  id : U64
  proofId : U64
  timestamp : U64

structure AnonymousVote where
  id : U64
  proofId : U64
  timestamp : U64

structure State where
  admin : Option Address := none
  proofCounter : U64 := 0
  proof : Table U64 Proof := ∅
  privateTx : Table U64 PrivateTransaction := ∅
  anonymousVote : Table U64 AnonymousVote := ∅
  confidentialData : Table U64 Bytes := ∅
  paused : Bool := false
  verifyingKey : Option VerifyingKey := none

/-- A panic carries its message. -/
abbrev Result := Exec String

/-- The pairing check of `groth16_verify`. -/
abbrev Groth16 := VerifyingKey → Bytes → List Bytes → Bool

/-! ## Entry points -/

section

variable (env : Env) (s : State)

def initializeProofs (admin : Address) : Result State := do
  reject (s.admin.isSome = true) "already initialized"
  env.requireAuth admin
  pure { s with admin := some admin, proofCounter := 0, paused := false }

def requireNotPaused (s : State) : Result Unit := reject (s.paused = true) "contract is paused"

def requireAdmin : Result Unit := do
  let admin ← okOr s.admin "not initialized"
  env.requireAuth admin

def generateProof (generator : Address) (proofType : U32) (proofData : Bytes)
    (publicInputs : List Bytes) : Result State := do
  requireNotPaused s
  env.requireAuth generator
  let counter ← unchecked u64 (s.proofCounter + 1)
  pure { s with
    proof := s.proof.set counter ⟨counter, proofType, generator, false, proofData, publicInputs, env.timestamp⟩
    proofCounter := counter }

def setVerifyingKey (vk : VerifyingKey) : Result State := do
  requireAdmin env s
  reject (vk.ic.isEmpty = true) "verifying key must contain at least one IC point"
  pure { s with verifyingKey := some vk }

def verifyProof (groth16 : Groth16) (env : Env) (s : State) (verifier : Address) (proofId : U64) : Result State := do
  requireNotPaused s
  env.requireAuth verifier
  let proof ← okOr (s.proof.get proofId) "proof not found"
  let vk ← okOr s.verifyingKey "verifying key not set"
  if groth16 vk proof.proofData proof.publicInputs then
    pure { s with proof := s.proof.set proofId { proof with verified := true } }
  else pure s

/-- What the three functions ask before they store something: a verified proof of their type. -/
def requireProof (user : Address) (proofId : U64) (proofType : ℤ) (mismatch : String) :
    Result Unit := do
  requireNotPaused s
  env.requireAuth user
  let proof ← okOr (s.proof.get proofId) "proof not found"
  reject (proof.verified = false) "proof not verified"
  reject ((proof.proofType : ℤ) ≠ proofType) mismatch

def executePrivateTransaction (executor : Address) (proofId : U64) : Result (U64 × State) := do
  requireProof env s executor proofId 1 "invalid proof type for private transaction"
  let txId := env.timestamp
  pure (txId, { s with privateTx := s.privateTx.set txId ⟨txId, proofId, env.timestamp⟩ })

def castAnonymousVote (voter : Address) (proofId : U64) : Result (U64 × State) := do
  requireProof env s voter proofId 2 "invalid proof type for anonymous vote"
  let voteId := env.timestamp
  pure (voteId, { s with anonymousVote := s.anonymousVote.set voteId ⟨voteId, proofId, env.timestamp⟩ })

def storeConfidentialData (owner : Address) (proofId : U64) (data : Bytes) :
    Result (U64 × State) := do
  requireProof env s owner proofId 3 "invalid proof type for confidential data"
  let dataId := env.timestamp
  pure (dataId, { s with confidentialData := s.confidentialData.set dataId data })

def setPaused (paused : Bool) : Result State := do
  requireAdmin env s
  pure { s with paused := paused }

end

/-- The entry points that use a proof. -/
inductive Use where
  | privateTransaction
  | vote
  | data (bytes : Bytes)
deriving DecidableEq

/-- The entry points that write, `initialize` apart. -/
inductive Call where
  | generateProof (generator : Address) (proofType : U32) (proofData : Bytes) (publicInputs : List Bytes)
  | setVerifyingKey (vk : VerifyingKey)
  | verifyProof (verifier : Address) (proofId : U64)
  | use (use : Use) (user : Address) (proofId : U64)
  | setPaused (paused : Bool)

def Use.execute (env : Env) (s : State) (user : Address) (proofId : U64) : Use → Result (U64 × State)
  | .privateTransaction => executePrivateTransaction env s user proofId
  | .vote => castAnonymousVote env s user proofId
  | .data bytes => storeConfidentialData env s user proofId bytes

def execute (groth16 : Groth16) (env : Env) (s : State) : Call → Result State
  | .generateProof generator proofType proofData publicInputs => generateProof env s generator proofType
    proofData publicInputs
  | .setVerifyingKey vk => setVerifyingKey env s vk
  | .verifyProof verifier proofId => verifyProof groth16 env s verifier proofId
  | .use use user proofId => Prod.snd <$> use.execute env s user proofId
  | .setPaused paused => setPaused env s paused

/-- The contract from its `initialize` on; a call that fails leaves the state as it was. -/
def proofs (m : Mode) (groth16 : Groth16) : TransitionSystem Env State Call where
  init env s := ∃ admin, (initializeProofs env {} admin).run m = some s
  step env s c := some (((execute groth16 env s c).run m).getD s)

/-! ## What a use leaves behind -/

/-- A successful use: the function, the time of the ledger, the proof and the id that was returned. -/
structure Entry where
  use : Use
  time : U64
  proofId : U64
  id : U64
deriving DecidableEq

/-- Which of the three functions it is. -/
def Use.function : Use → Fin 3
  | .privateTransaction => 0
  | .vote => 1
  | .data _ => 2

def entries (m : Mode) (env : Env) (s : State) : Call → Multiset Entry
  | .use use user proofId => ((use.execute env s user proofId).run m).elim 0
    fun r => {⟨use, env.timestamp, proofId, r.1⟩}
  | _ => 0

/-- What a use stored is stored. -/
def State.Holds (s : State) (entry : Entry) : Prop :=
  match entry.use with
  | .privateTransaction => s.privateTx.get entry.id = some ⟨entry.id, entry.proofId, entry.time⟩
  | .vote => s.anonymousVote.get entry.id = some ⟨entry.id, entry.proofId, entry.time⟩
  | .data bytes => s.confidentialData.get entry.id = some bytes

/-- What a caller presents to one of the three functions, whether or not the call succeeds. -/
structure Presented where
  function : Fin 3
  time : U64
  proofId : U64

def presented (env : Env) : Call → Multiset Presented
  | .use use _ proofId => {⟨use.function, env.timestamp, proofId⟩}
  | _ => 0

def Entry.presented (entry : Entry) : Presented := ⟨entry.use.function, entry.time, entry.proofId⟩

/-- No proof is presented twice, and no function is called twice at one time of the ledger. -/
def Apart (p : Multiset Presented) : Prop :=
  (p.map fun a => a.proofId).Nodup ∧ (p.map fun a => (a.function, a.time)).Nodup

section Steps

variable {m : Mode} {groth16 : Groth16} {env : Env} {s s' : State} {c : Call} {entry : Entry}

/-- A use returns the time of the ledger, stores its record under it and touches no record of another id or function. -/
theorem use_spec {use : Use} {user : Address} {proofId id : U64}
    (h : (use.execute env s user proofId).run m = some (id, s')) :
    id = env.timestamp ∧ s'.Holds ⟨use, env.timestamp, proofId, id⟩ ∧
      ∀ e : Entry, s.Holds e → (e.use.function = use.function → e.id ≠ id) → s'.Holds e := by
  cases use <;>
    simp only [Use.execute, executePrivateTransaction, castAnonymousVote, storeConfidentialData, run_iff,
      Prod.mk.injEq] at h <;>
    obtain ⟨-, -, rfl, rfl⟩ := h <;>
    refine ⟨rfl, by simp [State.Holds], ?_⟩ <;>
    rintro ⟨_ | _ | _, time, proofId', id⟩ he hne <;>
    simp_all [State.Holds, Use.function, Table.get_set]

/-- The other entry points store no such record. -/
theorem holds_of_not_use (hc : ∀ use user proofId, c ≠ .use use user proofId)
    (h : (execute groth16 env s c).run m = some s') (hs : s.Holds entry) : s'.Holds entry := by
  have hkept : s'.privateTx = s.privateTx ∧ s'.anonymousVote = s.anonymousVote ∧
    s'.confidentialData = s.confidentialData := by
    cases c with
    | generateProof =>
      simp only [execute, generateProof, run_iff] at h
      obtain ⟨-, -, -, -, _, -, rfl⟩ := h
      exact ⟨rfl, rfl, rfl⟩
    | setVerifyingKey =>
      simp only [execute, setVerifyingKey, run_iff] at h
      obtain ⟨-, -, -, -, rfl⟩ := h
      exact ⟨rfl, rfl, rfl⟩
    | verifyProof =>
      simp only [execute, verifyProof, run_iff, run_ite] at h
      obtain ⟨-, -, -, -, _, -, _, -, h⟩ := h
      split at h <;> cases h.symm.trans (run_pure m _) <;> exact ⟨rfl, rfl, rfl⟩
    | use use user proofId => exact absurd rfl (hc use user proofId)
    | setPaused =>
      simp only [execute, setPaused, run_iff] at h
      obtain ⟨-, -, rfl⟩ := h
      exact ⟨rfl, rfl, rfl⟩
  obtain ⟨htx, hvote, hdata⟩ := hkept
  unfold State.Holds
  rw [htx, hvote, hdata]
  exact hs

theorem step_iff :
    (proofs m groth16).step env s c = some s' ↔ ((execute groth16 env s c).run m).getD s = s' := Option.some_inj

theorem step_of_run (h : (execute groth16 env s c).run m = some s') : (proofs m groth16).step env s c = some s' :=
  step_iff.2 (by rw [h, Option.getD_some])

/-- What a call does to the records. -/
theorem step_cases (h : (proofs m groth16).step env s c = some s') :
    entries m env s c = 0 ∧ (∀ e, s.Holds e → s'.Holds e) ∨
    ∃ entry, entries m env s c = {entry} ∧ presented env c = {entry.presented} ∧ entry.id = entry.time ∧
      s'.Holds entry ∧
      ∀ e : Entry, s.Holds e → (e.use.function = entry.use.function → e.id ≠ entry.id) → s'.Holds e := by
  rw [step_iff] at h
  cases hrun : (execute groth16 env s c).run m with
  | none =>
    rw [hrun, Option.getD_none] at h
    subst h
    refine .inl ⟨?_, fun _ => id⟩
    cases c with
    | use use user proofId =>
      rw [execute, run_map, Option.map_eq_none_iff] at hrun
      rw [entries, hrun]
      rfl
    | _ => rfl
  | some t =>
    rw [hrun, Option.getD_some] at h
    subst h
    cases c with
    | use use user proofId =>
      obtain ⟨_, hrun⟩ := run_snd_map hrun
      obtain ⟨hid, hholds, hframe⟩ := use_spec hrun
      refine .inr ⟨⟨use, env.timestamp, proofId, _⟩, ?_, rfl, hid, hholds, hframe⟩
      rw [entries, hrun]
      rfl
    | _ => exact .inl ⟨rfl, fun e he => holds_of_not_use (by intro _ _ _ h; cases h) hrun he⟩

end Steps

/-! ## Callers that present everything once -/

/-- The ids that each function has returned are different, the proofs that were used are too, and every record is
stored. -/
structure Kept (n : Multiset Entry) (s : State) : Prop where
  ids : (n.map fun e => (e.use.function, e.id)).Nodup
  spent : (n.map fun e => e.proofId).Nodup
  holds : ∀ e ∈ n, s.Holds e

/-- What was used has been presented and has the time for its id; it is stored, if everything was presented once. -/
structure Tracked (p : Multiset Presented) (n : Multiset Entry) (s : State) : Prop where
  known : n.map Entry.presented ≤ p
  stamped : ∀ e ∈ n, e.id = e.time
  holds : Apart p → ∀ e ∈ n, s.Holds e

section Runs

variable {m : Mode} {groth16 : Groth16} {p : Multiset Presented} {n : Multiset Entry} {env : Env}
  {s s' : State} {c : Call}

theorem Tracked.kept (h : Tracked p n s) (hapart : Apart p) : Kept n s := by
  have hids : (n.map fun e => (e.use.function, e.id)) = (n.map Entry.presented).map fun a => (a.function, a.time) := by
    rw [Multiset.map_map]
    exact Multiset.map_congr rfl fun e he => congrArg (Prod.mk _) (h.stamped e he)
  refine ⟨?_, ?_, h.holds hapart⟩
  · rw [hids]
    exact Multiset.nodup_of_le (Multiset.map_le_map h.known) hapart.2
  · have hspent := Multiset.nodup_of_le (Multiset.map_le_map h.known) hapart.1
    rwa [Multiset.map_map] at hspent

theorem Apart.of_le {q : Multiset Presented} (h : Apart q) (hle : p ≤ q) : Apart p :=
  ⟨Multiset.nodup_of_le (Multiset.map_le_map hle) h.1, Multiset.nodup_of_le (Multiset.map_le_map hle) h.2⟩

theorem Tracked.init : Tracked 0 0 s := ⟨le_rfl, by simp, by simp⟩

theorem Tracked.step (h : Tracked p n s) (hstep : (proofs m groth16).step env s c = some s') :
    Tracked (p + presented env c) (n + entries m env s c) s' := by
  have hle : p ≤ p + presented env c := Multiset.le_add_right p _
  rcases step_cases hstep with ⟨hnone, hframe⟩ | ⟨entry, hone, hpresented, hid, hholds, hframe⟩
  · rw [hnone, add_zero]
    exact ⟨h.known.trans hle, h.stamped, fun hapart e he => hframe e (h.holds (hapart.of_le hle) e he)⟩
  · rw [hpresented] at hle
    rw [hone, hpresented]
    refine ⟨?_, fun e he => ?_, fun hapart e he => ?_⟩
    · rw [Multiset.map_add, Multiset.map_singleton]
      exact add_le_add_left h.known _
    · rcases Multiset.mem_add.1 he with he | he
      · exact h.stamped e he
      · rwa [Multiset.mem_singleton.1 he]
    · rcases Multiset.mem_add.1 he with he | he
      · refine hframe e (h.holds (hapart.of_le hle) e he) fun hfun heq => ?_
        -- the earlier use of the function was at another time, and so has another id
        have htimes := hapart.2
        rw [Multiset.map_add, Multiset.map_singleton, add_comm, Multiset.singleton_add, Multiset.nodup_cons] at htimes
        refine htimes.1 (Multiset.mem_map.2 ⟨e.presented,
          Multiset.mem_of_le h.known (Multiset.mem_map_of_mem _ he), ?_⟩)
        exact Prod.ext hfun ((h.stamped e he).symm.trans (heq.trans hid))
      · rwa [Multiset.mem_singleton.1 he]

theorem tracked_of_tally {r : Multiset Presented × Multiset Entry}
    (h : (proofs m groth16).Tally Unrestricted (fun env s c => (presented env c, entries m env s c)) r env s) :
    Tracked r.1 r.2 s := by
  refine h.invariant (P := fun r _ s => Tracked r.1 r.2 s) (fun _ => Tracked.init) ?_
  intro r e e' s c s' _ hs _ hstep
  exact hs.step hstep

/-! ## A check that accepts nothing -/

/-- No proof is verified, and the key that is set has a point. -/
structure Dormant (s : State) : Prop where
  unverified : s.proof.All fun _ proof => proof.verified = false
  key : ∀ vk ∈ s.verifyingKey, vk.ic ≠ []

theorem Dormant.entries_eq_zero (hs : Dormant s) : entries m env s c = 0 := by
  cases c with
  | use use user proofId =>
    have hnone : (use.execute env s user proofId).run m = none := by
      rw [Option.eq_none_iff_forall_ne_some]
      intro r hr
      have hproof : ∃ proof, s.proof.get proofId = some proof ∧ proof.verified = true := by
        cases use <;>
          simp only [Use.execute, executePrivateTransaction, castAnonymousVote, storeConfidentialData, requireProof,
            run_iff, Bool.not_eq_false] at hr <;>
          obtain ⟨_, ⟨-, -, -, -, proof, hproof, -, hverified, -⟩, -⟩ := hr <;>
          exact ⟨proof, hproof, hverified⟩
      obtain ⟨proof, hproof, hverified⟩ := hproof
      exact absurd hverified (by rw [hs.unverified _ _ hproof]; exact Bool.false_ne_true)
    rw [entries, hnone]
    rfl
  | _ => rfl

theorem Dormant.step (hnever : ∀ vk data inputs, vk.ic ≠ [] → groth16 vk data inputs = false) (hs : Dormant s)
    (hstep : (proofs m groth16).step env s c = some s') : Dormant s' := by
  rw [step_iff] at hstep
  cases hrun : (execute groth16 env s c).run m with
  | none => rwa [← hstep, hrun]
  | some t =>
    rw [hrun, Option.getD_some] at hstep
    subst hstep
    cases c with
    | generateProof =>
      simp only [execute, generateProof, run_iff] at hrun
      obtain ⟨-, -, -, -, _, -, rfl⟩ := hrun
      exact ⟨hs.unverified.set rfl, hs.key⟩
    | setVerifyingKey =>
      simp only [execute, setVerifyingKey, run_iff, List.isEmpty_iff] at hrun
      obtain ⟨-, -, -, hic, rfl⟩ := hrun
      exact ⟨hs.unverified, by rintro vk ⟨⟩; exact hic⟩
    | verifyProof =>
      simp only [execute, verifyProof, run_iff, run_ite] at hrun
      obtain ⟨-, -, -, -, _, -, vk, hvk, hrun⟩ := hrun
      rw [hnever vk _ _ (hs.key vk hvk), if_neg Bool.false_ne_true] at hrun
      cases hrun.symm.trans (run_pure m _)
      exact hs
    | use use =>
      obtain ⟨_, hrun⟩ := run_snd_map hrun
      cases use <;>
        simp only [Use.execute, executePrivateTransaction, castAnonymousVote, storeConfidentialData, run_iff,
          Prod.mk.injEq] at hrun <;>
        obtain ⟨-, -, -, rfl⟩ := hrun <;> exact ⟨hs.unverified, hs.key⟩
    | setPaused =>
      simp only [execute, setPaused, run_iff] at hrun
      obtain ⟨-, -, rfl⟩ := hrun
      exact ⟨hs.unverified, hs.key⟩

theorem tally_dormant (hnever : ∀ vk data inputs, vk.ic ≠ [] → groth16 vk data inputs = false)
    (h : (proofs m groth16).Tally Unrestricted (entries m) n env s) : n = 0 ∧ Dormant s := by
  refine h.invariant (P := fun n _ s => n = 0 ∧ Dormant s) ?_ ?_
  · rintro env s ⟨admin, hrun⟩
    simp only [initializeProofs, run_iff] at hrun
    obtain ⟨-, -, -, -, rfl⟩ := hrun
    exact ⟨rfl, Table.All.empty, by simp⟩
  · rintro n e e' s c s' - ⟨rfl, hs⟩ - hstep
    exact ⟨by rw [hs.entries_eq_zero, zero_add], hs.step hnever hstep⟩

end Runs

/-! ## A check that accepts something -/

def voter : Address := ⟨1⟩

/-- The voter signs, at one time of the ledger. -/
def voting : Env := .signed [voter] 0 100

/-- The voter's proof, not verified yet. -/
def ballot (data : Bytes) (inputs : List Bytes) : Proof := ⟨1, 2, voter, false, data, inputs, 100⟩

/-- Where the proof is stored, and verified. -/
def admitted (vk : VerifyingKey) (data : Bytes) (inputs : List Bytes) (verified : Bool) : State where
  admin := some voter
  verifyingKey := some vk
  proof := if verified then (Table.set ∅ 1 (ballot data inputs)).set 1
    { ballot data inputs with verified := true } else Table.set ∅ 1 (ballot data inputs)
  proofCounter := u64.wrap 1

/-- A vote with the proof, and what it has returned. -/
def vote : Entry := ⟨.vote, 100, 1, 100⟩

section Twice

variable {m : Mode} {groth16 : Groth16} {vk : VerifyingKey} {data : Bytes} {inputs : List Bytes}

theorem tally_use {n : Multiset Entry} {env env' : Env} {s s' : State} {use : Use} {user : Address} {proofId id : U64}
    (hrun : (proofs m groth16).Tally Unrestricted (entries m) n env s)
    (h : (use.execute env' s user proofId).run m = some (id, s')) :
    (proofs m groth16).Tally Unrestricted (entries m) (n + {⟨use, env'.timestamp, proofId, id⟩}) env' s' := by
  have hstep : (proofs m groth16).step env' s (.use use user proofId) = some s' :=
    step_of_run (by rw [execute, run_map, h]; rfl)
  have htally := hrun.step trivial hstep
  rwa [entries, h] at htally

theorem tally_admitted (hic : vk.ic ≠ []) (haccepts : groth16 vk data inputs = true) :
    (proofs m groth16).Tally Unrestricted (entries m) 0 voting (admitted vk data inputs true) := by
  have hinit : (proofs m groth16).init voting { admin := some voter } := ⟨voter, by cases m <;> rfl⟩
  have hkey : (execute groth16 voting { admin := some voter } (.setVerifyingKey vk)).run m =
      some { admin := some voter, verifyingKey := some vk } := by
    obtain ⟨_, _, _, _, _ | _⟩ := vk
    · exact absurd rfl hic
    · cases m <;> rfl
  have hproof : (execute groth16 voting { admin := some voter, verifyingKey := some vk }
      (.generateProof voter 2 data inputs)).run m = some (admitted vk data inputs false) := by
    cases m <;> rfl
  have hverify : (execute groth16 voting (admitted vk data inputs false) (.verifyProof voter 1)).run m =
      some (admitted vk data inputs true) := by
    simp only [execute, verifyProof, run_iff, run_ite]
    refine ⟨(), by cases m <;> rfl, (), by cases m <;> rfl, ballot data inputs, by simp [admitted], vk, rfl, ?_⟩
    rw [ballot, haccepts]
    exact Exec.run_pure (ε := String) m _
  have hrun : (proofs m groth16).Tally Unrestricted (entries m) (0 + 0 + 0 + 0) voting (admitted vk data inputs true) :=
    (((Tally.init hinit).step trivial (step_of_run hkey)).step trivial (step_of_run hproof)).step trivial
      (step_of_run hverify)
  rwa [add_zero, add_zero, add_zero] at hrun

/-- Verified once, a proof votes twice, and both votes get one id. -/
theorem voted_again (hic : vk.ic ≠ []) (haccepts : groth16 vk data inputs = true) :
    ∃ s, (proofs m groth16).Tally Unrestricted (entries m) ({vote} + {vote}) voting s := by
  let s := admitted vk data inputs true
  let s' : State := { s with anonymousVote := Table.set ∅ 100 ⟨100, 1, 100⟩ }
  have hvote : (Use.vote.execute voting s voter 1).run m = some (u64.wrap 100, s') := by cases m <;> rfl
  let s'' : State := { s' with anonymousVote := s'.anonymousVote.set 100 ⟨100, 1, 100⟩ }
  have hagain : (Use.vote.execute voting s' voter 1).run m = some (u64.wrap 100, s'') := by cases m <;> rfl
  have hfirst := tally_use (tally_admitted hic haccepts) hvote
  rw [zero_add] at hfirst
  exact ⟨s'', tally_use hfirst hagain⟩

end Twice

/-- **Records are kept and proofs are spent once** in all runs exactly if no proof is ever accepted, and in every run in
which the callers present no proof twice and call no function twice at one time of the ledger. -/
theorem proofs_spent_once (m : Mode) (groth16 : Groth16) :
    ((∀ {n env s}, (proofs m groth16).Tally Unrestricted (entries m) n env s → Kept n s) ↔
      ∀ vk data inputs, vk.ic ≠ [] → groth16 vk data inputs = false) ∧
    ∀ {p n env s}, (proofs m groth16).Tally Unrestricted (fun env s c => (presented env c, entries m env s c)) (p, n)
      env s → Apart p → Kept n s := by
  refine ⟨⟨fun hkept vk data inputs hic => ?_, fun hnever n env s hrun => ?_⟩, fun hrun => (tracked_of_tally hrun).kept⟩
  · refine Bool.eq_false_iff.2 fun haccepts => ?_
    obtain ⟨s, hrun⟩ := voted_again (m := m) hic haccepts
    exact absurd (hkept hrun).spent (by decide)
  · obtain ⟨rfl, -⟩ := tally_dormant hnever hrun
    exact Tracked.init.kept ⟨Multiset.nodup_zero, Multiset.nodup_zero⟩

namespace Sample

/-- Two votes, each at its own time. -/
def ballots : List (Env × Call) :=
  [(voting, .setVerifyingKey ⟨[], [], [], [], [[]]⟩), (voting, .generateProof voter 2 [] []),
    (voting, .generateProof voter 2 [] []), (voting, .verifyProof voter 1),
    (voting, .verifyProof voter 2), (voting, .use .vote voter 1),
    (.signed [voter] 0 101, .use .vote voter 2)]

def deployment : (proofs .wrapping fun _ _ _ => true).Deployment := ⟨voting, { admin := some voter }, voter, rfl⟩

theorem proofs_spent_once_ballots : ∃ p n env s, (proofs .wrapping fun _ _ _ => true).Tally Unrestricted
    (fun env s c => (presented env c, entries .wrapping env s c)) (p, n) env s ∧ n.card = 2 ∧ Kept n s := by
  have hrun := tally_after (fun env s c => (presented env c, entries .wrapping env s c))
    (evaluated (o := deployment.after Unrestricted ballots))
  have htwo : Multiset.card ((proofs .wrapping fun _ _ _ => true).tallied
    (fun env s c => (presented env c, entries .wrapping env s c)) deployment.state ballots).2 = 2 := by decide +kernel
  refine ⟨_, _, _, _, hrun, htwo, (proofs_spent_once .wrapping _).2 hrun ?_⟩
  exact ⟨by decide +kernel, by decide +kernel⟩

/-- Both votes succeed, with one proof, and return one id. -/
theorem voted_twice : ∃ s, (proofs .wrapping fun _ _ _ => true).Tally Unrestricted (entries .wrapping)
    {⟨.vote, 100, 1, 100⟩, ⟨.vote, 100, 1, 100⟩} voting s :=
  @voted_again .wrapping _ ⟨[], [], [], [], [[]]⟩ [] [] (List.cons_ne_nil _ _) rfl

end Sample

end ArenaX.ZkProof
