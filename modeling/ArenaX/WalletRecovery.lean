/-
The export of a wallet's secret key against a recovery challenge, with the statements of any number of calls in any
order. A call reads the challenge, compares the code with what it has read, and writes the outcome in a later statement,
whatever the challenge is by then. Any statement can fail. The limit of guesses holds as long as no call reads the
challenge between another's read and its write and, of a call that has compared its code, the decryption and the update
of the challenge succeed: nothing counts a code whose call fails between the comparison and the update.
-/
import ArenaX.Lib.Runs

namespace ArenaX.WalletRecovery

/-! ## Calls -/

inductive Status where
  | pending
  | completed
  | expired
  | cancelled
  deriving DecidableEq

structure Challenge where
  userId : String
  codeHash : String
  expiresAt : ℤ
  maxAttempts : ℕ
  attempts : ℕ := 0
  status : Status := .pending
  deriving DecidableEq

structure HttpError where
  status : ℕ
  message : String
  deriving DecidableEq

structure Request where
  userId : String
  password : String
  verificationCode : String
  deriving DecidableEq

/-- The next statement of a call, with what it knows; or how the call has ended. A call that another service or the
database has made fail is remembered with whether it had compared its code. -/
inductive Call where
  | authenticate (request : Request)
  | findChallenge (request : Request)
  | expire
  | cancel
  | refuse (status : Status)
  | recordRefusal
  | decryptSecret
  | complete
  | recordRelease
  | released
  | failed (error : HttpError)
  | aborted (compared : Bool)
  deriving DecidableEq

structure Crypto where
  compare : String → String → Bool
  hashRecoveryCode : String → String

/-- What is outside of the challenge when a statement is executed. -/
structure Env where
  now : ℤ
  /-- the password hashes of the users -/
  passwordHash : String → Option String
  /-- the statement succeeds -/
  answers : Bool

def invalidCode : HttpError := ⟨401, "Invalid recovery verification code"⟩

/-- The call has compared its code with the challenge's. -/
def Call.compared : Call → Bool
  | .refuse _ | .recordRefusal | .decryptSecret | .complete | .recordRelease | .released => true
  | .failed error => error == invalidCode
  | .aborted compared => compared
  | _ => false

section Statements

variable (crypto : Crypto) (env : Env)

def Request.authenticate (request : Request) : Call :=
  match env.passwordHash request.userId with
  | none => .failed ⟨404, "User not found"⟩
  | some passwordHash =>
    if crypto.compare request.password passwordHash then .findChallenge request
    else .failed ⟨401, "Invalid credentials"⟩

/-- What a call decides from the challenge it has read. The new status of a wrong guess comes from the attempts it has
read. -/
def Request.decide (request : Request) (challenge : Challenge) : Call :=
  if challenge.userId ≠ request.userId then .failed ⟨404, "Recovery challenge not found"⟩
  else if challenge.status ≠ .pending then .failed ⟨400, "Recovery challenge is no longer active"⟩
  else if challenge.expiresAt ≤ env.now then .expire
  else if challenge.attempts ≥ challenge.maxAttempts then .cancel
  else if challenge.codeHash ≠ crypto.hashRecoveryCode request.verificationCode then
    .refuse (if challenge.attempts + 1 ≥ challenge.maxAttempts then .cancelled else .pending)
  else .decryptSecret

/-- What the next statement does when it succeeds. -/
def Call.statement (challenge : Challenge) : Call → Option (Challenge × Call)
  | .authenticate request => some (challenge, request.authenticate crypto env)
  | .findChallenge request => some (challenge, request.decide crypto env challenge)
  | .expire => some ({ challenge with status := .expired }, .failed ⟨400, "Recovery challenge has expired"⟩)
  | .cancel =>
    some ({ challenge with status := .cancelled }, .failed ⟨429, "Recovery challenge attempt limit reached"⟩)
  | .refuse status => some ({ challenge with attempts := challenge.attempts + 1, status }, .recordRefusal)
  | .recordRefusal => some (challenge, .failed invalidCode)
  | .decryptSecret => some (challenge, .complete)
  | .complete =>
    some ({ challenge with attempts := challenge.attempts + 1, status := .completed }, .recordRelease)
  | .recordRelease => some (challenge, .released)
  | .released | .failed _ | .aborted _ => none

/-- The next statement of `exportSecretKey`: one that fails changes nothing, and the call fails with it. -/
def Call.exportSecretKey (challenge : Challenge) (call : Call) : Option (Challenge × Call) :=
  (call.statement crypto env challenge).map fun r => if env.answers then r else (challenge, .aborted call.compared)

end Statements

structure State where
  challenge : Challenge
  calls : List Call := []
  deriving DecidableEq

inductive Event where
  | call (request : Request)
  | statement (i : ℕ)

def Event.execute (crypto : Crypto) (env : Env) (s : State) : Event → Option State
  | .call request => some { s with calls := s.calls ++ [.authenticate request] }
  | .statement i => do
    let r ← (← s.calls[i]?).exportSecretKey crypto env s.challenge
    some { challenge := r.1, calls := s.calls.set i r.2 }

/-- Any number of calls with any arguments, on a challenge that has just been created. -/
def recovery (crypto : Crypto) : TransitionSystem Env State Event where
  init _ s := s.challenge.attempts = 0 ∧ s.challenge.status = .pending ∧ s.calls = []
  step := Event.execute crypto

namespace Call

/-- The call has read a pending challenge and has still to write. -/
def midway : Call → Bool
  | .expire | .cancel | .refuse _ | .decryptSecret | .complete => true
  | _ => false

/-- The call has compared its code, and the challenge does not count it yet. -/
def uncounted (call : Call) : Bool := call.midway && call.compared

/-- The call has completed the challenge. -/
def releasing : Call → Bool
  | .recordRelease | .released => true
  | _ => false

end Call

/-- A call reads the challenge only when no other is midway; the decryption and the update after a comparison
succeed. -/
def Event.exclusive (env : Env) (s : State) : Event → Bool
  | .call _ => true
  | .statement i =>
    match s.calls[i]? with
    | some (.findChallenge _) => s.calls.all (!·.midway)
    | some (.refuse _) | some .decryptSecret | some .complete => env.answers
    | _ => true

/-- The runs in which every event is exclusive. -/
def Exclusive : TransitionSystem.Rule Env State Event := fun _ env s event => event.exclusive env s
deriving Decidable

/-! ## Exclusive runs -/

/-- At most one call is midway, and only while the challenge is pending; the attempts are the comparisons that have been
counted. -/
structure State.Sound (s : State) : Prop where
  alone : s.calls.countP Call.midway ≤ 1
  pending : s.challenge.status ≠ .pending → s.calls.countP Call.midway = 0
  counted : s.calls.countP Call.compared = s.challenge.attempts + s.calls.countP Call.uncounted
  room : s.challenge.attempts + s.calls.countP Call.uncounted ≤ s.challenge.maxAttempts
  released : s.calls.countP Call.releasing ≤ if s.challenge.status = .completed then 1 else 0

section Steps

variable {crypto : Crypto} {e env : Env} {s s' : State} {event : Event}

theorem countP_set {α : Type} {a : α} (b : α) (p : α → Bool) : ∀ {l : List α} {i : ℕ}, l[i]? = some a →
    (l.set i b).countP p + (if p a then 1 else 0) = l.countP p + (if p b then 1 else 0)
  | x :: l, 0, h => by
    cases h
    simp only [List.set_cons_zero, List.countP_cons]
    omega
  | x :: l, i + 1, h => by
    have ih := countP_set b p (l := l) (i := i) h
    simp only [List.set_cons_succ, List.countP_cons]
    omega

namespace State.Sound

variable {i : ℕ} {call call' : Call} {challenge : Challenge}

/-- A statement that leaves the challenge alone. -/
theorem read (hs : s.Sound) (hcall : s.calls[i]? = some call) (hmidway : call'.midway = call.midway)
    (hcompared : call'.compared = call.compared) (hreleasing : call'.releasing = true → call.releasing = true) :
    State.Sound ⟨s.challenge, s.calls.set i call'⟩ := by
  have hm := countP_set call' Call.midway hcall
  have hc := countP_set call' Call.compared hcall
  have hu := countP_set call' Call.uncounted hcall
  have hr := countP_set call' Call.releasing hcall
  rw [hmidway, Nat.add_right_cancel_iff] at hm
  rw [hcompared, Nat.add_right_cancel_iff] at hc
  rw [Call.uncounted, Call.uncounted, hmidway, hcompared, Nat.add_right_cancel_iff] at hu
  have hle : (s.calls.set i call').countP Call.releasing ≤ s.calls.countP Call.releasing := by
    by_cases h : call'.releasing = true
    · rw [if_pos h, if_pos (hreleasing h)] at hr
      omega
    · rw [if_neg h] at hr
      omega
  exact ⟨hm ▸ hs.alone, hm ▸ hs.pending, hc ▸ hu ▸ hs.counted, hu ▸ hs.room, hle.trans hs.released⟩

/-- A call that finds a pending challenge, and no other call midway. -/
theorem enter (hs : s.Sound) (hcall : s.calls[i]? = some call) (hnone : s.calls.countP Call.midway = 0)
    (hpending : s.challenge.status = .pending) (hcompared : call.compared = false)
    (hmidway : call'.midway = true) (hroom : call'.compared = true → s.challenge.attempts < s.challenge.maxAttempts)
    (hreleasing : call'.releasing = false) : State.Sound ⟨s.challenge, s.calls.set i call'⟩ := by
  have hm := countP_set call' Call.midway hcall
  have hc := countP_set call' Call.compared hcall
  have hu := countP_set call' Call.uncounted hcall
  have hr := countP_set call' Call.releasing hcall
  have hcounted := hs.counted
  have hmax := hs.room
  simp only [Call.uncounted, hmidway, hcompared, hreleasing, hnone, Bool.and_false, Bool.true_and, if_true,
    Bool.false_eq_true, if_false, Nat.add_zero] at hm hc hu hr
  refine ⟨by dsimp only; omega, fun h =>
    absurd hpending h, by dsimp only; omega, ?_, (Nat.le.intro hr).trans hs.released⟩
  dsimp only
  rw [hu]
  split
  · have := hroom ‹_›
    have : s.calls.countP Call.uncounted ≤ s.calls.countP Call.midway :=
      List.countP_mono_left fun call _ h => (Bool.and_eq_true_iff.1 h).1
    omega
  · exact hmax

/-- The call that is midway writes what it has decided. -/
theorem write (hs : s.Sound) (hcall : s.calls[i]? = some call) (hmidway : call.midway = true)
    (hmidway' : call'.midway = false) (hcompared : call'.compared = call.compared)
    (hmax : challenge.maxAttempts = s.challenge.maxAttempts)
    (hattempts : challenge.attempts = s.challenge.attempts + if call.compared then 1 else 0)
    (hreleasing : call'.releasing = true → challenge.status = .completed) :
    State.Sound ⟨challenge, s.calls.set i call'⟩ := by
  have hm := countP_set call' Call.midway hcall
  have hc := countP_set call' Call.compared hcall
  have hu := countP_set call' Call.uncounted hcall
  have hr := countP_set call' Call.releasing hcall
  have halone := hs.alone
  have hcounted := hs.counted
  have hroom := hs.room
  simp only [Call.uncounted, hmidway, hmidway', hcompared, Bool.false_and, Bool.true_and, if_true, Bool.false_eq_true,
    if_false, Nat.add_zero] at hm hc hu
  have hpending : s.challenge.status = .pending := by
    by_contra h
    have := hs.pending h
    omega
  have hreleased := hs.released
  rw [hpending, if_neg nofun] at hreleased
  refine ⟨by dsimp only; omega, fun _ => by dsimp only; omega, by dsimp only; omega, by dsimp only; omega, ?_⟩
  dsimp only
  split
  · split at hr <;> split at hr <;> omega
  · rw [if_neg fun h => ‹¬ _› (hreleasing h)] at hr
    omega

theorem statement (hs : s.Sound) (hcall : s.calls[i]? = some call) (hok : (Event.statement i).exclusive env s = true)
    (h : call.statement crypto env s.challenge = some (challenge, call')) :
    State.Sound ⟨challenge, s.calls.set i call'⟩ := by
  simp only [Event.exclusive, hcall] at hok
  cases call with
  | authenticate request =>
    cases h
    unfold Request.authenticate
    repeat' split
    all_goals exact hs.read hcall rfl rfl nofun
  | findChallenge request =>
    cases h
    have hnone : s.calls.countP Call.midway = 0 := by simpa [List.countP_eq_zero] using hok
    unfold Request.decide
    split_ifs with _ hpending _ hroom
    · exact hs.read hcall rfl rfl nofun
    · exact hs.read hcall rfl rfl nofun
    · exact hs.enter hcall hnone (not_not.1 hpending) rfl rfl nofun rfl
    · exact hs.enter hcall hnone (not_not.1 hpending) rfl rfl nofun rfl
    · exact hs.enter hcall hnone (not_not.1 hpending) rfl rfl (fun _ => not_le.1 hroom) rfl
    · exact hs.enter hcall hnone (not_not.1 hpending) rfl rfl (fun _ => not_le.1 hroom) rfl
    · exact hs.enter hcall hnone (not_not.1 hpending) rfl rfl (fun _ => not_le.1 hroom) rfl
  | expire | cancel =>
    cases h
    exact hs.write hcall rfl rfl rfl rfl rfl nofun
  | refuse status =>
    cases h
    exact hs.write hcall rfl rfl rfl rfl rfl nofun
  | complete =>
    cases h
    exact hs.write hcall rfl rfl rfl rfl rfl fun _ => rfl
  | recordRefusal | decryptSecret | recordRelease =>
    cases h
    exact hs.read hcall rfl rfl (by decide)
  | released => cases h
  | failed error => cases h
  | aborted compared => cases h

/-- A call that fails has not compared its code, or is not midway. -/
theorem abort (hs : s.Sound) (hcall : s.calls[i]? = some call) (hok : (Event.statement i).exclusive env s = true)
    (hfails : env.answers = false) : State.Sound ⟨s.challenge, s.calls.set i (.aborted call.compared)⟩ := by
  simp only [Event.exclusive, hcall] at hok
  cases call with
  | expire | cancel => exact hs.write hcall rfl rfl rfl rfl rfl nofun
  | refuse | decryptSecret | complete => cases hfails.symm.trans hok
  | _ => exact hs.read hcall rfl rfl nofun

/-- A challenge that is not pending is not written. -/
theorem settled (hs : s.Sound) (hcall : s.calls[i]? = some call) (hsettled : s.challenge.status ≠ .pending)
    (h : call.statement crypto env s.challenge = some (challenge, call')) : challenge = s.challenge := by
  have hmidway : call.midway = false := by
    simpa using List.countP_eq_zero.1 (hs.pending hsettled) call (List.mem_of_getElem? hcall)
  cases call with
  | expire | cancel | refuse | complete => cases hmidway
  | authenticate | findChallenge | recordRefusal | decryptSecret | recordRelease =>
    cases h
    rfl
  | released => cases h
  | failed error => cases h
  | aborted compared => cases h

end State.Sound

/-- Along exclusive runs the invariant holds, and a challenge that is not pending stays as it is. -/
theorem execute_sound (hs : s.Sound) (hok : Exclusive e env s event) (h : event.execute crypto env s = some s') :
    s'.Sound ∧ (s.challenge.status ≠ .pending → s'.challenge = s.challenge) := by
  cases event with
  | call request =>
    cases h
    have hcount {p : Call → Bool} (hp : p (.authenticate request) = false) :
        (s.calls ++ [Call.authenticate request]).countP p = s.calls.countP p := by
      rw [List.countP_append, List.countP_singleton, hp]
      rfl
    refine ⟨⟨?_, ?_, ?_, ?_, ?_⟩, fun _ => rfl⟩
    · exact (hcount rfl).trans_le hs.alone
    · exact fun h => (hcount rfl).trans (hs.pending h)
    · exact (hcount rfl).trans (hs.counted.trans (congrArg _ (hcount rfl).symm))
    · exact (congrArg _ (hcount rfl)).trans_le hs.room
    · exact (hcount rfl).trans_le hs.released
  | statement i =>
    simp only [Event.execute, Call.exportSecretKey, Option.bind_eq_bind, Option.bind_eq_some_iff,
      Option.map_eq_some_iff, Option.some.injEq] at h
    obtain ⟨call, hcall, _, ⟨⟨challenge, call'⟩, hnext, rfl⟩, rfl⟩ := h
    cases hanswers : env.answers with
    | true => exact ⟨hs.statement hcall hok hnext, fun hsettled => hs.settled hcall hsettled hnext⟩
    | false => exact ⟨hs.abort hcall hok hanswers, fun _ => rfl⟩

theorem sound_of_reach (h : (recovery crypto).Reach Exclusive e s) : s.Sound := by
  refine h.invariant (P := fun _ s => s.Sound) ?_ fun hs hok hstep => (execute_sound hs hok hstep).1
  rintro _ ⟨challenge, _⟩ ⟨hattempts, hstatus, rfl⟩
  exact ⟨Nat.zero_le 1, fun _ => rfl, hattempts.symm, hattempts.trans_le (Nat.zero_le _), Nat.zero_le _⟩

end Steps

/-- **Limit of guesses.** In exclusive runs at most `maxAttempts` calls compare their code with the challenge's, the
secret key is released at most once, and a challenge that has left the pending status never becomes pending again. -/
theorem guesses_limited {crypto : Crypto} {e : Env} {s : State} (h : (recovery crypto).Reach Exclusive e s) :
    s.calls.countP Call.compared ≤ s.challenge.maxAttempts ∧ s.calls.count .released ≤ 1 ∧
      (s.challenge.status ≠ .pending → ∀ {e' s'}, ((recovery crypto).restart fun _ t => t = s).Reach Exclusive e' s' →
        s'.challenge.status ≠ .pending) := by
  have hs := sound_of_reach h
  refine ⟨hs.counted.trans_le hs.room, ?_, fun hne e' s' hreach => ?_⟩
  · have hle : s.calls.count .released ≤ s.calls.countP Call.releasing :=
      List.countP_mono_left fun call _ hcall => by rw [eq_of_beq hcall]; rfl
    refine hle.trans (hs.released.trans ?_)
    split <;> omega
  · refine (hreach.invariant (P := fun _ s' => s'.Sound ∧ s'.challenge.status ≠ .pending) ?_ ?_).2
    · rintro _ _ rfl
      exact ⟨hs, hne⟩
    · intro e e' s c s' hs hok hstep
      have hstep := execute_sound hs.1 hok hstep
      exact ⟨hstep.1, (hstep.2 hs.2).symm ▸ hs.2⟩

namespace Sample

def crypto : Crypto := ⟨fun password hash => password == hash, id⟩

def env : Env := ⟨0, fun _ => some "pw", true⟩

def challenge : Challenge := { userId := "u", codeHash := "111111", expiresAt := 600, maxAttempts := 5 }

def right : Event := .call ⟨"u", "pw", "111111"⟩

def wrong : Event := .call ⟨"u", "pw", "222222"⟩

/-- The next statements of one call. -/
def statements (env : Env) (i n : ℕ) : List (Env × Event) := List.replicate n (env, .statement i)

/-- The next statement of each call. -/
def round (n : ℕ) : List (Env × Event) := (List.range n).map fun i => (env, .statement i)

def deployment : (recovery crypto).Deployment := ⟨env, ⟨challenge, []⟩, rfl, rfl, rfl⟩

/-- After a wrong code, the right one, and a third call. -/
def settled : State where
  challenge := { challenge with attempts := 2, status := .completed }
  calls := [.failed invalidCode, .released, .failed ⟨400, "Recovery challenge is no longer active"⟩]

theorem settled_reach : (recovery crypto).Reach Exclusive env settled :=
  deployment.reach_after (show deployment.after Exclusive ([(env, wrong), (env, right), (env, right)] ++
    statements env 0 4 ++ statements env 1 5 ++ statements env 2 2) = some (env, settled) from rfl)

theorem guesses_limited_settled :
    (recovery crypto).Reach Exclusive env settled ∧ settled.calls.countP Call.compared = 2 ∧
    2 ≤ settled.challenge.maxAttempts ∧ settled.calls.count .released = 1 ∧
    ∀ {e' s'}, ((recovery crypto).restart fun _ t => t = settled).Reach Exclusive e' s' →
      s'.challenge.status ≠ .pending :=
  ⟨settled_reach, rfl, (guesses_limited settled_reach).1, rfl, (guesses_limited settled_reach).2.2 nofun⟩

/-- A statement fails. -/
def unanswered : Env := { env with answers := false }

/-- Six calls that read the challenge before any of them writes all compare and all get the key. -/
def overlapping : State where
  challenge := { challenge with attempts := 6, status := .completed }
  calls := List.replicate 6 .released

/-- The right code is written before a wrong one that was read earlier. -/
def completed : State where
  challenge := { challenge with attempts := 1, status := .completed }
  calls := [.refuse .pending, .released]

theorem guesses_unlimited :
    ((recovery crypto).Reach TransitionSystem.Unrestricted env overlapping ∧ overlapping.calls.countP Call.compared =
      6 ∧ overlapping.challenge.maxAttempts = 5 ∧ overlapping.calls.count .released = 6) ∧
    ((recovery crypto).Reach TransitionSystem.Unrestricted env completed ∧ ∃ s,
      (recovery crypto).step env completed (.statement 0) = some s ∧ s.challenge.status = .pending) ∧
    -- one after another, with a decryption or an update that fails: the challenge is as new
    (recovery crypto).Reach TransitionSystem.Unrestricted unanswered ⟨challenge, List.replicate 6 (.aborted true)⟩ := by
  refine ⟨⟨deployment.reach_after (show deployment.after TransitionSystem.Unrestricted
      (List.replicate 6 (env, right) ++ round 6 ++ round 6 ++ round 6 ++ round 6 ++ round 6) =
        some (env, overlapping) from rfl),
      rfl, rfl, rfl⟩, ⟨deployment.reach_after (show deployment.after TransitionSystem.Unrestricted
      ([(env, wrong), (env, right)] ++ round 2 ++ round 2 ++ statements env 1 3) = some (env, completed) from rfl), _,
        rfl, rfl⟩, ?_⟩
  exact deployment.reach_after (show deployment.after TransitionSystem.Unrestricted
    ((List.range 6).flatMap fun i => (env, if i < 3 then right else wrong) :: statements env i 2 ++
      statements unanswered i 1) = some (unanswered, _) from rfl)

end Sample

end ArenaX.WalletRecovery
