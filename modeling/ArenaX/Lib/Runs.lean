/-
Systems that answer calls, each made in an environment (who calls, and when), and what holds along their
runs. A rule says which call may follow in which environment: it orders time, and it is where a theorem
about some runs only says which ones. A run can carry a tally of what its calls have done so far.
-/
import Mathlib.Tactic

/-- What the kernel finds to have a value has it. -/
theorem evaluated {α : Type*} {o : Option α} (h : o.isSome = true := by decide +kernel) : o = some (o.get h) :=
  (Option.some_get h).symm

/-- The states a system may start in, and what a call makes of a state (`none`: it is refused). -/
structure TransitionSystem (E S C : Type) where
  init : E → S → Prop
  step : E → S → C → Option S

namespace TransitionSystem

variable {E S C : Type} {M : TransitionSystem E S C}

/-- What may follow: the environments of the last call and of the next one, the state and the call. -/
abbrev Rule (E S C : Type) := E → E → S → C → Prop

/-- Any call may follow. -/
def Unrestricted : Rule E S C := fun _ _ _ _ => True

instance (e e' : E) (s : S) (c : C) : Decidable (Unrestricted e e' s c) := isTrue trivial

/-- What a clock shows does not go back. -/
def Ordered {T : Type} [LE T] (time : E → T) : Rule E S C := fun e e' _ _ => time e ≤ time e'

instance {T : Type} [LE T] [DecidableLE T] (time : E → T) (e e' : E) (s : S) (c : C) :
    Decidable (Ordered time e e' s c) := inferInstanceAs (Decidable (time e ≤ time e'))

variable (M) in
/-- The environment of the last call and the state after it, in a run by a rule. -/
inductive Reach (ok : Rule E S C) : E → S → Prop where
  | init {e s} : M.init e s → Reach ok e s
  | step {e e' s c s'} : Reach ok e s → ok e e' s c → M.step e' s c = some s' → Reach ok e' s'

variable (M) in
/-- A run, with the sum of what each of its calls counts for in the state it is made in. -/
inductive Tally {A : Type} [AddMonoid A] (ok : Rule E S C) (q : E → S → C → A) : A → E → S → Prop where
  | init {e s} : M.init e s → Tally ok q 0 e s
  | step {n e e' s c s'} : Tally ok q n e s → ok e e' s c → M.step e' s c = some s' →
      Tally ok q (n + q e' s c) e' s'

variable {ok ok' : Rule E S C} {e e' : E} {s s' : S}

/-- What holds initially and is kept by every step holds along every run. -/
theorem Reach.invariant {P : E → S → Prop} (hinit : ∀ {e s}, M.init e s → P e s)
    (hstep : ∀ {e e' s c s'}, P e s → ok e e' s c → M.step e' s c = some s' → P e' s')
    (h : M.Reach ok e s) : P e s := by
  induction h with
  | init h => exact hinit h
  | step _ hok h ih => exact hstep ih hok h

/-- A rule may be relaxed. -/
theorem Reach.mono (hle : ∀ {e e' s c}, ok e e' s c → ok' e e' s c) (h : M.Reach ok e s) : M.Reach ok' e s :=
  h.invariant .init fun hs hok hstep => .step hs (hle hok) hstep

/-! ## Tallies -/

/-- The only value a property can have is the one it has. -/
theorem iff_eq_of_exists {A : Type} {P : A → Prop} {x : A} (hex : ∃ n, P n) (heq : ∀ {n}, P n → n = x) (n : A) :
    P n ↔ n = x := by
  refine ⟨heq, ?_⟩
  rintro rfl
  obtain ⟨n, hn⟩ := hex
  rwa [heq hn] at hn

section Tally

variable {A : Type} [AddMonoid A] {q : E → S → C → A} {n : A}

theorem Tally.reach (h : M.Tally ok q n e s) : M.Reach ok e s := by
  induction h with
  | init h => exact .init h
  | step _ hok h ih => exact .step ih hok h

/-- Every run has a tally. -/
theorem Reach.tally (q : E → S → C → A) (h : M.Reach ok e s) : ∃ n, M.Tally ok q n e s := by
  induction h with
  | init h => exact ⟨0, .init h⟩
  | step _ hok h ih =>
    obtain ⟨n, ih⟩ := ih
    exact ⟨_, .step ih hok h⟩

/-- A fact about the state and the tally that every step keeps; the step may use what holds along the run. -/
theorem Tally.invariant {P : A → E → S → Prop} (hinit : ∀ {e s}, M.init e s → P 0 e s)
    (hstep : ∀ {n e e' s c s'}, M.Reach ok e s → P n e s → ok e e' s c → M.step e' s c = some s' →
      P (n + q e' s c) e' s') (h : M.Tally ok q n e s) : P n e s := by
  induction h with
  | init h => exact hinit h
  | step hr hok h ih => exact hstep hr.reach ih hok h

end Tally

variable (M) in
/-- The same system, watched from the states with a property on. -/
def restart (start : E → S → Prop) : TransitionSystem E S C where
  init := start
  step := M.step

/-! ## Runs since a call -/

section Since

variable {A : Type} [AddMonoid A] {begins : S → C → Prop} {q : E → S → C → A} {n : A}

variable (M ok begins) in
/-- The states that a call of a kind leaves behind. -/
def Begun (e : E) (s : S) : Prop :=
  ∃ e₀ s₀ c, M.Reach ok e₀ s₀ ∧ ok e₀ e s₀ c ∧ begins s₀ c ∧ M.step e s₀ c = some s

variable (M ok begins q) in
/-- The tally of a run since its last call of a kind, that call apart. -/
def TallySince (n : A) (e : E) (s : S) : Prop :=
  (M.restart (M.Begun ok begins)).Tally (fun e e' s c => ok e e' s c ∧ ¬ begins s c) q n e s

theorem TallySince.reach (h : M.TallySince ok begins q n e s) : M.Reach ok e s := by
  refine Reach.invariant (M := M.restart (M.Begun ok begins)) ?_ ?_ (Tally.reach h)
  · rintro e s ⟨e₀, s₀, c, hreach, hok, -, hstep⟩
    exact .step hreach hok hstep
  · intro e e' s c s' hreach hok hstep
    exact .step hreach hok.1 hstep

/-- A fact about the state and the tally that the call establishes and every other step keeps. -/
theorem TallySince.invariant {P : A → E → S → Prop}
    (hbegin : ∀ {e₀ e s₀ c s}, M.Reach ok e₀ s₀ → ok e₀ e s₀ c → begins s₀ c → M.step e s₀ c = some s → P 0 e s)
    (hstep : ∀ {n e e' s c s'}, M.Reach ok e s → P n e s → ok e e' s c → ¬ begins s c → M.step e' s c = some s' →
      P (n + q e' s c) e' s') (h : M.TallySince ok begins q n e s) : P n e s := by
  induction h with
  | init h =>
    obtain ⟨e₀, s₀, c, hreach, hok, hc, hstep⟩ := h
    exact hbegin hreach hok hc hstep
  | step hr hok h ih => exact hstep (TallySince.reach hr) ih hok.1 hok.2 h

/-- What only calls of a kind bring about goes back to one of them. -/
theorem Reach.tallySince {P : S → Prop} (q : E → S → C → A) (hinit : ∀ {e s}, M.init e s → ¬ P s)
    (hstep : ∀ {e e' s c s'}, M.Reach ok e s → ok e e' s c → ¬ begins s c → M.step e' s c = some s' → P s' → P s)
    (h : M.Reach ok e s) (hs : P s) : ∃ n, M.TallySince ok begins q n e s := by
  induction h with
  | init h => exact absurd hs (hinit h)
  | @step e e' s c s' hr hok h ih =>
    by_cases hc : begins s c
    · exact ⟨0, .init ⟨e, s, c, hr, hok, hc, h⟩⟩
    · obtain ⟨n, hn⟩ := ih (hstep hr hok hc h hs)
      exact ⟨_, .step hn ⟨hok, hc⟩ h⟩

end Since

variable (M ok) in
/-- Make calls one after another, as far as the rule and the system allow. -/
def replay [∀ e e' s c, Decidable (ok e e' s c)] (e : E) (s : S) : List (E × C) → Option (E × S)
  | [] => some (e, s)
  | (e', c) :: rest => if ok e e' s c then (M.step e' s c).bind fun s' => replay e' s' rest else none

theorem replay_restart [∀ e e' s c, Decidable (ok e e' s c)] (start : E → S → Prop) : ∀ (calls : List (E × C)) (e : E)
    (s : S), (M.restart start).replay ok e s calls = M.replay ok e s calls
  | [], _, _ => rfl
  | (e', c) :: rest, e, s => by
    simp only [TransitionSystem.replay, replay_restart start rest]
    rfl

variable (M) in
/-- What calls made one after another count for. -/
def tallied {A : Type} [AddMonoid A] (q : E → S → C → A) (s : S) : List (E × C) → A
  | [] => 0
  | (e', c) :: rest => q e' s c + ((M.step e' s c).map fun s' => tallied q s' rest).getD 0

theorem Tally.replay {A : Type} [AddMonoid A] {q : E → S → C → A} [∀ e e' s c, Decidable (ok e e' s c)] :
    ∀ {calls : List (E × C)} {n : A} {e : E} {s : S} {r : E × S}, M.Tally ok q n e s →
      M.replay ok e s calls = some r → M.Tally ok q (n + M.tallied q s calls) r.1 r.2
  | [], n, e, s, r, hs, h => by
    cases h
    rwa [tallied, add_zero]
  | (e', c) :: rest, n, e, s, r, hs, h => by
    unfold TransitionSystem.replay at h
    split at h
    · rename_i hok
      obtain ⟨t, ht, h⟩ := Option.bind_eq_some_iff.1 h
      have := (Tally.step hs hok ht).replay h
      rwa [add_assoc, ← show M.tallied q s ((e', c) :: rest) = q e' s c + M.tallied q t rest by
        rw [tallied, ht]; rfl] at this
    · cases h

theorem Reach.replay [∀ e e' s c, Decidable (ok e e' s c)] {calls : List (E × C)} {r : E × S} (hs : M.Reach ok e s)
    (h : M.replay ok e s calls = some r) : M.Reach ok r.1 r.2 := by
  obtain ⟨_, hn⟩ := hs.tally fun _ _ _ => (0 : ℕ)
  exact (hn.replay h).reach

/-- Calls made one after another, watched from where they start. -/
theorem reach_restart [∀ e e' s c, Decidable (ok e e' s c)] {calls : List (E × C)} {r : E × S}
    (h : M.replay ok e s calls = some r) : (M.restart fun e₀ s₀ => e₀ = e ∧ s₀ = s).Reach ok r.1 r.2 :=
  Reach.replay (.init ⟨rfl, rfl⟩) ((replay_restart _ calls e s).trans h)

/-! ## Deployments -/

/-- A state that a system may start in, for the runs that are computed. -/
structure Deployment (M : TransitionSystem E S C) where
  env : E
  state : S
  starts : M.init env state

namespace Deployment

variable [∀ e e' s c, Decidable (ok e e' s c)] {d : M.Deployment} {calls : List (E × C)} {r : E × S}

variable (d ok) in
/-- Where calls lead from there. -/
def after (calls : List (E × C)) : Option (E × S) := M.replay ok d.env d.state calls

theorem reach_after (h : d.after ok calls = some r) : M.Reach ok r.1 r.2 := (Reach.init d.starts).replay h

theorem tally_after {A : Type} [AddMonoid A] (q : E → S → C → A) (h : d.after ok calls = some r) :
    M.Tally ok q (M.tallied q d.state calls) r.1 r.2 := by
  simpa using (Tally.init d.starts).replay h

end Deployment

end TransitionSystem
