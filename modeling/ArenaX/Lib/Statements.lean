/-
Programs that work on a shared store by statements. A statement reads and writes the store in one step, and the program
goes on as what it has read says; between two statements of a program the store may change. Run alone, a program makes
its statements one after another. A script is a program that can fail; what it has written before stays.
-/
import Mathlib.Tactic

/-- A program on a store that returns a value. -/
inductive Prog (S α : Type) where
  | ret (a : α)
  | stmt (write : S → S) (next : S → Prog S α)

namespace Prog

variable {S α β : Type} {G : S → S → Prop}

def bind : Prog S α → (α → Prog S β) → Prog S β
  | .ret a, f => f a
  | .stmt write next, f => .stmt write fun s => (next s).bind f

/-- What a program returns and leaves behind when it runs alone. -/
def run : Prog S α → S → α × S
  | .ret a, s => (a, s)
  | .stmt write next, s => (next s).run (write s)

theorem run_bind (f : α → Prog S β) :
    ∀ (x : Prog S α) (s : S), (x.bind f).run s = (f (x.run s).1).run (x.run s).2
  | .ret _, _ => rfl
  | .stmt write next, s => run_bind f (next s) (write s)

theorem bind_ret : ∀ x : Prog S α, x.bind .ret = x
  | .ret _ => rfl
  | .stmt write next => congrArg (stmt write) (funext fun s => bind_ret (next s))

theorem bind_assoc {γ : Type} (f : α → Prog S β) (g : β → Prog S γ) :
    ∀ x : Prog S α, (x.bind f).bind g = x.bind fun a => (f a).bind g
  | .ret _ => rfl
  | .stmt write next => congrArg (stmt write) (funext fun s => bind_assoc f g (next s))

/-- All writes of a program are of a kind. -/
def Writes (G : S → S → Prop) : Prog S α → Prop
  | .ret _ => True
  | .stmt write next => (∀ s, G s (write s)) ∧ ∀ s, (next s).Writes G

theorem Writes.bind {f : α → Prog S β} :
    ∀ {x : Prog S α}, x.Writes G → (∀ a, (f a).Writes G) → (x.bind f).Writes G
  | .ret a, _, hf => hf a
  | .stmt _ _, hx, hf => ⟨hx.1, fun s => (hx.2 s).bind hf⟩

/-- A program that runs alone changes the store as its writes do. -/
theorem Writes.run (hrefl : ∀ s, G s s) (htrans : ∀ {s s' s''}, G s s' → G s' s'' → G s s'') :
    ∀ {x : Prog S α} (s : S), x.Writes G → G s (x.run s).2
  | .ret _, s, _ => hrefl s
  | .stmt write _, s, hx => htrans (hx.1 s) ((hx.2 s).run hrefl htrans (write s))

/-! ### Programs that stop -/

/-- The store when a program that runs alone stops after a number of its statements. -/
def cut : ℕ → Prog S α → S → S
  | _, .ret _, s => s
  | 0, .stmt _ _, s => s
  | k + 1, .stmt write next, s => (next s).cut k (write s)

/-- How many statements a program makes when it runs alone. -/
def steps : Prog S α → S → ℕ
  | .ret _, _ => 0
  | .stmt write next, s => (next s).steps (write s) + 1

theorem cut_zero : ∀ (x : Prog S α) (s : S), x.cut 0 s = s
  | .ret _, _ => rfl
  | .stmt _ _, _ => rfl

/-- A program that has made all its statements. -/
theorem cut_of_steps_le : ∀ {k : ℕ} {x : Prog S α} {s : S}, x.steps s ≤ k → x.cut k s = (x.run s).2
  | 0, .ret _, _, _ => rfl
  | _ + 1, .ret _, _, _ => rfl
  | _ + 1, .stmt _ next, _, h => cut_of_steps_le (x := next _) (Nat.le_of_succ_le_succ h)

/-- A program on a part of a store. -/
def zoom {T : Type} (get : S → T) (set : T → S → S) : Prog T α → Prog S α
  | .ret a => .ret a
  | .stmt write next => .stmt (fun s => set (write (get s)) s) fun s => (next (get s)).zoom get set

theorem writes_zoom {T : Type} {get : S → T} {set : T → S → S} (h : ∀ t s, G s (set t s)) :
    ∀ x : Prog T α, (x.zoom get set).Writes G
  | .ret _ => trivial
  | .stmt write next => ⟨fun s => h (write (get s)) s, fun s => writes_zoom h (next (get s))⟩

end Prog

/-- A program that returns a value or fails. -/
def Script (ε S α : Type) := Prog S (Except ε α)

namespace Script

variable {ε S α β : Type} {f : S → Except ε (α × S)} {g : α → Script ε S β} {s s' : S} {b : β} {x : Script ε S α}

instance : Monad (Script ε S) where
  pure a := .ret (.ok a)
  bind x f := Prog.bind x fun
    | .ok a => f a
    | .error e => .ret (.error e)

instance : LawfulMonad (Script ε S) := LawfulMonad.mk' _
  (fun x => by
    refine Eq.trans (congrArg (Prog.bind x) (funext fun r => ?_)) (Prog.bind_ret x)
    cases r <;> rfl)
  (fun _ _ => rfl)
  (fun x f g => by
    refine (Prog.bind_assoc _ _ x).trans (congrArg (Prog.bind x) (funext fun r => ?_))
    cases r <;> rfl)

/-- Fail. -/
def throw (e : ε) : Script ε S α := .ret (.error e)

/-- Fail with `e` when `c` holds. -/
def reject (c : Prop) [Decidable c] (e : ε) : Script ε S Unit := if c then throw e else pure ()

/-- The value, or the error `e`. -/
def okOr (o : Option α) (e : ε) : Script ε S α := match o with
  | some a => pure a
  | none => throw e

/-- A statement that reads. -/
def query (f : S → α) : Script ε S α := .stmt id fun s => .ret (.ok (f s))

/-- A statement that writes. -/
def update (f : S → S) : Script ε S Unit := .stmt f fun _ => .ret (.ok ())

/-- A statement that returns a value and writes, or fails and leaves the store as it is. -/
def change (f : S → Except ε (α × S)) : Script ε S α :=
  .stmt (fun s => match f s with
    | .ok (_, s') => s'
    | .error _ => s) fun s => .ret ((f s).map Prod.fst)

/-- Go on after a failure. -/
def attempt (x : Script ε S α) : Script ε S (Except ε α) := Prog.bind x fun r => .ret (.ok r)

/-- A script on a part of a store. -/
def zoom {T : Type} (get : S → T) (set : T → S → S) (x : Script ε T α) : Script ε S α := Prog.zoom get set x

/-- What a script returns and leaves behind when it runs alone. -/
def run (x : Script ε S α) (s : S) : Except ε α × S := Prog.run x s

@[simp] theorem run_pure (a : α) (s : S) : (pure a : Script ε S α).run s = (.ok a, s) := rfl

theorem run_bind (x : Script ε S α) (f : α → Script ε S β) (s : S) : (x >>= f).run s =
    match x.run s with
    | (.ok a, s') => (f a).run s'
    | (.error e, s') => (.error e, s') := by
  refine (Prog.run_bind _ x s).trans ?_
  unfold run
  rcases Prog.run x s with ⟨_ | _, _⟩ <;> rfl

@[simp] theorem run_query (f : S → α) (s : S) : (query f : Script ε S α).run s = (.ok (f s), s) := rfl

@[simp] theorem run_update (f : S → S) (s : S) : (update f : Script ε S Unit).run s = (.ok (), f s) := rfl

theorem run_change_of_ok {a : α} (h : f s = .ok (a, s')) :
    (change f).run s = (.ok a, s') := by
  show ((f s).map Prod.fst, match f s with
    | .ok (_, s') => s'
    | .error _ => s) = _
  rw [h]
  rfl

theorem run_change_of_error {s : S} {e : ε} (h : f s = .error e) : (change f).run s = (.error e, s) := by
  show ((f s).map Prod.fst, match f s with
    | .ok (_, s') => s'
    | .error _ => s) = _
  rw [h]
  rfl

theorem run_bind_of_ok {a : α} (h : x.run s = (.ok a, s')) : (x >>= g).run s = (g a).run s' := by
  rw [run_bind, h]

theorem run_bind_eq_ok (h : (x >>= g).run s = (.ok b, s')) :
    ∃ a s₁, x.run s = (.ok a, s₁) ∧ (g a).run s₁ = (.ok b, s') := by
  rw [run_bind] at h
  rcases hx : x.run s with ⟨e | _, _⟩
  · rw [hx] at h
    cases h
  · rw [hx] at h
    exact ⟨_, _, rfl, h⟩

theorem run_query_bind (f : S → α) (g : α → Script ε S β) (s : S) : (query f >>= g).run s = (g (f s)).run s := rfl

theorem run_okOr_bind_eq_ok {o : Option α} {e : ε} (h : (okOr o e >>= g).run s = (.ok b, s')) :
    ∃ a, o = some a ∧ (g a).run s = (.ok b, s') := by
  cases o with
  | some a => exact ⟨a, rfl, h⟩
  | none => cases h

theorem run_change_bind_eq_ok (h : (change f >>= g).run s = (.ok b, s')) :
    ∃ a s₁, f s = .ok (a, s₁) ∧ (g a).run s₁ = (.ok b, s') := by
  cases hf : f s with
  | ok r =>
    obtain ⟨_, _⟩ := r
    rw [run_bind_of_ok (run_change_of_ok hf)] at h
    exact ⟨_, _, rfl, h⟩
  | error e =>
    rw [run_bind, run_change_of_error hf] at h
    cases h

theorem run_reject_bind_eq_ok {c : Prop} [Decidable c] {e : ε} {f : Unit → Script ε S β}
    (h : (reject c e >>= f).run s = (.ok b, s')) : ¬ c ∧ (f ()).run s = (.ok b, s') := by
  unfold reject at h
  split at h
  · cases h
  · rename_i hc
    exact ⟨hc, h⟩

/-! ## What scripts write -/

/-- All writes of a script are of a kind. -/
def Writes (G : S → S → Prop) (x : Script ε S α) : Prop := Prog.Writes G x

section Writes

variable {G : S → S → Prop}

theorem writes_pure (a : α) : (pure a : Script ε S α).Writes G := trivial

theorem writes_throw (e : ε) : (throw e : Script ε S α).Writes G := trivial

theorem writes_okOr (o : Option α) (e : ε) : (okOr o e : Script ε S α).Writes G := by
  cases o <;> trivial

theorem writes_query (hrefl : ∀ s, G s s) (f : S → α) : (query f : Script ε S α).Writes G := ⟨hrefl, fun _ => trivial⟩

theorem writes_update {f : S → S} (h : ∀ s, G s (f s)) : (update f : Script ε S Unit).Writes G := ⟨h, fun _ => trivial⟩

theorem writes_change (hrefl : ∀ s, G s s) (h : ∀ {s a s'}, f s = .ok (a, s') → G s s') :
    (change f).Writes G := by
  refine ⟨fun s => ?_, fun _ => trivial⟩
  beta_reduce
  cases hf : f s with
  | ok r => exact h hf
  | error e => exact hrefl s

theorem writes_bind (hx : x.Writes G) (hg : ∀ a, (g a).Writes G) : (x >>= g).Writes G := by
  refine Prog.Writes.bind hx fun r => ?_
  cases r with
  | ok a => exact hg a
  | error e => trivial

theorem writes_ite {c : Prop} [Decidable c] {x y : Script ε S α} (hx : x.Writes G) (hy : y.Writes G) :
    (if c then x else y).Writes G := by
  split
  · exact hx
  · exact hy

end Writes

@[simp] theorem run_ite (c : Prop) [Decidable c] (x y : Script ε S α) (s : S) :
    (if c then x else y).run s = if c then x.run s else y.run s := by
  split <;> rfl

end Script
