/-
Calls that can fail, over machine arithmetic: a call returns a value or fails, with a declared
error or by a panic, and it remembers whether one of its unchecked operations left the range of its
type. Read with `Mode.wrapping` it is the call of a build that wraps around silently; read with
`Mode.exact` only the calls in which nothing wrapped return. Both readings are monad morphisms to
`Option`, which is where the proofs about calls take place.
-/
import ArenaX.Lib.MachineInt

namespace Machine

/-- How a call fails: with a declared error, or by a panic. -/
inductive Failure (ε : Type) where
  | error (e : ε)
  | panic
deriving DecidableEq

/-- A call that returned `a` (`wrapped`: some unchecked operation left its range), or failed. -/
inductive Exec (ε α : Type) where
  | done (a : α) (wrapped : Bool)
  | fail (f : Failure ε)

/-- The two readings of a call. -/
inductive Mode where
  | wrapping
  | exact
deriving DecidableEq

namespace Exec

variable {ε α β : Type}

/-- A call that follows one in which something wrapped, if `w`. -/
def after (w : Bool) : Exec ε α → Exec ε α
  | .fail f => .fail f
  | .done a w' => .done a (w || w')

instance : Monad (Exec ε) where
  pure a := .done a false
  bind x f := match x with
    | .fail e => .fail e
    | .done a w => (f a).after w

theorem pure_seq (a : α) (f : α → Exec ε β) : (pure a >>= f) = f a := by
  show (f a).after false = f a
  cases f a <;> rfl

/-- The value a call returns, under a reading. -/
def run (m : Mode) : Exec ε α → Option α
  | .fail _ => none
  | .done a w => match m with
    | .wrapping => some a
    | .exact => if w then none else some a

/-- Some unchecked operation of a call that returned left its range. -/
def wrapped : Exec ε α → Bool
  | .fail _ => false
  | .done _ w => w

/-- Fail with a declared error. -/
def throw (e : ε) : Exec ε α := .fail (.error e)

/-- Abort. -/
def panic : Exec ε α := .fail .panic

/-- Fail with `e` when `c` holds. -/
def reject (c : Prop) [Decidable c] (e : ε) : Exec ε Unit := if c then throw e else pure ()

/-- Abort unless `c` holds. -/
def require (c : Prop) [Decidable c] : Exec ε Unit := if c then pure () else panic

/-- The value, or the error `e`. -/
def okOr (o : Option α) (e : ε) : Exec ε α := match o with
  | some a => pure a
  | none => throw e

/-- The value, or a panic. -/
def unwrap (o : Option α) : Exec ε α := match o with
  | some a => pure a
  | none => panic

/-- Catch a declared error. -/
def ok? : Exec ε α → Exec ε (Option α)
  | .done a w => .done (some a) w
  | .fail (.error _) => .done none false
  | .fail .panic => .fail .panic

/-- An unchecked operation with the exact result `x`: it wraps around. -/
def unchecked (t : IntType) (x : Int) : Exec ε t.Val := .done (t.wrap x) (!decide (t.Fits x))

/-- Truncating division: a zero divisor and an unrepresentable quotient abort in every build. -/
def quot (t : IntType) (x d : Int) : Exec ε t.Val := if d = 0 then panic else unwrap (t.checked (x.tdiv d))

/-! ## The readings are monad morphisms -/

variable (m : Mode) {x : Exec ε α} {t : IntType} {f : α → Exec ε β}

@[simp] theorem run_pure (a : α) : (pure a : Exec ε α).run m = some a := by cases m <;> rfl

@[simp] theorem run_done (a : α) (w : Bool) :
    (.done a w : Exec ε α).run m = if m = .exact ∧ w = true then none else some a := by
  cases m <;> cases w <;> rfl

@[simp] theorem run_fail (f : Failure ε) : (.fail f : Exec ε α).run m = none := rfl

theorem run_after (w : Bool) (x : Exec ε α) :
    (x.after w).run m = if m = .exact ∧ w = true then none else x.run m := by
  cases x with
  | fail f => simp [after]
  | done a w' => cases m <;> cases w <;> cases w' <;> rfl

@[simp] theorem run_bind (x : Exec ε α) (f : α → Exec ε β) :
    (x >>= f).run m = (x.run m).bind fun a => (f a).run m := by
  cases x with
  | fail e => rfl
  | done a w =>
    show ((f a).after w).run m = _
    rw [run_after, run_done]
    split <;> rfl

@[simp] theorem run_map (f : α → β) (x : Exec ε α) : (f <$> x).run m = (x.run m).map f := by
  show (x >>= fun a => pure (f a)).run m = _
  rw [run_bind, Option.map_eq_bind]
  congr 1; funext a; exact run_pure m (f a)

@[simp] theorem run_throw (e : ε) : (throw e : Exec ε α).run m = none := rfl

@[simp] theorem run_panic : (panic : Exec ε α).run m = none := rfl

@[simp] theorem run_ite (c : Prop) [Decidable c] (x y : Exec ε α) :
    (if c then x else y).run m = if c then x.run m else y.run m := apply_ite _ _ _ _

/-- A sequence returns if both parts do. -/
theorem run_bind_iff {b : β} :
    (x >>= f).run m = some b ↔ ∃ a, x.run m = some a ∧ (f a).run m = some b := by
  rw [run_bind, Option.bind_eq_some_iff]

theorem run_pure_iff {a b : α} : (pure a : Exec ε α).run m = some b ↔ a = b := by rw [run_pure, Option.some.injEq]

@[simp] theorem run_reject (c : Prop) [Decidable c] (e : ε) (u : Unit) :
    (reject c e).run m = some u ↔ ¬ c := by
  unfold reject; by_cases h : c <;> simp [h]

@[simp] theorem run_require (c : Prop) [Decidable c] (u : Unit) :
    (require c : Exec ε Unit).run m = some u ↔ c := by
  unfold require; by_cases h : c <;> simp [h]

@[simp] theorem run_okOr (o : Option α) (e : ε) : (okOr o e).run m = o := by
  cases o <;> simp [okOr]

@[simp] theorem run_unwrap (o : Option α) : (unwrap o : Exec ε α).run m = o := by
  cases o <;> simp [unwrap]

@[simp] theorem run_unchecked (t : IntType) (x : Int) (y : t.Val) :
    (unchecked t x : Exec ε t.Val).run m = some y ↔ y = t.wrap x ∧ (m = .exact → t.Fits x) := by
  unfold unchecked
  by_cases h : t.Fits x
  · simp [h, eq_comm]
  · cases m <;> simp [h, eq_comm]

/-- Where nothing wraps, an unchecked operation is exact. -/
theorem run_unchecked_exact {x : Int} {y : t.Val} :
    (unchecked t x : Exec ε t.Val).run .exact = some y ↔ (y : Int) = x := by
  rw [run_unchecked]
  constructor
  · rintro ⟨rfl, h⟩; exact wrap_of_fits (h rfl)
  · rintro rfl; exact ⟨(wrap_toInt y).symm, fun _ => y.fits⟩

theorem unchecked_wrapping (t : IntType) (x : Int) : (unchecked t x : Exec ε t.Val).run .wrapping = some (t.wrap x) :=
  rfl

/-- In a build without overflow checks, an unchecked operation always succeeds. -/
theorem run_unchecked_wrapping {x : Int} {y : t.Val} :
    (unchecked t x : Exec ε t.Val).run .wrapping = some y ↔ y = t.wrap x := by
  rw [run_unchecked]
  exact and_iff_left fun h => by cases h

@[simp] theorem run_quot (t : IntType) (x d : Int) (y : t.Val) :
    (quot t x d : Exec ε t.Val).run m = some y ↔ d ≠ 0 ∧ (y : Int) = x.tdiv d := by
  unfold quot
  by_cases h : d = 0
  · simp [h]
  · simp [h]

/-- The rules that take a run that returns apart, statement by statement, for `simp`. -/
theorem run_iff {m : Mode} :
    (∀ {α β} {x : Exec ε α} {f : α → Exec ε β} {b}, (x >>= f).run m = some b ↔
      ∃ a, x.run m = some a ∧ (f a).run m = some b) ∧
    (∀ {α} {a b : α}, (pure a : Exec ε α).run m = some b ↔ a = b) ∧
    (∀ (e : ε) c [Decidable c] u, (reject c e).run m = some u ↔ ¬ c) ∧
    ∀ {α} (o : Option α) (e : ε), (okOr o e).run m = o :=
  ⟨run_bind_iff m, run_pure_iff m, fun e c _ => run_reject m c e, run_okOr m⟩

/-- Where nothing wrapped, the two readings agree. -/
theorem run_exact_of_wrapping {a : α} (hw : x.wrapped = false) (h : x.run .wrapping = some a) :
    x.run .exact = some a := by
  cases x with
  | fail f => cases h
  | done b w => cases hw; exact h

/-- A loop of checks passes when every check does. -/
theorem run_forM (f : α → Exec ε Unit) :
    ∀ (l : List α) (u : Unit), (l.forM f).run m = some u ↔ ∀ a ∈ l, (f a).run m = some ()
  | [], u => by simp [List.forM]
  | a :: l, u => by
    rw [List.forM, run_bind_iff, List.forall_mem_cons]
    constructor
    · rintro ⟨⟨⟩, ha, hl⟩
      exact ⟨ha, (run_forM f l u).1 hl⟩
    · rintro ⟨ha, hl⟩
      exact ⟨(), ha, (run_forM f l u).2 hl⟩

/-- A loop invariant over the rest of the list. -/
theorem foldlM_inv {f : β → α → Exec ε β} (P : List α → β → Prop)
    (hf : ∀ a l b b', P (a :: l) b → (f b a).run m = some b' → P l b') :
    ∀ {l : List α} {b r : β}, P l b → (l.foldlM f b).run m = some r → P [] r
  | [], b, r, hb, h => by
    rw [List.foldlM_nil, run_pure] at h
    cases h; exact hb
  | a :: l, b, r, hb, h => by
    rw [List.foldlM_cons, run_bind] at h
    obtain ⟨b', h1, h2⟩ := Option.bind_eq_some_iff.1 h
    exact foldlM_inv P hf (hf a l b b' hb h1) h2

/-- A loop of unchecked additions returns the wrapped sum. -/
theorem run_foldlM_unchecked {m : Mode} (f : α → Int) :
    ∀ {l : List α} {b r : t.Val}, (l.foldlM (fun b a => unchecked t (b + f a)) b : Exec ε t.Val).run m = some r →
      r = t.wrap (b + (l.map f).sum)
  | [], b, r, h => by
    rw [List.foldlM_nil, run_pure] at h
    cases h
    simp
  | a :: l, b, r, h => by
    rw [List.foldlM_cons, run_bind] at h
    obtain ⟨b', hb, h⟩ := Option.bind_eq_some_iff.1 h
    cases ((run_unchecked m t _ _).1 hb).1
    rw [run_foldlM_unchecked f h, wrap_wrap_add, List.map_cons, List.sum_cons, add_assoc]

/-- A loop of unchecked additions of what is not negative is exact, if the sum is representable. -/
theorem run_foldlM_unchecked_of_le {m : Mode} {f : α → Int} :
    ∀ {l : List α} {b : t.Val}, (∀ a ∈ l, 0 ≤ f a) → (b : Int) + (l.map f).sum ≤ t.max →
      ∃ r : t.Val, (l.foldlM (fun b a => unchecked t (b + f a)) b : Exec ε t.Val).run m = some r ∧
        (r : Int) = b + (l.map f).sum
  | [], b, _, _ => ⟨b, run_pure m b, by simp⟩
  | a :: l, b, hf, hmax => by
    obtain ⟨ha, hf⟩ := List.forall_mem_cons.1 hf
    have hsum : 0 ≤ (l.map f).sum := List.sum_nonneg (by simpa using hf)
    have hlo := b.lo
    rw [List.map_cons, List.sum_cons] at hmax ⊢
    have hfits : t.Fits (b + f a) := ⟨by omega, by omega⟩
    have hval := wrap_of_fits hfits
    obtain ⟨r, hr, hsum⟩ := run_foldlM_unchecked_of_le (m := m) (b := t.wrap (b + f a)) hf (by omega)
    refine ⟨r, ?_, by omega⟩
    rw [List.foldlM_cons, run_bind, (run_unchecked m t _ _).2 ⟨rfl, fun _ => hfits⟩]
    exact hr

/-- A call in which nothing wrapped returns the same in a build that wraps. -/
theorem run_wrapping_of_exact {a : α} (h : x.run .exact = some a) : x.run .wrapping = some a := by
  cases x with
  | fail f => cases h
  | done b w => cases w with
    | false => exact h
    | true => cases h

theorem run_of_exact {a : α} (h : x.run .exact = some a) : ∀ m, x.run m = some a
  | .exact => h
  | .wrapping => run_wrapping_of_exact h

/-! ## Postconditions -/

/-- Every value the call returns satisfies `P`. -/
def Ensures (x : Exec ε α) (P : α → Prop) : Prop := ∀ a, x.run m = some a → P a

variable {m} {P : α → Prop} {Q : β → Prop}

theorem Ensures.pure {a : α} (h : P a) : Ensures m (pure a : Exec ε α) P := by
  intro b hb
  rw [run_pure] at hb
  cases hb; exact h

theorem Ensures.bind (h : ∀ a, x.run m = some a → Ensures m (f a) Q) :
    Ensures m (x >>= f) Q := by
  intro b hb
  rw [run_bind] at hb
  obtain ⟨a, ha, hb⟩ := Option.bind_eq_some_iff.1 hb
  exact h a ha b hb

/-- A call whose first part is itself taken apart. -/
theorem Ensures.seq (h : Ensures m x fun a => Ensures m (f a) Q) : Ensures m (x >>= f) Q := .bind h

theorem Ensures.ite {c : Prop} [Decidable c] {x y : Exec ε α} (hx : c → Ensures m x P) (hy : ¬ c → Ensures m y P) :
    Ensures m (if c then x else y) P := by
  split
  · exact hx ‹_›
  · exact hy ‹_›

theorem Ensures.map {f : α → β} (h : Ensures m x fun a => Q (f a)) : Ensures m (f <$> x) Q := by
  intro b hb
  rw [run_map] at hb
  obtain ⟨a, ha, rfl⟩ := Option.map_eq_some_iff.1 hb
  exact h a ha

/-- A guard, and a value that does not depend on it. -/
theorem run_then_pure {x : Exec ε Unit} {a b : α} (h : (x >>= fun _ => pure a).run m = some b) :
    x.run m = some () ∧ a = b := by
  obtain ⟨_, hx, hb⟩ := (run_bind_iff m).1 h
  exact ⟨hx, (run_pure_iff m).1 hb⟩

theorem run_snd_map {x : Exec ε (α × β)} {b : β} (h : (Prod.snd <$> x).run m = some b) :
    ∃ a, x.run m = some (a, b) := by
  rw [run_map] at h
  obtain ⟨⟨a, _⟩, ha, rfl⟩ := Option.map_eq_some_iff.1 h
  exact ⟨a, ha⟩

/-! ## Declared errors -/

section Errors

variable {e : ε}

/-- The declared error a call fails with. -/
def error? : Exec ε α → Option ε
  | .fail (.error e) => some e
  | _ => none

theorem error?_bind_iff :
    (x >>= f).error? = some e ↔ x.error? = some e ∨ ∃ a, x.run .wrapping = some a ∧ (f a).error? = some e := by
  cases x with
  | fail e' =>
    have hfail : (.fail e' >>= f : Exec ε β).error? = (.fail e' : Exec ε α).error? := by cases e' <;> rfl
    rw [hfail]
    exact ⟨Or.inl, fun h => h.resolve_right (by rintro ⟨a, ⟨⟩, -⟩)⟩
  | done a w =>
    have hafter : ((f a).after w).error? = (f a).error? := by cases f a <;> rfl
    refine ⟨fun h => Or.inr ⟨a, rfl, hafter ▸ h⟩, ?_⟩
    rintro (h | ⟨_, ⟨⟩, h⟩)
    · cases h
    · exact hafter.trans h

theorem error?_pure {a : α} : (pure a : Exec ε α).error? ≠ some e := nofun

theorem error?_reject {c : Prop} [Decidable c] {e' : ε} : (reject c e').error? = some e ↔ c ∧ e' = e := by
  by_cases h : c <;> simp [reject, h, throw, error?, pure]

theorem error?_okOr {o : Option α} {e' : ε} : (okOr o e').error? = some e ↔ o = none ∧ e' = e := by
  cases o <;> simp [okOr, throw, error?, pure]

theorem error?_quot {x d : ℤ} : (quot t x d : Exec ε t.Val).error? ≠ some e := by
  unfold quot unwrap
  split
  · nofun
  · split <;> nofun

theorem error?_unchecked {x : ℤ} : (unchecked t x : Exec ε t.Val).error? ≠ some e := nofun

theorem error?_ok : x.ok?.error? ≠ some e := by
  rcases x with ⟨a, w⟩ | (e' | -) <;> nofun

end Errors

end Exec

end Machine
