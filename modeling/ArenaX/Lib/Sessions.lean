/-
Clients of a database that have a transaction open at times. A statement outside of the transaction is committed at
once. One inside of it sees what is committed by then together with the transaction's own writes; these reach the store
when the transaction is committed, and are lost when it is rolled back. A statement inside may lock rows, which are held
until the transaction ends. A dialog is such a program that can fail.
-/
import ArenaX.Lib.Statements

/-- What a client does, up to the value it returns. -/
inductive Session (S K α : Type) where
  | ret (a : α)
  /-- a statement that is committed at once -/
  | auto (write : S → S) (next : S → Session S K α)
  /-- a statement inside of the transaction, which holds these rows from then on -/
  | stmt (rows : List K) (write : S → S) (next : S → Session S K α)
  | commit (next : Session S K α)
  | rollback (next : Session S K α)

namespace Session

variable {S K α β : Type}

def bind : Session S K α → (α → Session S K β) → Session S K β
  | .ret a, f => f a
  | .auto write next, f => .auto write fun s => (next s).bind f
  | .stmt rows write next, f => .stmt rows write fun s => (next s).bind f
  | .commit next, f => .commit (next.bind f)
  | .rollback next, f => .rollback (next.bind f)

/-- What a client that is alone returns, the writes of its transaction that are still open, and the store. -/
def exec : Session S K α → (S → S) → S → α × (S → S) × S
  | .ret a, pending, s => (a, pending, s)
  | .auto write next, pending, s => (next s).exec pending (write s)
  | .stmt _ write next, pending, s => (next (pending s)).exec (write ∘ pending) s
  | .commit next, pending, s => next.exec id (pending s)
  | .rollback next, _, s => next.exec id s

theorem exec_bind (f : α → Session S K β) : ∀ (x : Session S K α) (pending : S → S) (s : S),
    (x.bind f).exec pending s = (f (x.exec pending s).1).exec (x.exec pending s).2.1 (x.exec pending s).2.2
  | .ret _, _, _ => rfl
  | .auto write next, pending, s => exec_bind f (next s) pending (write s)
  | .stmt _ write next, pending, s => exec_bind f (next (pending s)) (write ∘ pending) s
  | .commit next, pending, s => exec_bind f next id (pending s)
  | .rollback next, _, s => exec_bind f next id s

/-- What a client that is alone returns and leaves behind. -/
def run (x : Session S K α) (s : S) : α × S := ((x.exec id s).1, (x.exec id s).2.2)

end Session

/-- A program whose statements are all committed at once. -/
def Prog.session {S K α : Type} : Prog S α → Session S K α
  | .ret a => .ret a
  | .stmt write next => .auto write fun s => (next s).session

theorem Prog.exec_session {S K α : Type} : ∀ (x : Prog S α) (pending : S → S) (s : S),
    (x.session (K := K)).exec pending s = ((x.run s).1, pending, (x.run s).2)
  | .ret _, _, _ => rfl
  | .stmt write next, pending, s => exec_session (next s) pending (write s)

/-- A client's program that returns a value or fails. -/
def Dialog (ε S K α : Type) := Session S K (Except ε α)

namespace Dialog

variable {ε S K α β : Type}

instance : Monad (Dialog ε S K) where
  pure a := .ret (.ok a)
  bind x f := Session.bind x fun
    | .ok a => f a
    | .error e => .ret (.error e)

def throw (e : ε) : Dialog ε S K α := .ret (.error e)

/-- Fail with `e` when `c` holds. -/
def reject (c : Prop) [Decidable c] (e : ε) : Dialog ε S K Unit := if c then throw e else pure ()

/-- The value, or the error `e`. -/
def okOr (o : Option α) (e : ε) : Dialog ε S K α := match o with
  | some a => pure a
  | none => throw e

/-- A statement that reads, outside of the transaction. -/
def query (f : S → α) : Dialog ε S K α := .auto id fun s => .ret (.ok (f s))

/-- Statements that are all committed at once. -/
def script (x : Script ε S α) : Dialog ε S K α := Prog.session x

/-- Go on after a failure. -/
def attempt (x : Dialog ε S K α) : Dialog ε S K (Except ε α) := Session.bind x fun r => .ret (.ok r)

/-- A statement that reads inside of the transaction. -/
def select (f : S → α) : Dialog ε S K α := .stmt [] id fun s => .ret (.ok (f s))

/-- `SELECT … FOR UPDATE`: the row is locked once no other client holds it. -/
def forUpdate (row : K) : Dialog ε S K Unit := .stmt [row] id fun _ => .ret (.ok ())

/-- A statement that writes inside of the transaction. -/
def write (f : S → S) : Dialog ε S K Unit := .stmt [] f fun _ => .ret (.ok ())

/-- An update of a row inside of the transaction, which locks it. -/
def modify (row : K) (f : S → S) : Dialog ε S K Unit := .stmt [row] f fun _ => .ret (.ok ())

/-- An insertion inside of the transaction; a row with its key must not be there. -/
def insert (key : K) (taken : S → Prop) [DecidablePred taken] (e : ε) (f : S → S) : Dialog ε S K Unit :=
  .stmt [key] (fun s => if taken s then s else f s) fun s => .ret (if taken s then .error e else .ok ())

def commit : Dialog ε S K Unit := Session.commit (.ret (.ok ()))

def rollback : Dialog ε S K Unit := Session.rollback (.ret (.ok ()))

/-- A transaction is rolled back when its client fails. -/
def transaction (x : Dialog ε S K α) : Dialog ε S K α := Session.bind x fun
  | .ok a => .ret (.ok a)
  | .error e => .rollback (.ret (.error e))

/-- What a client that is alone returns, the writes of its transaction that are still open, and the store. -/
def exec (x : Dialog ε S K α) (pending : S → S) (s : S) : Except ε α × (S → S) × S := Session.exec x pending s

/-- What a client that is alone returns and leaves behind. -/
def run (x : Dialog ε S K α) (s : S) : Except ε α × S := Session.run x s

variable {pending : S → S} {s : S} {x : Dialog ε S K α} {f : α → Dialog ε S K β} {e : ε} {p : S → S} {s' : S} {a : α}
  {c : Prop} {taken : S → Prop}

theorem exec_bind (x : Dialog ε S K α) (f : α → Dialog ε S K β) : (x >>= f).exec pending s =
    match x.exec pending s with
    | (.ok a, p, s') => (f a).exec p s'
    | (.error e, p, s') => (.error e, p, s') := by
  refine (Session.exec_bind _ x pending s).trans ?_
  unfold exec
  rcases Session.exec x pending s with ⟨_ | _, _, _⟩ <;> rfl

theorem exec_bind_of_ok
    (h : x.exec pending s = (.ok a, p, s')) : (x >>= f).exec pending s = (f a).exec p s' := by
  rw [exec_bind, h]

theorem exec_bind_of_error
    (h : x.exec pending s = (.error e, p, s')) : (x >>= f).exec pending s = (.error e, p, s') := by
  rw [exec_bind, h]

@[simp] theorem exec_okOr_some (a : α) (e : ε) :
    (okOr (some a) e : Dialog ε S K α).exec pending s = (.ok a, pending, s) := rfl

theorem exec_reject_of [Decidable c] (h : c) :
    (reject c e : Dialog ε S K Unit).exec pending s = (.error e, pending, s) := by
  rw [reject, if_pos h]
  rfl

theorem exec_reject_of_not [Decidable c] (h : ¬ c) :
    (reject c e : Dialog ε S K Unit).exec pending s = (.ok (), pending, s) := by
  rw [reject, if_neg h]
  rfl

@[simp] theorem exec_query (f : S → α) : (query f : Dialog ε S K α).exec pending s = (.ok (f s), pending, s) := rfl

@[simp] theorem exec_select (f : S → α) :
    (select f : Dialog ε S K α).exec pending s = (.ok (f (pending s)), pending, s) :=
  rfl

@[simp] theorem exec_forUpdate (row : K) :
    (forUpdate row : Dialog ε S K Unit).exec pending s = (.ok (), pending, s) := rfl

@[simp] theorem exec_write (f : S → S) : (write f : Dialog ε S K Unit).exec pending s = (.ok (), f ∘ pending, s) := rfl

theorem exec_insert_of_taken {key : K} [DecidablePred taken] {f : S → S} (h : taken (pending s)) :
    (insert key taken e f : Dialog ε S K Unit).exec pending s =
      (.error e, (fun s => if taken s then s else f s) ∘ pending, s) :=
  congrArg (fun r => (r, (fun s => if taken s then s else f s) ∘ pending, s)) (if_pos h)

theorem exec_insert_of_free {key : K} [DecidablePred taken] {f : S → S} (h : ¬ taken (pending s)) :
    (insert key taken e f : Dialog ε S K Unit).exec pending s =
      (.ok (), (fun s => if taken s then s else f s) ∘ pending, s) :=
  congrArg (fun r => (r, (fun s => if taken s then s else f s) ∘ pending, s)) (if_neg h)

@[simp] theorem exec_commit : (commit : Dialog ε S K Unit).exec pending s = (.ok (), id, pending s) := rfl

@[simp] theorem exec_script (x : Script ε S α) :
    (script x : Dialog ε S K α).exec pending s = ((x.run s).1, pending, (x.run s).2) := Prog.exec_session x pending s

theorem exec_transaction_of_ok
    (h : x.exec pending s = (.ok a, p, s')) : (transaction x).exec pending s = (.ok a, p, s') := by
  refine (Session.exec_bind _ x pending s).trans ?_
  have h' : Session.exec x pending s = (.ok a, p, s') := h
  rw [h']
  rfl

theorem run_transaction_of_ok (h : x.exec id s = (.ok a, p, s')) :
    (transaction x).run s = (.ok a, s') := by
  have hexec := exec_transaction_of_ok h
  exact congrArg (fun r : Except ε α × (S → S) × S => (r.1, r.2.2)) hexec

/-- A transaction that fails leaves what it has found outside of it. -/
theorem run_transaction_of_error (h : x.exec id s = (.error e, p, s')) :
    (transaction x).run s = (.error e, s') := by
  have hexec : (transaction x).exec id s = (.error e, id, s') := by
    refine (Session.exec_bind _ x id s).trans ?_
    have h' : Session.exec x id s = (.error e, p, s') := h
    rw [h']
    rfl
  exact congrArg (fun r : Except ε α × (S → S) × S => (r.1, r.2.2)) hexec

/-! ## What a program that has succeeded has done -/

section Ok

variable {p : S → S} {s' : S} {b : β}

theorem exec_bind_eq_ok (h : (x >>= f).exec pending s = (.ok b, p, s')) :
    ∃ a p₁ s₁, x.exec pending s = (.ok a, p₁, s₁) ∧ (f a).exec p₁ s₁ = (.ok b, p, s') := by
  rw [exec_bind] at h
  rcases hx : x.exec pending s with ⟨e | _, _, _⟩
  · rw [hx] at h
    cases h
  · rw [hx] at h
    exact ⟨_, _, _, rfl, h⟩

theorem exec_query_bind (g : S → α) (f : α → Dialog ε S K β) :
    (query g >>= f).exec pending s = (f (g s)).exec pending s := rfl

theorem exec_select_bind (g : S → α) (f : α → Dialog ε S K β) :
    (select g >>= f).exec pending s = (f (g (pending s))).exec pending s := rfl

theorem exec_modify_bind (row : K) (g : S → S) (f : Unit → Dialog ε S K β) :
    (modify row g >>= f).exec pending s = (f ()).exec (g ∘ pending) s := rfl

theorem exec_write_eq_ok {g : S → S} {u : Unit} (h : (write g : Dialog ε S K Unit).exec pending s = (.ok u, p, s')) :
    g ∘ pending = p ∧ s = s' := by
  cases h
  exact ⟨rfl, rfl⟩

theorem exec_reject_eq_ok [Decidable c] {u : Unit}
    (h : (reject c e : Dialog ε S K Unit).exec pending s = (.ok u, p, s')) : ¬ c ∧ pending = p ∧ s = s' := by
  by_cases hc : c
  · rw [reject, if_pos hc] at h
    cases h
  · rw [exec_reject_of_not hc] at h
    cases h
    exact ⟨hc, rfl, rfl⟩

theorem exec_reject_bind_eq_ok [Decidable c] {f : Unit → Dialog ε S K β}
    (h : (reject c e >>= f).exec pending s = (.ok b, p, s')) : ¬ c ∧ (f ()).exec pending s = (.ok b, p, s') := by
  obtain ⟨_, _, _, hreject, hf⟩ := exec_bind_eq_ok h
  obtain ⟨hc, rfl, rfl⟩ := exec_reject_eq_ok hreject
  exact ⟨hc, hf⟩

theorem exec_okOr_bind_eq_ok {o : Option α}
    (h : (okOr o e >>= f).exec pending s = (.ok b, p, s')) : ∃ a, o = some a ∧
      (f a).exec pending s = (.ok b, p, s') := by
  cases o with
  | none => cases h
  | some a => exact ⟨a, rfl, h⟩

theorem exec_insert_bind_eq_ok {key : K} [DecidablePred taken] {g : S → S}
    {f : Unit → Dialog ε S K β} (h : (insert key taken e g >>= f).exec pending s = (.ok b, p, s')) :
    ¬ taken (pending s) ∧ (f ()).exec ((fun s => if taken s then s else g s) ∘ pending) s = (.ok b, p, s') := by
  by_cases htaken : taken (pending s)
  · rw [exec_bind_of_error (exec_insert_of_taken htaken)] at h
    cases h
  · rw [exec_bind_of_ok (exec_insert_of_free htaken)] at h
    exact ⟨htaken, h⟩

theorem exec_transaction_eq_ok (h : (transaction x).exec pending s = (.ok a, p, s')) :
    x.exec pending s = (.ok a, p, s') := by
  have h' := (Session.exec_bind _ x pending s).symm.trans h
  unfold exec
  rcases hx : Session.exec x pending s with ⟨e | b, p₁, s₁⟩
  · rw [hx] at h'
    cases h'
  · rw [hx] at h'
    exact h'

theorem exec_of_run (h : x.run s = (.ok a, s')) : ∃ p, x.exec id s = (.ok a, p, s') := by
  obtain ⟨hvalue, hstore⟩ := Prod.mk.inj h
  exact ⟨_, Prod.ext hvalue (Prod.ext rfl hstore)⟩

end Ok

theorem run_eq (x : Dialog ε S K α) : x.run s = ((x.exec id s).1, (x.exec id s).2.2) := rfl

end Dialog
