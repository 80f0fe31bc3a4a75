/-
Any number of clients that work on one store at the same time. A move starts a call, lets a client make its next
statement, stops a client for good (its open transaction is rolled back, its locks are released), or changes the store
from outside. A client that needs a row another one holds waits.
-/
import ArenaX.Lib.Lists
import ArenaX.Lib.Runs
import ArenaX.Lib.Sessions

/-- A client in the middle of a call: the writes of its open transaction, the rows it holds, what is left to do. -/
structure Client (S K C α : Type) where
  call : C
  pending : S → S
  held : List K
  rest : Session S K α

namespace Client

variable {S K C α : Type}

def begin (call : C) (x : Session S K α) : Client S K C α := ⟨call, id, [], x⟩

/-- The value a call has returned. -/
def result (c : Client S K C α) : Option α := match c.rest with
  | .ret a => some a
  | _ => none

theorem result_of_ne_ret {c : Client S K C α} (h : ∀ a, c.rest ≠ .ret a) : c.result = none := by
  unfold result
  split
  · rename_i a ha
    exact absurd ha (h a)
  · rfl

theorem rest_of_result {c : Client S K C α} {a : α} (h : c.result = some a) : c.rest = .ret a := by
  unfold result at h
  split at h
  · rename_i a' ha
    rw [ha, Option.some.inj h]
  · cases h

/-- A call that has returned holds no rows. -/
def locks (c : Client S K C α) : List K := match c.rest with
  | .ret _ => []
  | _ => c.held

/-- The client's next statement. -/
def step [DecidableEq K] (s : S) (locked : List K) (c : Client S K C α) : Option (S × Client S K C α) :=
  match c.rest with
  | .ret _ => none
  | .auto write next => some (write s, { c with rest := next s })
  | .stmt rows write next =>
    if ∃ row ∈ rows, row ∈ locked then none
    else some (s, { c with pending := write ∘ c.pending, held := rows ++ c.held, rest := next (c.pending s) })
  | .commit next => some (c.pending s, { c with pending := id, held := [], rest := next })
  | .rollback next => some (s, { c with pending := id, held := [], rest := next })

end Client

structure Pool (S K C α : Type) where
  store : S
  clients : List (Client S K C α)

inductive Turn (C X : Type) where
  /-- a call and its first statement -/
  | start (call : C)
  | next (i : ℕ)
  | stop (i : ℕ)
  | other (x : X)
deriving DecidableEq

namespace Pool

variable {S K C X α : Type} [DecidableEq K] {prog : C → Session S K α} {other : S → X → Option S} {p p' : Pool S K C α}

/-- The rows that clients hold. -/
def locked (clients : List (Client S K C α)) : List K := clients.flatMap Client.locks

def move (prog : C → Session S K α) (other : S → X → Option S) (p : Pool S K C α) : Turn C X → Option (Pool S K C α)
  | .start call =>
    ((Client.begin call (prog call)).step p.store (locked p.clients)).map fun r => ⟨r.1, p.clients ++ [r.2]⟩
  | .next i => p.clients[i]?.bind fun c =>
    (c.step p.store (locked (p.clients.eraseIdx i))).map fun r => ⟨r.1, p.clients.set i r.2⟩
  | .stop i => if i < p.clients.length then some ⟨p.store, p.clients.eraseIdx i⟩ else none
  | .other x => (other p.store x).map fun s => ⟨s, p.clients⟩

variable (prog other) in
/-- Calls that overlap in every way. -/
def system (start : S → Prop) : TransitionSystem Unit (Pool S K C α) (Turn C X) where
  init _ p := start p.store ∧ p.clients = []
  step _ := move prog other

/-- Moves that the rule allows, from a store with no clients. -/
theorem reach_of_replay {start : S → Prop} {ok : TransitionSystem.Rule Unit (Pool S K C α) (Turn C X)}
    [∀ e e' p m, Decidable (ok e e' p m)] {s : S} {moves : List (Unit × Turn C X)} {r : Unit × Pool S K C α}
    (h : (system prog other start).replay ok () ⟨s, []⟩ moves = some r)
    (hs : start s) : (system prog other start).Reach ok () r.2 :=
  TransitionSystem.Reach.replay (TransitionSystem.Reach.init ⟨hs, rfl⟩) h

/-- What a move can do: a client among others makes a statement, one that has just been started at the end of the
list. -/
theorem move_cases {m : Turn C X} (h : move prog other p m = some p') :
    (∃ call s' c', m = .start call ∧ (Client.begin call (prog call)).step p.store (locked p.clients) = some (s', c') ∧
      p' = ⟨s', p.clients ++ [c']⟩) ∨
    (∃ i l₁ c l₂ s' c', m = .next i ∧ p.clients = l₁ ++ c :: l₂ ∧ c.step p.store (locked (l₁ ++ l₂)) = some (s', c') ∧
      p' = ⟨s', l₁ ++ c' :: l₂⟩) ∨
    (∃ i l₁ c l₂, m = .stop i ∧ p.clients = l₁ ++ c :: l₂ ∧ p.clients[i]? = some c ∧ p' = ⟨p.store, l₁ ++ l₂⟩) ∨
    (∃ x s', m = .other x ∧ other p.store x = some s' ∧ p' = ⟨s', p.clients⟩) := by
  cases m with
  | start call =>
    obtain ⟨⟨s', c'⟩, hstep, rfl⟩ := Option.map_eq_some_iff.1 h
    exact .inl ⟨call, s', c', rfl, hstep, rfl⟩
  | next i =>
    obtain ⟨_, hc, h⟩ := Option.bind_eq_some_iff.1 h
    obtain ⟨⟨s', _⟩, hstep, rfl⟩ := Option.map_eq_some_iff.1 h
    obtain ⟨l₁, l₂, hl, herase, hset⟩ := List.split_of_getElem? hc
    rw [herase] at hstep
    exact .inr (.inl ⟨i, l₁, _, l₂, s', _, rfl, hl, hstep, by rw [hset]⟩)
  | stop i =>
    obtain ⟨hi, h⟩ := Option.ite_none_right_eq_some.1 h
    obtain rfl := Option.some.inj h
    obtain ⟨_, _, hl, herase, -⟩ := List.split_of_getElem? (List.getElem?_eq_getElem hi)
    exact .inr (.inr (.inl ⟨i, _, _, _, rfl, hl, List.getElem?_eq_getElem hi, by rw [herase]⟩))
  | other x =>
    obtain ⟨_, hs', rfl⟩ := Option.map_eq_some_iff.1 h
    exact .inr (.inr (.inr ⟨x, _, rfl, hs', rfl⟩))

end Pool
