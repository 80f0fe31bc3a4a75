/-
Reasoning about one client at a time. While a client works, the others may change the store only in a way that respects
the rows it holds and the things that are its own for the whole call. A thing that can be owned has an invariant; its
owner finds the invariant, may break it, and restores it before it returns. A client is safe when, whatever the others
do in between, each of its own changes respects what is not its own. When every call is safe, every run changes the
store as the relation allows, a call that has returned has kept its promise, and the invariants hold of all things that
nobody at work owns.
-/
import ArenaX.Lib.Interleaving

/-- How the store may change in the eyes of a client with things of its own and rows it holds. -/
structure Rely (O K S : Type) where
  rel : List O → List K → S → S → Prop
  refl : ∀ o held s, rel o held s s
  trans : ∀ {o held s s' s''}, rel o held s s' → rel o held s' s'' → rel o held s s''
  /-- what holds of a thing that nobody owns -/
  inv : O → S → Prop := fun _ _ => True
  kept : ∀ {x s s'}, rel [x] [] s s' → inv x s → inv x s' := by exact fun _ _ => trivial

namespace Rely

variable {O K S C X α β : Type} (R : Rely O K S)

/-- A change that respects everything but these. -/
def Guar (o : List O) (held : List K) (s s' : S) : Prop :=
  ∀ o' held', o'.Disjoint o → held'.Disjoint held → R.rel o' held' s s'

/-- What has to hold of a client's program: whatever the others do, its changes respect what is not its own, and it ends
as `Q` says of its value, the writes of its transaction that are still open, the rows it holds and the store. -/
def Wp (Q : α → (S → S) → List K → S → Prop) (o : List O) : Session S K α → (S → S) → List K → S → Prop
  | .ret a, pending, held, s => Q a pending held s
  | .auto write next, pending, held, s => ∀ s', R.rel o held s s' →
      R.Guar o held s' (write s') ∧ Wp Q o (next s') pending held (write s')
  | .stmt rows write next, pending, held, s => ∀ s', R.rel o held s s' →
      Wp Q o (next (pending s')) (write ∘ pending) (rows ++ held) s'
  | .commit next, pending, held, s => ∀ s', R.rel o held s s' →
      R.Guar o held s' (pending s') ∧ Wp Q o next id [] (pending s')
  | .rollback next, _, held, s => ∀ s', R.rel o held s s' → Wp Q o next id [] s'

/-- A client whose changes respect what is not its own, whose value is as promised from then on, and that leaves its
things as they have to be. -/
abbrev Safe (post : α → S → Prop) (o : List O) (x : Session S K α) (pending : S → S) (held : List K) (s : S) : Prop :=
  R.Wp (fun a _ _ s => (∀ s', R.rel [] [] s s' → post a s') ∧ ∀ x ∈ o, R.inv x s) o x pending held s

variable {R} {post : α → S → Prop} {o : List O} {pending : S → S} {held : List K} {s s' : S}

theorem Guar.rel (h : R.Guar o held s s') :
    R.rel [] [] s s' := h [] [] (List.disjoint_nil_left o) (List.disjoint_nil_left held)

/-- A client that has more to do stays safe when the others move. -/
theorem Safe.mono {x : Session S K α} (h : R.Safe post o x pending held s) (hx : ∀ a, x ≠ .ret a)
    (hs : R.rel o held s s') : R.Safe post o x pending held s' := by
  cases x with
  | ret a => exact absurd rfl (hx a)
  | auto write next => exact fun t ht => h t (R.trans hs ht)
  | stmt rows write next => exact fun t ht => h t (R.trans hs ht)
  | commit next => exact fun t ht => h t (R.trans hs ht)
  | rollback next => exact fun t ht => h t (R.trans hs ht)

theorem Guar.inv {x : O} (h : R.Guar o held s s') (hx : x ∉ o) (hinv : R.inv x s) : R.inv x s' :=
  R.kept (h [x] [] (List.singleton_disjoint.2 hx) (List.disjoint_nil_left held)) hinv

/-! ## Rules for programs -/

section Rules

variable {ε : Type} {Q Q' : α → (S → S) → List K → S → Prop} {e : ε} {g : S → S}

theorem guar_refl (s : S) : R.Guar o held s s := fun o' held' _ _ => R.refl o' held' s

theorem Wp.imp (hQ : ∀ a pending held s, Q a pending held s → Q' a pending held s) :
    ∀ {x : Session S K α} {pending held s}, R.Wp Q o x pending held s → R.Wp Q' o x pending held s
  | .ret _, _, _, _, h => hQ _ _ _ _ h
  | .auto _ _, _, _, _, h => fun s' hs' => ⟨(h s' hs').1, (h s' hs').2.imp hQ⟩
  | .stmt _ _ _, _, _, _, h => fun s' hs' => (h s' hs').imp hQ
  | .commit _, _, _, _, h => fun s' hs' => ⟨(h s' hs').1, (h s' hs').2.imp hQ⟩
  | .rollback _, _, _, _, h => fun s' hs' => (h s' hs').imp hQ

theorem Wp.bind {f : α → Session S K β} {Q : β → (S → S) → List K → S → Prop} :
    ∀ {x : Session S K α} {pending held s}, R.Wp (fun a pending held s => R.Wp Q o (f a) pending held s)
      o x pending held s → R.Wp Q o (x.bind f) pending held s
  | .ret _, _, _, _, h => h
  | .auto _ _, _, _, _, h => fun s' hs' => ⟨(h s' hs').1, (h s' hs').2.bind⟩
  | .stmt _ _ _, _, _, _, h => fun s' hs' => (h s' hs').bind
  | .commit _, _, _, _, h => fun s' hs' => ⟨(h s' hs').1, (h s' hs').2.bind⟩
  | .rollback _, _, _, _, h => fun s' hs' => (h s' hs').bind

/-- What a client that is alone does. -/
theorem Wp.rel_exec :
    ∀ {x : Session S K α} {pending held s}, R.Wp Q o x pending held s → R.rel [] [] s (x.exec pending s).2.2
  | .ret _, _, _, s, _ => R.refl [] [] s
  | .auto _ _, _, _, s, h => R.trans (h s (R.refl _ _ s)).1.rel (h s (R.refl _ _ s)).2.rel_exec
  | .stmt _ _ _, _, _, s, h => (h s (R.refl _ _ s)).rel_exec
  | .commit _, _, _, s, h => R.trans (h s (R.refl _ _ s)).1.rel (h s (R.refl _ _ s)).2.rel_exec
  | .rollback _, _, _, s, h => (h s (R.refl _ _ s)).rel_exec

/-- Statements outside of the transaction, whose changes are allowed as long as an invariant holds that the others
keep. -/
theorem wp_session {I : S → Prop} {G : S → S → Prop} (hI : ∀ {s s'}, I s → R.rel o held s s' → I s')
    (hG : ∀ {s s'}, I s → G s s' → R.Guar o held s s' ∧ I s') (hQ : ∀ a s, I s → Q a pending held s) :
    ∀ {x : Prog S α} {s}, x.Writes G → I s → R.Wp Q o (x.session (K := K)) pending held s
  | .ret a, s, _, hs => hQ a s hs
  | .stmt _ _, _, hx, hs => fun s' hs' =>
    ⟨(hG (hI hs hs') (hx.1 s')).1, wp_session hI hG hQ (hx.2 s') (hG (hI hs hs') (hx.1 s')).2⟩

section Dialog

open Dialog

variable (R) in
/-- `Wp` for programs that can fail. -/
abbrev Ends (Q : Except ε α → (S → S) → List K → S → Prop) (o : List O) (x : Dialog ε S K α) (pending : S → S)
    (held : List K) (s : S) : Prop := R.Wp Q o x pending held s

variable {Q : Except ε β → (S → S) → List K → S → Prop} {Q' : Except ε Unit → (S → S) → List K → S → Prop}
  {f : α → Dialog ε S K β} {next : Unit → Dialog ε S K β}

theorem wp_bind {x : Dialog ε S K α} (h : R.Ends (fun (r : Except ε α) pending held s => match r with
      | .ok a => R.Ends Q o (f a) pending held s
      | .error e => Q (.error e) pending held s) o x pending held s) : R.Ends Q o (x >>= f) pending held s := by
  refine Wp.bind (h.imp fun r pending held s hr => ?_)
  cases r with
  | ok a => exact hr
  | error e => exact hr

theorem wp_query_bind {g : S → α} (h : ∀ s', R.rel o held s s' → R.Ends Q o (f (g s')) pending held s') :
    R.Ends Q o (query g >>= f) pending held s := fun s' hs' => ⟨guar_refl s', h s' hs'⟩

theorem wp_select_bind {g : S → α} (h : ∀ s', R.rel o held s s' → R.Ends Q o (f (g (pending s'))) pending held s') :
    R.Ends Q o (select g >>= f) pending held s := h

theorem wp_forUpdate_bind {row : K} (h : ∀ s', R.rel o held s s' → R.Ends Q o (next ()) pending (row :: held) s') :
    R.Ends Q o (forUpdate row >>= next) pending held s := h

theorem wp_write_bind (h : ∀ s', R.rel o held s s' → R.Ends Q o (next ()) (g ∘ pending) held s') :
    R.Ends Q o (write g >>= next) pending held s := h

theorem wp_modify_bind {row : K}
    (h : ∀ s', R.rel o held s s' → R.Ends Q o (next ()) (g ∘ pending) (row :: held) s') :
    R.Ends Q o (modify row g >>= next) pending held s := h

theorem wp_insert_bind {key : K} {taken : S → Prop} [DecidablePred taken]
    (htaken : ∀ s', R.rel o held s s' → taken (pending s') →
      Q (.error e) ((fun s => if taken s then s else g s) ∘ pending) (key :: held) s')
    (hfree : ∀ s', R.rel o held s s' → ¬ taken (pending s') →
      R.Ends Q o (next ()) ((fun s => if taken s then s else g s) ∘ pending) (key :: held) s') :
    R.Ends Q o (insert key taken e g >>= next) pending held s := by
  refine wp_bind (x := insert key taken e g) fun s' hs' => ?_
  beta_reduce
  by_cases h : taken (pending s')
  · rw [if_pos h]
    exact htaken s' hs' h
  · rw [if_neg h]
    exact hfree s' hs' h

theorem wp_okOr_bind {a : Option α} (hnone : Q (.error e) pending held s)
    (hsome : ∀ x, a = some x → R.Ends Q o (f x) pending held s) : R.Ends Q o (okOr a e >>= f) pending held s := by
  cases a with
  | none => exact hnone
  | some x => exact hsome x rfl

theorem wp_reject_bind {c : Prop} [Decidable c] (hc : Q (.error e) pending held s)
    (hnot : ¬ c → R.Ends Q o (next ()) pending held s) : R.Ends Q o (reject c e >>= next) pending held s := by
  unfold reject
  split
  · exact hc
  · rename_i h
    exact hnot h

theorem wp_reject {c : Prop} [Decidable c] (hc : Q' (.error e) pending held s)
    (hnot : ¬ c → Q' (.ok ()) pending held s) :
    R.Ends Q' o (reject c e : Dialog ε S K Unit) pending held s := by
  unfold reject
  split
  · exact hc
  · rename_i h
    exact hnot h

theorem wp_commit (h : ∀ s', R.rel o held s s' → R.Guar o held s' (pending s') ∧ Q' (.ok ()) id [] (pending s')) :
    R.Ends Q' o (commit : Dialog ε S K Unit) pending held s := h

theorem wp_rollback (h : ∀ s', R.rel o held s s' → Q' (.ok ()) id [] s') :
    R.Ends Q' o (rollback : Dialog ε S K Unit) pending held s := h

theorem wp_script_bind {I : S → Prop} {G : S → S → Prop} (hI : ∀ {s s'}, I s → R.rel o held s s' → I s')
    (hG : ∀ {s s'}, I s → G s s' → R.Guar o held s s' ∧ I s') {x : Script ε S α} (hx : x.Writes G) (hs : I s)
    (herror : ∀ e s, I s → Q (.error e) pending held s) (hok : ∀ a s, I s → R.Ends Q o (f a) pending held s) :
    R.Ends Q o (script x >>= f) pending held s := by
  refine wp_bind (wp_session hI hG (fun r s hs => ?_) hx hs)
  cases r with
  | ok a => exact hok a s hs
  | error e => exact herror e s hs

theorem wp_attempt_bind {x : Dialog ε S K α} {f : Except ε α → Dialog ε S K β}
    (h : R.Ends (fun r pending held s => R.Ends Q o (f r) pending held s) o x pending held s) :
    R.Ends Q o (attempt x >>= f) pending held s := wp_bind (x := attempt x) (Wp.bind h)

theorem wp_transaction {x : Dialog ε S K β} (h : R.Ends (fun (r : Except ε β) pending held s => match r with
      | .ok a => Q (.ok a) pending held s
      | .error e => ∀ s', R.rel o held s s' → Q (.error e) id [] s') o x pending held s) :
    R.Ends Q o (transaction x) pending held s := by
  refine Wp.bind (h.imp fun r pending held s hr => ?_)
  cases r with
  | ok a => exact hr
  | error e => exact hr

end Dialog

section Script

open Script

variable (R) in
/-- `Wp` for scripts: all statements are committed at once. -/
abbrev Runs (Q : Except ε α → S → Prop) (o : List O) (x : Script ε S α) (s : S) : Prop :=
  R.Wp (fun r _ _ s => Q r s) o (Prog.session x) id [] s

variable {Q : Except ε β → S → Prop} {f : α → Script ε S β}

theorem runs_bind : ∀ {x : Script ε S α} {s : S}, R.Runs (fun (r : Except ε α) s => match r with
      | .ok a => R.Runs Q o (f a) s
      | .error e => Q (.error e) s) o x s → R.Runs Q o (x >>= f) s
  | .ret (.ok _), _, h => h
  | .ret (.error _), _, h => h
  | .stmt _ next, _, h => fun s' hs' => ⟨(h s' hs').1, runs_bind (x := next s') (h s' hs').2⟩

theorem runs_query_bind {g : S → α} (h : ∀ s', R.rel o [] s s' → R.Runs Q o (f (g s')) s') :
    R.Runs Q o (query g >>= f) s :=
  fun s' hs' => ⟨guar_refl s', h s' hs'⟩

theorem runs_update_bind {f : Unit → Script ε S β}
    (h : ∀ s', R.rel o [] s s' → R.Guar o [] s' (g s') ∧ R.Runs Q o (f ()) (g s')) : R.Runs Q o (update g >>= f) s := h

theorem runs_okOr_bind {a : Option α} (hnone : a = none → Q (.error e) s)
    (hsome : ∀ x, a = some x → R.Runs Q o (f x) s) : R.Runs Q o (okOr a e >>= f) s := by
  cases a with
  | none => exact hnone rfl
  | some x => exact hsome x rfl

theorem runs_reject_bind {c : Prop} [Decidable c] {f : Unit → Script ε S β} (hc : c → Q (.error e) s)
    (hnot : ¬ c → R.Runs Q o (f ()) s) : R.Runs Q o (reject c e >>= f) s := by
  unfold reject
  split
  · rename_i h
    exact hc h
  · rename_i h
    exact hnot h

/-- A statement that may be refused. -/
theorem runs_change_bind {g : S → Except ε (α × S)}
    (herror : ∀ s' e, R.rel o [] s s' → g s' = .error e → Q (.error e) s')
    (hok : ∀ s' a s'', R.rel o [] s s' → g s' = .ok (a, s'') → R.Guar o [] s' s'' ∧ R.Runs Q o (f a) s'') :
    R.Runs Q o (change g >>= f) s := by
  refine runs_bind (x := change g) fun s' hs' => ?_
  beta_reduce
  rcases hg : g s' with e | ⟨a, s''⟩
  · exact ⟨guar_refl s', herror s' e hs' hg⟩
  · exact hok s' a s'' hs' hg

end Script

end Rules

/-! ## Pools of safe clients -/

section Pool

variable {promise : C → α → S → Prop} {own : C → List O} {c c' : Client S K C α}

variable (own) in
/-- Two clients that are not done share nothing. -/
def Apart (c c' : Client S K C α) : Prop :=
  (∀ a, c.rest ≠ .ret a) → (∀ a, c'.rest ≠ .ret a) → (own c.call).Disjoint (own c'.call) ∧ c.held.Disjoint c'.held

theorem Apart.symm (h : Apart own c c') : Apart own c' c :=
  fun hc hc' => ⟨(h hc' hc).1.symm, (h hc' hc).2.symm⟩

variable (R promise own) in
/-- A client at work is safe; one that has returned has kept its promise. -/
structure SafeClient (c : Client S K C α) (s : S) : Prop where
  returned : ∀ a, c.rest = .ret a → ∀ s', R.rel [] [] s s' → promise c.call a s'
  working : (∀ a, c.rest ≠ .ret a) → R.Safe (promise c.call) (own c.call) c.rest c.pending c.held s

theorem SafeClient.of_safe (h : R.Safe (promise c.call) (own c.call) c.rest c.pending c.held s) :
    R.SafeClient promise own c s := by
  refine ⟨fun a ha => ?_, fun _ => h⟩
  rw [ha] at h
  exact h.1

/-- A change by one client leaves the others safe. -/
theorem SafeClient.of_guar {o : List O} (h : R.SafeClient promise own c s) (hguar : R.Guar o held s s')
    (hapart : (∀ a, c.rest ≠ .ret a) → (own c.call).Disjoint o ∧ c.held.Disjoint held) :
    R.SafeClient promise own c s' := by
  refine ⟨fun a ha s'' hs'' => h.returned a ha s'' (R.trans hguar.rel hs''), fun hc => ?_⟩
  exact (h.working hc).mono hc (hguar _ _ (hapart hc).1 (hapart hc).2)

theorem mem_locks (hc : ∀ a, c.rest ≠ .ret a) : c.locks = c.held := by
  unfold Client.locks
  split
  · rename_i a ha
    exact absurd ha (hc a)
  · rfl

variable [DecidableEq K]

/-- What a safe client's statement does to the store, to itself and to its locks. -/
theorem SafeClient.step {locked : List K} (h : R.SafeClient promise own c s) (hstep : c.step s locked = some (s', c')) :
    c'.call = c.call ∧ (∀ a, c.rest ≠ .ret a) ∧ R.Guar (own c.call) c.held s s' ∧
      R.Safe (promise c'.call) (own c'.call) c'.rest c'.pending c'.held s' ∧
      ∀ row ∈ c'.held, row ∈ c.held ∨ row ∉ locked := by
  have hrefl : R.Guar (own c.call) c.held s s := fun _ _ _ _ => R.refl _ _ s
  obtain ⟨call, pending, held, rest⟩ := c
  have hsafe := h.working
  cases rest with
  | ret a => cases hstep
  | auto write next =>
    cases hstep
    obtain ⟨hguar, hnext⟩ := hsafe (by simp) s (R.refl _ _ s)
    exact ⟨rfl, by simp, hguar, hnext, fun row hrow => .inl hrow⟩
  | stmt rows write next =>
    obtain ⟨hfree, hstep⟩ := Option.ite_none_left_eq_some.1 hstep
    cases hstep
    refine ⟨rfl, by simp, hrefl, hsafe (by simp) s (R.refl _ _ s), fun row hrow => ?_⟩
    rcases List.mem_append.1 hrow with hrow | hrow
    · exact .inr fun hlocked => hfree ⟨row, hrow, hlocked⟩
    · exact .inl hrow
  | commit next =>
    cases hstep
    obtain ⟨hguar, hnext⟩ := hsafe (by simp) s (R.refl _ _ s)
    exact ⟨rfl, by simp, hguar, hnext, fun row hrow => by cases hrow⟩
  | rollback next =>
    cases hstep
    exact ⟨rfl, by simp, hrefl, hsafe (by simp) s (R.refl _ _ s), fun row hrow => by cases hrow⟩

variable (own) in
/-- No client at work owns it. -/
def Free (clients : List (Client S K C α)) (x : O) : Prop := ∀ c ∈ clients, (∀ a, c.rest ≠ .ret a) → x ∉ own c.call

variable (R promise own) in
/-- All clients are safe and share nothing; what nobody owns is as it has to be. -/
structure SafePool (s : S) (clients : List (Client S K C α)) : Prop where
  apart : clients.Pairwise (Apart own)
  safe : ∀ c ∈ clients, R.SafeClient promise own c s
  inv : ∀ x, Free own clients x → R.inv x s

variable {l₁ l₂ : List (Client S K C α)}

theorem SafePool.step (h : R.SafePool promise own s (l₁ ++ c :: l₂))
    (hstep : c.step s (Pool.locked (l₁ ++ l₂)) = some (s', c')) :
    R.rel [] [] s s' ∧ R.SafePool promise own s' (l₁ ++ c' :: l₂) := by
  have happart := (List.pairwise_middle fun h => Apart.symm h).1 h.apart
  obtain ⟨hothers, hrest⟩ := List.pairwise_cons.1 happart
  obtain ⟨hcall, hc, hguar, hsafe, hheld⟩ := (h.safe c (by simp)).step hstep
  refine ⟨hguar.rel, ?_, ?_, ?_⟩
  · refine (List.pairwise_middle fun h => Apart.symm h).2 (List.pairwise_cons.2 ⟨fun x hx _ hxrest => ?_, hrest⟩)
    obtain ⟨hown, hdisjoint⟩ := hothers x hx hc hxrest
    refine ⟨hcall ▸ hown, fun row hrow hrowx => ?_⟩
    rcases hheld row hrow with hrow | hrow
    · exact hdisjoint hrow hrowx
    · -- a row it has got just now was not held by the others
      exact hrow (List.mem_flatMap.2 ⟨x, hx, by rwa [mem_locks hxrest]⟩)
  · intro x hx
    rcases List.mem_append_cons_iff.1 hx with rfl | hx
    · exact .of_safe hsafe
    · refine (h.safe x (List.mem_append_cons_iff.2 (.inr hx))).of_guar hguar fun hxrest => ?_
      exact ⟨(hothers x hx hc hxrest).1.symm, (hothers x hx hc hxrest).2.symm⟩
  · intro x hx
    by_cases hown : x ∈ own c.call
    · -- its owner has just returned
      obtain ⟨a, ha⟩ : ∃ a, c'.rest = .ret a := by
        by_contra hworking
        push Not at hworking
        exact hx c' (by simp) hworking (hcall ▸ hown)
      rw [ha] at hsafe
      exact hsafe.2 x (hcall ▸ hown)
    · refine hguar.inv hown (h.inv x fun d hd hdrest => ?_)
      rcases List.mem_append_cons_iff.1 hd with rfl | hd
      · exact hown
      · exact hx d (List.mem_append_cons_iff.2 (.inr hd)) hdrest

section Run

variable {prog : C → Session S K α} {other : S → X → Option S} {p p' : Pool S K C α}

/-- A turn that starts safe calls only, and stops only clients that owe nothing to their things, keeps all clients
safe. -/
theorem SafePool.move {m : Turn C X} (hpool : R.SafePool promise own p.store p.clients)
    (hsafe : ∀ {call}, m = .start call → (∀ x ∈ own call, R.inv x p.store) →
      R.Safe (promise call) (own call) (prog call) id [] p.store)
    (hother : ∀ {x s'}, m = .other x → other p.store x = some s' → R.Guar [] [] p.store s')
    (hok : ∀ {call}, m = .start call → ∀ c ∈ p.clients, (∀ a, c.rest ≠ .ret a) → (own c.call).Disjoint (own call))
    (hstop : ∀ {i c}, m = .stop i → p.clients[i]? = some c → (∀ a, c.rest ≠ .ret a) → ∀ x ∈ own c.call, ∀ s, R.inv x s)
    (hmove : Pool.move prog other p m = some p') :
    R.rel [] [] p.store p'.store ∧ R.SafePool promise own p'.store p'.clients := by
  rcases Pool.move_cases hmove with ⟨call, s', _, rfl, hstep, rfl⟩ | ⟨_, l₁, c, l₂, _, _, rfl, hl, hstep, rfl⟩ |
    ⟨_, l₁, c, l₂, rfl, hl, hi, rfl⟩ | ⟨x, _, rfl, hx, rfl⟩
  · -- the new client joins the others before its first statement
    have hfree : ∀ x ∈ own call, R.inv x p.store :=
      fun x hx => hpool.inv x fun c hc hrest hxc => hok rfl c hc hrest hxc hx
    have hjoin : R.SafePool promise own p.store (p.clients ++ Client.begin call (prog call) :: []) := by
      refine ⟨List.pairwise_append.2 ⟨hpool.apart, List.pairwise_singleton _ _, ?_⟩, ?_, ?_⟩
      · intro c hc d hd hcrest _
        rw [List.mem_singleton.1 hd]
        exact ⟨hok rfl c hc hcrest, List.disjoint_nil_right _⟩
      · intro c hc
        rcases List.mem_append.1 hc with hc | hc
        · exact hpool.safe c hc
        · rw [List.mem_singleton.1 hc]
          exact .of_safe (hsafe rfl hfree)
      · exact fun x hx => hpool.inv x fun c hc => hx c (List.mem_append_left _ hc)
    exact hjoin.step (by simpa using hstep)
  · rw [hl] at hpool
    exact hpool.step hstep
  · have hsub : (l₁ ++ l₂).Sublist (l₁ ++ c :: l₂) := (List.sublist_cons_self c l₂).append_left l₁
    have hstopped := fun hrest => hstop rfl hi hrest
    rw [hl] at hpool
    refine ⟨R.refl _ _ _, hpool.apart.sublist hsub, fun x hx => hpool.safe x (hsub.subset hx), fun x hx => ?_⟩
    by_cases hown : (∀ a, c.rest ≠ .ret a) ∧ x ∈ own c.call
    · exact hstopped hown.1 x hown.2 _
    · refine hpool.inv x fun d hd hdrest hxd => ?_
      rcases List.mem_append_cons_iff.1 hd with rfl | hd
      · exact hown ⟨hdrest, hxd⟩
      · exact hx d hd hdrest hxd
  · have hguar := hother rfl hx
    refine ⟨hguar.rel, hpool.apart, fun c hc => ?_, fun y hy => ?_⟩
    · exact (hpool.safe c hc).of_guar hguar fun _ => ⟨List.disjoint_nil_right _, List.disjoint_nil_right _⟩
    · exact hguar.inv List.not_mem_nil (hpool.inv y hy)

variable {start : S → Prop} {ok : TransitionSystem.Rule Unit (Pool S K C α) (Turn C X)} {e : Unit}

variable (R promise own prog other start ok) in
/-- What makes all calls of a system safe: the invariants hold at first, a call that the rule allows is safe and shares
nothing with those at work, and a client that owns something does not stop unless nothing has to hold of it. -/
structure SafeSystem : Prop where
  init : ∀ {s₀}, start s₀ → ∀ x, R.inv x s₀
  safe : ∀ {s₀ e e' p call}, start s₀ → R.rel [] [] s₀ p.store → ok e e' p (.start call) →
    (∀ x ∈ own call, R.inv x p.store) → R.Safe (promise call) (own call) (prog call) id [] p.store
  other : ∀ {s₀ s x s'}, start s₀ → R.rel [] [] s₀ s → other s x = some s' → R.Guar [] [] s s'
  disjoint : ∀ {e e' p call}, ok e e' p (.start call) → ∀ c ∈ p.clients, (∀ a, c.rest ≠ .ret a) →
    (own c.call).Disjoint (own call)
  stop : ∀ {e e' p i c}, ok e e' p (.stop i) → p.clients[i]? = some c → (∀ a, c.rest ≠ .ret a) →
    ∀ x ∈ own c.call, ∀ s, R.inv x s

/-- A turn of a safe system. -/
theorem SafeSystem.move {s₀ : S} {e' : Unit} {m : Turn C X} (h : R.SafeSystem promise own prog other start ok)
    (hstart : start s₀) (hs : R.rel [] [] s₀ p.store) (hpool : R.SafePool promise own p.store p.clients)
    (hok : ok e e' p m) (hmove : Pool.move prog other p m = some p') :
    R.rel [] [] p.store p'.store ∧ R.SafePool promise own p'.store p'.clients := by
  refine hpool.move ?_ ?_ ?_ ?_ hmove
  · rintro call rfl hinv
    exact h.safe hstart hs hok hinv
  · rintro x s' rfl hx
    exact h.other hstart hs hx
  · rintro call rfl
    exact h.disjoint hok
  · rintro i c rfl
    exact h.stop hok

/-- Along a run of a safe system the store changes as the relation allows, every call that has returned has kept its
promise, and what nobody owns is as it has to be. -/
theorem SafeSystem.reach (h : R.SafeSystem promise own prog other start ok)
    (hreach : (Pool.system prog other start).Reach ok e p) :
    ∃ s₀, start s₀ ∧ R.rel [] [] s₀ p.store ∧ R.SafePool promise own p.store p.clients := by
  refine TransitionSystem.Reach.invariant
    (P := fun _ p => ∃ s₀, start s₀ ∧ R.rel [] [] s₀ p.store ∧ R.SafePool promise own p.store p.clients) ?_ ?_ hreach
  · rintro _ p ⟨hstart, hnil⟩
    refine ⟨p.store, hstart, R.refl _ _ _, ?_⟩
    rw [hnil]
    exact ⟨.nil, fun c hc => (List.not_mem_nil hc).elim, fun x _ => h.init hstart x⟩
  · rintro _ e' p m p' ⟨_, hstart, hs, hpool⟩ hok hmove
    obtain ⟨hrel, hpool'⟩ := h.move hstart hs hpool hok hmove
    exact ⟨_, hstart, R.trans hs hrel, hpool'⟩

end Run

end Pool

end Rely
