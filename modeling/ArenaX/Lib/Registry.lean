/-
A registry of tokens: who owns a token, the redundant list of the tokens of each account, and locks on
tokens. Moves act on it one at a time; an invariant kept by every move that meets a condition is kept by
every sequence of such moves.
-/
import Mathlib.Data.List.Count
import Mathlib.Logic.Function.Basic
import Mathlib.Tactic

/-- A registry of tokens `T` held by accounts `A`. -/
@[ext] structure Registry (T A : Type) where
  owner : T → Option A
  listed : A → List T
  lock : T → Option A

namespace Registry

open Function

/-- What can happen to a token. -/
inductive Move (T A : Type) where
  | mint (holder : A) (token : T)
  | transfer (sender recipient : A) (token : T)
  | burn (holder : A) (token : T)
  | lock (holder : A) (token : T)
  | unlock (token : T)

/-- The move creates a token. -/
def Move.isMint {T A : Type} : Move T A → Bool
  | .mint .. => true
  | _ => false

variable {T A : Type} [DecidableEq T] [DecidableEq A]

/-- The lists with a token taken off an account's. -/
def unlist (r : Registry T A) (a : A) (t : T) : A → List T := update r.listed a ((r.listed a).filter (· ≠ t))

/-- The registry after a move, whether or not the move makes sense. -/
def apply (r : Registry T A) : Move T A → Registry T A
  | .mint a t => { r with owner := update r.owner t (some a), listed := update r.listed a (r.listed a ++ [t]) }
  | .transfer a b t =>
    let listed := r.unlist a t
    { r with owner := update r.owner t (some b), listed := update listed b (listed b ++ [t]) }
  | .burn a t => { r with owner := update r.owner t none, listed := r.unlist a t }
  | .lock a t => { r with lock := update r.lock t (some a) }
  | .unlock t => { r with lock := update r.lock t none }

/-- Moves one after another. -/
def run (r : Registry T A) (moves : List (Move T A)) : Registry T A := moves.foldl apply r

theorem run_append (r : Registry T A) (ms ms' : List (Move T A)) : r.run (ms ++ ms') = (r.run ms).run ms' :=
  List.foldl_append

/-- A transfer is a burn followed by a mint. -/
theorem apply_transfer (r : Registry T A) (a b : A) (t : T) :
    r.apply (.transfer a b t) = (r.apply (.burn a t)).apply (.mint b t) := by
  simp only [apply, update_idem]

/-! ## Conditions along a sequence of moves -/

/-- Every move meets a condition in the registry it is made in. -/
def Meets (cond : Registry T A → Move T A → Prop) (r : Registry T A) : List (Move T A) → Prop
  | [] => True
  | m :: ms => cond r m ∧ Meets cond (r.apply m) ms

instance Meets.decidable (cond : Registry T A → Move T A → Prop) [∀ r m, Decidable (cond r m)] :
    ∀ (r : Registry T A) (ms : List (Move T A)), Decidable (Meets cond r ms)
  | _, [] => inferInstanceAs (Decidable True)
  | r, m :: ms =>
    have := Meets.decidable cond (r.apply m) ms
    inferInstanceAs (Decidable (cond r m ∧ Meets cond (r.apply m) ms))

variable {cond cond' : Registry T A → Move T A → Prop} {P : Registry T A → Prop} {r : Registry T A}
  {m : Move T A} {ms : List (Move T A)}

theorem Meets.append {ms' : List (Move T A)} (h : Meets cond r ms) (h' : Meets cond (r.run ms) ms') :
    Meets cond r (ms ++ ms') := by
  induction ms generalizing r with
  | nil => exact h'
  | cons m ms ih => exact ⟨h.1, ih h.2 h'⟩

theorem Meets.and (h : Meets cond r ms) (h' : Meets cond' r ms) : Meets (fun r m => cond r m ∧ cond' r m) r ms := by
  induction ms generalizing r with
  | nil => trivial
  | cons m ms ih => exact ⟨⟨h.1, h'.1⟩, ih h.2 h'.2⟩

theorem Meets.of_forall {p : Move T A → Prop} (h : ∀ m ∈ ms, p m) : Meets (fun _ m => p m) r ms := by
  induction ms generalizing r with
  | nil => trivial
  | cons m ms ih =>
    obtain ⟨hm, hms⟩ := List.forall_mem_cons.1 h
    exact ⟨hm, ih hms⟩

/-- What every move that meets the condition keeps, a sequence of such moves keeps. -/
theorem Meets.invariant (hstep : ∀ {r m}, P r → cond r m → P (r.apply m)) (h : Meets cond r ms) (hr : P r) :
    P (r.run ms) := by
  induction ms generalizing r with
  | nil => exact hr
  | cons m ms ih => exact ih h.2 (hstep hr h.1)

/-- The checks of a registry that guards its moves: a token is moved, burned or locked by its owner, and a
locked token is not burned. -/
def Checked (r : Registry T A) : Move T A → Prop
  | .transfer a _ t => r.owner t = some a
  | .burn a t => r.owner t = some a ∧ r.lock t = none
  | .lock a t => r.owner t = some a
  | .mint .. | .unlock _ => True

/-- Only a token without an owner is minted. -/
def Fresh (r : Registry T A) : Move T A → Prop
  | .mint _ t => r.owner t = none
  | _ => True

/-- A token that gets a new owner is not locked, or locked for the new owner. -/
def RespectsLock (r : Registry T A) : Move T A → Prop
  | .mint a t | .transfer _ a t => r.lock t = none ∨ r.lock t = some a
  | _ => True

instance (r : Registry T A) (m : Move T A) : Decidable (r.Fresh m) := by
  cases m <;> unfold Fresh <;> infer_instance

instance (r : Registry T A) (m : Move T A) : Decidable (r.RespectsLock m) := by
  cases m <;> unfold RespectsLock <;> infer_instance

/-! ## The two indexes agree -/

/-- A token is listed once for its owner, and for nobody else. -/
def Indexed (r : Registry T A) : Prop := ∀ a t, (r.listed a).count t = if r.owner t = some a then 1 else 0

theorem Indexed.mint (h : r.Indexed) {a : A} {t : T} (hfree : r.owner t = none) : (r.apply (.mint a t)).Indexed := by
  intro b t'
  have hb := h b t'
  simp only [apply, update_apply]
  by_cases ht : t' = t
  · subst ht
    simp only [hfree, reduceCtorEq, if_false] at hb
    by_cases ha : b = a
    · subst ha; simp [hb]
    · simp [ha, hb, Ne.symm ha]
  · rw [if_neg ht, ← hb]
    split
    · rename_i ha; subst ha; simp [List.count_append, Ne.symm ht]
    · rfl

theorem Indexed.burn (h : r.Indexed) {a : A} {t : T} (hown : r.owner t = some a) : (r.apply (.burn a t)).Indexed := by
  intro b t'
  have hb := h b t'
  simp only [apply, unlist, update_apply]
  by_cases ht : t' = t
  · subst ht
    simp only [if_true, reduceCtorEq, if_false]
    split
    · exact List.count_eq_zero.2 (by simp)
    · rename_i ha
      rw [hb, hown, if_neg]
      exact fun h => ha (Option.some.inj h).symm
  · rw [if_neg ht, ← hb]
    split
    · rename_i ha; subst ha; rw [List.count_filter (by simpa using ht)]
    · rfl

theorem Indexed.apply (h : r.Indexed) (hc : r.Checked m) (hf : r.Fresh m) : (r.apply m).Indexed := by
  cases m with
  | mint => exact h.mint hf
  | burn => exact h.burn hc.1
  | transfer a b t =>
    rw [apply_transfer]
    exact (h.burn hc).mint (by simp [Registry.apply])
  | lock | unlock => exact h

/-- A mint of a fresh token takes no token from its owner. -/
theorem owner_mint_of_fresh {a b : A} {t t' : T} (hf : r.Fresh (.mint a t)) (h : r.owner t' = some b) :
    (r.apply (.mint a t)).owner t' = some b := by
  have hne : t' ≠ t := by
    rintro rfl
    rw [show r.owner t' = none from hf] at h
    cases h
  show update r.owner t (some a) t' = some b
  rw [update_of_ne hne, h]

/-- The move takes a token's owner away. -/
def Move.isBurn : Move T A → Bool
  | .burn .. => true
  | _ => false

theorem isSome_owner_apply {t : T} (hm : m.isBurn = false) (h : (r.owner t).isSome) : ((r.apply m).owner t).isSome := by
  cases m with
  | mint a t' | transfer _ a t' =>
    show (update r.owner t' (some a) t).isSome
    rw [update_apply]
    split
    · rfl
    · exact h
  | burn => cases hm
  | lock | unlock => exact h

/-- A token keeps having an owner until it is burned. -/
theorem isSome_owner_run {t : T} (hms : ∀ m ∈ ms, m.isBurn = false) (h : (r.owner t).isSome) :
    ((r.run ms).owner t).isSome :=
  (Meets.of_forall hms).invariant (P := fun r => (r.owner t).isSome) (fun hr hm => isSome_owner_apply hm hr) h

/-! ## Locked tokens stay -/

/-- A locked token is owned by whoever it is locked for. -/
def Secured (r : Registry T A) : Prop := ∀ t a, r.lock t = some a → r.owner t = some a

theorem Secured.apply (h : r.Secured) (hc : r.Checked m) (hl : r.RespectsLock m) : (r.apply m).Secured := by
  cases m with
  | mint b t | transfer _ b t =>
    intro t' a (ha : r.lock t' = some a)
    show update r.owner t (some b) t' = some a
    by_cases ht : t' = t
    · subst ht
      rcases hl with hl | hl
      · rw [hl] at ha; cases ha
      · rw [update_self, ← hl, ha]
    · rw [update_of_ne ht]; exact h t' a ha
  | burn b t =>
    intro t' a (ha : r.lock t' = some a)
    have ht : t' ≠ t := by
      rintro rfl
      rw [hc.2] at ha; cases ha
    show update r.owner t none t' = some a
    rw [update_of_ne ht]; exact h t' a ha
  | lock b t =>
    intro t' a (ha : update r.lock t (some b) t' = some a)
    by_cases ht : t' = t
    · subst ht; rw [update_self] at ha; rw [← ha]; exact hc
    · rw [update_of_ne ht] at ha; exact h t' a ha
  | unlock t =>
    intro t' a (ha : update r.lock t none t' = some a)
    by_cases ht : t' = t
    · subst ht; rw [update_self] at ha; cases ha
    · rw [update_of_ne ht] at ha; exact h t' a ha

end Registry
