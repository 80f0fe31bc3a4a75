/-
The arithmetic of checkpoints: what a list of changes does to the power recorded last, and to the power at a
ledger, as long as no checkpoint is later than the current ledger.
-/
import ArenaX.AxToken.Frame

namespace ArenaX.AxToken

open Machine Exec
open Host (Address)
open Finsupp (single mapDomain_add mapDomain_single)

/-- The net change of each address in a list of changes. -/
noncomputable def net (changes : List (Address × ℤ)) : Address →₀ ℤ := payments Prod.fst Prod.snd changes

theorem net_cons (change : Address × ℤ) (changes : List (Address × ℤ)) :
    net (change :: changes) = single change.1 change.2 + net changes := rfl

theorem net_singleton (change : Address × ℤ) : net [change] = single change.1 change.2 := add_zero _

theorem mapDomain_net (f : Address → Address) (changes : List (Address × ℤ)) :
    (net changes).mapDomain f = net (changes.map fun change => (f change.1, change.2)) := by
  induction changes with
  | nil => exact Finsupp.mapDomain_zero
  | cons change changes ih => rw [net_cons, mapDomain_add, mapDomain_single, ih, List.map_cons, net_cons]

/-- No checkpoint is later than a ledger, and each history is in order. -/
def VotingStore.UpTo (sequence : U32) (v : VotingStore) : Prop :=
  v.checkpoints.All fun _ checkpoints => History.UpTo VotingCheckpoint.key (sequence : ℤ) checkpoints

/-- Each history has at most one entry for a ledger, and they stand in order. -/
def VotingStore.Strict (v : VotingStore) : Prop :=
  v.checkpoints.All fun _ checkpoints => checkpoints.Pairwise fun c c' => c.key < c'.key

/-- The last ledger a sequence number can name. -/
def lastLedger : U32 := ⟨u32.max, u32.min_le.trans u32.le_max, le_rfl⟩

namespace VotingStore

variable {env : Env} {v v' : VotingStore} {a : Address} {changes : List (Address × ℤ)} {sequence ledger : U32}

theorem UpTo.getCheckpoints (h : v.UpTo sequence) (a : Address) :
    History.UpTo VotingCheckpoint.key sequence (v.getCheckpoints a) := by
  unfold VotingStore.getCheckpoints
  cases hget : v.checkpoints.get a with
  | none => exact .nil
  | some checkpoints => exact h a checkpoints hget

theorem Strict.getCheckpoints (h : v.Strict) (a : Address) :
    (v.getCheckpoints a).Pairwise fun c c' => c.key < c'.key := by
  unfold VotingStore.getCheckpoints
  cases hget : v.checkpoints.get a with
  | none => exact .nil
  | some checkpoints => exact h a checkpoints hget

theorem UpTo.mono (h : v.UpTo sequence) (hle : (sequence : ℤ) ≤ ledger) : v.UpTo ledger :=
  Table.All.imp h fun _ _ hup => hup.mono hle

/-! ## One change -/

theorem getCheckpoints_shift (v : VotingStore) (change : Address × ℤ) (a : Address) :
    (v.shift env change).getCheckpoints a =
      if a = change.1 then History.put VotingCheckpoint.key (v.getCheckpoints a)
        ⟨env.sequence, i128.wrap (v.lastPower a + change.2)⟩
      else v.getCheckpoints a := by
  simp only [VotingStore.getCheckpoints, shift, Table.get_set]
  split
  · rename_i h; subst h; rfl
  · rfl

theorem lastPower_shift (v : VotingStore) (change : Address × ℤ) (a : Address) :
    (v.shift env change).lastPower a = i128.wrap (v.lastPower a + net [change] a) := by
  have hnet : net [change] a = if change.1 = a then change.2 else 0 := by
    simp [net, payments, Finsupp.single_apply]
  rw [lastPower, getCheckpoints_shift, hnet]
  split
  · rename_i h
    rw [if_pos h.symm, History.getLast?_put]
    rfl
  · rename_i h
    rw [if_neg (Ne.symm h), add_zero, wrap_toInt]
    rfl

theorem UpTo.at_change (h : v.UpTo env.sequence) (change : Address × ℤ) : History.UpTo VotingCheckpoint.key
    (VotingCheckpoint.key ⟨env.sequence, i128.wrap (v.lastPower change.1 + change.2)⟩) (v.getCheckpoints change.1) :=
  h.getCheckpoints change.1

theorem UpTo.shift (h : v.UpTo env.sequence) (change : Address × ℤ) : (v.shift env change).UpTo env.sequence :=
  Table.All.set h (h.at_change change).put

theorem UpTo.strict_shift (h : v.UpTo env.sequence) (hs : v.Strict) (change : Address × ℤ) :
    (v.shift env change).Strict :=
  Table.All.set hs ((h.at_change change).strict_put (hs.getCheckpoints change.1))

/-- A change made now is not seen at an earlier ledger. -/
theorem powerAt_shift_of_lt (h : v.UpTo env.sequence) (hlt : (ledger : ℤ) < env.sequence) (change : Address × ℤ) :
    (v.shift env change).powerAt a ledger = v.powerAt a ledger := by
  unfold powerAt
  rw [getCheckpoints_shift]
  split
  · rw [History.lookup_put (h.getCheckpoints a), if_neg]
    exact not_le.2 hlt
  · rfl

/-! ## The power recorded last -/

theorem powerAt_eq_lastPower (h : ∀ c ∈ v.getCheckpoints a, c.key ≤ ledger) : v.powerAt a ledger = v.lastPower a := by
  rw [powerAt, History.lookup_of_le h]
  rfl

/-- From the last checkpoint on, the power recorded last is in force. -/
theorem UpTo.powerAt_eq_lastPower (h : v.UpTo sequence) (hle : (sequence : ℤ) ≤ ledger) :
    v.powerAt a ledger = v.lastPower a :=
  VotingStore.powerAt_eq_lastPower fun c hc => ((h.getCheckpoints a).le c hc).trans hle

/-- At the last ledger there can be, every checkpoint is in the past. -/
theorem powerAt_lastLedger (v : VotingStore) (a : Address) : v.powerAt a lastLedger = v.lastPower a :=
  powerAt_eq_lastPower fun c _ => c.ledger.hi

theorem lastPower_congr (h : v'.checkpoints = v.checkpoints) (a : Address) : v'.lastPower a = v.lastPower a := by
  simp only [lastPower, VotingStore.getCheckpoints, h]

theorem powerAt_congr (h : v'.checkpoints = v.checkpoints) (a : Address) :
    v'.powerAt a ledger = v.powerAt a ledger := by
  simp only [powerAt, VotingStore.getCheckpoints, h]

/-! ## Many changes -/

theorem lastPower_shifts : ∀ (changes : List (Address × ℤ)) (v : VotingStore) (a : Address),
    (changes.foldl (shift env) v).lastPower a = i128.wrap (v.lastPower a + net changes a)
  | [], v, a => by simp [net, payments]
  | change :: changes, v, a => by
    rw [List.foldl_cons, lastPower_shifts changes, lastPower_shift, wrap_wrap_add, add_assoc]
    simp [net, payments]

theorem UpTo.shifts (h : v.UpTo env.sequence) : ∀ changes : List (Address × ℤ),
    (changes.foldl (VotingStore.shift env) v).UpTo env.sequence := by
  intro changes
  induction changes generalizing v with
  | nil => exact h
  | cons change changes ih => exact ih (h.shift change)

theorem UpTo.strict_shifts (h : v.UpTo env.sequence) (hs : v.Strict) : ∀ changes : List (Address × ℤ),
    (changes.foldl (VotingStore.shift env) v).Strict := by
  intro changes
  induction changes generalizing v with
  | nil => exact hs
  | cons change changes ih => exact ih (h.shift change) (h.strict_shift hs change)

theorem powerAt_shifts_of_lt (h : v.UpTo env.sequence) (hlt : (ledger : ℤ) < env.sequence) :
    (changes.foldl (shift env) v).powerAt a ledger = v.powerAt a ledger := by
  induction changes generalizing v with
  | nil => rfl
  | cons change changes ih => rw [List.foldl_cons, ih (h.shift change), powerAt_shift_of_lt h hlt]

end VotingStore

end ArenaX.AxToken
