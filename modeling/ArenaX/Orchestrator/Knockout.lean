/-
A knockout tournament as the matches of its rounds, apart from how they are stored: who is still in, who has lost, how
many matches have been played. Each round but the last is over. The facts hold when the first round is drawn, and are
kept when a match is decided and when the players who are still in are paired for the next round.
-/
import ArenaX.Orchestrator.Advancement
import ArenaX.Orchestrator.Seeding

namespace ArenaX.Orchestrator

/-! ## Single matches -/

namespace Fixture

/-- A match to be played, a bye, or a match that one of its players has won. -/
inductive Regular : Fixture → Prop where
  | duel (a b : Uuid) : Regular (.duel a b)
  | bye (a : Uuid) : Regular (.bye a)
  | won {a b w : Uuid} (h : w = a ∨ w = b) : Regular ((Fixture.duel a b).won w)

/-- The players of a match who have not lost it. -/
def standing (f : Fixture) : List Uuid := if f.Pending then f.players else f.advances.toList

def Lost (p : Uuid) (f : Fixture) : Prop := f.status = .completed ∧ p ∈ f.players ∧ f.winnerId ≠ some p
deriving Decidable

/-- Two players have played the match. -/
def Played (f : Fixture) : Prop := f.status = .completed ∧ f.player2Id.isSome
deriving Decidable

variable {a b w p : Uuid} {f : Fixture}

@[simp] theorem pending_duel : (duel a b).Pending := by simp [Pending, duel]

@[simp] theorem not_pending_bye : ¬ (bye a).Pending := by simp [Pending, bye]

@[simp] theorem not_pending_won : ¬ (f.won w).Pending := by simp [Pending, won]

@[simp] theorem players_duel : (duel a b).players = [a, b] := rfl

@[simp] theorem players_won : (f.won w).players = f.players := rfl

@[simp] theorem standing_duel : (duel a b).standing = [a, b] := rfl

@[simp] theorem standing_bye : (bye a).standing = [a] := rfl

@[simp] theorem standing_won : (f.won w).standing = [w] := rfl

@[simp] theorem not_lost_duel : ¬ (duel a b).Lost p := by simp [Lost, duel]

@[simp] theorem not_lost_bye : ¬ (bye a).Lost p := by
  simp [Lost, bye, players, eq_comm]

@[simp] theorem lost_won : (f.won w).Lost p ↔ p ∈ f.players ∧ p ≠ w := by
  simp [Lost, won, players, eq_comm]

@[simp] theorem not_played_duel : ¬ (duel a b).Played := by simp [Played, duel]

@[simp] theorem not_played_bye : ¬ (bye a).Played := by simp [Played, bye]

@[simp] theorem played_won : ((duel a b).won w).Played := by simp [Played, duel, won]

theorem Initial.regular (h : f.Initial) : f.Regular := by
  obtain ⟨a, b, rfl⟩ | ⟨a, rfl⟩ := h
  · exact .duel a b
  · exact .bye a

theorem Initial.standing (h : f.Initial) : f.standing = f.players := by
  obtain ⟨_, b, rfl⟩ | ⟨_, rfl⟩ := h <;> rfl

theorem Initial.not_lost (h : f.Initial) : ¬ f.Lost p := by
  obtain ⟨_, b, rfl⟩ | ⟨_, rfl⟩ := h <;> simp

theorem Initial.not_played (h : f.Initial) : ¬ f.Played := by
  obtain ⟨_, b, rfl⟩ | ⟨_, rfl⟩ := h <;> simp

theorem Regular.standing_sublist (h : f.Regular) : f.standing.Sublist f.players := by
  cases h with
  | duel a b => exact List.Sublist.refl _
  | bye a => exact List.Sublist.refl _
  | won h => rcases h with rfl | rfl <;> simp

/-- A pending match is to be played. -/
theorem Regular.eq_duel (h : f.Regular) (hpending : f.Pending) : ∃ a b, f = Fixture.duel a b := by
  cases h with
  | duel a b => exact ⟨a, b, rfl⟩
  | bye a => exact absurd hpending not_pending_bye
  | won h => exact absurd hpending not_pending_won

/-- One player advances from a match that is over. -/
theorem Regular.advances (h : f.Regular) (hover : ¬ f.Pending) : ∃ p, f.advances = some p ∧ f.standing = [p] := by
  cases h with
  | duel a b => exact absurd pending_duel hover
  | bye a => exact ⟨a, rfl, rfl⟩
  | won h => exact ⟨_, rfl, rfl⟩

/-- A match that is over is completed, and was played if it had two players. -/
theorem Regular.completed (h : f.Regular) (hover : ¬ f.Pending) :
    f.status = .completed ∧ (f.player2Id.isSome ↔ f.Played) := by
  cases h with
  | duel a b => exact absurd pending_duel hover
  | bye a => exact ⟨rfl, by simp [Played, Fixture.bye]⟩
  | won h => exact ⟨rfl, by simp [Played, Fixture.duel, Fixture.won]⟩

end Fixture

/-! ## Rounds -/

section Round

variable {fs gs : List Fixture} {p : Uuid} {l : List Uuid} {f : Fixture}

def players (fs : List Fixture) : List Uuid := fs.flatMap Fixture.players

def standing (fs : List Fixture) : List Uuid := fs.flatMap Fixture.standing

def losses (p : Uuid) (fs : List Fixture) : ℕ := fs.countP (·.Lost p)

def played (fs : List Fixture) : ℕ := fs.countP (·.Played)

@[simp] theorem players_append : players (fs ++ gs) = players fs ++ players gs := List.flatMap_append

@[simp] theorem players_cons : players (f :: fs) = f.players ++ players fs := List.flatMap_cons

@[simp] theorem standing_append : standing (fs ++ gs) = standing fs ++ standing gs := List.flatMap_append

@[simp] theorem standing_cons : standing (f :: fs) = f.standing ++ standing fs := List.flatMap_cons

theorem losses_append : losses p (fs ++ gs) = losses p fs + losses p gs := List.countP_append

theorem losses_cons : losses p (f :: fs) = losses p fs + if f.Lost p then 1 else 0 := by
  simp [losses, List.countP_cons]

theorem played_append : played (fs ++ gs) = played fs + played gs := List.countP_append

theorem played_cons : played (f :: fs) = played fs + if f.Played then 1 else 0 := by
  simp [played, List.countP_cons]

theorem standing_sublist : ∀ {fs : List Fixture}, (∀ f ∈ fs, f.Regular) → (standing fs).Sublist (players fs)
  | [], _ => .slnil
  | f :: fs, h => (h f (by simp)).standing_sublist.append (standing_sublist fun g hg => h g (by simp [hg]))

/-- The players who advance from a round that is over are those who have not lost. -/
theorem filterMap_advances (h : ∀ f ∈ fs, f.Regular) (hover : ∀ f ∈ fs, ¬ f.Pending) :
    fs.filterMap Fixture.advances = standing fs := by
  induction fs with
  | nil => rfl
  | cons f fs ih =>
    obtain ⟨p, hp, hs⟩ := (h f (by simp)).advances (hover f (by simp))
    have ih := ih (fun g hg => h g (by simp [hg])) fun g hg => hover g (by simp [hg])
    rw [List.filterMap_cons, hp, ih, standing, standing, List.flatMap_cons, hs]
    rfl

theorem length_standing (h : ∀ f ∈ fs, f.Regular) (hover : ∀ f ∈ fs, ¬ f.Pending) :
    (standing fs).length = fs.length := by
  rw [← filterMap_advances h hover, List.filterMap_length_eq_length]
  intro f hf
  obtain ⟨p, hp, -⟩ := (h f hf).advances (hover f hf)
  rw [hp]
  rfl

section Initial

variable (h : ∀ f ∈ fs, f.Initial)
include h

theorem standing_of_initial : standing fs = players fs := List.flatMap_congr fun f hf => (h f hf).standing

theorem losses_of_initial : losses p fs = 0 := by
  refine List.countP_eq_zero.2 fun f hf => ?_
  simpa using (h f hf).not_lost

theorem played_of_initial : played fs = 0 := by
  refine List.countP_eq_zero.2 fun f hf => ?_
  simpa using (h f hf).not_played

end Initial

theorem initial_duels : ∀ f ∈ duels l, f.Initial := by
  intro f hf
  obtain ⟨pair, -, rfl⟩ := List.mem_map.1 hf
  exact .inl ⟨pair.1, pair.2, rfl⟩

theorem players_duels (h : l.length % 2 = 0) : players (duels l) = l := by
  rw [players, duels, List.flatMap_map]
  exact List.flatMap_pairs h

theorem standing_duels (h : l.length % 2 = 0) : standing (duels l) = l := by
  rw [standing_of_initial initial_duels, players_duels h]

theorem nextFixtures_of_even (h : l.length % 2 = 0) : nextFixtures l = duels l := by
  cases l with
  | nil => rfl
  | cons a l => exact if_neg (by simpa using h)

end Round

/-! ## Tournaments -/

/-- The rounds before the last one and the last one, in a tournament that `2 ^ k` seeds were drawn for. -/
structure Knockout (participants : List Uuid) (k : ℕ) (past : List (List Fixture)) (last : List Fixture) : Prop where
  regular : ∀ f ∈ past.flatten ++ last, f.Regular
  closed : ∀ f ∈ past.flatten, ¬ f.Pending
  nodup : ∀ fs ∈ past ++ [last], (players fs).Nodup
  size : last.length * 2 ^ (past.length + 1) = 2 ^ k
  subset : standing last ⊆ participants
  losses : ∀ p ∈ participants, losses p (past.flatten ++ last) = if p ∈ standing last then 0 else 1
  played : played (past.flatten ++ last) + (standing last).length = participants.length

namespace Knockout

variable {participants advancing : List Uuid} {k : ℕ} {past : List (List Fixture)} {last : List Fixture}

theorem start (hinit : ∀ f ∈ last, f.Initial) (hsize : last.length * 2 = 2 ^ k)
    (hplayers : (players last).Perm participants) (hnodup : participants.Nodup) : Knockout participants k [] last where
  regular f hf := (hinit f hf).regular
  closed f hf := by cases hf
  nodup fs hfs := by
    rw [List.mem_singleton.1 hfs]
    exact hplayers.nodup_iff.2 hnodup
  size := by simpa using hsize
  subset p hp := hplayers.subset (standing_of_initial hinit ▸ hp)
  losses p hp := by
    rw [if_pos (standing_of_initial hinit ▸ hplayers.symm.subset hp)]
    exact losses_of_initial hinit
  played := by
    rw [standing_of_initial hinit, hplayers.length_eq]
    simpa using played_of_initial hinit

theorem regular_last (h : Knockout participants k past last) : ∀ f ∈ last, f.Regular :=
  fun f hf => h.regular f (by simp [hf])

theorem nodup_standing (h : Knockout participants k past last) : (standing last).Nodup :=
  (h.nodup last (by simp)).sublist (standing_sublist h.regular_last)

theorem length_standing_last (h : Knockout participants k past last) (hover : ∀ f ∈ last, ¬ f.Pending) :
    (standing last).length = last.length := length_standing h.regular_last hover

/-- One of the players of a match wins it; the other one is out. -/
theorem settle {l l' : List Fixture} {a b w : Uuid} (h : Knockout participants k past (l ++ .duel a b :: l'))
    (hw : w = a ∨ w = b) : Knockout participants k past (l ++ (Fixture.duel a b).won w :: l') where
  regular f hf := by
    simp only [List.mem_append, List.mem_cons] at hf
    rcases hf with hf | hf | rfl | hf
    · exact h.regular f (by simp [hf])
    · exact h.regular f (by simp [hf])
    · exact .won hw
    · exact h.regular f (by simp [hf])
  closed := h.closed
  nodup fs hfs := by
    rcases List.mem_append.1 hfs with hfs | hfs
    · exact h.nodup fs (by simp [hfs])
    · rw [List.mem_singleton.1 hfs]
      simpa using h.nodup (l ++ .duel a b :: l') (by simp)
  size := by simpa using h.size
  subset p hp := by
    refine h.subset ?_
    simp only [standing_append, standing_cons, Fixture.standing_won, Fixture.standing_duel, List.mem_append,
      List.mem_cons] at hp ⊢
    rcases hw with rfl | rfl <;> tauto
  losses p hp := by
    have hnodup := h.nodup_standing
    have hlosses := h.losses p hp
    simp only [standing_append, standing_cons, Fixture.standing_won, Fixture.standing_duel, losses_append, losses_cons,
      Fixture.lost_won, Fixture.not_lost_duel, Fixture.players_duel, if_false] at hnodup hlosses ⊢
    by_cases hout : p ∈ [a, b] ∧ p ≠ w
    · -- `p` was standing in this match only
      have hin : p ∈ standing l ++ ([a, b] ++ standing l') :=
        List.mem_append_right _ (List.mem_append_left _ hout.1)
      have hgone : p ∉ standing l ++ ([w] ++ standing l') := by grind
      rw [if_pos hin] at hlosses
      rw [if_pos hout, if_neg hgone]
      omega
    · have hiff : p ∈ standing l ++ ([w] ++ standing l') ↔ p ∈ standing l ++ ([a, b] ++ standing l') := by grind
      rw [if_neg hout, if_congr hiff rfl rfl]
      exact hlosses
  played := by
    have hplayed := h.played
    simp only [standing_append, standing_cons, Fixture.standing_won, Fixture.standing_duel, played_append, played_cons,
      Fixture.played_won, Fixture.not_played_duel, List.length_append, List.length_cons, if_true, if_false] at hplayed ⊢
    omega

/-- No round is drawn after the one that has a single match. -/
theorem length_past (h : Knockout participants k past last) : past.length + 1 ≤ k :=
  (Nat.pow_dvd_pow_iff_le_right (le_refl 2)).1 (Dvd.intro_left _ h.size)

section Next

variable (h : Knockout participants k past last) (hover : ∀ f ∈ last, ¬ f.Pending)
  (hadvancing : advancing.Perm (standing last)) (htwo : 2 ≤ advancing.length)
include h hover hadvancing

theorem length_advancing : advancing.length = last.length :=
  hadvancing.length_eq.trans (h.length_standing_last hover)

include htwo

/-- Nobody has a bye after the first round. -/
theorem even_advancing : advancing.length % 2 = 0 := by
  have hlength := h.length_advancing hover hadvancing
  -- the number of matches divides a power of two, so it is one
  obtain ⟨j, -, hj⟩ := (Nat.dvd_prime_pow Nat.prime_two).1 (Dvd.intro _ h.size)
  obtain _ | j := j
  · omega
  · rw [hlength]
    omega

/-- The players who are still in are paired for the next round. -/
theorem advance : Knockout participants k (past ++ [last]) (nextFixtures advancing) := by
  have hlength := h.length_advancing hover hadvancing
  have heven := h.even_advancing hover hadvancing htwo
  have hinit : ∀ f ∈ duels advancing, f.Initial := initial_duels
  have hstanding := standing_duels heven
  have hflatten : (past ++ [last]).flatten = past.flatten ++ last := by simp
  rw [nextFixtures_of_even heven]
  refine ⟨?_, ?_, ?_, ?_, ?_, ?_, ?_⟩
  · intro f hf
    rcases List.mem_append.1 hf with hf | hf
    · exact h.regular f (hflatten ▸ hf)
    · exact (hinit f hf).regular
  · intro f hf
    rcases List.mem_append.1 (hflatten ▸ hf) with hf | hf
    · exact h.closed f hf
    · exact hover f hf
  · intro fs hfs
    rcases List.mem_append.1 hfs with hfs | hfs
    · exact h.nodup fs hfs
    · rw [List.mem_singleton.1 hfs, players_duels heven]
      exact hadvancing.nodup_iff.2 h.nodup_standing
  · have hpairs : (duels advancing).length * 2 = last.length := by
      rw [duels, List.length_map, List.length_pairs]
      omega
    rw [List.length_append, pow_succ', ← mul_assoc, hpairs]
    exact h.size
  · rw [hstanding]
    exact fun p hp => h.subset (hadvancing.subset hp)
  · intro p hp
    rw [hflatten, losses_append, losses_of_initial hinit, hstanding, if_congr hadvancing.mem_iff rfl rfl]
    exact h.losses p hp
  · rw [hflatten, played_append, played_of_initial hinit, hstanding, hadvancing.length_eq]
    exact h.played

end Next

/-- When one player is left in a round that is over, all rounds have been played. -/
theorem champion (h : Knockout participants k past last) (hover : ∀ f ∈ last, ¬ f.Pending)
    (hone : (standing last).length ≤ 1) : past.length + 1 = k ∧ (standing last).length = 1 := by
  have hlength := h.length_standing_last hover
  have hsize := h.size
  have hpos : 0 < last.length := by
    rcases Nat.eq_zero_or_pos last.length with h0 | h0
    · rw [h0, zero_mul] at hsize
      exact absurd hsize.symm (by positivity)
    · exact h0
  have hlast : last.length = 1 := by omega
  rw [hlast, one_mul] at hsize
  exact ⟨Nat.pow_right_injective (le_refl 2) hsize, by omega⟩

end Knockout

end ArenaX.Orchestrator
