/-
The seeding engine: the order of the seeds in a bracket, the first round, and the whole of `seed_and_generate_bracket`.
The order is such that every two consecutive seeds sum to one more than the size of the bracket, so the best seeds meet
the last ones, and a seed that no participant has gives its opponent a bye.
-/
import ArenaX.Lib.Pairs
import ArenaX.Orchestrator.Database

namespace ArenaX.Orchestrator

open Machine Script

variable {k : ℕ}

/-- One pass of the loop: each seed is followed by its opponent in a bracket of twice the size. -/
def nextOrder (order : List ℕ) : List ℕ := order.flatMap fun seed => [seed, order.length * 2 + 1 - seed]

/-- The loop, for at most `fuel` passes. -/
def growOrder (bracketSize : ℕ) : ℕ → List ℕ → List ℕ
  | 0, order => order
  | fuel + 1, order => if order.length < bracketSize then growOrder bracketSize fuel (nextOrder order) else order

def generateBracketOrder (bracketSize : ℕ) : List ℕ :=
  if bracketSize = 1 then [1] else growOrder bracketSize bracketSize [1, 2]

def nextPowerOfTwo (n : ℕ) : ℕ := 2 ^ Nat.clog 2 n

/-- The participant with a seed; seeds count from one. -/
def seededPlayer (participants : List Uuid) (seed : ℕ) : Option Uuid :=
  if seed ≤ participants.length then participants[seed - 1]? else none

/-- The match of two seeds: a bye has the real player as the first one; `unwrap` panics when there is none. -/
def seedFixture (participants : List Uuid) (seeds : ℕ × ℕ) : Option Fixture :=
  match seededPlayer participants seeds.1, seededPlayer participants seeds.2 with
  | some a, some b => some (.duel a b)
  | some a, none => some (.bye a)
  | none, some b => some (.bye b)
  | none, none => none

/-- The first round of a bracket for the participants, the best seed first. -/
def seedBracket (t : Uuid) (participants : List Uuid) : Sql Unit := do
  let bracketSize := nextPowerOfTwo participants.length
  let seedingOrder := generateBracketOrder bracketSize
  let roundType := if bracketSize = 2 then RoundType.final else .elimination
  let roundId ← change (Database.insertRound t 1 roundType)
  insertMatches t roundId (seedFixture participants) 0 seedingOrder.pairs
  update (Database.setTournamentStatus t .inProgress)

/-- `COALESCE(ue.current_rating, 1200)`. -/
def Database.elo (d : Database) (userId : Uuid) (game : String) : ℤ :=
  match d.userElo.find? fun row => row.userId = userId ∧ row.game = game with
  | some row => row.currentRating
  | none => 1200

/-- The participants in the order of their seeds: by rating, and of one rating by the time they registered. -/
def Database.seededParticipants (d : Database) (t : Uuid) (game : String) : List TournamentParticipant :=
  (d.tournamentParticipants.filter fun row =>
      row.tournamentId = t ∧ (row.status = .active ∨ row.status = .paid)).insertionSort fun row row' =>
    d.elo row'.userId game < d.elo row.userId game ∨
      d.elo row.userId game = d.elo row'.userId game ∧ row.registeredAt ≤ row'.registeredAt

def assignSeeds : ℕ → List TournamentParticipant → Sql Unit
  | _, [] => pure ()
  | idx, p :: rest => do
    update (Database.setSeed p.id (i32.wrap (idx + 1)))
    assignSeeds (idx + 1) rest

def seedAndGenerateBracket (t : Uuid) : Sql Unit := do
  let row ← query (·.findTournament t)
  let tournament ← okOr row .notFound
  reject (tournament.status ≠ .registrationClosed ∧ tournament.status ≠ .inProgress)
    (.badRequest "Tournament must be in RegistrationClosed or InProgress status to seed")
  reject (tournament.bracketType.toLower ≠ "singleelimination" ∧ tournament.bracketType.toLower ≠ "single_elimination")
    (.badRequest "Only SingleElimination bracket type is currently supported for automated seeding")
  let participants ← query (·.seededParticipants t tournament.game)
  reject (participants.length < 4) (.badRequest "Minimum 4 participants required for seeding")
  reject (64 < participants.length) (.badRequest "Maximum 64 participants allowed")
  assignSeeds 0 participants
  seedBracket t (participants.map (·.userId))

/-! ## The order of the seeds -/

/-- Every seed once, and consecutive seeds sum to one more than the size. -/
structure SeedOrder (size : ℕ) (order : List ℕ) : Prop where
  perm : order.Perm (List.range' 1 size)
  sums : ∀ pair ∈ order.pairs, pair.1 + pair.2 = size + 1

theorem SeedOrder.length {size : ℕ} {order : List ℕ} (h : SeedOrder size order) : order.length = size := by
  simpa using h.perm.length_eq

theorem pairs_flatMap_pair {α β : Type} (f g : α → β) :
    ∀ l : List α, (l.flatMap fun a => [f a, g a]).pairs = l.map fun a => (f a, g a)
  | [] => rfl
  | a :: l => congrArg ((f a, g a) :: ·) (pairs_flatMap_pair f g l)

/-- The opponents of the seeds of one bracket are the other seeds of one of twice the size. -/
theorem perm_append_opponents (size : ℕ) :
    (List.range' 1 size ++ (List.range' 1 size).map (size * 2 + 1 - ·)).Perm (List.range' 1 (size * 2)) := by
  have hmem : ∀ x ∈ List.range' 1 size, 1 ≤ x ∧ x ≤ size := by
    intro x hx
    have := List.mem_range'_1.1 hx
    omega
  refine (List.perm_ext_iff_of_nodup ?_ List.nodup_range').2 ?_
  · refine List.nodup_append.2 ⟨List.nodup_range', ?_, ?_⟩
    · refine List.Nodup.map_on ?_ List.nodup_range'
      intro x hx y hy hxy
      have := hmem y hy
      omega
    · intro x hx y hy
      obtain ⟨z, hz, rfl⟩ := List.mem_map.1 hy
      have := hmem x hx
      have := hmem z hz
      omega
  · intro x
    simp only [List.mem_append, List.mem_map, List.mem_range'_1]
    constructor
    · rintro (h | ⟨y, hy, rfl⟩) <;> omega
    · intro h
      by_cases hx : x ≤ size
      · exact .inl (by omega)
      · exact .inr ⟨size * 2 + 1 - x, by omega, by omega⟩

theorem SeedOrder.nextOrder {size : ℕ} {order : List ℕ} (h : SeedOrder size order) :
    SeedOrder (size * 2) (nextOrder order) := by
  unfold Orchestrator.nextOrder
  rw [h.length]
  constructor
  · refine (List.flatMap_append_perm order (fun seed => [seed]) fun seed => [size * 2 + 1 - seed]).symm.trans ?_
    rw [List.flatMap_singleton', ← List.map_eq_flatMap]
    exact (h.perm.append (h.perm.map _)).trans (perm_append_opponents size)
  · intro pair hpair
    rw [pairs_flatMap_pair (fun seed => seed)] at hpair
    obtain ⟨seed, hseed, rfl⟩ := List.mem_map.1 hpair
    have := List.mem_range'_1.1 (h.perm.mem_iff.1 hseed)
    show seed + (size * 2 + 1 - seed) = size * 2 + 1
    omega

/-- What a pass brings from one size of the bracket to the next holds of the bracket the loop is asked for. -/
theorem growOrder_rule {P : ℕ → List ℕ → Prop} (hlength : ∀ {j order}, P j order → order.length = 2 ^ j)
    (hpass : ∀ {j order}, P j order → P (j + 1) (nextOrder order)) :
    ∀ {fuel j : ℕ} {order : List ℕ}, P j order → j ≤ k → k ≤ j + fuel → P k (growOrder (2 ^ k) fuel order)
  | 0, j, order, h, hj, hk => by
    obtain rfl : j = k := by omega
    exact h
  | fuel + 1, j, order, h, hj, hk => by
    rw [growOrder, hlength h]
    split
    · rename_i hlt
      have : j < k := (Nat.pow_lt_pow_iff_right (by norm_num)).1 hlt
      exact growOrder_rule hlength hpass (hpass h) (by omega) (by omega)
    · rename_i hlt
      have : ¬ j < k := fun hjk => hlt (Nat.pow_lt_pow_right (by norm_num) hjk)
      obtain rfl : j = k := by omega
      exact h

theorem generateBracketOrder_rule {P : ℕ → List ℕ → Prop} (hlength : ∀ {j order}, P j order → order.length = 2 ^ j)
    (hpass : ∀ {j order}, P j order → P (j + 1) (nextOrder order)) (hstart : P 1 [1, 2]) (hk : 1 ≤ k) :
    P k (generateBracketOrder (2 ^ k)) := by
  have hne : 2 ^ k ≠ 1 := by
    intro h
    have := Nat.pow_eq_one.1 h
    omega
  rw [generateBracketOrder, if_neg hne]
  exact growOrder_rule hlength hpass hstart hk (Nat.lt_two_pow_self.le.trans (by omega))

theorem SeedOrder.pass {j : ℕ} {order : List ℕ} (h : SeedOrder (2 ^ j) order) :
    SeedOrder (2 ^ (j + 1)) (Orchestrator.nextOrder order) := by
  simpa [pow_succ] using h.nextOrder

/-- The loop ends with a bracket of the size it is asked for. -/
theorem generateBracketOrder_spec (hk : 1 ≤ k) : SeedOrder (2 ^ k) (generateBracketOrder (2 ^ k)) :=
  generateBracketOrder_rule (P := fun j => SeedOrder (2 ^ j)) SeedOrder.length SeedOrder.pass
    ⟨List.Perm.refl _, by decide⟩ hk

example : generateBracketOrder 8 = [1, 8, 4, 5, 2, 7, 3, 6] := by decide

/-! ## The first round -/

section FirstRound

variable {participants : List Uuid} {seeds : ℕ × ℕ}

theorem seededPlayer_succ (i : ℕ) : seededPlayer participants (i + 1) = participants[i]? := by
  unfold seededPlayer
  split
  · rfl
  · exact (List.getElem?_eq_none (by omega)).symm

theorem flatMap_range_getElem? : ∀ {l : List Uuid} {size : ℕ}, l.length ≤ size →
    ((List.range size).flatMap fun i => l[i]?.toList) = l
  | [], size, _ => by simp
  | a :: l, size + 1, h => by
    rw [List.range_succ_eq_map, List.flatMap_cons, List.flatMap_map]
    exact congrArg (a :: ·) (flatMap_range_getElem? (by simpa using h))

/-- Every participant has one seed of the bracket. -/
theorem flatMap_seededPlayer {size : ℕ} (h : participants.length ≤ size) :
    ((List.range' 1 size).flatMap fun seed => (seededPlayer participants seed).toList) = participants := by
  rw [List.range'_eq_map_range, List.flatMap_map]
  simp only [Nat.add_comm 1, seededPlayer_succ]
  exact flatMap_range_getElem? h

/-- A match of the first round: to be played, or a bye. -/
def Fixture.Initial (f : Fixture) : Prop := (∃ a b, f = .duel a b) ∨ ∃ a, f = .bye a

/-- Two seeds of which a participant has one make a match with the participants who have them. -/
theorem seedFixture_spec
    (h : (seededPlayer participants seeds.1).isSome ∨ (seededPlayer participants seeds.2).isSome) :
    ∃ f, seedFixture participants seeds = some f ∧ f.Initial ∧
      f.players = (seededPlayer participants seeds.1).toList ++ (seededPlayer participants seeds.2).toList := by
  unfold seedFixture
  match seededPlayer participants seeds.1, seededPlayer participants seeds.2, h with
  | some a, some b, _ => exact ⟨_, rfl, .inl ⟨a, b, rfl⟩, rfl⟩
  | some a, none, _ => exact ⟨_, rfl, .inr ⟨a, rfl⟩, rfl⟩
  | none, some b, _ => exact ⟨_, rfl, .inr ⟨b, rfl⟩, rfl⟩
  | none, none, h => simp at h

theorem exists_map_some {α β : Type} {f : α → Option β} :
    ∀ {l : List α}, (∀ a ∈ l, ∃ b, f a = some b) → ∃ bs : List β, l.map f = bs.map some
  | [], _ => ⟨[], rfl⟩
  | a :: l, h => by
    obtain ⟨b, hb⟩ := h a (by simp)
    obtain ⟨bs, hbs⟩ := exists_map_some (l := l) fun x hx => h x (by simp [hx])
    exact ⟨b :: bs, by simp [hb, hbs]⟩

theorem one_le_clog {n : ℕ} (hn : 2 ≤ n) : 1 ≤ Nat.clog 2 n := Nat.clog_pos (by norm_num) hn

/-- Of two opponents in the first round, at least one is a participant: more than half of the seeds are taken. -/
theorem seededPlayer_isSome (hk : 2 ^ (k - 1) < participants.length) (hk1 : 1 ≤ k)
    (hpos : 1 ≤ seeds.1 ∧ 1 ≤ seeds.2) (hsum : seeds.1 + seeds.2 = 2 ^ k + 1) :
    (seededPlayer participants seeds.1).isSome ∨ (seededPlayer participants seeds.2).isSome := by
  have hpow : 2 ^ k = 2 * 2 ^ (k - 1) := by
    rw [← pow_succ', Nat.sub_add_cancel hk1]
  obtain ⟨i, hi⟩ := Nat.exists_eq_add_of_le' hpos.1
  obtain ⟨j, hj⟩ := Nat.exists_eq_add_of_le' hpos.2
  rw [hi, hj, seededPlayer_succ, seededPlayer_succ]
  simp
  omega

/-- Every match of the first round has a participant. -/
theorem seedFixture_of_mem_pairs {order : List ℕ} (horder : SeedOrder (2 ^ k) order) (hk1 : 1 ≤ k)
    (hk : 2 ^ (k - 1) < participants.length) (hseeds : seeds ∈ order.pairs) :
    ∃ f, seedFixture participants seeds = some f ∧ f.Initial ∧
      f.players = (seededPlayer participants seeds.1).toList ++ (seededPlayer participants seeds.2).toList := by
  have hmem := List.mem_of_mem_pairs hseeds
  simp only [horder.perm.mem_iff, List.mem_range'_1] at hmem
  exact seedFixture_spec (seededPlayer_isSome hk hk1 ⟨hmem.1.1, hmem.2.1⟩ (horder.sums seeds hseeds))

/-- Those who play are those who have a seed of the order. -/
theorem flatMap_players_seedFixture {order : List ℕ} {fs : List Fixture} (heven : order.length % 2 = 0)
    (hfs : order.pairs.map (seedFixture participants) = fs.map some)
    (hplayers : ∀ seeds ∈ order.pairs, ∃ f, seedFixture participants seeds = some f ∧
      f.players = (seededPlayer participants seeds.1).toList ++ (seededPlayer participants seeds.2).toList) :
    fs.flatMap Fixture.players = order.flatMap fun seed => (seededPlayer participants seed).toList :=
  calc fs.flatMap Fixture.players
    _ = (fs.map some).flatMap fun o => o.elim [] Fixture.players := by rw [List.flatMap_map]; rfl
    _ = order.pairs.flatMap fun seeds => (seedFixture participants seeds).elim [] Fixture.players := by
      rw [← hfs, List.flatMap_map]
    _ = order.pairs.flatMap fun seeds =>
        [seeds.1, seeds.2].flatMap fun seed => (seededPlayer participants seed).toList := by
      refine List.flatMap_congr fun seeds hseeds => ?_
      obtain ⟨f, hf, hf'⟩ := hplayers seeds hseeds
      simp [hf, hf']
    _ = order.flatMap fun seed => (seededPlayer participants seed).toList := by
      rw [← List.flatMap_assoc, List.flatMap_pairs heven]

/-- The first round has every participant in one match. -/
theorem firstRound_spec (hn : 2 ≤ participants.length) :
    ∃ fs : List Fixture, (generateBracketOrder (nextPowerOfTwo participants.length)).pairs.map
      (seedFixture participants) =
        fs.map some ∧ fs.length * 2 = 2 ^ Nat.clog 2 participants.length ∧ (∀ f ∈ fs, f.Initial) ∧
      (fs.flatMap Fixture.players).Perm participants := by
  have hk := one_le_clog hn
  have horder := generateBracketOrder_spec hk
  set k := Nat.clog 2 participants.length
  set order := generateBracketOrder (2 ^ k)
  have heven : order.length % 2 = 0 := by
    rw [horder.length]
    exact Nat.mod_eq_zero_of_dvd (dvd_pow_self 2 (by omega))
  have hfixture : ∀ seeds ∈ order.pairs, _ := fun seeds =>
    seedFixture_of_mem_pairs horder hk (Nat.pow_pred_clog_lt_self (by norm_num) hn)
  obtain ⟨_, hfs⟩ := exists_map_some fun seeds hseeds => (hfixture seeds hseeds).imp fun _ h => h.1
  refine ⟨_, hfs, ?_, ?_, ?_⟩
  · have hlength := congrArg List.length hfs
    rw [List.length_map, List.length_map, List.length_pairs] at hlength
    rw [← horder.length]
    omega
  · intro f hf
    obtain ⟨seeds, hseeds, heq⟩ := List.mem_map.1 (hfs ▸ List.mem_map_of_mem hf : some f ∈ _)
    obtain ⟨f', hf', hinitial, -⟩ := hfixture seeds hseeds
    rw [hf'] at heq
    cases heq
    exact hinitial
  · rw [flatMap_players_seedFixture heven hfs fun seeds hseeds =>
      (hfixture seeds hseeds).imp fun _ h => ⟨h.1, h.2.2⟩]
    -- the order is a permutation of the seeds, and the seeds in their own order list the participants
    refine (horder.perm.flatMap_right _).trans ?_
    rw [flatMap_seededPlayer (Nat.le_pow_clog (by norm_num) _)]

/-- Seeding succeeds when the tournament has no first round yet. -/
theorem run_seedBracket {t : Uuid} {d : Database} {fs : List Fixture} (ht : d.roundsOf t = [])
    (hfs : (generateBracketOrder (nextPowerOfTwo participants.length)).pairs.map (seedFixture participants) =
      fs.map some) :
    (seedBracket t participants).run d = (.ok (), ((d.addRound t 1 (if nextPowerOfTwo participants.length = 2
      then .final else .elimination)).addMatches t ⟨d.nextId⟩ 0 fs).setTournamentStatus t .inProgress) := by
  have hfree : d.insertRound t 1 (if nextPowerOfTwo participants.length = 2 then .final else .elimination) =
      .ok (⟨d.nextId⟩, d.addRound t 1 (if nextPowerOfTwo participants.length = 2 then .final else .elimination)) := by
    refine if_neg ?_
    rintro ⟨row, hrow, hrt, -⟩
    have := List.filter_eq_nil_iff.1 ht row hrow
    simp [hrt] at this
  refine (run_bind_of_ok (run_change_of_ok hfree)).trans ?_
  exact (run_bind_of_ok (run_insertMatches 0 _ hfs)).trans (run_update _ _)

end FirstRound

/-! ## The whole of seeding -/

/-- Writing the seeds changes the participants only. -/
theorem run_assignSeeds : ∀ (idx : ℕ) (ps : List TournamentParticipant) (d : Database),
    ∃ rows, (assignSeeds idx ps).run d = (.ok (), { d with tournamentParticipants := rows })
  | _, [], d => ⟨d.tournamentParticipants, rfl⟩
  | idx, p :: ps, d => by
    obtain ⟨_, hrows⟩ := run_assignSeeds (idx + 1) ps (d.setSeed p.id (i32.wrap (idx + 1)))
    exact ⟨_, (run_bind_of_ok (run_update _ d)).trans hrows⟩

/-- Seeding that succeeds draws the first round for 4 to 64 participants, once their seeds are written. -/
theorem run_seedAndGenerateBracket {t : Uuid} {d d' : Database} (h : (seedAndGenerateBracket t).run d = (.ok (), d')) :
    ∃ row rows, d.findTournament t = some row ∧ 4 ≤ (d.seededParticipants t row.game).length ∧
      (d.seededParticipants t row.game).length ≤ 64 ∧
      (seedBracket t ((d.seededParticipants t row.game).map (·.userId))).run { d with tournamentParticipants := rows } =
        (.ok (), d') := by
  unfold seedAndGenerateBracket at h
  rw [run_query_bind] at h
  obtain ⟨row, hrow, h⟩ := run_okOr_bind_eq_ok h
  obtain ⟨-, h⟩ := run_reject_bind_eq_ok h
  obtain ⟨-, h⟩ := run_reject_bind_eq_ok h
  rw [run_query_bind] at h
  obtain ⟨hmin, h⟩ := run_reject_bind_eq_ok h
  obtain ⟨hmax, h⟩ := run_reject_bind_eq_ok h
  obtain ⟨_, hrows⟩ := run_assignSeeds 0 (d.seededParticipants t row.game) d
  rw [run_bind_of_ok hrows] at h
  exact ⟨row, _, hrow, by omega, by omega, h⟩

end ArenaX.Orchestrator
