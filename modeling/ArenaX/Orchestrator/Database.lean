/-
The tables the tournament orchestrator works on, and the statements it makes on them. A table is the list of its rows in
the order of their insertion. Timestamps, scores and the columns that no statement of the orchestrator reads are left
out. Ids are generated: each insertion takes one that has not been used before.
-/
import ArenaX.Lib.MachineInt
import ArenaX.Lib.Pairs
import ArenaX.Lib.Statements

namespace ArenaX.Orchestrator

open Machine

structure Uuid where
  value : ℕ
deriving DecidableEq

namespace Sample

def cup : Uuid := ⟨0⟩
def alice : Uuid := ⟨1⟩
def bob : Uuid := ⟨2⟩
def carol : Uuid := ⟨3⟩

end Sample

/-- `not_found` drops the text it is given; a panic ends the request. -/
inductive ApiError where
  | notFound
  | badRequest (message : String)
  | internalError (message : String)
  | databaseError
  | panic
deriving DecidableEq

inductive TournamentStatus where
  | draft
  | upcoming
  | registrationOpen
  | registrationClosed
  | inProgress
  | completed
  | cancelled
deriving DecidableEq

inductive ParticipantStatus where
  | registered
  | paid
  | active
  | eliminated
  | disqualified
  | withdrawn
deriving DecidableEq

inductive RoundType where
  | qualification
  | elimination
  | semifinal
  | final
deriving DecidableEq

inductive RoundStatus where
  | pending
  | inProgress
  | completed
  | cancelled
deriving DecidableEq

inductive MatchStatus where
  | pending
  | scheduled
  | inProgress
  | completed
  | disputed
  | cancelled
  | abandoned
deriving DecidableEq

structure Tournament where
  id : Uuid
  game : String
  bracketType : String
  status : TournamentStatus
deriving DecidableEq

structure TournamentParticipant where
  id : Uuid
  tournamentId : Uuid
  userId : Uuid
  registeredAt : ℤ
  status : ParticipantStatus
  seedNumber : Option I32
deriving DecidableEq

structure UserElo where
  userId : Uuid
  game : String
  currentRating : I32
deriving DecidableEq

structure TournamentRound where
  id : Uuid
  tournamentId : Uuid
  roundNumber : ℕ
  roundType : RoundType
  status : RoundStatus
deriving DecidableEq

/-- Who plays a match, and how it stands. -/
structure Fixture where
  player1Id : Option Uuid
  player2Id : Option Uuid
  winnerId : Option Uuid
  status : MatchStatus
deriving DecidableEq

structure TournamentMatch extends Fixture where
  id : Uuid
  tournamentId : Uuid
  roundId : Uuid
  matchNumber : I32
deriving DecidableEq

structure Database where
  nextId : ℕ
  tournaments : List Tournament
  tournamentParticipants : List TournamentParticipant
  userElo : List UserElo
  tournamentRounds : List TournamentRound
  tournamentMatches : List TournamentMatch
deriving DecidableEq

abbrev Sql (α : Type) := Script ApiError Database α

namespace Fixture

/-- A match to be played. -/
def duel (player1 player2 : Uuid) : Fixture := ⟨some player1, some player2, none, .pending⟩

/-- A player without an opponent goes on to the next round. -/
def bye (player : Uuid) : Fixture := ⟨some player, none, some player, .completed⟩

/-- The match has been played. -/
def won (f : Fixture) (winner : Uuid) : Fixture := { f with winnerId := some winner, status := .completed }

def players (f : Fixture) : List Uuid := f.player1Id.toList ++ f.player2Id.toList

end Fixture

/-- The row after the result of a match is known. -/
def TournamentMatch.record (matchId winner : Uuid) (row : TournamentMatch) : TournamentMatch :=
  if row.id = matchId then { row with toFixture := row.toFixture.won winner } else row

/-- The row after a tournament's status has been set. -/
def Tournament.setStatus (t : Uuid) (status : TournamentStatus) (row : Tournament) : Tournament :=
  if row.id = t then { row with status } else row

/-- The row after a round's status has been set. -/
def TournamentRound.setStatus (roundId : Uuid) (status : RoundStatus) (row : TournamentRound) : TournamentRound :=
  if row.id = roundId then { row with status } else row

/-! ## Statements -/

namespace Database

/-- The rounds of a tournament. -/
def roundsOf (d : Database) (t : Uuid) : List TournamentRound := d.tournamentRounds.filter (·.tournamentId = t)

/-- The matches of a tournament. -/
def matchesOf (d : Database) (t : Uuid) : List TournamentMatch := d.tournamentMatches.filter (·.tournamentId = t)

/-- The matches of a round. -/
def roundMatches (d : Database) (roundId : Uuid) : List TournamentMatch :=
  d.tournamentMatches.filter (·.roundId = roundId)

/-- The matches of a round, `ORDER BY match_number ASC`. -/
def orderedMatches (d : Database) (roundId : Uuid) : List TournamentMatch :=
  (d.roundMatches roundId).insertionSort fun m m' => (m.matchNumber : ℤ) ≤ m'.matchNumber

def findTournament (d : Database) (t : Uuid) : Option Tournament := d.tournaments.find? (·.id = t)

def findRound (d : Database) (roundId : Uuid) : Option TournamentRound := d.tournamentRounds.find? (·.id = roundId)

def setTournamentStatus (t : Uuid) (status : TournamentStatus) (d : Database) : Database :=
  { d with tournaments := d.tournaments.map (·.setStatus t status) }

def setRoundStatus (roundId : Uuid) (status : RoundStatus) (d : Database) : Database :=
  { d with tournamentRounds := d.tournamentRounds.map (·.setStatus roundId status) }

/-- The result of a match. -/
def setWinner (matchId winner : Uuid) (d : Database) : Database :=
  { d with tournamentMatches := d.tournamentMatches.map (·.record matchId winner) }

def setSeed (participantId : Uuid) (seed : I32) (d : Database) : Database :=
  { d with
    tournamentParticipants := d.tournamentParticipants.map fun row =>
      if row.id = participantId then { row with seedNumber := some seed, status := .active } else row }

/-- The database with a new round in progress. -/
def addRound (t : Uuid) (roundNumber : ℕ) (roundType : RoundType) (d : Database) : Database :=
  { d with
    nextId := d.nextId + 1
    tournamentRounds := d.tournamentRounds ++ [⟨⟨d.nextId⟩, t, roundNumber, roundType, .inProgress⟩] }

/-- A tournament has one round of a number. -/
def insertRound (t : Uuid) (roundNumber : ℕ) (roundType : RoundType) (d : Database) :
    Except ApiError (Uuid × Database) :=
  if ∃ row ∈ d.tournamentRounds, row.tournamentId = t ∧ row.roundNumber = roundNumber then .error .databaseError
  else .ok (⟨d.nextId⟩, d.addRound t roundNumber roundType)

def insertMatch (t roundId : Uuid) (matchNumber : I32) (f : Fixture) (d : Database) : Database :=
  { d with
    nextId := d.nextId + 1
    tournamentMatches := d.tournamentMatches ++ [⟨f, ⟨d.nextId⟩, t, roundId, matchNumber⟩] }

end Database

open Script in
/-- One match for each element of a list, numbered on from `idx`; an element without a fixture panics. -/
def insertMatches {α : Type} (t roundId : Uuid) (fixture : α → Option Fixture) : ℕ → List α → Sql Unit
  | _, [] => pure ()
  | idx, a :: rest => do
    let f ← okOr (fixture a) .panic
    update (Database.insertMatch t roundId (i32.wrap (idx + 1)) f)
    insertMatches t roundId fixture (idx + 1) rest

/-! ## The rows of new matches -/

/-- The rows that are inserted for fixtures, with ids from `id` on and numbered on from `idx`. -/
def matchRows (t roundId : Uuid) : ℕ → ℕ → List Fixture → List TournamentMatch
  | _, _, [] => []
  | id, idx, f :: rest => ⟨f, ⟨id⟩, t, roundId, i32.wrap (idx + 1)⟩ :: matchRows t roundId (id + 1) (idx + 1) rest

section matchRows

variable {t roundId : Uuid}

theorem matchRows_toFixture : ∀ (id idx : ℕ) (fs : List Fixture),
    (matchRows t roundId id idx fs).map (·.toFixture) = fs
  | _, _, [] => rfl
  | id, idx, f :: rest => congrArg (f :: ·) (matchRows_toFixture (id + 1) (idx + 1) rest)

theorem length_matchRows (id idx : ℕ) (fs : List Fixture) : (matchRows t roundId id idx fs).length = fs.length := by
  have hfixtures : (matchRows t roundId id idx fs).map (·.toFixture) = fs := matchRows_toFixture id idx fs
  simpa using congrArg List.length hfixtures

theorem matchRows_id : ∀ (id idx : ℕ) (fs : List Fixture),
    (matchRows t roundId id idx fs).map (·.id.value) = List.range' id fs.length
  | _, _, [] => rfl
  | id, idx, _ :: rest => congrArg (id :: ·) (matchRows_id (id + 1) (idx + 1) rest)

theorem of_mem_matchRows {m : TournamentMatch} : ∀ {id idx : ℕ} {fs : List Fixture}, m ∈ matchRows t roundId id idx fs →
    m.tournamentId = t ∧ m.roundId = roundId
  | id, idx, f :: rest, h => by
    rcases List.mem_cons.1 h with rfl | h
    · exact ⟨rfl, rfl⟩
    · exact of_mem_matchRows h

end matchRows

/-- The database with new matches. -/
def Database.addMatches (t roundId : Uuid) (idx : ℕ) (fs : List Fixture) (d : Database) : Database :=
  { d with
    nextId := d.nextId + fs.length
    tournamentMatches := d.tournamentMatches ++ matchRows t roundId d.nextId idx fs }

theorem addMatches_insertMatch {t roundId : Uuid} {f : Fixture} {fs : List Fixture} (idx : ℕ) (d : Database) :
    (d.insertMatch t roundId (i32.wrap (idx + 1)) f).addMatches t roundId (idx + 1) fs =
      d.addMatches t roundId idx (f :: fs) := by
  simp [Database.addMatches, Database.insertMatch, matchRows, Nat.add_assoc, Nat.add_comm 1]

theorem run_insertMatches {α : Type} {t roundId : Uuid} {fixture : α → Option Fixture} :
    ∀ {l : List α} {fs : List Fixture} (idx : ℕ) (d : Database), l.map fixture = fs.map some →
      (insertMatches t roundId fixture idx l).run d = (.ok (), d.addMatches t roundId idx fs)
  | [], [], _, _, _ => by simp [insertMatches, Database.addMatches, matchRows]
  | a :: l, f :: fs, idx, d, h => by
    obtain ⟨ha, hl⟩ := List.cons_eq_cons.1 h
    have hrest : (insertMatches t roundId fixture (idx + 1) l).run
        (d.insertMatch t roundId (i32.wrap (idx + 1)) f) = _ := run_insertMatches (idx + 1) _ hl
    rw [insertMatches, ha]
    refine (Script.run_bind_of_ok (Script.run_pure f d)).trans ?_
    exact (Script.run_bind_of_ok (Script.run_update _ d)).trans (hrest.trans (by rw [addMatches_insertMatch]))

/-! ## Reading after writing -/

section Row

variable {matchId winner t id : Uuid} {status : RoundStatus} {tstatus : TournamentStatus}

@[simp] theorem TournamentMatch.record_id (m : TournamentMatch) : (m.record matchId winner).id = m.id := by
  unfold record
  split <;> rfl

@[simp] theorem TournamentMatch.record_roundId (m : TournamentMatch) :
    (m.record matchId winner).roundId = m.roundId := by
  unfold record
  split <;> rfl

@[simp] theorem TournamentMatch.record_tournamentId (m : TournamentMatch) :
    (m.record matchId winner).tournamentId = m.tournamentId := by
  unfold record
  split <;> rfl

@[simp] theorem TournamentRound.setStatus_id (r : TournamentRound) : (r.setStatus id status).id = r.id := by
  unfold setStatus
  split <;> rfl

@[simp] theorem TournamentRound.setStatus_tournamentId (r : TournamentRound) :
    (r.setStatus id status).tournamentId = r.tournamentId := by
  unfold setStatus
  split <;> rfl

@[simp] theorem TournamentRound.setStatus_roundNumber (r : TournamentRound) :
    (r.setStatus id status).roundNumber = r.roundNumber := by
  unfold setStatus
  split <;> rfl

@[simp] theorem Tournament.setStatus_id (r : Tournament) : (r.setStatus t tstatus).id = r.id := by
  unfold setStatus
  split <;> rfl

end Row

namespace Database

variable {d : Database} {t roundId : Uuid}

theorem roundsOf_setRoundStatus (id : Uuid) (status : RoundStatus) :
    (d.setRoundStatus id status).roundsOf t = (d.roundsOf t).map (·.setStatus id status) := by
  simp [roundsOf, setRoundStatus, List.filter_map, Function.comp_def]

theorem roundMatches_setWinner (matchId winner : Uuid) :
    (d.setWinner matchId winner).roundMatches roundId = (d.roundMatches roundId).map (·.record matchId winner) := by
  simp [roundMatches, setWinner, List.filter_map, Function.comp_def]

theorem matchesOf_setWinner (matchId winner : Uuid) :
    (d.setWinner matchId winner).matchesOf t = (d.matchesOf t).map (·.record matchId winner) := by
  simp [matchesOf, setWinner, List.filter_map, Function.comp_def]

theorem roundsOf_addRound (number : ℕ) (type : RoundType) :
    (d.addRound t number type).roundsOf t = d.roundsOf t ++ [⟨⟨d.nextId⟩, t, number, type, .inProgress⟩] := by
  simp [roundsOf, addRound]

theorem matchesOf_addMatches (idx : ℕ) (fs : List Fixture) : (d.addMatches t roundId idx fs).matchesOf t =
    d.matchesOf t ++ matchRows t roundId d.nextId idx fs := by
  have hall : (matchRows t roundId d.nextId idx fs).filter (·.tournamentId = t) = matchRows t roundId d.nextId idx fs :=
    List.filter_eq_self.2 fun m hm => decide_eq_true (of_mem_matchRows hm).1
  rw [matchesOf, addMatches, List.filter_append, hall]
  rfl

theorem roundMatches_addMatches (idx : ℕ) (fs : List Fixture) : (d.addMatches t roundId idx fs).roundMatches roundId =
    d.roundMatches roundId ++ matchRows t roundId d.nextId idx fs := by
  have hall : (matchRows t roundId d.nextId idx fs).filter (·.roundId = roundId) =
    matchRows t roundId d.nextId idx fs :=
    List.filter_eq_self.2 fun m hm => decide_eq_true (of_mem_matchRows hm).2
  rw [roundMatches, addMatches, List.filter_append, hall]
  rfl

theorem roundMatches_addMatches_of_ne {id : Uuid} (idx : ℕ) (fs : List Fixture) (h : id ≠ roundId) :
    (d.addMatches t roundId idx fs).roundMatches id = d.roundMatches id := by
  have hnone : (matchRows t roundId d.nextId idx fs).filter (·.roundId = id) = [] := by
    refine List.filter_eq_nil_iff.2 fun m hm => ?_
    simpa [(of_mem_matchRows hm).2] using h.symm
  rw [roundMatches, addMatches, List.filter_append, hnone, List.append_nil]
  rfl

end Database

/-! ## Primary keys -/

/-- Ids are unique, and the next one to be generated is new. -/
structure Database.Keyed (d : Database) : Prop where
  roundIds : (d.tournamentRounds.map (·.id)).Nodup
  matchIds : (d.tournamentMatches.map (·.id)).Nodup
  round_lt : ∀ row ∈ d.tournamentRounds, row.id.value < d.nextId
  match_lt : ∀ row ∈ d.tournamentMatches, row.id.value < d.nextId
  matchRound_lt : ∀ row ∈ d.tournamentMatches, row.roundId.value < d.nextId

namespace Database.Keyed

variable {d : Database} {t roundId : Uuid}

theorem setTournamentStatus (h : d.Keyed) (status : TournamentStatus) : (d.setTournamentStatus t status).Keyed :=
  ⟨h.roundIds, h.matchIds, h.round_lt, h.match_lt, h.matchRound_lt⟩

theorem setRoundStatus (h : d.Keyed) (status : RoundStatus) : (d.setRoundStatus roundId status).Keyed where
  roundIds := by simpa [Database.setRoundStatus, Function.comp_def] using h.roundIds
  matchIds := h.matchIds
  round_lt := by simpa [Database.setRoundStatus] using h.round_lt
  match_lt := h.match_lt
  matchRound_lt := h.matchRound_lt

theorem setWinner (h : d.Keyed) (matchId winner : Uuid) : (d.setWinner matchId winner).Keyed where
  roundIds := h.roundIds
  matchIds := by simpa [Database.setWinner, Function.comp_def] using h.matchIds
  round_lt := h.round_lt
  match_lt := by simpa [Database.setWinner] using h.match_lt
  matchRound_lt := by simpa [Database.setWinner] using h.matchRound_lt

theorem addRound (h : d.Keyed) (number : ℕ) (type : RoundType) : (d.addRound t number type).Keyed where
  roundIds := by
    simp only [Database.addRound, List.map_append, List.map_singleton]
    refine List.nodup_append.2 ⟨h.roundIds, List.nodup_singleton _, ?_⟩
    intro x hx y hy hxy
    obtain ⟨row, hrow, rfl⟩ := List.mem_map.1 hx
    have := h.round_lt row hrow
    rw [List.mem_singleton.1 hy] at hxy
    rw [hxy] at this
    exact absurd this (lt_irrefl _)
  matchIds := h.matchIds
  round_lt row hrow := by
    rcases List.mem_append.1 hrow with hrow | hrow
    · exact (h.round_lt row hrow).trans (Nat.lt_succ_self _)
    · rw [List.mem_singleton.1 hrow]
      exact Nat.lt_succ_self _
  match_lt row hrow := (h.match_lt row hrow).trans (Nat.lt_succ_self _)
  matchRound_lt row hrow := (h.matchRound_lt row hrow).trans (Nat.lt_succ_self _)

theorem addMatches (h : d.Keyed) (hround : roundId.value < d.nextId) (idx : ℕ) (fs : List Fixture) :
    (d.addMatches t roundId idx fs).Keyed := by
  have hnew : ∀ m ∈ matchRows t roundId d.nextId idx fs, d.nextId ≤ m.id.value ∧ m.id.value < d.nextId + fs.length := by
    intro m hm
    have := List.mem_map_of_mem (f := (·.id.value)) hm
    rwa [matchRows_id, List.mem_range'_1] at this
  have hlt : ∀ {x : ℕ}, x < d.nextId → x < d.nextId + fs.length := fun hx => by omega
  refine ⟨h.roundIds, ?_, fun row hrow => hlt (h.round_lt row hrow), ?_, ?_⟩
  · simp only [Database.addMatches, List.map_append]
    refine List.nodup_append.2 ⟨h.matchIds, ?_, ?_⟩
    · have hids : ((matchRows t roundId d.nextId idx fs).map (·.id)).map Uuid.value =
        List.range' d.nextId fs.length := by
        rw [List.map_map]
        exact matchRows_id d.nextId idx fs
      exact List.Nodup.of_map Uuid.value (hids ▸ List.nodup_range')
    · intro x hx y hy hxy
      obtain ⟨m, hm, rfl⟩ := List.mem_map.1 hx
      obtain ⟨m', hm', rfl⟩ := List.mem_map.1 hy
      have h1 := h.match_lt m hm
      have h2 := hnew m' hm'
      rw [hxy] at h1
      omega
  · intro row hrow
    rcases List.mem_append.1 hrow with hrow | hrow
    · exact hlt (h.match_lt row hrow)
    · exact (hnew row hrow).2
  · intro row hrow
    rcases List.mem_append.1 hrow with hrow | hrow
    · exact hlt (h.matchRound_lt row hrow)
    · rw [(of_mem_matchRows hrow).2]
      exact hlt hround

/-- No match belongs to a round that has not been created. -/
theorem roundMatches_nextId (h : d.Keyed) : d.roundMatches ⟨d.nextId⟩ = [] := by
  refine List.filter_eq_nil_iff.2 fun m hm heq => ?_
  have := h.matchRound_lt m hm
  rw [of_decide_eq_true heq] at this
  exact absurd this (lt_irrefl _)

/-- A round is found by its id. -/
theorem findRound (h : d.Keyed) {round : TournamentRound} (hround : round ∈ d.tournamentRounds) :
    d.findRound round.id = some round := by
  obtain ⟨row, hrow⟩ := Option.isSome_iff_exists.1 (List.find?_isSome.2 ⟨round, hround, decide_eq_true rfl⟩ :
    (d.findRound round.id).isSome)
  have hid := List.find?_some hrow
  refine hrow.trans (congrArg some ?_)
  exact List.inj_on_of_nodup_map h.roundIds (List.mem_of_find?_eq_some hrow) hround (of_decide_eq_true hid)

theorem map_record_of_ne {matchId winner : Uuid} {l : List TournamentMatch} (h : ∀ m ∈ l, m.id ≠ matchId) :
    l.map (·.record matchId winner) = l :=
  (List.map_congr_left fun m hm => if_neg (h m hm)).trans (List.map_id l)

/-- Writing the result of a match changes that match only. -/
theorem map_record (h : d.Keyed) {m : TournamentMatch} {winner : Uuid} {l l' : List TournamentMatch}
    (hsub : (l ++ m :: l').Sublist d.tournamentMatches) : (l ++ m :: l').map (·.record m.id winner) =
      l ++ { m with toFixture := m.toFixture.won winner } :: l' := by
  have hnodup := h.matchIds.sublist (hsub.map (·.id))
  rw [List.map_append, List.map_cons, List.nodup_middle, List.nodup_cons] at hnodup
  have hother : ∀ x ∈ l ++ l', x.id ≠ m.id := by
    intro x hx hid
    rw [← List.map_append] at hnodup
    exact hnodup.1 (hid ▸ List.mem_map_of_mem hx)
  rw [List.map_append, List.map_cons, map_record_of_ne fun x hx => hother x (by simp [hx]),
    map_record_of_ne fun x hx => hother x (by simp [hx])]
  exact congrArg (l ++ · :: l') (if_pos rfl)

end Database.Keyed

end ArenaX.Orchestrator
