/-
The round advancement worker. When the last match of a round is over, the players who advance are paired for the next
round, or the tournament is completed. The payout that is triggered then works on other tables, and its errors are only
logged; it is left out.
-/
import ArenaX.Lib.Pairs
import ArenaX.Orchestrator.Database

namespace ArenaX.Orchestrator

open Script

namespace Fixture

/-- `status NOT IN ('completed', 'cancelled')`. -/
def Pending (f : Fixture) : Prop := f.status ≠ .completed ∧ f.status ≠ .cancelled
deriving Decidable

/-- The player who advances from a match. -/
def advances (f : Fixture) : Option Uuid := match f.status with
  | .completed => f.winnerId
  -- the first player goes on, with an opponent as without one
  | .cancelled => f.player1Id
  | _ => none

end Fixture

/-- The players who advance from a round, by the numbers of their matches. -/
def Database.advancing (d : Database) (roundId : Uuid) : List Uuid :=
  (d.orderedMatches roundId).filterMap (·.advances)

/-- The type of the next round, by the number of players in it. -/
def nextRoundType : ℕ → RoundType
  | 2 => .final
  | 3 => .semifinal
  | 4 => .semifinal
  | _ => .elimination

def duels (players : List Uuid) : List Fixture := players.pairs.map fun pair => .duel pair.1 pair.2

/-- The next round's matches: of an odd number of players, the first has a bye. -/
def nextFixtures (advancing : List Uuid) : List Fixture := match advancing with
  | [] => []
  | first :: rest => if advancing.length % 2 ≠ 0 then .bye first :: duels rest else duels advancing

def onMatchCompleted (t roundId : Uuid) : Sql Unit := do
  let pendingCount ← query fun d => (d.roundMatches roundId).countP (·.Pending)
  if 0 < pendingCount then pure () else do
    let row ← query (·.findRound roundId)
    let round ← okOr row .notFound
    let next ← query fun d =>
      d.tournamentRounds.find? fun row => row.tournamentId = t ∧ round.roundNumber < row.roundNumber
    if next.isSome then pure () else do
      update (Database.setRoundStatus roundId .completed)
      let advancing ← query (·.advancing roundId)
      if advancing.length ≤ 1 then
        update (Database.setTournamentStatus t .completed)
      else do
        let nextRoundNumber := round.roundNumber + 1
        let newRoundId ← change (Database.insertRound t nextRoundNumber (nextRoundType advancing.length))
        insertMatches t newRoundId some 0 (nextFixtures advancing)

/-! ## What a call does when it runs alone -/

section Run

variable {t roundId : Uuid} {round : TournamentRound} {d : Database}

/-- The database after a round is over and the tournament goes on with the players who advance. -/
def Database.nextRound (t : Uuid) (round : TournamentRound) (d : Database) : Database :=
  let advancing := d.advancing round.id
  ((d.setRoundStatus round.id .completed).addRound t (round.roundNumber + 1)
    (nextRoundType advancing.length)).addMatches t ⟨d.nextId⟩ 0 (nextFixtures advancing)

/-- The database after the last round is over. -/
def Database.finish (t roundId : Uuid) (d : Database) : Database :=
  (d.setRoundStatus roundId .completed).setTournamentStatus t .completed

@[simp] theorem advancing_setRoundStatus (status : RoundStatus) (id : Uuid) :
    (d.setRoundStatus roundId status).advancing id = d.advancing id := rfl

theorem run_of_pending (h : 0 < (d.roundMatches roundId).countP (·.Pending)) :
    (onMatchCompleted t roundId).run d = (.ok (), d) := by
  simp [onMatchCompleted, run_bind, h]

/-- The number after the last one is free for the next round. -/
theorem insertRound_setRoundStatus {roundType : RoundType}
    (hlast : ¬ ∃ row ∈ d.tournamentRounds, row.tournamentId = t ∧ round.roundNumber < row.roundNumber) :
    (d.setRoundStatus round.id .completed).insertRound t (round.roundNumber + 1) roundType =
      .ok (⟨d.nextId⟩, (d.setRoundStatus round.id .completed).addRound t (round.roundNumber + 1) roundType) := by
  refine if_neg ?_
  rintro ⟨row, hrow, ht, hnumber⟩
  obtain ⟨_, hrow', rfl⟩ := List.mem_map.1 hrow
  rw [TournamentRound.setStatus_tournamentId] at ht
  rw [TournamentRound.setStatus_roundNumber] at hnumber
  exact hlast ⟨_, hrow', ht, by omega⟩

/-- What the statements do once no match of the round is pending. -/
theorem run_of_over (hover : (d.roundMatches round.id).countP (·.Pending) = 0)
    (hround : d.findRound round.id = some round) : (onMatchCompleted t round.id).run d =
      if ∃ row ∈ d.tournamentRounds, row.tournamentId = t ∧ round.roundNumber < row.roundNumber then (.ok (), d)
      else if (d.advancing round.id).length ≤ 1 then (.ok (), d.finish t round.id)
      else (.ok (), d.nextRound t round) := by
  simp only [onMatchCompleted, run_bind, run_query, run_ite, run_update, run_pure, hover, hround, okOr, lt_irrefl,
    if_false, List.find?_isSome, decide_eq_true_eq, advancing_setRoundStatus]
  split_ifs with hlater hone
  · rfl
  · rfl
  · rw [run_change_of_ok (insertRound_setRoundStatus hlater)]
    exact run_insertMatches 0 _ rfl

end Run

end ArenaX.Orchestrator
