/-
Final ranks. `compute_rankings` goes through the rounds from the last one back, and gives those who lost a match of a
round the next free rank. When every match has been played, these are the places of the participants, grouped by the
round they went out in. Nobody has lost a match that was cancelled: its second player, who is out as well, is given no
rank.
-/
import ArenaX.Orchestrator.Books
import ArenaX.Orchestrator.Workers

namespace ArenaX.Orchestrator

open Script

namespace Fixture

/-- The player who is not the winner. -/
def loserTo (f : Fixture) (winner : Uuid) : Option Uuid :=
  if f.player1Id = some winner then f.player2Id else f.player1Id

/-- Only a match of two players has a loser. -/
def loser (f : Fixture) : Option Uuid := if f.player2Id.isNone then none else f.winnerId.bind f.loserTo

end Fixture

/-! ## The program -/

/-- The winner and the loser of the last round. -/
def finalists (rows : List TournamentMatch) : Option Uuid × Option Uuid :=
  rows.foldl (fun found m => match m.winnerId with
    | some winner => (some winner, m.loserTo winner)
    | none => found) (none, none)

def rankPlayer (t : Uuid) (rank : ℕ) : Option Uuid → Script ApiError Books Unit
  | some user => update (Books.setRank t user rank)
  | none => pure ()

/-- Ranks the losers of matches, and counts them. -/
def rankLosers (t : Uuid) (rank : ℕ) : ℕ → List TournamentMatch → Script ApiError Books ℕ
  | loserCount, [] => pure loserCount
  | loserCount, m :: rest => match m.loser with
    | some user => do
      update (Books.setRank t user rank)
      rankLosers t rank (loserCount + 1) rest
    | none => rankLosers t rank loserCount rest

def rankRounds (t : Uuid) : ℕ → ℕ → List TournamentRound → Script ApiError Books Unit
  | _, _, [] => pure ()
  | iteration, currentRank, round :: rest => do
    let matchRows ← query (·.completedMatches round.id)
    if iteration = 0 then do
      rankPlayer t currentRank (finalists matchRows).1
      rankPlayer t (currentRank + 1) (finalists matchRows).2
      rankRounds t (iteration + 1) (currentRank + 2) rest
    else do
      let loserCount ← rankLosers t currentRank 0 matchRows
      rankRounds t (iteration + 1) (currentRank + loserCount) rest

def computeRankings (t : Uuid) : Script ApiError Books Unit := do
  let rounds ← query (·.roundsDesc t)
  if rounds = [] then throw (.badRequest "No rounds found for tournament") else do
    rankRounds t 0 1 rounds
    update (Books.eliminate t)

end ArenaX.Orchestrator
