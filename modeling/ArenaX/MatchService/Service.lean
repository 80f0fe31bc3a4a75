/-
The functions of the match service that report, settle and rate a match. No function opens a transaction: every
statement is committed on its own. How much a result is worth is a parameter. Events, the reputation service and the
advancement of a tournament's round, which write none of these tables, are left out.
-/
import ArenaX.MatchService.Tables

namespace ArenaX.MatchService

open Script
open Orchestrator (Uuid)

/-- Who has won, as the ratings see it. -/
inductive Outcome where
  | player1
  | player2
  | draw
deriving DecidableEq

/-- What both players' ratings change by, from their ratings and the outcome. -/
abbrev Delta := ℤ → ℤ → Outcome → ℤ × ℤ

structure ReportScoreRequest where
  score : ℤ
  opponentScore : ℤ
deriving DecidableEq

/-! ## Ratings -/

def getUserElo (userId : Uuid) (game : String) : Sql ℤ := do
  let eloRecord ← query (·.findElo userId game)
  pure ((eloRecord.map (·.currentRating)).getD 1200)

def createMatch (matchId player1Id : Uuid) (player2Id : Option Uuid) (gameMode : String) : Sql Match := do
  let player1Elo ← getUserElo player1Id gameMode
  let player2Elo ← match player2Id with
    | some p2Id => some <$> getUserElo p2Id gameMode
    | none => pure none
  change (·.insertMatch
    { id := matchId, status := .pending, player1Id, player2Id, winnerId := none, player1Score := none,
      player2Score := none, player1EloBefore := some player1Elo, player2EloBefore := player2Elo,
      player1EloAfter := none, player2EloAfter := none, gameMode, conflictReason := none })

def getMatchById (matchId : Uuid) : Sql Match := do
  let row ← query (·.findMatch matchId)
  okOr row .notFound

def determineWinner (matchRecord : Match) : Option Uuid :=
  match compare (matchRecord.player1Score.getD 0) (matchRecord.player2Score.getD 0) with
  | .gt => some matchRecord.player1Id
  | .lt => matchRecord.player2Id
  | .eq => none

def outcomeOf (winnerId : Option Uuid) (player1Id player2Id : Uuid) : Outcome :=
  match winnerId with
  | some winner => if winner = player1Id then .player1 else if winner = player2Id then .player2 else .draw
  | none => .draw

def calculateEloChange (delta : Delta) (player1Elo player2Elo : ℤ) (winnerId : Option Uuid)
    (player1Id player2Id : Uuid) : ℤ × ℤ :=
  let change := delta player1Elo player2Elo (outcomeOf winnerId player1Id player2Id)
  (player1Elo + change.1, player2Elo + change.2)

/-- A player's row after a result; all but the number of games comes from the record that was read before. -/
def UserElo.played (eloRecord : UserElo) (newElo : ℤ) (result : MatchResult) (row : UserElo) : UserElo :=
  let row := { row with
    currentRating := newElo, peakRating := max eloRecord.peakRating newElo, gamesPlayed := row.gamesPlayed + 1 }
  match result with
  | .win => { row with wins := eloRecord.wins + 1, losses := eloRecord.losses, draws := eloRecord.draws,
                       winStreak := eloRecord.winStreak + 1, lossStreak := 0 }
  | .loss => { row with wins := eloRecord.wins, losses := eloRecord.losses + 1, draws := eloRecord.draws,
                        winStreak := 0, lossStreak := eloRecord.lossStreak + 1 }
  | .draw => { row with wins := eloRecord.wins, losses := eloRecord.losses, draws := eloRecord.draws + 1,
                        winStreak := 0, lossStreak := 0 }

/-- A player's first row. -/
def UserElo.first (userId : Uuid) (game : String) (newElo : ℤ) : MatchResult → UserElo
  | .win => ⟨userId, game, newElo, newElo, 1, 1, 0, 0, 1, 0⟩
  | .loss => ⟨userId, game, newElo, newElo, 1, 0, 1, 0, 0, 1⟩
  | .draw => ⟨userId, game, newElo, newElo, 1, 0, 0, 1, 0, 0⟩

def updateUserElo (userId : Uuid) (game : String) (newElo : ℤ) (result : MatchResult) : Sql Unit := do
  match ← query (·.findElo userId game) with
  | some eloRecord => update (Tables.updateElo userId game (eloRecord.played newElo result))
  | none => change (·.insertElo (UserElo.first userId game newElo result))

/-- A player's result; the source tests for the player's own win first. -/
def resultOf (winnerId : Option Uuid) (player opponent : Uuid) : MatchResult :=
  if winnerId = some player then .win else if winnerId = some opponent then .loss else .draw

def updateEloRatings (delta : Delta) (matchRecord : Match) (winnerId : Option Uuid) : Sql Unit :=
  match matchRecord.player2Id with
  | none => pure ()
  | some player2Id => do
    let player1Elo := matchRecord.player1EloBefore.getD 1200
    let player2Elo := matchRecord.player2EloBefore.getD 1200
    let newElo := calculateEloChange delta player1Elo player2Elo winnerId matchRecord.player1Id player2Id
    updateUserElo matchRecord.player1Id matchRecord.gameMode newElo.1
      (resultOf winnerId matchRecord.player1Id player2Id)
    updateUserElo player2Id matchRecord.gameMode newElo.2 (resultOf winnerId player2Id matchRecord.player1Id)
    update (Tables.updateMatch matchRecord.id fun row => { row with
      player1EloAfter := some newElo.1, player2EloAfter := some newElo.2 })

/-- The ratings after the match are those of the record that was read before they were written. -/
def createEloHistory (matchRecord : Match) (winnerId : Option Uuid) : Sql Unit :=
  match matchRecord.player2Id with
  | none => pure ()
  | some player2Id => do
    let player1EloBefore := matchRecord.player1EloBefore.getD 1200
    let player2EloBefore := matchRecord.player2EloBefore.getD 1200
    let player1EloAfter := matchRecord.player1EloAfter.getD 1200
    let player2EloAfter := matchRecord.player2EloAfter.getD 1200
    update (Tables.insertHistory ⟨matchRecord.player1Id, matchRecord.gameMode, matchRecord.id, player1EloBefore,
      player1EloAfter, player1EloAfter - player1EloBefore, player2Id, player2EloBefore,
      resultOf winnerId matchRecord.player1Id player2Id⟩)
    update (Tables.insertHistory ⟨player2Id, matchRecord.gameMode, matchRecord.id, player2EloBefore, player2EloAfter,
      player2EloAfter - player2EloBefore, matchRecord.player1Id, player1EloBefore,
        resultOf winnerId player2Id matchRecord.player1Id⟩)

def processMatchCompletion (delta : Delta) (matchId : Uuid) : Sql Unit := do
  let matchRecord ← getMatchById matchId
  let winnerId := determineWinner matchRecord
  update (Tables.updateMatch matchId fun row => { row with winnerId, status := .completed })
  updateEloRatings delta matchRecord winnerId
  createEloHistory matchRecord winnerId

/-! ## Score reports -/

def maxAttemptsPerMatch : ℕ := 5

def enforceReportRateLimit (matchId playerId : Uuid) : Sql Unit := do
  update (Tables.insertAttempt matchId playerId)
  let total ← query (·.countAttempts matchId playerId)
  reject (maxAttemptsPerMatch < total)
    (.tooManyRequests ("Score report rate limit exceeded (max " ++ toString maxAttemptsPerMatch ++
      " attempts per match). Please contact support if you believe this is an error."))

/-- Whether the user plays the match. -/
def Match.HasPlayer (m : Match) (userId : Uuid) : Prop := userId = m.player1Id ∨ m.player2Id = some userId
deriving Decidable

def validateScoreReport (matchRecord : Match) (userId : Uuid) : Sql Unit := do
  reject (¬ matchRecord.HasPlayer userId) .forbidden
  match matchRecord.status with
  | .inProgress => pure ()
  | .completed | .conflict | .cancelled | .abandoned =>
    throw (.badRequest ("Cannot report score: match is already finished (status: " ++ matchRecord.status.debug ++ ")"))
  | _ => throw (.badRequest "Match has not started yet")
  let existingScore ← query (·.findScore matchRecord.id userId)
  reject (existingScore.isSome) (.badRequest "Score already reported for this match")

def updateMatchScore (matchId userId : Uuid) (score : ℤ) : Sql Unit := do
  let matchRecord ← getMatchById matchId
  if userId = matchRecord.player1Id then
    update (Tables.updateMatch matchId fun row => { row with player1Score := some score })
  else if matchRecord.player2Id = some userId then
    update (Tables.updateMatch matchId fun row => { row with player2Score := some score })
  else
    pure ()

def bothPlayersReportedScores (matchId : Uuid) : Sql Bool := do
  let matchRecord ← getMatchById matchId
  let player1Reported ← query (·.findScore matchId matchRecord.player1Id)
  let player2Reported ← match matchRecord.player2Id with
    | some p2Id => query fun s => (s.findScore matchId p2Id).isSome
    | none => pure true
  pure (player1Reported.isSome && player2Reported)

/-- The winner a report names: the reporter, the opponent, or none. -/
def claims (report : MatchScore) (reporter opponent : Uuid) : Option Uuid :=
  match compare report.score (report.opponentScore.getD 0) with
  | .gt => some reporter
  | .lt => some opponent
  | .eq => none

def detectScoreConflict (matchId : Uuid) : Sql Bool := do
  let matchRecord ← getMatchById matchId
  match matchRecord.player2Id with
  | none => pure false
  | some p2Id =>
    let p1Report ← query (·.findScore matchId matchRecord.player1Id)
    let p2Report ← query (·.findScore matchId p2Id)
    match p1Report, p2Report with
    | some p1, some p2 => pure (claims p1 matchRecord.player1Id p2Id ≠ claims p2 p2Id matchRecord.player1Id)
    | _, _ => pure false

def conflictReason : Option MatchScore → Option MatchScore → String
  | some p1, some p2 =>
    "Score discrepancy: Player A reported " ++ toString p1.score ++ "-" ++ toString (p1.opponentScore.getD 0) ++
      ", Player B reported " ++ toString (p2.opponentScore.getD 0) ++ "-" ++ toString p2.score
  | _, _ => "Conflict detected: unable to compare score reports"

def processConflict (matchId : Uuid) : Sql Unit := do
  let matchRecord ← getMatchById matchId
  let p2Id ← okOr matchRecord.player2Id (.badRequest "Match has no second player")
  let p1Report ← query (·.findScore matchId matchRecord.player1Id)
  let p2Report ← query (·.findScore matchId p2Id)
  update (Tables.updateMatch matchId fun row =>
    { row with status := .conflict, conflictReason := some (conflictReason p1Report p2Report) })

def reportScore (delta : Delta) (matchId userId : Uuid) (request : ReportScoreRequest) : Sql MatchScore := do
  enforceReportRateLimit matchId userId
  let matchRecord ← getMatchById matchId
  validateScoreReport matchRecord userId
  let scoreRecord : MatchScore := ⟨matchId, userId, request.score, some request.opponentScore⟩
  update (Tables.insertScore scoreRecord)
  update (Tables.acceptLastAttempt matchId userId)
  updateMatchScore matchId userId request.score
  let bothReported ← bothPlayersReportedScores matchId
  if bothReported then
    let hasConflict ← detectScoreConflict matchId
    if hasConflict then
      processConflict matchId
    else
      processMatchCompletion delta matchId
  pure scoreRecord

end ArenaX.MatchService
