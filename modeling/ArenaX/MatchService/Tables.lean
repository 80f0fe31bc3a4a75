/-
The tables that the match service works on, and the statements it makes on them. A table is the list of its rows in the
order of their insertion. Ratings, scores and counters are taken to stay within INTEGER. Timestamps and the columns that
no statement reads are left out.
-/
import ArenaX.Lib.Rows
import ArenaX.Lib.Statements
import ArenaX.Orchestrator.Database

namespace ArenaX.MatchService

open Orchestrator (Uuid)

/-- `not_found` and `forbidden` drop the text they are given. -/
inductive ApiError where
  | notFound
  | badRequest (message : String)
  | forbidden
  | tooManyRequests (message : String)
  | databaseError
deriving DecidableEq

inductive MatchStatus where
  | pending
  | scheduled
  | inProgress
  | completed
  | conflict
  | disputed
  | cancelled
  | abandoned
deriving DecidableEq

/-- The status as `{:?}` prints it. -/
def MatchStatus.debug : MatchStatus → String
  | .pending => "Pending"
  | .scheduled => "Scheduled"
  | .inProgress => "InProgress"
  | .completed => "Completed"
  | .conflict => "Conflict"
  | .disputed => "Disputed"
  | .cancelled => "Cancelled"
  | .abandoned => "Abandoned"

inductive MatchResult where
  | win
  | loss
  | draw
deriving DecidableEq

structure Match where
  id : Uuid
  status : MatchStatus
  player1Id : Uuid
  player2Id : Option Uuid
  winnerId : Option Uuid
  player1Score : Option ℤ
  player2Score : Option ℤ
  player1EloBefore : Option ℤ
  player2EloBefore : Option ℤ
  player1EloAfter : Option ℤ
  player2EloAfter : Option ℤ
  gameMode : String
  conflictReason : Option String
deriving DecidableEq

structure MatchScore where
  matchId : Uuid
  playerId : Uuid
  score : ℤ
  opponentScore : Option ℤ
deriving DecidableEq

structure ScoreReportAttempt where
  matchId : Uuid
  playerId : Uuid
  accepted : Bool
deriving DecidableEq

structure UserElo where
  userId : Uuid
  game : String
  currentRating : ℤ
  peakRating : ℤ
  gamesPlayed : ℤ
  wins : ℤ
  losses : ℤ
  draws : ℤ
  winStreak : ℤ
  lossStreak : ℤ
deriving DecidableEq

structure EloHistory where
  userId : Uuid
  game : String
  matchId : Uuid
  ratingBefore : ℤ
  ratingAfter : ℤ
  ratingChange : ℤ
  opponentId : Uuid
  opponentRating : ℤ
  result : MatchResult
deriving DecidableEq

structure Tables where
  matchRows : List Match
  matchScores : List MatchScore
  scoreReportAttempts : List ScoreReportAttempt
  userElo : List UserElo
  eloHistory : List EloHistory
deriving DecidableEq

abbrev Sql (α : Type) := Script ApiError Tables α

/-- `UNIQUE(user_id, game)` -/
def UserElo.key (row : UserElo) : Uuid × String := (row.userId, row.game)

def MatchScore.key (row : MatchScore) : Uuid × Uuid := (row.matchId, row.playerId)

def ScoreReportAttempt.key (row : ScoreReportAttempt) : Uuid × Uuid := (row.matchId, row.playerId)

/-- The last of a player's attempts, `ORDER BY attempted_at DESC LIMIT 1`, is accepted. -/
def acceptLast (key : Uuid × Uuid) : List ScoreReportAttempt → List ScoreReportAttempt
  | [] => []
  | row :: rest =>
    if row.key = key ∧ ∀ row' ∈ rest, row'.key ≠ key then { row with accepted := true } :: rest
    else row :: acceptLast key rest

namespace Tables

def findMatch (s : Tables) (matchId : Uuid) : Option Match := Rows.find Match.id matchId s.matchRows

def updateMatch (matchId : Uuid) (f : Match → Match) (s : Tables) : Tables :=
  { s with matchRows := Rows.modify Match.id matchId f s.matchRows }

/-- The primary key refuses an id that is in use. -/
def insertMatch (row : Match) (s : Tables) : Except ApiError (Match × Tables) :=
  if s.findMatch row.id = none then .ok (row, { s with matchRows := s.matchRows ++ [row] }) else .error .databaseError

def findScore (s : Tables) (matchId playerId : Uuid) : Option MatchScore :=
  Rows.find MatchScore.key (matchId, playerId) s.matchScores

def insertScore (row : MatchScore) (s : Tables) : Tables := { s with matchScores := s.matchScores ++ [row] }

def insertAttempt (matchId playerId : Uuid) (s : Tables) : Tables :=
  { s with scoreReportAttempts := s.scoreReportAttempts ++ [⟨matchId, playerId, false⟩] }

def countAttempts (s : Tables) (matchId playerId : Uuid) : ℕ :=
  s.scoreReportAttempts.countP fun row => row.key = (matchId, playerId)

def acceptLastAttempt (matchId playerId : Uuid) (s : Tables) : Tables :=
  { s with scoreReportAttempts := acceptLast (matchId, playerId) s.scoreReportAttempts }

def findElo (s : Tables) (userId : Uuid) (game : String) : Option UserElo :=
  Rows.find UserElo.key (userId, game) s.userElo

def updateElo (userId : Uuid) (game : String) (f : UserElo → UserElo) (s : Tables) : Tables :=
  { s with userElo := Rows.modify UserElo.key (userId, game) f s.userElo }

def insertElo (row : UserElo) (s : Tables) : Except ApiError (Unit × Tables) :=
  if s.findElo row.userId row.game = none then .ok ((), { s with userElo := s.userElo ++ [row] })
    else .error .databaseError

def insertHistory (row : EloHistory) (s : Tables) : Tables := { s with eloHistory := s.eloHistory ++ [row] }

end Tables

end ArenaX.MatchService
