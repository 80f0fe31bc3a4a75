/-
What the functions that settle a match do to the tables when they run alone: a completion writes the winner and the
status, plays both ratings, and adds a line of history for each player; a report that is accepted adds a score, and
settles the match once both players have reported.
-/
import ArenaX.MatchService.Service

namespace ArenaX.MatchService

open Script Tables
open Orchestrator (Uuid)

variable {delta : Delta} {s : Tables} {matchId userId : Uuid} {m : Match}

/-! ## Matches -/

section Matches

variable {f : Match → Match}

theorem id_of_findMatch (h : s.findMatch matchId = some m) : m.id = matchId := Rows.key_of_find h

theorem findMatch_updateMatch (hf : ∀ row, (f row).id = row.id) (h : s.findMatch matchId = some m) :
    (s.updateMatch matchId f).findMatch matchId = some (f m) := by
  unfold findMatch at h
  rw [updateMatch, findMatch, Rows.find_modify_self hf, h, Option.map_some]

theorem run_getMatchById (h : s.findMatch matchId = some m) : (getMatchById matchId).run s = (.ok m, s) := by
  unfold getMatchById
  rw [run_query_bind, h]
  rfl

end Matches

/-! ## Ratings -/

namespace Tables

/-- A player's rating after a game. -/
def rate (userId : Uuid) (game : String) (newElo : ℤ) (result : MatchResult) (s : Tables) : Tables :=
  match s.findElo userId game with
  | some eloRecord => s.updateElo userId game (eloRecord.played newElo result)
  | none => { s with userElo := s.userElo ++ [UserElo.first userId game newElo result] }

/-- The row of a game, the player's first one or another. -/
def ratedRow (s : Tables) (userId : Uuid) (game : String) (newElo : ℤ) (result : MatchResult) : UserElo :=
  match s.findElo userId game with
  | some eloRecord => eloRecord.played newElo result eloRecord
  | none => UserElo.first userId game newElo result

end Tables

/-- The ratings that a completion writes. -/
def Match.newElo (delta : Delta) (m : Match) (p2 : Uuid) : ℤ × ℤ :=
  calculateEloChange delta (m.player1EloBefore.getD 1200) (m.player2EloBefore.getD 1200) (determineWinner m)
    m.player1Id p2

/-- The lines of history that a completion adds. -/
def Match.history (m : Match) (p2 : Uuid) : List EloHistory :=
  [⟨m.player1Id, m.gameMode, m.id, m.player1EloBefore.getD 1200, m.player1EloAfter.getD 1200,
      m.player1EloAfter.getD 1200 - m.player1EloBefore.getD 1200, p2, m.player2EloBefore.getD 1200,
      resultOf (determineWinner m) m.player1Id p2⟩,
    ⟨p2, m.gameMode, m.id, m.player2EloBefore.getD 1200, m.player2EloAfter.getD 1200,
      m.player2EloAfter.getD 1200 - m.player2EloBefore.getD 1200, m.player1Id, m.player1EloBefore.getD 1200,
      resultOf (determineWinner m) p2 m.player1Id⟩]

namespace Tables

/-- Both players' ratings after a match. -/
def rateBoth (delta : Delta) (m : Match) (p2 : Uuid) (s : Tables) : Tables :=
  (s.rate m.player1Id m.gameMode (m.newElo delta p2).1 (resultOf (determineWinner m) m.player1Id p2)).rate p2 m.gameMode
    (m.newElo delta p2).2 (resultOf (determineWinner m) p2 m.player1Id)

/-- All that a completion writes. -/
def complete (delta : Delta) (matchId : Uuid) (m : Match) (s : Tables) : Tables :=
  let s := s.updateMatch matchId fun row => { row with winnerId := determineWinner m, status := .completed }
  match m.player2Id with
  | none => s
  | some p2 =>
    let s := (s.rateBoth delta m p2).updateMatch m.id fun row =>
      { row with player1EloAfter := some (m.newElo delta p2).1, player2EloAfter := some (m.newElo delta p2).2 }
    { s with eloHistory := s.eloHistory ++ m.history p2 }

variable {game game' : String} {newElo : ℤ} {result : MatchResult} {userId' : Uuid}

theorem key_played {eloRecord : UserElo} (row : UserElo) : (eloRecord.played newElo result row).key = row.key := by
  cases result <;> rfl

theorem key_first : (UserElo.first userId game newElo result).key = (userId, game) := by
  cases result <;> rfl

theorem findElo_rate_self :
    (s.rate userId game newElo result).findElo userId game = some (s.ratedRow userId game newElo result) := by
  unfold rate ratedRow
  split
  · rename_i eloRecord h
    unfold findElo at h
    rw [findElo, updateElo, Rows.find_modify_self key_played, h, Option.map_some]
  · rename_i h
    unfold findElo at h
    rw [findElo, Rows.find_concat, h, Option.none_or, if_pos key_first]

theorem findElo_rate_of_ne (hne : (userId', game') ≠ (userId, game)) :
    (s.rate userId game newElo result).findElo userId' game' = s.findElo userId' game' := by
  unfold rate
  split
  · exact Rows.find_modify_of_ne key_played hne
  · rw [findElo, Rows.find_concat, key_first, if_neg fun h => hne h.symm, Option.or_none, findElo]

@[simp] theorem matchRows_rate : (s.rate userId game newElo result).matchRows = s.matchRows := by
  unfold rate
  split <;> rfl

@[simp] theorem eloHistory_rate : (s.rate userId game newElo result).eloHistory = s.eloHistory := by
  unfold rate
  split <;> rfl

end Tables

theorem run_updateUserElo {game : String} {newElo : ℤ} {result : MatchResult} :
    (updateUserElo userId game newElo result).run s = (.ok (), s.rate userId game newElo result) := by
  -- the case is split before unfolding: the program and the table function may or may not share their matcher
  cases h : s.findElo userId game with
  | some _ =>
    simp only [updateUserElo, rate, run_query_bind, h]
    rfl
  | none =>
    simp only [updateUserElo, rate, run_query_bind, h]
    refine run_change_of_ok ?_
    have hkey : (UserElo.first userId game newElo result).key = (userId, game) := key_first
    rw [insertElo, if_pos]
    exact (congrArg (Rows.find UserElo.key · s.userElo) hkey).trans h

theorem run_processMatchCompletion (h : s.findMatch matchId = some m) :
    (processMatchCompletion delta matchId).run s = (.ok (), s.complete delta matchId m) := by
  unfold processMatchCompletion complete updateEloRatings createEloHistory
  rw [run_bind_of_ok (run_getMatchById h)]
  cases m.player2Id with
  | none => rfl
  | some p2 =>
    simp only [run_bind, run_updateUserElo, run_update]
    refine congrArg (Prod.mk _) (congrArg (Tables.mk _ _ _ _) ?_)
    exact List.append_assoc _ [_] [_]

variable (delta) in
theorem findMatch_complete (h : s.findMatch matchId = some m) :
    ∃ m', (s.complete delta matchId m).findMatch matchId = some m' ∧
    m'.status = .completed ∧ m'.winnerId = determineWinner m ∧ m'.player1Id = m.player1Id ∧ m'.player2Id = m.player2Id ∧
    m'.gameMode = m.gameMode := by
  have hid := id_of_findMatch h
  have hfirst := findMatch_updateMatch (f := fun row => { row with
    winnerId := determineWinner m, status := .completed }) (fun _ => rfl) h
  unfold complete
  cases hp2 : m.player2Id with
  | none => exact ⟨_, hfirst, rfl, rfl, rfl, hp2, rfl⟩
  | some p2 =>
    rw [hid]
    refine ⟨_, findMatch_updateMatch (fun _ => rfl)
      (m := { m with winnerId := determineWinner m, status := .completed }) ?_, rfl, rfl, rfl, hp2, rfl⟩
    rw [findMatch, rateBoth, matchRows_rate, matchRows_rate]
    exact hfirst

theorem eloHistory_complete {p2 : Uuid} (h : m.player2Id = some p2) :
    (s.complete delta matchId m).eloHistory = s.eloHistory ++ m.history p2 := by
  unfold complete
  rw [h]
  show (rateBoth delta m p2 (s.updateMatch matchId _)).eloHistory ++ _ = _
  rw [rateBoth, eloHistory_rate, eloHistory_rate]
  rfl

namespace Sample

export Orchestrator.Sample (alice bob)

def final : Uuid := ⟨10⟩

/-- A win is worth sixteen points. -/
def flat : Delta := fun _ _ outcome => match outcome with
  | .player1 => (16, -16)
  | .player2 => (-16, 16)
  | .draw => (0, 0)

/-- A match of two players with their first ratings. -/
def duel : Match :=
  { id := final, status := .inProgress, player1Id := alice, player2Id := some bob, winnerId := none,
    player1Score := none, player2Score := none, player1EloBefore := some 1200, player2EloBefore := some 1200,
    player1EloAfter := none, player2EloAfter := none, gameMode := "duel", conflictReason := none }

def tables : Tables := ⟨[duel], [], [], [], []⟩

end Sample

end ArenaX.MatchService
