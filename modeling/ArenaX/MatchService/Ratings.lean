/-
The ledger of ratings along sequences of calls that create matches, set scores and complete matches, one after the
other. A player's counters always add up. The history of a match is written from the row that was read before the new
ratings were stored, so a first completion writes 1200 whatever it stores. Hence the rating is 1200 plus the changes in
the player's history, and each line of the history has the rating that was stored with it, exactly as long as no
completion moves a rating away from 1200.
-/
import ArenaX.Lib.Runs
import ArenaX.MatchService.Completion

namespace ArenaX.MatchService

open Script Tables
open Orchestrator (Uuid)

inductive LedgerCall where
  | create (matchId player1Id : Uuid) (player2Id : Option Uuid) (gameMode : String)
  | setScore (matchId userId : Uuid) (score : ℤ)
  | complete (matchId : Uuid)

/-- The tables after a call, whatever it returns. -/
def LedgerCall.serve (delta : Delta) (s : Tables) : LedgerCall → Tables
  | .create matchId player1Id player2Id gameMode => ((createMatch matchId player1Id player2Id gameMode).run s).2
  | .setScore matchId userId score => ((updateMatchScore matchId userId score).run s).2
  | .complete matchId => ((processMatchCompletion delta matchId).run s).2

/-- In the beginning there are no matches, and nobody has a rating or a history. -/
def ledger (delta : Delta) : TransitionSystem Unit Tables LedgerCall where
  init _ s := s.matchRows = [] ∧ s.userElo = [] ∧ s.eloHistory = []
  step _ s call := some (call.serve delta s)

namespace Tables

/-- A player's rating, 1200 before the first game. -/
def rating (s : Tables) (userId : Uuid) (game : String) : ℤ := ((s.findElo userId game).map (·.currentRating)).getD 1200

/-- What a player's history adds up to. -/
def changes (s : Tables) (userId : Uuid) (game : String) : ℤ :=
  ((s.eloHistory.filter fun row => row.userId = userId ∧ row.game = game).map (·.ratingChange)).sum

end Tables

/-- A result that is worth nothing between two players at 1200. -/
def Match.Level (delta : Delta) (m : Match) (p2 : Uuid) : Prop :=
  delta 1200 1200 (outcomeOf (determineWinner m) m.player1Id p2) = (0, 0)
deriving Decidable

/-- Matches of two players are completed with such results. -/
def levelly (delta : Delta) : TransitionSystem.Rule Unit Tables LedgerCall := fun _ _ s call => match call with
  | .complete matchId => ∀ m ∈ s.findMatch matchId, ∀ p2 ∈ m.player2Id, m.Level delta p2
  | _ => True

/-- The lines of history that were added have the ratings that are stored. -/
def Recorded (s s' : Tables) : Prop :=
  ∀ row ∈ s'.eloHistory.drop s.eloHistory.length, row.ratingAfter = s'.rating row.userId row.game

section Calls

variable {delta : Delta} {s : Tables} {matchId userId : Uuid} {m : Match} {game : String} {call : LedgerCall}

/-- A call that leaves ratings and history alone. -/
def SameRatings (s s' : Tables) : Prop := s'.userElo = s.userElo ∧ s'.eloHistory = s.eloHistory

theorem SameRatings.refl (s : Tables) : SameRatings s s := ⟨rfl, rfl⟩

theorem SameRatings.trans {s s' s'' : Tables} (h : SameRatings s s') (h' : SameRatings s' s'') : SameRatings s s'' :=
  ⟨h'.1.trans h.1, h'.2.trans h.2⟩

theorem writes_getUserElo : (getUserElo userId game).Writes SameRatings :=
  writes_bind (writes_query SameRatings.refl _) fun _ => writes_pure _

theorem writes_createMatch {player1Id : Uuid} {player2Id : Option Uuid} :
    (createMatch matchId player1Id player2Id game).Writes SameRatings := by
  have hinsert : ∀ row, (change (·.insertMatch row) : Sql Match).Writes SameRatings := by
    refine fun row => writes_change SameRatings.refl fun {s a s'} h => ?_
    unfold insertMatch at h
    split at h
    · cases h
      exact ⟨rfl, rfl⟩
    · cases h
  refine writes_bind writes_getUserElo fun player1Elo => ?_
  cases player2Id with
  | none => exact hinsert _
  | some p2 => exact writes_bind (writes_bind writes_getUserElo fun _ => writes_pure _) fun _ => hinsert _

theorem writes_updateMatchScore {score : ℤ} : (updateMatchScore matchId userId score).Writes SameRatings := by
  refine writes_bind (writes_bind (writes_query SameRatings.refl _) fun _ => writes_okOr _ _) fun m => ?_
  refine writes_ite (writes_update fun _ => ⟨rfl, rfl⟩) (writes_ite (writes_update fun _ => ⟨rfl, rfl⟩) (writes_pure _))

theorem run_completion_missing (h : s.findMatch matchId = none) :
    (processMatchCompletion delta matchId).run s = (.error .notFound, s) := by
  unfold processMatchCompletion getMatchById
  rw [run_bind, run_query_bind, h]
  rfl

variable (delta s call) in
/-- What a call does: it leaves the ratings alone, or completes a match of two players. -/
theorem serve_cases :
    SameRatings s (call.serve delta s) ∨ ∃ matchId m p2, call = .complete matchId ∧ s.findMatch matchId = some m ∧
    m.player2Id = some p2 ∧ call.serve delta s = s.complete delta matchId m := by
  cases call with
  | create matchId player1Id player2Id gameMode =>
    exact .inl (writes_createMatch.run SameRatings.refl SameRatings.trans s)
  | setScore matchId userId score =>
    exact .inl (writes_updateMatchScore.run SameRatings.refl SameRatings.trans s)
  | complete matchId =>
    cases hm : s.findMatch matchId with
    | none =>
      refine .inl ?_
      rw [LedgerCall.serve, run_completion_missing hm]
      exact SameRatings.refl s
    | some m =>
      rw [LedgerCall.serve, run_processMatchCompletion hm]
      cases hp2 : m.player2Id with
      | none =>
        refine .inl ?_
        unfold complete
        rw [hp2]
        exact ⟨rfl, rfl⟩
      | some p2 => exact .inr ⟨matchId, m, p2, rfl, hm, hp2, rfl⟩

end Calls

/-! ## Counters -/

/-- The games of a player are those won, lost and drawn. -/
def UserElo.AddsUp (row : UserElo) : Prop := row.gamesPlayed = row.wins + row.losses + row.draws

section Counters

variable {delta : Delta} {s : Tables} {userId : Uuid} {game : String} {newElo : ℤ} {result : MatchResult}

theorem UserElo.AddsUp.played {row : UserElo} (h : row.AddsUp) : (row.played newElo result row).AddsUp := by
  unfold UserElo.AddsUp at h ⊢
  cases result <;> simp only [UserElo.played] <;> omega

theorem UserElo.addsUp_first : (UserElo.first userId game newElo result).AddsUp := by
  cases result <;> rfl

theorem addsUp_ratedRow (h : ∀ row, s.findElo userId game = some row → row.AddsUp) :
    (s.ratedRow userId game newElo result).AddsUp := by
  unfold ratedRow
  split
  · rename_i row hrow
    exact (h row hrow).played
  · exact UserElo.addsUp_first

theorem addsUp_rate (h : ∀ userId game row, s.findElo userId game = some row → row.AddsUp) (userId' : Uuid)
    (game' : String) (row : UserElo) (hrow : (s.rate userId game newElo result).findElo userId' game' = some row) :
    row.AddsUp := by
  by_cases heq : (userId', game') = (userId, game)
  · obtain ⟨rfl, rfl⟩ := Prod.mk.inj heq
    rw [findElo_rate_self] at hrow
    cases hrow
    exact addsUp_ratedRow (h userId' game')
  · rw [findElo_rate_of_ne heq] at hrow
    exact h userId' game' row hrow

/-- The counters add up along every run, faithful or not. -/
theorem counters_add_up {ok : TransitionSystem.Rule Unit Tables LedgerCall} {e : Unit}
    (h : (ledger delta).Reach ok e s) : ∀ userId game row, s.findElo userId game = some row → row.AddsUp := by
  refine TransitionSystem.Reach.invariant
    (P := fun _ s => ∀ userId game row, s.findElo userId game = some row → row.AddsUp) ?_ ?_ h
  · rintro _ s ⟨-, hempty, -⟩ userId game row hrow
    rw [findElo, hempty] at hrow
    cases hrow
  · intro _ _ s call s' hinv _ hstep
    cases hstep
    rcases serve_cases delta s call with hsame | ⟨matchId, m, p2, rfl, hm, hp2, hserve⟩
    · intro userId game row hrow
      rw [findElo, hsame.1] at hrow
      exact hinv userId game row hrow
    · rw [hserve, complete, hp2]
      exact addsUp_rate (addsUp_rate hinv)

end Counters

/-! ## The history -/

/-- Every rating in the row of a match is 1200, or not there and read as 1200. -/
def Match.Unmoved (m : Match) : Prop :=
  (m.player1EloBefore.getD 1200 = 1200 ∧ m.player2EloBefore.getD 1200 = 1200) ∧
    m.player1EloAfter.getD 1200 = 1200 ∧ m.player2EloAfter.getD 1200 = 1200

/-- No rating has moved, and no line of history says that one has. -/
structure Tables.Unmoved (s : Tables) : Prop where
  ratings : ∀ row ∈ s.userElo, row.currentRating = 1200
  rows : ∀ m ∈ s.matchRows, m.Unmoved
  history : ∀ row ∈ s.eloHistory, row.ratingChange = 0

section History

variable {delta : Delta} {s : Tables} {matchId userId p2 : Uuid} {m : Match} {game : String} {call : LedgerCall}

theorem currentRating_played {eloRecord row : UserElo} {newElo : ℤ} {result : MatchResult} :
    (eloRecord.played newElo result row).currentRating = newElo := by
  cases result <;> rfl

theorem currentRating_first {newElo : ℤ} {result : MatchResult} :
    (UserElo.first userId game newElo result).currentRating = newElo := by
  cases result <;> rfl

namespace Tables.Unmoved

theorem rating (h : s.Unmoved) (userId : Uuid) (game : String) : s.rating userId game = 1200 := by
  unfold Tables.rating
  cases hrow : s.findElo userId game with
  | none => rfl
  | some row => exact h.ratings row (List.mem_of_find?_eq_some hrow)

theorem changes (h : s.Unmoved) (userId : Uuid) (game : String) : s.changes userId game = 0 := by
  refine List.sum_eq_zero fun x hx => ?_
  obtain ⟨row, hrow, rfl⟩ := List.mem_map.1 hx
  exact h.history row (List.mem_of_mem_filter hrow)

theorem updateMatch {f : Match → Match} (h : s.Unmoved) (hf : ∀ m : Match, m.Unmoved → (f m).Unmoved) :
    (s.updateMatch matchId f).Unmoved := by
  refine ⟨h.ratings, fun m hm => ?_, h.history⟩
  obtain ⟨row, hrow, rfl⟩ := List.mem_map.1 hm
  split
  · exact hf row (h.rows row hrow)
  · exact h.rows row hrow

theorem rate {result : MatchResult} (h : s.Unmoved) : (s.rate userId game 1200 result).Unmoved := by
  refine ⟨?_, by rw [matchRows_rate]; exact h.rows, by rw [eloHistory_rate]; exact h.history⟩
  unfold Tables.rate
  split
  · intro row hrow
    obtain ⟨row, hrow', rfl⟩ := List.mem_map.1 hrow
    split
    · exact currentRating_played
    · exact h.ratings row hrow'
  · exact List.forall_mem_append.2 ⟨h.ratings, List.forall_mem_singleton.2 currentRating_first⟩

theorem record {rows : List EloHistory} (h : s.Unmoved) (hrows : ∀ row ∈ rows, row.ratingChange = 0) :
    { s with eloHistory := s.eloHistory ++ rows }.Unmoved :=
  ⟨h.ratings, h.rows, List.forall_mem_append.2 ⟨h.history, hrows⟩⟩

end Tables.Unmoved

/-- A match of two players whose ratings have not moved is worth what its result is worth at 1200. -/
theorem Match.Unmoved.newElo_eq_iff (h : m.Unmoved) : m.newElo delta p2 = (1200, 1200) ↔ m.Level delta p2 := by
  unfold Match.newElo Match.Level calculateEloChange
  rw [h.1.1, h.1.2]
  simp [Prod.ext_iff]

/-- A match is created with the ratings of its players. -/
theorem unmoved_create {player1Id : Uuid} {player2Id : Option Uuid} (h : s.Unmoved) :
    ((createMatch matchId player1Id player2Id game).run s).2.Unmoved := by
  have hinsert (row : Match) (hrow : row.Unmoved) : ((change (·.insertMatch row) : Sql Match).run s).2.Unmoved := by
    cases hresult : s.insertMatch row with
    | error _ => rwa [run_change_of_error hresult]
    | ok _ =>
      rw [run_change_of_ok hresult]
      unfold insertMatch at hresult
      split at hresult
      · cases hresult
        exact ⟨h.ratings, List.forall_mem_append.2 ⟨h.rows, List.forall_mem_singleton.2 hrow⟩, h.history⟩
      · cases hresult
  have helo (userId : Uuid) : (getUserElo userId game).run s = (.ok 1200, s) := by
    unfold getUserElo
    rw [run_query_bind, run_pure]
    exact congrArg (fun rating => (Except.ok rating, s)) (h.rating userId game)
  unfold createMatch
  rw [run_bind_of_ok (helo player1Id)]
  cases player2Id with
  | none => exact hinsert _ ⟨⟨rfl, rfl⟩, rfl, rfl⟩
  | some p2Id =>
    have hmap : (some <$> getUserElo p2Id game : Sql (Option ℤ)).run s = (.ok (some 1200), s) :=
      run_bind_of_ok (helo p2Id)
    rw [run_bind_of_ok hmap]
    exact hinsert _ ⟨⟨rfl, rfl⟩, rfl, rfl⟩

/-- A completion with a result that is worth nothing. -/
theorem unmoved_complete (h : s.Unmoved) (hm : s.findMatch matchId = some m)
    (hlevel : ∀ p2 ∈ m.player2Id, m.Level delta p2) : (s.complete delta matchId m).Unmoved := by
  have hrow := h.rows m (List.mem_of_find?_eq_some hm)
  have hwinner : (s.updateMatch matchId fun row =>
      { row with winnerId := determineWinner m, status := .completed }).Unmoved := h.updateMatch fun _ hrow => hrow
  unfold complete
  cases hp2 : m.player2Id with
  | none => exact hwinner
  | some p2 =>
    have hnew := hrow.newElo_eq_iff.2 (hlevel p2 hp2)
    simp only [rateBoth, hnew]
    refine (Tables.Unmoved.updateMatch hwinner.rate.rate ?_).record ?_
    · exact fun row hrow => ⟨hrow.1, rfl, rfl⟩
    · obtain ⟨⟨hbefore₁, hbefore₂⟩, hafter₁, hafter₂⟩ := hrow
      simp [Match.history, hbefore₁, hbefore₂, hafter₁, hafter₂]

theorem unmoved_serve (h : s.Unmoved) (hok : levelly delta () () s call) : (call.serve delta s).Unmoved := by
  cases call with
  | create matchId player1Id player2Id gameMode => exact unmoved_create h
  | setScore matchId userId score =>
    have hwrites : (updateMatchScore matchId userId score).Writes fun s s' => s.Unmoved → s'.Unmoved := by
      refine writes_bind (writes_bind (writes_query (fun _ => id) _) fun _ => writes_okOr _ _) fun m => ?_
      exact writes_ite (writes_update fun s hs => hs.updateMatch fun _ hm => hm)
        (writes_ite (writes_update fun s hs => hs.updateMatch fun _ hm => hm) (writes_pure _))
    exact hwrites.run (fun _ => id) (fun h h' hs => h' (h hs)) s h
  | complete matchId =>
    cases hm : s.findMatch matchId with
    | none => rwa [LedgerCall.serve, run_completion_missing hm]
    | some m =>
      rw [LedgerCall.serve, run_processMatchCompletion hm]
      exact unmoved_complete h hm (hok m hm)

theorem unmoved_of_reach {e : Unit} (h : (ledger delta).Reach (levelly delta) e s) : s.Unmoved := by
  refine h.invariant (P := fun _ s => s.Unmoved) ?_ fun hs hok hstep => Option.some.inj hstep ▸ unmoved_serve hs hok
  rintro _ s ⟨hrows, hratings, hhistory⟩
  constructor <;> simp [hrows, hratings, hhistory]

variable (delta s matchId) in
/-- The ratings that a completion stores. -/
theorem rating_complete (hp2 : m.player2Id = some p2) (hne : m.player1Id ≠ p2) :
    ((s.complete delta matchId m).rating m.player1Id m.gameMode, (s.complete delta matchId m).rating p2 m.gameMode) =
      m.newElo delta p2 := by
  have hne' : (m.player1Id, m.gameMode) ≠ (p2, m.gameMode) := fun heq => hne (Prod.ext_iff.1 heq).1
  have hrow {s : Tables} {userId : Uuid} {newElo : ℤ} {result : MatchResult} :
      (s.ratedRow userId m.gameMode newElo result).currentRating = newElo := by
    unfold ratedRow
    split
    · exact currentRating_played
    · exact currentRating_first
  unfold complete
  rw [hp2]
  show ((rateBoth delta m p2 (s.updateMatch matchId _)).rating _ _,
    (rateBoth delta m p2 (s.updateMatch matchId _)).rating _ _) = _
  rw [Tables.rating, Tables.rating, rateBoth, findElo_rate_of_ne hne', findElo_rate_self, findElo_rate_self]
  exact Prod.ext hrow hrow

/-- What a completion of two players adds to the history has the ratings it stores only if it stores 1200. -/
theorem level_of_recorded (h : s.Unmoved) (hm : s.findMatch matchId = some m) (hp2 : m.player2Id = some p2)
    (hne : m.player1Id ≠ p2) (hrecorded : Recorded s (s.complete delta matchId m)) : m.Level delta p2 := by
  have hrow := h.rows m (List.mem_of_find?_eq_some hm)
  rw [← hrow.newElo_eq_iff, ← rating_complete delta s matchId hp2 hne]
  unfold Recorded at hrecorded
  rw [eloHistory_complete hp2, List.drop_left] at hrecorded
  obtain ⟨hfirst, hsecond⟩ := List.forall_mem_cons.1 hrecorded
  exact Prod.ext (hfirst.symm.trans hrow.2.1) ((List.forall_mem_singleton.1 hsecond).symm.trans hrow.2.2)

theorem recorded_of_same {s' : Tables} (h : SameRatings s s') : Recorded s s' := by
  unfold Recorded
  rw [h.2, List.drop_length]
  exact fun row hrow => (List.not_mem_nil hrow).elim

theorem recorded_serve (h : s.Unmoved) (hok : levelly delta () () s call) : Recorded s (call.serve delta s) := by
  have hserve := unmoved_serve h hok
  rcases serve_cases delta s call with hsame | ⟨matchId, m, p2, rfl, hm, hp2, hcomplete⟩
  · exact recorded_of_same hsame
  · have hrow := h.rows m (List.mem_of_find?_eq_some hm)
    unfold Recorded
    rw [hcomplete, eloHistory_complete hp2, List.drop_left, ← hcomplete]
    refine List.forall_mem_cons.2 ⟨?_, List.forall_mem_singleton.2 ?_⟩
    · exact hrow.2.1.trans (hserve.rating _ _).symm
    · exact hrow.2.2.trans (hserve.rating _ _).symm

/-- Ratings, histories and counters belong together as long as the results are worth nothing at 1200; the first
completion with another result writes a history that does not have the ratings it stores. -/
theorem elo_ledger {e : Unit} (h : (ledger delta).Reach (levelly delta) e s) :
    (∀ userId game, s.rating userId game = 1200 + s.changes userId game) ∧
      (∀ call, levelly delta () () s call → Recorded s (call.serve delta s)) ∧
      (∀ matchId m p2, s.findMatch matchId = some m → m.player2Id = some p2 → m.player1Id ≠ p2 →
        Recorded s ((LedgerCall.complete matchId).serve delta s) → m.Level delta p2) ∧
      ∀ userId game row, s.findElo userId game = some row → row.gamesPlayed = row.wins + row.losses + row.draws := by
  have hunmoved := unmoved_of_reach h
  refine ⟨fun userId game => ?_, fun call hok => recorded_serve hunmoved hok, ?_, counters_add_up h⟩
  · rw [hunmoved.rating, hunmoved.changes, add_zero]
  · intro matchId m p2 hm hp2 hne hrecorded
    rw [LedgerCall.serve, run_processMatchCompletion hm] at hrecorded
    exact level_of_recorded hunmoved hm hp2 hne hrecorded

end History

namespace Sample

def newcomers : Tables := ⟨[], [], [], [], []⟩

def rematch : Uuid := ⟨11⟩

/-- Two matches are created, and the first one is drawn. -/
def created : Tables := (LedgerCall.create rematch alice (some bob) "duel").serve flat
  ((LedgerCall.create final alice (some bob) "duel").serve flat newcomers)

def drawn : Tables := (LedgerCall.complete final).serve flat created

/-- The second one is won 3 to 1. -/
def scored : Tables :=
  (LedgerCall.setScore rematch bob 1).serve flat ((LedgerCall.setScore rematch alice 3).serve flat drawn)

def won : Tables := (LedgerCall.complete rematch).serve flat scored

theorem reach_serve {ok : TransitionSystem.Rule Unit Tables LedgerCall} {s : Tables} (h : (ledger flat).Reach ok () s)
    (call : LedgerCall) (hok : ok () () s call) : (ledger flat).Reach ok () (call.serve flat s) := .step h hok rfl

/-- The ledger holds up to the win, whose completion is the first one that is not recorded. -/
theorem elo_ledger_scored :
    scored.rating alice "duel" = 1200 + scored.changes alice "duel" ∧ scored.eloHistory.length = 2 ∧
    ¬ Recorded scored won := by
  have hcreated : (ledger flat).Reach (levelly flat) () created :=
    reach_serve (reach_serve (.init (s := newcomers) ⟨rfl, rfl, rfl⟩) (.create final alice (some bob) "duel") trivial)
      (.create rematch alice (some bob) "duel") trivial
  have hlevel : ∀ m ∈ created.findMatch final, ∀ p2 ∈ m.player2Id, m.Level flat p2 := by decide +kernel
  have hdrawn := reach_serve hcreated (.complete final) hlevel
  have hscored : (ledger flat).Reach (levelly flat) () scored :=
    reach_serve (reach_serve hdrawn (.setScore rematch alice 3) trivial) (.setScore rematch bob 1) trivial
  obtain ⟨hledger, -, hlevel, -⟩ := elo_ledger hscored
  refine ⟨hledger alice "duel", by decide +kernel, fun hrecorded => ?_⟩
  have hwin : ∃ m ∈ scored.findMatch rematch, m.player2Id = some bob ∧ m.player1Id ≠ bob ∧ ¬ m.Level flat bob := by
    decide +kernel
  obtain ⟨m, hm, hp2, hne, hwin⟩ := hwin
  exact hwin (hlevel rematch m bob hm hp2 hne hrecorded)

/-- The winner's rating is 1216; the history has a change of zero. -/
theorem history_misses_win : (ledger flat).Reach TransitionSystem.Unrestricted () won ∧ won.rating alice "duel" = 1216 ∧
    won.changes alice "duel" = 0 := by
  refine ⟨?_, by decide +kernel, by decide +kernel⟩
  have hcreated : (ledger flat).Reach TransitionSystem.Unrestricted () _ :=
    reach_serve (.init (s := newcomers) ⟨rfl, rfl, rfl⟩) (.create final alice (some bob) "duel") trivial
  have hdrawn := reach_serve (reach_serve hcreated (.create rematch alice (some bob) "duel") trivial)
    (.complete final) trivial
  exact reach_serve (reach_serve (reach_serve hdrawn (.setScore rematch alice 3) trivial) (.setScore rematch bob 1)
    trivial) (.complete rematch) trivial

end Sample

end ArenaX.MatchService
