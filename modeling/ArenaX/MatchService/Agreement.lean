/-
Two players report the result of a match, one after the other. Whether they agree is judged by the winner that each
report names; the winner that is stored comes from a comparison of the two scores that the players give for themselves.
The match is in conflict exactly when the reports name different outcomes. When they name the same one, the stored
winner is the one they name as long as that comparison has the same outcome; otherwise the match may go to the player
whom both name as the loser.
-/
import ArenaX.MatchService.Completion

namespace ArenaX.MatchService

open Script Tables
open Orchestrator (Uuid)

variable {a b : MatchScore}

/-- The outcome of two scores: the player with the higher one, or none. -/
def outcome (score₁ score₂ : ℤ) (player₁ player₂ : Uuid) : Option Uuid :=
  if score₂ < score₁ then some player₁ else if score₁ < score₂ then some player₂ else none

/-- The winner that a report names. -/
def ReportScoreRequest.names (request : ReportScoreRequest) (reporter opponent : Uuid) : Option Uuid :=
  outcome request.score request.opponentScore reporter opponent

section Outcome

variable {matchId p1 p2 : Uuid} {request : ReportScoreRequest} {m : Match}

theorem claims_eq_names :
    claims ⟨matchId, p1, request.score, some request.opponentScore⟩ p1 p2 = request.names p1 p2 := by
  unfold claims ReportScoreRequest.names outcome
  rw [Option.getD_some]
  rcases lt_trichotomy request.score request.opponentScore with h | h | h
  · rw [compare_lt_iff_lt.2 h, if_neg (not_lt.2 h.le), if_pos h]
  · rw [compare_eq_iff_eq.2 h, if_neg (not_lt.2 h.le), if_neg (not_lt.2 h.ge)]
  · rw [compare_gt_iff_gt.2 h, if_pos h]

theorem determineWinner_eq_outcome (h : m.player2Id = some p2) :
    determineWinner m = outcome (m.player1Score.getD 0) (m.player2Score.getD 0) m.player1Id p2 := by
  unfold determineWinner outcome
  rcases lt_trichotomy (m.player1Score.getD 0) (m.player2Score.getD 0) with hlt | heq | hgt
  · rw [compare_lt_iff_lt.2 hlt, if_neg (not_lt.2 hlt.le), if_pos hlt, h]
  · rw [compare_eq_iff_eq.2 heq, if_neg (not_lt.2 heq.le), if_neg (not_lt.2 heq.ge)]
  · rw [compare_gt_iff_gt.2 hgt, if_pos hgt]

end Outcome

/-! ## A report that is accepted -/

/-- The row of a report. -/
def ReportScoreRequest.row (request : ReportScoreRequest) (matchId userId : Uuid) : MatchScore :=
  ⟨matchId, userId, request.score, some request.opponentScore⟩

/-- The match with a player's own score. -/
def Match.scored (userId : Uuid) (score : ℤ) (m : Match) : Match :=
  if userId = m.player1Id then { m with player1Score := some score } else { m with player2Score := some score }

/-- A user who may report the score of a match. -/
structure MayReport (s : Tables) (matchId : Uuid) (m : Match) (userId : Uuid) : Prop where
  found : s.findMatch matchId = some m
  status : m.status = .inProgress
  player : m.HasPlayer userId
  first : s.findScore matchId userId = none
  attempts : s.countAttempts matchId userId < maxAttemptsPerMatch

/-- The tables after a report, before it is known whether it is the second one. -/
def Tables.report (matchId userId : Uuid) (request : ReportScoreRequest) (m : Match) (s : Tables) : Tables :=
  let s := ((s.insertAttempt matchId userId).insertScore (request.row matchId userId)).acceptLastAttempt matchId userId
  if userId = m.player1Id then s.updateMatch matchId fun row => { row with player1Score := some request.score }
  else s.updateMatch matchId fun row => { row with player2Score := some request.score }

section Report

variable {delta : Delta} {s : Tables} {matchId userId : Uuid} {m : Match} {request : ReportScoreRequest} {score : ℤ}

theorem countAttempts_insertAttempt (playerId : Uuid) :
    (s.insertAttempt matchId userId).countAttempts matchId playerId =
    s.countAttempts matchId playerId + if userId = playerId then 1 else 0 := by
  unfold countAttempts insertAttempt
  simp [ScoreReportAttempt.key]

theorem run_enforceReportRateLimit (h : s.countAttempts matchId userId < maxAttemptsPerMatch) :
    (enforceReportRateLimit matchId userId).run s = (.ok (), s.insertAttempt matchId userId) := by
  unfold enforceReportRateLimit
  rw [run_bind_of_ok (run_update _ s), run_query_bind, countAttempts_insertAttempt, if_pos rfl, reject,
    if_neg (by omega)]
  rfl

theorem run_validateScoreReport (hid : m.id = matchId) (hstatus : m.status = .inProgress) (hplayer : m.HasPlayer userId)
    (hfirst : s.findScore matchId userId = none) : (validateScoreReport m userId).run s = (.ok (), s) := by
  unfold validateScoreReport
  simp [reject, hplayer, hstatus, hid, run_bind, hfirst]

theorem run_updateMatchScore (h : s.findMatch matchId = some m) (hplayer : m.HasPlayer userId) :
    (updateMatchScore matchId userId score).run s = (.ok (), if userId = m.player1Id
      then s.updateMatch matchId fun row => { row with player1Score := some score }
      else s.updateMatch matchId fun row => { row with player2Score := some score }) := by
  unfold updateMatchScore
  rw [run_bind_of_ok (run_getMatchById h)]
  rcases hplayer with hplayer | hplayer
  · rw [if_pos hplayer, if_pos hplayer]
    rfl
  · rw [if_pos hplayer]
    split <;> rfl

/-- Up to the question whether both have reported. -/
theorem run_reportScore (h : MayReport s matchId m userId) : (reportScore delta matchId userId request).run s =
    (do
      let bothReported ← bothPlayersReportedScores matchId
      if bothReported then
        let hasConflict ← detectScoreConflict matchId
        if hasConflict then processConflict matchId else processMatchCompletion delta matchId
      pure (request.row matchId userId) : Sql MatchScore).run (s.report matchId userId request m) := by
  have hfound : (s.insertAttempt matchId userId).findMatch matchId = some m := h.found
  have hfirst : (s.insertAttempt matchId userId).findScore matchId userId = none := h.first
  have hscored : (((s.insertAttempt matchId userId).insertScore (request.row matchId userId)).acceptLastAttempt matchId
    userId).findMatch matchId = some m := h.found
  unfold reportScore
  rw [run_bind_of_ok (run_enforceReportRateLimit h.attempts), run_bind_of_ok (run_getMatchById hfound),
    run_bind_of_ok (run_validateScoreReport (id_of_findMatch h.found) h.status h.player hfirst)]
  exact run_bind_of_ok (run_updateMatchScore hscored h.player)

variable (userId request) in
theorem findMatch_report (h : s.findMatch matchId = some m) :
    (s.report matchId userId request m).findMatch matchId = some (m.scored userId request.score) := by
  unfold report Match.scored
  split
  · exact findMatch_updateMatch (fun _ => rfl) h
  · exact findMatch_updateMatch (fun _ => rfl) h

theorem matchScores_report :
    (s.report matchId userId request m).matchScores = s.matchScores ++ [request.row matchId userId] := by
  unfold report
  split <;> rfl

theorem findScore_report (h : s.findScore matchId userId = none) (playerId : Uuid) :
    (s.report matchId userId request m).findScore matchId playerId =
      if playerId = userId then some (request.row matchId userId) else s.findScore matchId playerId := by
  unfold findScore at h ⊢
  rw [matchScores_report, Rows.find_concat]
  by_cases heq : playerId = userId
  · rw [if_pos heq, heq, h]
    exact if_pos rfl
  · rw [if_neg heq, if_neg, Option.or_none]
    intro hkey
    exact heq (Prod.ext_iff.1 hkey).2.symm

variable {p2 : Uuid}

theorem run_bothPlayersReportedScores (h : s.findMatch matchId = some m) (hp2 : m.player2Id = some p2) :
    (bothPlayersReportedScores matchId).run s =
      (.ok ((s.findScore matchId m.player1Id).isSome && (s.findScore matchId p2).isSome), s) := by
  unfold bothPlayersReportedScores
  rw [run_bind_of_ok (run_getMatchById h), hp2]
  rfl

theorem run_detectScoreConflict (h : s.findMatch matchId = some m) (hp2 : m.player2Id = some p2)
    (ha : s.findScore matchId m.player1Id = some a) (hb : s.findScore matchId p2 = some b) :
    (detectScoreConflict matchId).run s = (.ok (decide (claims a m.player1Id p2 ≠ claims b p2 m.player1Id)), s) := by
  unfold detectScoreConflict
  rw [run_bind_of_ok (run_getMatchById h), hp2]
  rw [run_query_bind, run_query_bind, ha, hb]
  rfl

theorem run_processConflict (h : s.findMatch matchId = some m) (hp2 : m.player2Id = some p2) :
    (processConflict matchId).run s =
    (.ok (), s.updateMatch matchId fun row => { row with
      status := .conflict
      conflictReason := some (conflictReason (s.findScore matchId m.player1Id) (s.findScore matchId p2)) }) := by
  unfold processConflict
  rw [run_bind_of_ok (run_getMatchById h), hp2]
  rfl

theorem player2Id_scored : (m.scored userId score).player2Id = m.player2Id := by
  unfold Match.scored
  split <;> rfl

theorem player1Id_scored : (m.scored userId score).player1Id = m.player1Id := by
  unfold Match.scored
  split <;> rfl

theorem status_scored : (m.scored userId score).status = m.status := by
  unfold Match.scored
  split <;> rfl

/-- The first of two reports. -/
theorem run_reportScore_waits (h : MayReport s matchId m userId) (hp2 : m.player2Id = some p2)
    (hother : ((s.report matchId userId request m).findScore matchId m.player1Id).isSome = false ∨
      ((s.report matchId userId request m).findScore matchId p2).isSome = false) :
    (reportScore delta matchId userId request).run s =
      (.ok (request.row matchId userId), s.report matchId userId request m) := by
  have hboth := run_bothPlayersReportedScores (findMatch_report userId request h.found)
    (player2Id_scored.trans hp2)
  rw [player1Id_scored] at hboth
  rw [run_reportScore h, run_bind_of_ok hboth]
  rcases hother with hother | hother
  · rw [hother]
    rfl
  · rw [hother, Bool.and_false]
    rfl

variable (delta request) in
/-- The second one settles the match. -/
theorem run_reportScore_settles (h : MayReport s matchId m userId) (hp2 : m.player2Id = some p2)
    (ha : (s.report matchId userId request m).findScore matchId m.player1Id = some a)
    (hb : (s.report matchId userId request m).findScore matchId p2 = some b) :
    (reportScore delta matchId userId request).run s = (.ok (request.row matchId userId),
      if claims a m.player1Id p2 ≠ claims b p2 m.player1Id then
        (s.report matchId userId request m).updateMatch matchId fun row =>
          { row with status := .conflict, conflictReason := some (conflictReason (some a) (some b)) }
      else (s.report matchId userId request m).complete delta matchId (m.scored userId request.score)) := by
  have hfound := findMatch_report userId request h.found
  have hp2' : (m.scored userId request.score).player2Id = some p2 := player2Id_scored.trans hp2
  have hboth := run_bothPlayersReportedScores hfound hp2'
  have hconflict := run_processConflict hfound hp2'
  rw [player1Id_scored, ha, hb] at hboth hconflict
  have hdetect := run_detectScoreConflict hfound hp2' (player1Id_scored.symm ▸ ha) hb
  rw [player1Id_scored] at hdetect
  rw [run_reportScore h, run_bind_of_ok hboth, Option.isSome_some, Option.isSome_some, Bool.true_and, if_pos rfl,
    run_bind_of_ok hdetect]
  by_cases hne : claims a m.player1Id p2 ≠ claims b p2 m.player1Id
  · rw [if_pos (decide_eq_true hne), if_pos hne, run_bind_of_ok hconflict]
    rfl
  · rw [if_neg (by simpa using hne), if_neg hne, run_bind_of_ok (run_processMatchCompletion hfound)]
    rfl

end Report

/-! ## Two reports -/

/-- A match of two players, in progress, of which neither has reported the score nor used up the attempts to do so. -/
structure Playing (s : Tables) (matchId : Uuid) (m : Match) (p1 p2 : Uuid) : Prop where
  found : s.findMatch matchId = some m
  player1 : m.player1Id = p1
  player2 : m.player2Id = some p2
  ne : p1 ≠ p2
  status : m.status = .inProgress
  unreported : ∀ p ∈ [p1, p2], s.findScore matchId p = none
  attempts : ∀ p ∈ [p1, p2], s.countAttempts matchId p < maxAttemptsPerMatch

section Reports

variable {delta : Delta} {s : Tables} {matchId p1 p2 u v : Uuid} {m : Match} {r1 r2 ru rv : ReportScoreRequest}

theorem Playing.mayReport (h : Playing s matchId m p1 p2) (hu : u ∈ [p1, p2]) : MayReport s matchId m u := by
  refine ⟨h.found, h.status, ?_, h.unreported u hu, h.attempts u hu⟩
  rcases List.mem_pair.1 hu with rfl | rfl
  · exact .inl h.player1.symm
  · exact .inr h.player2

theorem keys_acceptLast (key : Uuid × Uuid) : ∀ rows : List ScoreReportAttempt,
    (acceptLast key rows).map ScoreReportAttempt.key = rows.map ScoreReportAttempt.key
  | [] => rfl
  | row :: rest => by
    unfold acceptLast
    split
    · rfl
    · rw [List.map_cons, keys_acceptLast key rest, List.map_cons]

theorem countAttempts_eq (s : Tables) : s.countAttempts matchId u =
    (s.scoreReportAttempts.map ScoreReportAttempt.key).countP (· = (matchId, u)) := by
  rw [List.countP_map]
  rfl

theorem scoreReportAttempts_report : (s.report matchId u ru m).scoreReportAttempts =
    acceptLast (matchId, u) (s.insertAttempt matchId u).scoreReportAttempts := by
  unfold report
  split <;> rfl

theorem countAttempts_report (hne : v ≠ u) :
    (s.report matchId u ru m).countAttempts matchId v = s.countAttempts matchId v := by
  rw [countAttempts_eq, scoreReportAttempts_report, keys_acceptLast, ← countAttempts_eq, countAttempts_insertAttempt,
    if_neg hne.symm, Nat.add_zero]

variable (ru) in
/-- After the first report the other player may make the second one. -/
theorem Playing.mayReport_report (h : Playing s matchId m p1 p2) (hu : u ∈ [p1, p2]) (hv : v ∈ [p1, p2]) (hne : v ≠ u) :
    MayReport (s.report matchId u ru m) matchId (m.scored u ru.score) v := by
  refine ⟨findMatch_report u ru h.found, status_scored.trans h.status, ?_, ?_, ?_⟩
  · unfold Match.HasPlayer
    rw [player1Id_scored, player2Id_scored]
    exact (h.mayReport hv).player
  · rw [findScore_report (h.unreported u hu), if_neg hne]
    exact h.unreported v hv
  · rw [countAttempts_report hne]
    exact h.attempts v hv

variable (delta ru rv) in
/-- What two reports, one after the other, make of the match. -/
theorem Playing.two_reports (h : Playing s matchId m p1 p2) (hu : u ∈ [p1, p2]) (hv : v ∈ [p1, p2]) (hne : v ≠ u)
    (ha : (if p1 = v then rv.row matchId v else ru.row matchId u) = a)
    (hb : (if p2 = v then rv.row matchId v else ru.row matchId u) = b) :
    ∃ s₁ s₂ m', (reportScore delta matchId u ru).run s = (.ok (ru.row matchId u), s₁) ∧
      (reportScore delta matchId v rv).run s₁ = (.ok (rv.row matchId v), s₂) ∧ s₂.findMatch matchId = some m' ∧
      (claims a p1 p2 ≠ claims b p2 p1 ∧ m'.status = .conflict ∨ claims a p1 p2 = claims b p2 p1 ∧
        m'.status = .completed ∧ m'.winnerId = determineWinner ((m.scored u ru.score).scored v rv.score)) := by
  have hwait := h.mayReport hu
  have hsettle := h.mayReport_report ru hu hv hne
  have hscore : ∀ p ∈ [p1, p2], ((s.report matchId u ru m).report matchId v rv (m.scored u ru.score)).findScore matchId
      p = some (if p = v then rv.row matchId v else ru.row matchId u) := by
    intro p hp
    rw [findScore_report hsettle.first]
    split
    · rfl
    · rename_i hpv
      have hpu : p = u := by
        rcases List.mem_pair.1 hp with rfl | rfl <;> rcases List.mem_pair.1 hu with rfl | rfl <;>
          rcases List.mem_pair.1 hv with rfl | rfl <;> first | rfl | contradiction
      rw [findScore_report (h.unreported u hu), if_pos hpu]
  have hfirst : (reportScore delta matchId u ru).run s = (.ok (ru.row matchId u), s.report matchId u ru m) := by
    refine run_reportScore_waits hwait h.player2 ?_
    rw [h.player1, findScore_report (h.unreported u hu), findScore_report (h.unreported u hu)]
    rcases List.mem_pair.1 hv with rfl | rfl
    · exact .inl (by rw [if_neg hne, h.unreported _ hv]; rfl)
    · exact .inr (by rw [if_neg hne, h.unreported _ hv]; rfl)
  have hsecond := run_reportScore_settles delta rv hsettle (player2Id_scored.trans h.player2)
    (by rw [player1Id_scored, h.player1, hscore p1 (by simp), ha]) (by rw [hscore p2 (by simp), hb])
  rw [player1Id_scored, h.player1] at hsecond
  have hfound := findMatch_report v rv (findMatch_report u ru h.found)
  by_cases hclaims : claims a p1 p2 ≠ claims b p2 p1
  · rw [if_pos hclaims] at hsecond
    exact ⟨_, _, _, hfirst, hsecond, findMatch_updateMatch (fun _ => rfl) hfound, .inl ⟨hclaims, rfl⟩⟩
  · rw [if_neg hclaims] at hsecond
    obtain ⟨_, hm', hstatus, hwinner, -⟩ := findMatch_complete delta hfound
    exact ⟨_, _, _, hfirst, hsecond, hm', .inr ⟨not_not.1 hclaims, hstatus, hwinner⟩⟩

/-- The stored winner, in whichever order the scores have come. -/
theorem determineWinner_scored {a b : ℤ} (h1 : m.player1Id = p1) (h2 : m.player2Id = some p2) (hne : p1 ≠ p2) :
    determineWinner ((m.scored p1 a).scored p2 b) = outcome a b p1 p2 ∧
      determineWinner ((m.scored p2 b).scored p1 a) = outcome a b p1 p2 := by
  subst h1
  constructor
  · rw [determineWinner_eq_outcome (player2Id_scored.trans (player2Id_scored.trans h2))]
    simp [Match.scored, hne.symm]
  · rw [determineWinner_eq_outcome (player2Id_scored.trans (player2Id_scored.trans h2))]
    simp [Match.scored, hne.symm]

/-- What is known of the match once both reports are in, whichever came first. -/
theorem agreement_of_settled {m' : Match} (h : r1.names p1 p2 ≠ r2.names p2 p1 ∧ m'.status = .conflict ∨
      r1.names p1 p2 = r2.names p2 p1 ∧ m'.status = .completed ∧ m'.winnerId = outcome r1.score r2.score p1 p2) :
    (m'.status = .conflict ↔ r1.names p1 p2 ≠ r2.names p2 p1) ∧
      ((∀ w, m'.status = .completed ∧ m'.winnerId = w → r1.names p1 p2 = w ∧ r2.names p2 p1 = w) ↔
        (r1.names p1 p2 = r2.names p2 p1 → outcome r1.score r2.score p1 p2 = r1.names p1 p2)) := by
  rcases h with ⟨hne, hstatus⟩ | ⟨heq, hstatus, hwinner⟩
  · rw [hstatus]
    exact ⟨⟨fun _ => hne, fun _ => rfl⟩, fun _ heq => absurd heq hne, fun _ w hw => (nomatch hw.1)⟩
  · rw [hstatus]
    refine ⟨⟨fun hconflict => (nomatch hconflict), fun hne => absurd heq hne⟩, fun h _ => ?_, ?_⟩
    · exact ((h _ ⟨rfl, hwinner⟩).1).symm
    · rintro hscores w ⟨-, rfl⟩
      rw [hwinner, hscores heq]
      exact ⟨rfl, heq.symm⟩

/-- The reports agree exactly when the match is not in conflict; the stored winner is the one both name if and only if
the scores the players give for themselves have the outcome that they name. -/
theorem score_agreement (h : Playing s matchId m p1 p2)
    (horder : ((u, ru) = (p1, r1) ∧ (v, rv) = (p2, r2)) ∨ ((u, ru) = (p2, r2) ∧ (v, rv) = (p1, r1))) :
    ∃ x y s₁ s₂ m', (reportScore delta matchId u ru).run s = (.ok x, s₁) ∧
      (reportScore delta matchId v rv).run s₁ = (.ok y, s₂) ∧ s₂.findMatch matchId = some m' ∧
      (m'.status = .conflict ↔ r1.names p1 p2 ≠ r2.names p2 p1) ∧
      ((∀ w, m'.status = .completed ∧ m'.winnerId = w → r1.names p1 p2 = w ∧ r2.names p2 p1 = w) ↔
        (r1.names p1 p2 = r2.names p2 p1 → outcome r1.score r2.score p1 p2 = r1.names p1 p2)) := by
  rcases horder with ⟨hu, hv⟩ | ⟨hu, hv⟩ <;> cases hu <;> cases hv
  · obtain ⟨s₁, s₂, m', hfirst, hsecond, hfound, hsettled⟩ := h.two_reports delta r1 r2 (u := p1) (v := p2)
      (by simp) (by simp) h.ne.symm (if_neg h.ne) (if_pos rfl)
    rw [(determineWinner_scored h.player1 h.player2 h.ne).1] at hsettled
    unfold ReportScoreRequest.row at hsettled
    rw [claims_eq_names, claims_eq_names] at hsettled
    exact ⟨_, _, s₁, s₂, m', hfirst, hsecond, hfound, agreement_of_settled hsettled⟩
  · obtain ⟨s₁, s₂, m', hfirst, hsecond, hfound, hsettled⟩ := h.two_reports delta r2 r1 (u := p2) (v := p1)
      (by simp) (by simp) h.ne (if_pos rfl) (if_neg h.ne.symm)
    rw [(determineWinner_scored h.player1 h.player2 h.ne).2] at hsettled
    unfold ReportScoreRequest.row at hsettled
    rw [claims_eq_names, claims_eq_names] at hsettled
    exact ⟨_, _, s₁, s₂, m', hfirst, hsecond, hfound, agreement_of_settled hsettled⟩

end Reports

namespace Sample

theorem playing : Playing tables final duel alice bob := by
  refine ⟨by decide, rfl, rfl, by decide, rfl, ?_, ?_⟩
  · decide
  · decide

/-- Both say that the first player has won, and the scores they give for themselves say so too. -/
theorem score_agreement_alice : ∃ x y s₁ s₂ m', (reportScore flat final bob ⟨1, 3⟩).run tables = (.ok x, s₁) ∧
    (reportScore flat final alice ⟨3, 1⟩).run s₁ = (.ok y, s₂) ∧ s₂.findMatch final = some m' ∧
    ∀ w, m'.status = .completed ∧ m'.winnerId = w → ReportScoreRequest.names ⟨3, 1⟩ alice bob = w ∧
      ReportScoreRequest.names ⟨1, 3⟩ bob alice = w := by
  obtain ⟨x, y, s₁, s₂, m', hfirst, hsecond, hfound, -, hiff⟩ :=
    @score_agreement flat _ _ _ _ bob alice _ ⟨3, 1⟩ ⟨1, 3⟩ ⟨1, 3⟩ ⟨3, 1⟩ playing (.inr ⟨rfl, rfl⟩)
  exact ⟨x, y, s₁, s₂, m', hfirst, hsecond, hfound, hiff.2 (by decide)⟩

/-- The first player reports 3 to 1, the second one 5 to 7: both name the first player, and the second one is stored. -/
theorem loser_stored : ∃ x y s₁ s₂ m', (reportScore flat final alice ⟨3, 1⟩).run tables = (.ok x, s₁) ∧
    (reportScore flat final bob ⟨5, 7⟩).run s₁ = (.ok y, s₂) ∧ s₂.findMatch final = some m' ∧ m'.status = .completed ∧
    m'.winnerId = some bob ∧ ReportScoreRequest.names ⟨3, 1⟩ alice bob = some alice ∧
    ReportScoreRequest.names ⟨5, 7⟩ bob alice = some alice := by
  obtain ⟨s₁, s₂, m', hfirst, hsecond, hfound, hsettled⟩ := playing.two_reports flat ⟨3, 1⟩ ⟨5, 7⟩ (u := alice)
    (v := bob) (by simp) (by simp) (by decide) rfl rfl
  rcases hsettled with ⟨hne, -⟩ | ⟨-, hstatus, hwinner⟩
  · exact absurd hne (by decide)
  · exact ⟨_, _, s₁, s₂, m', hfirst, hsecond, hfound, hstatus, hwinner.trans (by decide), by decide, by decide⟩

end Sample

end ArenaX.MatchService
