/-
A call of `on_match_completed` that fails in the middle. Until it inserts the next round, all it has written is the
status of the round, and a later call does what is left. From then on a later call finds the next round and returns; the
matches that are missing are never inserted. A pass of the poll does not help: it only adds rounds after the new one.
-/
import ArenaX.Orchestrator.Workers

namespace ArenaX.Orchestrator

open Machine Script

/-! ## Where a call can stop -/

section Cut

variable {t : Uuid} {task : Task} {round : TournamentRound} {d : Database} {k : ℕ}

/-- The store when a call stops after some more statements. -/
def Task.stop (t : Uuid) (k : ℕ) (task : Task) (d : Database) : Database := Prog.cut k (task.script t) d

@[simp] theorem Task.stop_zero : task.stop t 0 d = d := Prog.cut_zero _ d

theorem Task.stop_succ (h : task.result = none) :
    task.stop t (k + 1) d = (task.next t d).stop t k (task.write t d) := by
  unfold Task.stop
  rw [Task.script_eq h]
  rfl

@[simp] theorem Task.stop_done {r : Except ApiError Unit} : (Task.done r).stop t k d = d := by
  cases k <;> rfl

/-- How many statements a call has left. -/
def Task.left (t : Uuid) (task : Task) (d : Database) : ℕ := Prog.steps (task.script t) d

theorem Task.left_succ (h : task.result = none) : task.left t d = (task.next t d).left t (task.write t d) + 1 := by
  unfold Task.left
  rw [Task.script_eq h]
  rfl

/-- The matches of the next round are inserted one by one. -/
theorem stop_insert {newRoundId : Uuid} : ∀ {k idx : ℕ} {fixtures : List Fixture} {d : Database},
    (Task.insert newRoundId idx fixtures).stop t k d = d.addMatches t newRoundId idx (fixtures.take k)
  | 0, _, _, _ => by simp [Database.addMatches, matchRows]
  | _ + 1, _, [], _ => by
    simp only [List.take_nil, Database.addMatches, matchRows, List.length_nil, List.append_nil]
    rfl
  | k + 1, idx, f :: fixtures, d => by
    rw [Task.stop_succ rfl]
    simp only [Task.next, Task.write, List.tail_cons, List.take_succ_cons]
    rw [stop_insert, addMatches_insertMatch]

theorem left_insert {newRoundId : Uuid} : ∀ {fixtures : List Fixture} {idx : ℕ} {d : Database},
    (Task.insert newRoundId idx fixtures).left t d = fixtures.length
  | [], _, _ => rfl
  | f :: fixtures, idx, d => by
    rw [Task.left_succ rfl]
    simp only [Task.next, List.tail_cons, List.length_cons]
    rw [left_insert]

/-- No round of the tournament comes after this one. -/
def Database.Latest (d : Database) (t : Uuid) (round : TournamentRound) : Prop :=
  ¬ ∃ row ∈ d.tournamentRounds, row.tournamentId = t ∧ round.roundNumber < row.roundNumber

/-- The store after the insertion of the next round and its first `j` matches. -/
def Database.drawn (t : Uuid) (round : TournamentRound) (j : ℕ) (d : Database) : Database :=
  let advancing := d.advancing round.id
  ((d.setRoundStatus round.id .completed).addRound t (round.roundNumber + 1)
    (nextRoundType advancing.length)).addMatches t ⟨d.nextId⟩ 0 ((nextFixtures advancing).take j)

/-- From the end of a round on that is the last one. -/
theorem stop_close (hlast : d.Latest t round) :
    (k ≤ 2 → (Task.close round.id round.roundNumber).stop t k d = d ∨
      (Task.close round.id round.roundNumber).stop t k d = d.setRoundStatus round.id .completed) ∧
    (3 ≤ k → k < (Task.close round.id round.roundNumber).left t d → 1 < (d.advancing round.id).length ∧
      k - 3 < (nextFixtures (d.advancing round.id)).length ∧
      (Task.close round.id round.roundNumber).stop t k d = d.drawn t round (k - 3)) := by
  have hadvancing : (d.setRoundStatus round.id .completed).advancing round.id = d.advancing round.id := rfl
  constructor
  · intro hk
    interval_cases k
    · exact .inl Task.stop_zero
    · exact .inr (by rw [Task.stop_succ rfl, Task.stop_zero]; rfl)
    · exact .inr (by rw [Task.stop_succ rfl, Task.stop_succ rfl, Task.stop_zero]; rfl)
  · intro hk hleft
    obtain ⟨k, rfl⟩ := Nat.exists_eq_add_of_le' hk
    rw [Task.left_succ rfl, Task.left_succ rfl] at hleft
    rw [Task.stop_succ rfl, Task.stop_succ rfl]
    simp only [Task.next, Task.write, id, hadvancing] at hleft ⊢
    split at hleft
    · rw [Task.left_succ rfl] at hleft
      exact absurd hleft (by simp [Task.next, Task.left, Task.script, Prog.steps])
    · rename_i hmany
      rw [if_neg hmany]
      rw [Task.left_succ rfl] at hleft
      rw [Task.stop_succ rfl]
      simp only [Task.next, Task.write, insertRound_setRoundStatus hlast] at hleft ⊢
      rw [left_insert] at hleft
      exact ⟨by omega, by omega, stop_insert⟩

/-- The first three statements of a call for a round that is over only read. -/
theorem stop_count (hround : d.findRound round.id = some round)
    (hover : (d.roundMatches round.id).countP (·.Pending) = 0) :
    (Task.count round.id).stop t (k + 3) d = ((Task.look round.id round.roundNumber).next t d).stop t k d ∧
      (Task.count round.id).left t d = ((Task.look round.id round.roundNumber).next t d).left t d + 3 := by
  have hfetch : (Task.count round.id).next t d = .fetch round.id := by simp [Task.next, hover]
  have hlook : (Task.fetch round.id).next t d = .look round.id round.roundNumber := by simp [Task.next, hround]
  constructor
  · rw [Task.stop_succ rfl, hfetch, Task.stop_succ rfl]
    show ((Task.fetch round.id).next t d).stop t (k + 1) d = _
    rw [hlook, Task.stop_succ rfl]
    rfl
  · rw [Task.left_succ rfl, hfetch, Task.left_succ rfl]
    show ((Task.fetch round.id).next t d).left t d + 1 + 1 = _
    rw [hlook, Task.left_succ rfl]
    rfl

/-- Where a call for a round that is over stops: before its sixth statement it has at most closed the round, from then
on it has inserted the next round and some of its matches. -/
theorem cut_cases (hround : d.findRound round.id = some round)
    (hover : (d.roundMatches round.id).countP (·.Pending) = 0) :
    (k ≤ 5 → Prog.cut k (onMatchCompleted t round.id) d = d ∨
      d.Latest t round ∧ Prog.cut k (onMatchCompleted t round.id) d = d.setRoundStatus round.id .completed) ∧
    (6 ≤ k → k < Prog.steps (onMatchCompleted t round.id) d → d.Latest t round ∧ 1 < (d.advancing round.id).length ∧
      k - 6 < (nextFixtures (d.advancing round.id)).length ∧
      Prog.cut k (onMatchCompleted t round.id) d = d.drawn t round (k - 6)) := by
  show (k ≤ 5 → (Task.count round.id).stop t k d = d ∨ d.Latest t round ∧ (Task.count round.id).stop t k d = _) ∧
    (6 ≤ k → k < (Task.count round.id).left t d → d.Latest t round ∧ _ ∧ _ ∧ (Task.count round.id).stop t k d = _)
  rcases Nat.lt_or_ge k 3 with hk | hk
  · refine ⟨fun _ => .inl ?_, fun hk' => absurd hk' (by omega)⟩
    interval_cases k
    · exact Task.stop_zero
    · rw [Task.stop_succ rfl, Task.stop_zero]
      rfl
    · rw [Task.stop_succ rfl, Task.stop_succ, Task.stop_zero]
      · simp [Task.next, Task.write, hover]
      · simp [Task.next, hover, Task.result]
  · obtain ⟨k, rfl⟩ := Nat.exists_eq_add_of_le' hk
    obtain ⟨hstop, hleft⟩ := stop_count (t := t) (k := k) hround hover
    rw [hstop, hleft]
    by_cases hlater : ∃ row ∈ d.tournamentRounds, row.tournamentId = t ∧ round.roundNumber < row.roundNumber
    · have hdone : (Task.look round.id round.roundNumber).next t d = .done (.ok ()) := if_pos (by simpa using hlater)
      rw [hdone, Task.stop_done]
      exact ⟨fun _ => .inl rfl, fun _ hk => absurd hk (by simp [Task.left, Task.script, Prog.steps])⟩
    · have hclose : (Task.look round.id round.roundNumber).next t d = .close round.id round.roundNumber :=
        if_neg (by simpa using hlater)
      rw [hclose]
      obtain ⟨hbefore, hafter⟩ := stop_close (k := k) (show d.Latest t round from hlater)
      refine ⟨fun hk => (hbefore (by omega)).imp_right fun h => ⟨hlater, h⟩, fun hk hsteps => ⟨hlater, ?_⟩⟩
      exact hafter (by omega) (by omega)

end Cut

/-! ## Later calls -/

/-- The statements of a call or a pass. -/
def Advance.script : Advance → Sql Unit
  | .call t roundId => onMatchCompleted t roundId
  | .poll => pollForStaleRounds

/-- The store after passes of the poll and calls that run to their ends, one after the other. -/
def recover (later : List Advance) (d : Database) : Database :=
  later.foldl (fun d action => (action.script.run d).2) d

section Recover

variable {t : Uuid} {round : TournamentRound} {d : Database}

theorem findRound_setRoundStatus {status : RoundStatus} {roundId : Uuid} (hround : d.findRound round.id = some round) :
    (d.setRoundStatus roundId status).findRound round.id = some (round.setStatus roundId status) := by
  unfold Database.findRound at hround ⊢
  simp [Database.setRoundStatus, List.find?_map, hround]

/-- Closing a round twice is closing it once. -/
theorem setRoundStatus_twice (status : RoundStatus) (roundId : Uuid) :
    (d.setRoundStatus roundId status).setRoundStatus roundId status = d.setRoundStatus roundId status := by
  have htwice (row : TournamentRound) : (row.setStatus roundId status).setStatus roundId status =
    row.setStatus roundId status := by
    unfold TournamentRound.setStatus
    split <;> simp_all
  simp [Database.setRoundStatus, Function.comp_def, htwice]

theorem latest_setRoundStatus {status : RoundStatus} {roundId : Uuid} (hlast : d.Latest t round) :
    (d.setRoundStatus roundId status).Latest t (round.setStatus roundId status) := by
  rintro ⟨row, hrow, ht, hnumber⟩
  obtain ⟨_, hrow', rfl⟩ := List.mem_map.1 hrow
  rw [TournamentRound.setStatus_tournamentId] at ht
  rw [TournamentRound.setStatus_roundNumber, TournamentRound.setStatus_roundNumber] at hnumber
  exact hlast ⟨_, hrow', ht, hnumber⟩

/-- A call does the same when the round is closed already. -/
theorem run_of_closed (hround : d.findRound round.id = some round)
    (hover : (d.roundMatches round.id).countP (·.Pending) = 0) (hlast : d.Latest t round) :
    ((onMatchCompleted t round.id).run (d.setRoundStatus round.id .completed)).2 =
      ((onMatchCompleted t round.id).run d).2 := by
  have hid : (round.setStatus round.id .completed).id = round.id := round.setStatus_id
  have hover' : ((d.setRoundStatus round.id .completed).roundMatches (round.setStatus round.id .completed).id).countP
    (·.Pending) = 0 := by
    rw [hid]
    exact hover
  have hround' : (d.setRoundStatus round.id .completed).findRound (round.setStatus round.id .completed).id =
      some (round.setStatus round.id .completed) := by
    rw [hid]
    exact findRound_setRoundStatus hround
  have hrun := run_of_over (t := t) hover' hround'
  rw [if_neg (latest_setRoundStatus hlast), hid] at hrun
  rw [hrun, run_of_over hover hround, if_neg hlast, advancing_setRoundStatus]
  split
  · simp [Database.finish, setRoundStatus_twice]
  · simp [Database.nextRound, setRoundStatus_twice]
    rfl

end Recover

/-! ## Tournaments without ids -/

namespace Database

/-- The ids of a tournament's rounds of a number. -/
def numbered (d : Database) (t : Uuid) (number : ℕ) : List Uuid :=
  (d.tournamentRounds.filter fun row => row.tournamentId = t ∧ row.roundNumber = number).map (·.id)

/-- The matches in them. -/
def fixturesOf (d : Database) (t : Uuid) (number : ℕ) : List (I32 × Fixture) :=
  (d.numbered t number).flatMap fun id => (d.roundMatches id).map fun m => (m.matchNumber, m.toFixture)

/-- The same tournament, up to ids. -/
structure Same (t : Uuid) (d d' : Database) : Prop where
  tournament : d.tournaments.filter (·.id = t) = d'.tournaments.filter (·.id = t)
  rounds : (d.roundsOf t).map (fun row => (row.roundNumber, row.roundType, row.status)) =
    (d'.roundsOf t).map fun row => (row.roundNumber, row.roundType, row.status)
  fixtures : ∀ number, d.fixturesOf t number = d'.fixturesOf t number

theorem Same.of_eq {t : Uuid} {d d' : Database} (h : d = d') : Same t d d' := by
  subst h
  exact ⟨rfl, rfl, fun _ => rfl⟩

/-- The tournament has one round of a number, and it has these matches. -/
structure Stuck (t : Uuid) (number : ℕ) (id : Uuid) (rows : List TournamentMatch) (d : Database) : Prop where
  numbered : d.numbered t number = [id]
  old : id.value < d.nextId
  rows : d.roundMatches id = rows

end Database

section Stuck

variable {t id roundId : Uuid} {number : ℕ} {rows : List TournamentMatch} {d : Database} {round : TournamentRound}

theorem numbered_setRoundStatus {status : RoundStatus} :
    (d.setRoundStatus roundId status).numbered t number = d.numbered t number := by
  simp [Database.numbered, Database.setRoundStatus, List.filter_map, Function.comp_def]

theorem numbered_addRound {t' : Uuid} {number' : ℕ} {type : RoundType} :
    (d.addRound t' number' type).numbered t number =
    d.numbered t number ++ if t' = t ∧ number' = number then [⟨d.nextId⟩] else [] := by
  simp only [Database.numbered, Database.addRound, List.filter_append, List.map_append, List.filter_singleton]
  split <;> simp [*]

/-- What a call writes when it runs alone. -/
theorem run_cases (t roundId : Uuid) (d : Database) :
    ((onMatchCompleted t roundId).run d).2 = d ∨ ∃ round, d.Latest t round ∧
    (((onMatchCompleted t roundId).run d).2 = d.finish t round.id ∨
      ((onMatchCompleted t roundId).run d).2 = d.nextRound t round) := by
  rcases Nat.eq_zero_or_pos ((d.roundMatches roundId).countP (·.Pending)) with hover | hpending
  · cases hround : d.findRound roundId with
    | none =>
      left
      simp [onMatchCompleted, run_bind, hover, hround, okOr]
      rfl
    | some round =>
      obtain rfl : round.id = roundId := by simpa using List.find?_some hround
      rw [run_of_over hover hround]
      split_ifs with hlater
      exacts [.inl rfl, .inr ⟨round, hlater, .inl rfl⟩, .inr ⟨round, hlater, .inr rfl⟩]
  · exact .inl (by rw [run_of_pending hpending])

namespace Database.Stuck

/-- Another round is never one of this number, since this one is there. -/
theorem call (h : d.Stuck t number id rows) (t' roundId : Uuid) :
    ((onMatchCompleted t' roundId).run d).2.Stuck t number id rows := by
  rcases run_cases t' roundId d with heq | ⟨round, hlast, heq | heq⟩
  · rwa [heq]
  · rw [heq]
    exact ⟨numbered_setRoundStatus.trans h.numbered, h.old, h.rows⟩
  · rw [heq]
    have hother : ¬ (t' = t ∧ round.roundNumber + 1 = number) := by
      rintro ⟨rfl, rfl⟩
      have hid : id ∈ d.numbered t' (round.roundNumber + 1) := h.numbered ▸ List.mem_singleton_self id
      obtain ⟨row, hrow, -⟩ := List.mem_map.1 hid
      obtain ⟨hrow, hnumber⟩ := List.mem_filter.1 hrow
      have hnumber := of_decide_eq_true hnumber
      exact hlast ⟨row, hrow, hnumber.1, by omega⟩
    have hne : id ≠ ⟨d.nextId⟩ := fun heq => absurd h.old (by rw [heq]; exact lt_irrefl _)
    refine ⟨?_, h.old.trans_le (by simp only [nextRound, addMatches, addRound, setRoundStatus]; omega), ?_⟩
    · show (addRound t' _ _ (d.setRoundStatus _ _)).numbered t number = _
      rw [numbered_addRound, if_neg hother, List.append_nil, numbered_setRoundStatus, h.numbered]
    · rw [nextRound, roundMatches_addMatches_of_ne _ _ hne]
      exact h.rows

theorem advanceRounds (h : d.Stuck t number id rows) : ∀ stale : List (Uuid × Uuid),
    ((advanceRounds stale).run d).2.Stuck t number id rows := by
  intro stale
  induction stale generalizing d with
  | nil => exact h
  | cons head rest ih =>
    obtain ⟨roundId, t'⟩ := head
    have hattempt : (attempt (onMatchCompleted t' roundId)).run d =
        (.ok ((onMatchCompleted t' roundId).run d).1, ((onMatchCompleted t' roundId).run d).2) := Prog.run_bind _ _ d
    rw [Orchestrator.advanceRounds, run_bind_of_ok hattempt]
    exact ih (h.call t' roundId)

theorem recover (h : d.Stuck t number id rows) (later : List Advance) : (recover later d).Stuck t number id rows := by
  induction later generalizing d with
  | nil => exact h
  | cons action later ih =>
    refine ih ?_
    cases action with
    | call t' roundId => exact h.call t' roundId
    | poll => exact h.advanceRounds d.staleRounds

theorem fixturesOf (h : d.Stuck t number id rows) :
    d.fixturesOf t number = rows.map fun m => (m.matchNumber, m.toFixture) := by
  rw [Database.fixturesOf, h.numbered, List.flatMap_singleton, h.rows]

end Database.Stuck

/-- After its insertion the next round is there, with some of its matches. -/
theorem stuck_drawn (hlast : d.Latest t round) (j : ℕ) : (d.drawn t round j).Stuck t (round.roundNumber + 1) ⟨d.nextId⟩
    (d.roundMatches ⟨d.nextId⟩ ++ matchRows t ⟨d.nextId⟩ (d.nextId + 1)
      0 ((nextFixtures (d.advancing round.id)).take j)) := by
  have hnone : d.numbered t (round.roundNumber + 1) = [] := by
    refine List.map_eq_nil_iff.2 (List.filter_eq_nil_iff.2 fun row hrow hnumber => hlast ⟨row, hrow, ?_⟩)
    have hnumber := of_decide_eq_true hnumber
    exact ⟨hnumber.1, by omega⟩
  refine ⟨?_, ?_, Database.roundMatches_addMatches _ _⟩
  · show (Database.addRound t _ _ (d.setRoundStatus _ _)).numbered t _ = _
    rw [numbered_addRound, numbered_setRoundStatus, hnone, if_pos ⟨rfl, rfl⟩]
    rfl
  · show d.nextId < d.nextId + 1 + _
    omega

end Stuck

/-- A call for a round that is over stops. Calls and passes that come later bring the tournament to where the call would
have brought it if and only if the call has not inserted the next round, its sixth statement, or has nothing left to
do. -/
theorem advancement_recovers (t : Uuid) (round : TournamentRound) (d : Database) (k : ℕ)
    (hround : d.findRound round.id = some round) (hover : (d.roundMatches round.id).countP (·.Pending) = 0) :
    (∃ later : List Advance, (∀ action ∈ later, action = .poll ∨ action = .call t round.id) ∧
      (recover later (Prog.cut k (onMatchCompleted t round.id) d)).Same t ((onMatchCompleted t round.id).run d).2) ↔
      k ≤ 5 ∨ Prog.steps (onMatchCompleted t round.id) d ≤ k := by
  obtain ⟨hbefore, hafter⟩ := cut_cases (t := t) (k := k) hround hover
  constructor
  · rintro ⟨later, -, hsame⟩
    by_contra! hk
    obtain ⟨hlast, hmany, hj, hcut⟩ := hafter hk.1 hk.2
    have hrun : ((onMatchCompleted t round.id).run d).2 =
      d.drawn t round (nextFixtures (d.advancing round.id)).length := by
      rw [run_of_over hover hround, if_neg hlast, if_neg (by omega), Database.drawn, List.take_length]
      rfl
    -- the matches of the next round that are missing in the one are there in the other
    have hfixtures := hsame.fixtures (round.roundNumber + 1)
    rw [hcut, hrun, ((stuck_drawn hlast _).recover later).fixturesOf, (stuck_drawn hlast _).fixturesOf] at hfixtures
    have hlength := congrArg List.length hfixtures
    simp only [List.map_append, List.length_append, List.length_map, length_matchRows, List.length_take] at hlength
    omega
  · rintro (hk | hsteps)
    · refine ⟨[.call t round.id], by simp, .of_eq ?_⟩
      rcases hbefore hk with hcut | ⟨hlast, hcut⟩
      · rw [hcut]
        rfl
      · rw [hcut]
        exact run_of_closed hround hover hlast
    · exact ⟨[], by simp, .of_eq (Prog.cut_of_steps_le hsteps)⟩

namespace Sample

def firstRound : TournamentRound := ⟨⟨10⟩, cup, 1, .semifinal, .inProgress⟩

/-- Alice and Bob have won their matches. -/
def semifinalsPlayed : Database where
  nextId := 20
  tournaments := [⟨cup, "chess", "single_elimination", .inProgress⟩]
  tournamentParticipants := []
  userElo := []
  tournamentRounds := [firstRound]
  tournamentMatches :=
    [⟨(Fixture.duel alice carol).won alice, ⟨11⟩, cup, ⟨10⟩, 1⟩,
      ⟨(Fixture.duel bob ⟨4⟩).won bob, ⟨12⟩, cup, ⟨10⟩, 2⟩]

/-- The call stops after it has closed the round. -/
theorem advancement_recovers_closed :
    Prog.cut 4 (onMatchCompleted cup ⟨10⟩) semifinalsPlayed = semifinalsPlayed.setRoundStatus ⟨10⟩ .completed ∧
    ∃ later : List Advance, (∀ action ∈ later, action = .poll ∨ action = .call cup ⟨10⟩) ∧
      (recover later (semifinalsPlayed.setRoundStatus ⟨10⟩ .completed)).fixturesOf cup 2 =
        [(i32.wrap 1, .duel alice bob)] := by
  have hcut : Prog.cut 4 (onMatchCompleted cup ⟨10⟩) semifinalsPlayed =
      semifinalsPlayed.setRoundStatus ⟨10⟩ .completed := by
    decide +kernel
  obtain ⟨later, hlater, hsame⟩ :=
    (advancement_recovers cup firstRound semifinalsPlayed 4 (by decide) (by decide +kernel)).2 (.inl (by decide))
  refine ⟨hcut, later, hlater, ?_⟩
  rw [← hcut]
  exact (hsame.fixtures 2).trans (by decide +kernel)

/-- The call stops after it has inserted the final: the final is never played, for its match never is inserted. -/
theorem final_without_match : semifinalsPlayed.findRound firstRound.id = some firstRound ∧
    (semifinalsPlayed.roundMatches firstRound.id).countP (·.Pending) = 0 ∧
    (∀ later : List Advance,
      (recover later (Prog.cut 6 (onMatchCompleted cup firstRound.id) semifinalsPlayed)).fixturesOf cup 2 = []) ∧
    ((onMatchCompleted cup firstRound.id).run semifinalsPlayed).2.fixturesOf cup 2 =
      [(i32.wrap 1, .duel alice bob)] := by
  refine ⟨by decide, by decide +kernel, fun later => ?_, by decide +kernel⟩
  have hstuck : (Prog.cut 6 (onMatchCompleted cup firstRound.id) semifinalsPlayed).Stuck cup 2 ⟨20⟩ [] :=
    ⟨by decide +kernel, by decide +kernel, by decide +kernel⟩
  exact (hstuck.recover later).fixturesOf

end Sample

end ArenaX.Orchestrator
