/-
Runs of a single-elimination tournament. The bracket is seeded for any number of participants; then matches are won by
one of their players, and `on_match_completed` is called for rounds of the tournament, in any order. Along every run the
rounds that are stored are those of a knockout tournament. A run makes as many calls that change something as the
tournament has matches of two players and rounds, and as long as it is not completed there is a call to make.
-/
import ArenaX.Lib.Runs
import ArenaX.Orchestrator.Knockout

namespace ArenaX.Orchestrator

open TransitionSystem (Unrestricted)

variable {participants : List Uuid} {round : TournamentRound} {t : Uuid}

/-! ## How the rounds are stored -/

/-- The matches of a round. -/
def Database.fixtures (d : Database) (roundId : Uuid) : List Fixture := (d.roundMatches roundId).map (·.toFixture)

def Database.statusOf (d : Database) (t : Uuid) : Option TournamentStatus := (d.findTournament t).map (·.status)

/-- The rounds of a tournament are numbered from one on and have these matches, and it has no others. -/
structure Stored (t : Uuid) (d : Database) (stages : List (List Fixture)) : Prop where
  keyed : d.Keyed
  matchesOf : d.matchesOf t = (d.roundsOf t).flatMap fun round => d.roundMatches round.id
  rounds : (d.roundsOf t).map (fun round => d.fixtures round.id) = stages
  numbers : (d.roundsOf t).map (·.roundNumber) = List.range' 1 stages.length

namespace Stored

variable {t roundId : Uuid} {d : Database} {stages past : List (List Fixture)} {last fs : List Fixture}
  {m : TournamentMatch}

theorem toFixture_matchesOf (h : Stored t d stages) : (d.matchesOf t).map (·.toFixture) = stages.flatten := by
  rw [h.matchesOf, List.map_flatMap, ← h.rounds]
  rfl

theorem mem_tournamentRounds (h : round ∈ d.roundsOf t) :
    round ∈ d.tournamentRounds ∧ round.tournamentId = t := by
  simpa [Database.roundsOf] using h

theorem exists_last (h : Stored t d (past ++ [last])) : ∃ rs round, d.roundsOf t = rs ++ [round] := by
  obtain ⟨_, rs', hrs, -, hlast⟩ := List.map_eq_append_iff.1 h.rounds
  obtain ⟨_, rfl, -⟩ := List.map_eq_singleton_iff.1 hlast
  exact ⟨_, _, hrs⟩

/-- The last round, and those before it. -/
theorem of_last (h : Stored t d (past ++ [last])) {rs : List TournamentRound}
    (hrs : d.roundsOf t = rs ++ [round]) : rs.map (fun round => d.fixtures round.id) = past ∧
      d.fixtures round.id = last ∧ rs.map (·.roundNumber) = List.range' 1 past.length ∧
      round.roundNumber = past.length + 1 := by
  have hrounds := h.rounds
  have hnumbers := h.numbers
  rw [hrs, List.map_append] at hrounds hnumbers
  rw [List.length_append, List.length_singleton, List.range'_concat] at hnumbers
  obtain ⟨h1, h2⟩ := List.append_inj' hrounds rfl
  obtain ⟨h3, h4⟩ := List.append_inj' hnumbers rfl
  exact ⟨h1, List.singleton_inj.1 h2, h3, by simpa [Nat.add_comm] using h4⟩

theorem setTournamentStatus (h : Stored t d stages) (status : TournamentStatus) :
    Stored t (d.setTournamentStatus t status) stages :=
  ⟨h.keyed.setTournamentStatus status, h.matchesOf, h.rounds, h.numbers⟩

theorem setRoundStatus (h : Stored t d stages) (status : RoundStatus) :
    Stored t (d.setRoundStatus roundId status) stages where
  keyed := h.keyed.setRoundStatus status
  matchesOf := by
    rw [Database.roundsOf_setRoundStatus, List.flatMap_map]
    simp only [TournamentRound.setStatus_id]
    exact h.matchesOf
  rounds := by
    rw [Database.roundsOf_setRoundStatus, List.map_map, ← h.rounds]
    simp only [Function.comp_def, TournamentRound.setStatus_id]
    rfl
  numbers := by
    rw [Database.roundsOf_setRoundStatus, List.map_map, ← h.numbers]
    simp only [Function.comp_def, TournamentRound.setStatus_roundNumber]

/-- A new round with its matches. -/
theorem addRound (h : Stored t d stages) (type : RoundType) (fs : List Fixture) :
    Stored t ((d.addRound t (stages.length + 1) type).addMatches t ⟨d.nextId⟩ 0 fs) (stages ++ [fs]) := by
  set d' := (d.addRound t (stages.length + 1) type).addMatches t ⟨d.nextId⟩ 0 fs with hd'
  have hroundsOf : d'.roundsOf t =
      d.roundsOf t ++ [⟨⟨d.nextId⟩, t, stages.length + 1, type, .inProgress⟩] := Database.roundsOf_addRound _ _
  have hold : ∀ round ∈ d.roundsOf t, d'.roundMatches round.id = d.roundMatches round.id := by
    intro round hround
    refine Database.roundMatches_addMatches_of_ne 0 fs fun hid => ?_
    have := h.keyed.round_lt round (mem_tournamentRounds hround).1
    rw [hid] at this
    exact absurd this (lt_irrefl _)
  have hnew : d'.roundMatches ⟨d.nextId⟩ = matchRows t ⟨d.nextId⟩ (d.nextId + 1) 0 fs := by
    refine (Database.roundMatches_addMatches 0 fs).trans ?_
    rw [show (d.addRound t (stages.length + 1) type).roundMatches ⟨d.nextId⟩ = [] from h.keyed.roundMatches_nextId]
    rfl
  refine ⟨(h.keyed.addRound _ _).addMatches (Nat.lt_succ_self _) 0 fs, ?_, ?_, ?_⟩
  · rw [hroundsOf, List.flatMap_append, List.flatMap_congr hold, List.flatMap_singleton, hnew, ← h.matchesOf]
    exact Database.matchesOf_addMatches 0 fs
  · rw [hroundsOf, List.map_append, List.map_singleton, ← h.rounds]
    refine congrArg₂ (· ++ [·]) (List.map_congr_left fun round hround => ?_) ?_
    · rw [Database.fixtures, hold round hround]
      rfl
    · rw [Database.fixtures, hnew]
      exact matchRows_toFixture _ 0 fs
  · rw [hroundsOf, List.map_append, h.numbers, List.length_append, List.length_singleton, List.range'_concat]
    simp [Nat.add_comm]

/-- A pending match is one of the last round, and of no other. -/
theorem mem_roundMatches_of_pending {k : ℕ} {rs : List TournamentRound}
    (h : Stored t d (past ++ [last])) (hk : Knockout participants k past last)
    (hrs : d.roundsOf t = rs ++ [round]) (hm : m ∈ d.matchesOf t) (hpending : m.Pending) :
    m ∈ d.roundMatches round.id ∧ ∀ r ∈ rs, m ∉ d.roundMatches r.id := by
  -- the rounds before the last one are over
  have hearlier : ∀ r ∈ rs, m ∉ d.roundMatches r.id := by
    intro r hr hmem
    refine hk.closed m.toFixture (List.mem_flatten.2 ⟨d.fixtures r.id, ?_, List.mem_map_of_mem hmem⟩) hpending
    exact (h.of_last hrs).1 ▸ List.mem_map_of_mem hr
  refine ⟨?_, hearlier⟩
  rw [h.matchesOf, hrs] at hm
  obtain ⟨r, hr, hmr⟩ := List.mem_flatMap.1 hm
  rcases List.mem_append.1 hr with hr | hr
  · exact absurd hmr (hearlier r hr)
  · rwa [List.mem_singleton.1 hr] at hmr

/-- Writing the result of a match leaves the rounds it is not in as they are. -/
theorem fixtures_setWinner_of_not_mem {w : Uuid} (h : Stored t d stages)
    (hm : m ∈ d.tournamentMatches) (hround : m ∉ d.roundMatches roundId) :
    (d.setWinner m.id w).fixtures roundId = d.fixtures roundId := by
  rw [Database.fixtures, Database.roundMatches_setWinner, Database.Keyed.map_record_of_ne]
  · rfl
  · intro x hx hid
    have heq : x = m := List.inj_on_of_nodup_map h.keyed.matchIds (List.mem_of_mem_filter hx) hm hid
    exact hround (heq ▸ hx)

/-- The result of a pending match is written into the last round. -/
theorem setWinner {k : ℕ} {w : Uuid} (h : Stored t d (past ++ [last]))
    (hk : Knockout participants k past last) (hm : m ∈ d.matchesOf t) (hpending : m.status = .pending)
    (hw : w ∈ m.players) : ∃ l a b l', last = l ++ .duel a b :: l' ∧ (w = a ∨ w = b) ∧
      Stored t (d.setWinner m.id w) (past ++ [l ++ (Fixture.duel a b).won w :: l']) := by
  obtain ⟨rs, round, hrs⟩ := h.exists_last
  obtain ⟨hpast, hlast, -, -⟩ := h.of_last hrs
  have hmpending : m.Pending := by simp [Fixture.Pending, hpending]
  obtain ⟨hmem, hearlier⟩ := h.mem_roundMatches_of_pending hk hrs hm hmpending
  obtain ⟨l, l', hl⟩ := List.append_of_mem hmem
  have hlast' : last = l.map (·.toFixture) ++ m.toFixture :: l'.map (·.toFixture) := by
    rw [← hlast, Database.fixtures, hl, List.map_append, List.map_cons]
  obtain ⟨a, b, hab⟩ := (hk.regular_last m.toFixture (by simp [hlast'])).eq_duel hmpending
  have hround : (d.setWinner m.id w).fixtures round.id =
      l.map (·.toFixture) ++ (Fixture.duel a b).won w :: l'.map (·.toFixture) := by
    have hsub : (l ++ m :: l').Sublist d.tournamentMatches := hl ▸ List.filter_sublist
    rw [Database.fixtures, Database.roundMatches_setWinner, hl, h.keyed.map_record hsub, ← hab]
    simp
  refine ⟨l.map (·.toFixture), a, b, l'.map (·.toFixture), hab ▸ hlast', ?_, ⟨h.keyed.setWinner _ _, ?_, ?_, ?_⟩⟩
  · simpa [hab, Fixture.duel, Fixture.players] using hw
  · rw [Database.matchesOf_setWinner, h.matchesOf, List.map_flatMap]
    refine List.flatMap_congr fun r _ => ?_
    rw [Database.roundMatches_setWinner]
  · show (d.roundsOf t).map _ = _
    rw [hrs, List.map_append, List.map_singleton, hround, ← hpast]
    refine congrArg (· ++ [_]) (List.map_congr_left fun r hr => ?_)
    exact h.fixtures_setWinner_of_not_mem (List.mem_of_mem_filter hm) (hearlier r hr)
  · exact h.numbers.trans (by simp)

end Stored

/-! ## What a call of `on_match_completed` does -/

section Advance

variable {t : Uuid} {participants : List Uuid} {k : ℕ} {d : Database} {past : List (List Fixture)} {last : List Fixture}
  {rs : List TournamentRound} {round : TournamentRound}

theorem countP_pending_eq_zero {id : Uuid} :
    (d.roundMatches id).countP (·.Pending) = 0 ↔ ∀ f ∈ d.fixtures id, ¬ f.Pending := by
  simp [List.countP_eq_zero, Database.fixtures]

/-- Nothing happens to the rounds before the last one. -/
theorem run_earlier (hs : Stored t d (past ++ [last])) (hk : Knockout participants k past last)
    (hrs : d.roundsOf t = rs ++ [round]) {r : TournamentRound} (hr : r ∈ rs) :
    (onMatchCompleted t r.id).run d = (.ok (), d) := by
  obtain ⟨hpast, -, hnumbers, hnumber⟩ := hs.of_last hrs
  have hmem : ∀ x ∈ rs ++ [round], x ∈ d.tournamentRounds ∧ x.tournamentId = t :=
    fun x hx => Stored.mem_tournamentRounds (hrs ▸ hx)
  have hover : (d.roundMatches r.id).countP (·.Pending) = 0 := by
    refine countP_pending_eq_zero.2 fun f hf => hk.closed f (List.mem_flatten.2 ⟨_, ?_, hf⟩)
    exact hpast ▸ List.mem_map_of_mem hr
  have hlt : r.roundNumber < round.roundNumber := by
    have : r.roundNumber ∈ List.range' 1 past.length := hnumbers ▸ List.mem_map_of_mem hr
    rw [List.mem_range'_1] at this
    omega
  rw [run_of_over hover (hs.keyed.findRound (hmem r (by simp [hr])).1), if_pos]
  exact ⟨round, (hmem round (by simp)).1, (hmem round (by simp)).2, hlt⟩

theorem run_last_of_pending {f : Fixture} (hs : Stored t d (past ++ [last])) (hrs : d.roundsOf t = rs ++ [round])
    (hf : f ∈ last) (hpending : f.Pending) : (onMatchCompleted t round.id).run d = (.ok (), d) := by
  refine run_of_pending (Nat.pos_of_ne_zero fun h0 => ?_)
  rw [countP_pending_eq_zero, (hs.of_last hrs).2.1] at h0
  exact h0 f hf hpending

/-- Those advance from the last round who are still in. -/
theorem advancing_perm (hs : Stored t d (past ++ [last])) (hk : Knockout participants k past last)
    (hrs : d.roundsOf t = rs ++ [round]) (hover : ∀ f ∈ last, ¬ f.Pending) :
    (d.advancing round.id).Perm (standing last) := by
  obtain ⟨-, hlast, -, -⟩ := hs.of_last hrs
  rw [← filterMap_advances hk.regular_last hover, ← hlast, Database.fixtures, List.filterMap_map]
  exact (List.perm_insertionSort _ _).filterMap _

/-- The last round is over. -/
theorem run_last_of_over (hs : Stored t d (past ++ [last])) (hrs : d.roundsOf t = rs ++ [round])
    (hover : ∀ f ∈ last, ¬ f.Pending) : (onMatchCompleted t round.id).run d =
      if (d.advancing round.id).length ≤ 1 then (.ok (), d.finish t round.id) else (.ok (), d.nextRound t round) := by
  obtain ⟨-, hlast, hnumbers, hnumber⟩ := hs.of_last hrs
  have hmem : ∀ x ∈ rs ++ [round], x ∈ d.tournamentRounds ∧ x.tournamentId = t :=
    fun x hx => Stored.mem_tournamentRounds (hrs ▸ hx)
  rw [run_of_over (countP_pending_eq_zero.2 (hlast.symm ▸ hover)) (hs.keyed.findRound (hmem round (by simp)).1), if_neg]
  rintro ⟨row, hrow, ht, hlt⟩
  have hrow' : row ∈ rs ++ [round] := hrs ▸ List.mem_filter.2 ⟨hrow, decide_eq_true ht⟩
  rcases List.mem_append.1 hrow' with hr | hr
  · have : row.roundNumber ∈ List.range' 1 past.length := hnumbers ▸ List.mem_map_of_mem hr
    rw [List.mem_range'_1] at this
    omega
  · rw [List.mem_singleton.1 hr] at hlt
    exact absurd hlt (lt_irrefl _)

theorem Stored.nextRound (hs : Stored t d (past ++ [last])) (hrs : d.roundsOf t = rs ++ [round]) :
    Stored t (d.nextRound t round) (past ++ [last] ++ [nextFixtures (d.advancing round.id)]) := by
  have hnumber : round.roundNumber = (past ++ [last]).length := by
    rw [(hs.of_last hrs).2.2.2, List.length_append, List.length_singleton]
  rw [Database.nextRound, hnumber]
  exact (hs.setRoundStatus .completed).addRound _ _

end Advance

/-! ## Runs -/

inductive Call where
  | complete (matchId winner : Uuid)
  | advance (roundId : Uuid)
deriving DecidableEq

/-- A pending match of the tournament is won by one of its players, or `on_match_completed` is called for a round of
it. -/
def execute (t : Uuid) (d : Database) : Call → Option Database
  | .complete matchId winner =>
    if ∃ m ∈ d.matchesOf t, m.id = matchId ∧ m.status = .pending ∧ winner ∈ m.players then
      some (d.setWinner matchId winner)
    else none
  | .advance roundId =>
    if ∃ round ∈ d.roundsOf t, round.id = roundId then
      match (onMatchCompleted t roundId).run d with
      | (.ok _, d') => some d'
      | (.error _, _) => none
    else none

/-- The tournament after its bracket has been seeded. -/
def tournament (t : Uuid) (participants : List Uuid) (d₀ : Database) : TransitionSystem Unit Database Call where
  init _ d := d = ((seedBracket t participants).run d₀).2
  step _ := execute t

/-- Calls that change something count. -/
def changes (t : Uuid) (_ : Unit) (d : Database) (call : Call) : ℕ := if execute t d call = some d then 0 else 1

/-- A tournament exists and has not been seeded. -/
structure Database.Fresh (t : Uuid) (d : Database) : Prop where
  keyed : d.Keyed
  tournament : (d.statusOf t).isSome
  rounds : d.roundsOf t = []
  unplayed : d.matchesOf t = []

theorem Database.Fresh.register {d : Database} (h : d.Fresh t) (rows : List TournamentParticipant) :
    ({ d with tournamentParticipants := rows } : Database).Fresh t :=
  ⟨⟨h.keyed.roundIds, h.keyed.matchIds, h.keyed.round_lt, h.keyed.match_lt, h.keyed.matchRound_lt⟩, h.tournament,
    h.rounds, h.unplayed⟩

/-- Seeding starts a run of the participants in the order of their ratings: a user takes part in a tournament once. -/
theorem seeding_starts_run {d d' : Database} (hfresh : d.Fresh t)
    (hunique : ((d.tournamentParticipants.filter (·.tournamentId = t)).map (·.userId)).Nodup)
    (h : (seedAndGenerateBracket t).run d = (.ok (), d')) : ∃ row participants d₀, d.findTournament t = some row ∧
      participants = (d.seededParticipants t row.game).map (·.userId) ∧ 4 ≤ participants.length ∧
      participants.length ≤ 64 ∧
      participants.Nodup ∧ d₀.Fresh t ∧ (tournament t participants d₀).init () d' := by
  obtain ⟨row, rows, hrow, hmin, hmax, hrun⟩ := run_seedAndGenerateBracket h
  refine ⟨row, _, _, hrow, rfl, by simpa using hmin, by simpa using hmax, ?_, hfresh.register rows,
    (congrArg Prod.snd hrun).symm⟩
  refine ((List.perm_insertionSort _ _).map _).nodup_iff.2 (hunique.sublist (List.Sublist.map _ ?_))
  refine List.monotone_filter_right _ fun p hp => ?_
  simp_all

section Status

variable {t roundId : Uuid} {d : Database}

theorem statusOf_setTournamentStatus (h : (d.statusOf t).isSome) (status : TournamentStatus) :
    (d.setTournamentStatus t status).statusOf t = some status := by
  obtain ⟨row, hrow⟩ := Option.isSome_iff_exists.1 (Option.isSome_map.symm.trans h : (d.findTournament t).isSome)
  have hid : row.id = t := by simpa using List.find?_some (p := fun row : Tournament => decide (row.id = t)) hrow
  have hfind : (d.setTournamentStatus t status).findTournament t = some (row.setStatus t status) := by
    rw [Database.findTournament, Database.setTournamentStatus, List.find?_map]
    simp only [Function.comp_def, Tournament.setStatus_id]
    exact congrArg (Option.map _) hrow
  rw [Database.statusOf, hfind, Tournament.setStatus, if_pos hid]
  rfl

/-- Marking a tournament and its last round as completed once more changes nothing. -/
theorem finish_finish : (d.finish t roundId).finish t roundId = d.finish t roundId := by
  have hround : ∀ r : TournamentRound, (r.setStatus roundId .completed).setStatus roundId .completed =
      r.setStatus roundId .completed := by
    intro r
    unfold TournamentRound.setStatus
    split <;> simp_all
  have htournament : ∀ r : Tournament, (r.setStatus t .completed).setStatus t .completed =
    r.setStatus t .completed := by
    intro r
    unfold Tournament.setStatus
    split <;> simp_all
  simp [Database.finish, Database.setTournamentStatus, Database.setRoundStatus, Function.comp_def, hround, htournament]

end Status

/-- What holds along a run: the rounds, the calls that were needed so far and are still to come, and what is left behind
when the tournament is completed. -/
structure Underway (t : Uuid) (participants : List Uuid) (k c : ℕ) (d : Database) (past : List (List Fixture))
    (last : List Fixture) : Prop where
  stored : Stored t d (past ++ [last])
  knockout : Knockout participants k past last
  known : (d.statusOf t).isSome
  count : c + (standing last).length + (k - (past.length + 1)) + (if d.statusOf t = some .completed then 0 else 1) =
    participants.length + k
  settled : d.statusOf t = some .completed → (∀ f ∈ last, ¬ f.Pending) ∧ (standing last).length ≤ 1 ∧
    ∀ rs round, d.roundsOf t = rs ++ [round] → d.finish t round.id = d

namespace Underway

variable {t : Uuid} {participants : List Uuid} {k c : ℕ} {d d' d₀ : Database} {past : List (List Fixture)}
  {last : List Fixture} {rs : List TournamentRound} {round : TournamentRound}

/-- Seeding a fresh tournament succeeds and draws the first round. -/
theorem start (hfresh : d₀.Fresh t) (hn : 2 ≤ participants.length) (hnodup : participants.Nodup) :
    ∃ d last, (seedBracket t participants).run d₀ = (.ok (), d) ∧
      Underway t participants (Nat.clog 2 participants.length) 0 d [] last := by
  obtain ⟨fs, hfs, hsize, hinit, hplayers⟩ := firstRound_spec hn
  have hk := one_le_clog hn
  have hempty : Stored t d₀ [] := ⟨hfresh.keyed, by simp [hfresh.rounds, hfresh.unplayed], by simp [hfresh.rounds],
    by simp [hfresh.rounds]⟩
  refine ⟨_, fs, run_seedBracket hfresh.rounds hfs, ?_⟩
  have hstatus := statusOf_setTournamentStatus (d := (d₀.addRound t 1 (if nextPowerOfTwo participants.length = 2
      then .final else .elimination)).addMatches t ⟨d₀.nextId⟩ 0 fs) hfresh.tournament .inProgress
  refine ⟨(hempty.addRound _ fs).setTournamentStatus .inProgress, .start hinit hsize hplayers hnodup, ?_, ?_, ?_⟩
  · rw [hstatus]
    rfl
  · have hstanding : (standing fs).length = participants.length := by
      rw [standing_of_initial hinit]
      exact hplayers.length_eq
    rw [hstatus, if_neg (by decide), List.length_nil]
    omega
  · intro h
    rw [hstatus] at h
    cases h

/-- A match is won by one of its players. -/
theorem complete (h : Underway t participants k c d past last) {matchId winner : Uuid}
    (hcall : execute t d (.complete matchId winner) = some d') :
    d' ≠ d ∧ ∃ last', Underway t participants k (c + 1) d' past last' := by
  obtain ⟨⟨m, hm, rfl, hpending, hwinner⟩, hd'⟩ := Option.ite_none_right_eq_some.1 hcall
  obtain ⟨l, a, b, l', hlast, hw, hstored⟩ := h.stored.setWinner h.knockout hm hpending hwinner
  obtain rfl := Option.some.inj hd'
  subst hlast
  have hunsettled : d.statusOf t ≠ some .completed := fun hstatus =>
    (h.settled hstatus).1 (.duel a b) (by simp) Fixture.pending_duel
  refine ⟨?_, _, hstored, h.knockout.settle hw, h.known, ?_, fun hstatus => absurd hstatus hunsettled⟩
  · -- the rounds that are stored are determined by the database
    intro heq
    rw [heq] at hstored
    have := h.stored.rounds.symm.trans hstored.rounds
    simp [Fixture.duel, Fixture.won] at this
  · have hcount := h.count
    have hstatus : (d.setWinner m.id winner).statusOf t = d.statusOf t := rfl
    simp only [hstatus, standing_append, standing_cons, Fixture.standing_duel, Fixture.standing_won, List.length_append,
      List.length_cons, List.length_nil] at hcount ⊢
    omega

section LastRound

variable (h : Underway t participants k c d past last) (hrs : d.roundsOf t = rs ++ [round])
  (hover : ∀ f ∈ last, ¬ f.Pending)
include h hrs hover

theorem length_advancing : (d.advancing round.id).length = (standing last).length :=
  (advancing_perm h.stored h.knockout hrs hover).length_eq

/-- The next round is drawn. -/
theorem next (htwo : ¬ (d.advancing round.id).length ≤ 1) : d.nextRound t round ≠ d ∧
    Underway t participants k (c + 1) (d.nextRound t round) (past ++ [last]) (nextFixtures (d.advancing round.id)) := by
  have hlength := length_advancing h hrs hover
  have hunsettled : d.statusOf t ≠ some .completed := fun hstatus => htwo (hlength ▸ (h.settled hstatus).2.1)
  have hstored := h.stored.nextRound hrs
  have hperm := advancing_perm h.stored h.knockout hrs hover
  have hknockout := h.knockout.advance hover hperm (by omega)
  refine ⟨?_, hstored, hknockout, h.known, ?_, fun hstatus => absurd hstatus hunsettled⟩
  · intro heq
    rw [heq] at hstored
    have := congrArg List.length (h.stored.rounds.symm.trans hstored.rounds)
    simp at this
  · have heven := h.knockout.even_advancing hover hperm (by omega)
    have hrounds := hknockout.length_past
    have hcount := h.count
    have hstatus : (d.nextRound t round).statusOf t = d.statusOf t := rfl
    rw [hstatus, nextFixtures_of_even heven, standing_duels heven]
    rw [List.length_append, List.length_singleton] at hrounds ⊢
    omega

/-- The tournament is completed. -/
theorem finish (hone : (d.advancing round.id).length ≤ 1) (hstatus : d.statusOf t ≠ some .completed) :
    d.finish t round.id ≠ d ∧ Underway t participants k (c + 1) (d.finish t round.id) past last := by
  have hlength := length_advancing h hrs hover
  have hcompleted : (d.finish t round.id).statusOf t = some .completed :=
    statusOf_setTournamentStatus (d := d.setRoundStatus round.id .completed) h.known .completed
  refine ⟨fun heq => hstatus (heq ▸ hcompleted), (h.stored.setRoundStatus _).setTournamentStatus _,
    h.knockout, ?_, ?_, ?_⟩
  · rw [hcompleted]
    rfl
  · have hcount := h.count
    rw [if_neg hstatus] at hcount
    rw [hcompleted, if_pos rfl]
    omega
  · intro _
    refine ⟨hover, hlength ▸ hone, fun rs' round' hrs' => ?_⟩
    have hmap : (d.finish t round.id).roundsOf t = (rs ++ [round]).map (·.setStatus round.id .completed) :=
      hrs ▸ Database.roundsOf_setRoundStatus _ _
    rw [hrs', List.map_append] at hmap
    have hround := List.singleton_inj.1 (List.append_inj' hmap rfl).2
    rw [hround, TournamentRound.setStatus_id]
    exact finish_finish

end LastRound

/-- `on_match_completed` succeeds for every round, and changes nothing or brings the tournament forward. -/
theorem advance (h : Underway t participants k c d past last) (hround : round ∈ d.roundsOf t) :
    ∃ d', (onMatchCompleted t round.id).run d = (.ok (), d') ∧
      (d' = d ∨ d' ≠ d ∧ ∃ past' last', Underway t participants k (c + 1) d' past' last') := by
  obtain ⟨rs, final, hrs⟩ := h.stored.exists_last
  rw [hrs] at hround
  rcases List.mem_append.1 hround with hr | hr
  · exact ⟨d, run_earlier h.stored h.knockout hrs hr, .inl rfl⟩
  · obtain rfl := List.mem_singleton.1 hr
    by_cases hover : ∀ f ∈ last, ¬ f.Pending
    · rw [run_last_of_over h.stored hrs hover]
      split
      · rename_i hone
        by_cases hstatus : d.statusOf t = some .completed
        · exact ⟨_, rfl, .inl ((h.settled hstatus).2.2 rs round hrs)⟩
        · exact ⟨_, rfl, .inr ((finish h hrs hover hone hstatus).imp_right fun h => ⟨_, _, h⟩)⟩
      · rename_i htwo
        exact ⟨_, rfl, .inr ((next h hrs hover htwo).imp_right fun h => ⟨_, _, h⟩)⟩
    · push Not at hover
      obtain ⟨f, hf, hpending⟩ := hover
      exact ⟨d, run_last_of_pending h.stored hrs hf hpending, .inl rfl⟩

/-- What a call can do. -/
theorem step (h : Underway t participants k c d past last) {call : Call} (hcall : execute t d call = some d') :
    d' = d ∨ d' ≠ d ∧ ∃ past' last', Underway t participants k (c + 1) d' past' last' := by
  cases call with
  | complete matchId winner => exact .inr ((h.complete hcall).imp_right fun h => ⟨_, h⟩)
  | advance roundId =>
    obtain ⟨⟨round, hround, rfl⟩, hrun⟩ := Option.ite_none_right_eq_some.1 hcall
    obtain ⟨d'', hd'', hcases⟩ := h.advance hround
    rw [hd''] at hrun
    obtain rfl := Option.some.inj hrun
    exact hcases

/-- As long as the tournament is not completed, there is a call that changes something. -/
theorem progress (h : Underway t participants k c d past last) (hstatus : d.statusOf t ≠ some .completed) :
    ∃ call d', execute t d call = some d' ∧ d' ≠ d := by
  obtain ⟨rs, round, hrs⟩ := h.stored.exists_last
  have hlast := (h.stored.of_last hrs).2.1
  by_cases hover : ∀ f ∈ last, ¬ f.Pending
  · -- the last round is over
    have hround : ∃ r ∈ d.roundsOf t, r.id = round.id := ⟨round, by simp [hrs], rfl⟩
    have hrun := run_last_of_over h.stored hrs hover
    refine ⟨.advance round.id, ?_⟩
    rw [execute, if_pos hround, hrun]
    by_cases hone : (d.advancing round.id).length ≤ 1
    · rw [if_pos hone]
      exact ⟨_, rfl, (finish h hrs hover hone hstatus).1⟩
    · rw [if_neg hone]
      exact ⟨_, rfl, (next h hrs hover hone).1⟩
  · -- a match of it can be won by its first player
    push Not at hover
    obtain ⟨f, hf, hpending⟩ := hover
    obtain ⟨a, b, rfl⟩ := (h.knockout.regular_last f hf).eq_duel hpending
    obtain ⟨m, hm, hmf⟩ := List.mem_map.1 (hlast ▸ hf)
    have hmem : m ∈ d.matchesOf t := by
      rw [h.stored.matchesOf, hrs]
      exact List.mem_flatMap.2 ⟨round, by simp, hm⟩
    have hcall : execute t d (.complete m.id a) = some (d.setWinner m.id a) :=
      if_pos ⟨m, hmem, rfl, by rw [hmf]; rfl, by rw [hmf]; simp⟩
    exact ⟨_, _, hcall, (h.complete hcall).1⟩

end Underway

/-- What holds along every run. -/
theorem underway_of_tally {d₀ d : Database} {e : Unit} {c : ℕ} (hfresh : d₀.Fresh t)
    (hn : 2 ≤ participants.length) (hnodup : participants.Nodup)
    (h : (tournament t participants d₀).Tally Unrestricted (changes t) c e d) :
    ∃ past last, Underway t participants (Nat.clog 2 participants.length) c d past last := by
  refine TransitionSystem.Tally.invariant (P := fun c _ d => ∃ past last, Underway t participants
    (Nat.clog 2 participants.length) c d past last) ?_ ?_ h
  · intro _ d hinit
    obtain ⟨d', last, hrun, hstart⟩ := Underway.start hfresh hn hnodup
    rw [show d = d' from hinit.trans (congrArg Prod.snd hrun)]
    exact ⟨[], last, hstart⟩
  · rintro c _ _ d call d' - ⟨_, _, hd⟩ - hcall
    replace hcall : execute t d call = some d' := hcall
    rcases hd.step hcall with rfl | ⟨hne, hd'⟩
    · rw [changes, if_pos hcall]
      exact ⟨_, _, hd⟩
    · rw [changes, if_neg fun hsame => hne (Option.some.inj (hcall.symm.trans hsame))]
      exact hd'

/-! ## The tournament as it is stored -/

namespace Database

/-- The players in the matches of a round. -/
def playersOf (d : Database) (roundId : Uuid) : List Uuid := (d.roundMatches roundId).flatMap (·.players)

/-- How many matches of the tournament a player has lost. -/
def losses (d : Database) (t p : Uuid) : ℕ := (d.matchesOf t).countP (·.Lost p)

/-- The number of the tournament's matches of two players. -/
def twoPlayerMatches (d : Database) (t : Uuid) : ℕ := (d.matchesOf t).countP (·.player2Id.isSome)

end Database

section Outcome

variable {t : Uuid} {d : Database} {stages : List (List Fixture)}

theorem Stored.playersOf (h : Stored t d stages) (hround : round ∈ d.roundsOf t) :
    ∃ fs ∈ stages, d.playersOf round.id = players fs := by
  refine ⟨d.fixtures round.id, h.rounds ▸ List.mem_map_of_mem hround, ?_⟩
  rw [Database.playersOf, players, Database.fixtures, List.flatMap_map]

theorem Stored.losses (h : Stored t d stages) (p : Uuid) : d.losses t p = losses p stages.flatten := by
  rw [← h.toFixture_matchesOf, Orchestrator.losses, List.countP_map]
  rfl

theorem Stored.twoPlayerMatches (h : Stored t d stages) :
    d.twoPlayerMatches t = stages.flatten.countP (·.player2Id.isSome) := by
  rw [← h.toFixture_matchesOf, List.countP_map]
  rfl

end Outcome

/-- One of the participants is left when the tournament is completed. -/
theorem Underway.outcome {k c : ℕ} {d : Database} {past : List (List Fixture)}
    {last : List Fixture} (h : Underway t participants k c d past last) (hstatus : d.statusOf t = some .completed) :
    c + 1 = participants.length + k ∧ (d.roundsOf t).length = k ∧ d.twoPlayerMatches t + 1 = participants.length ∧
    (∀ m ∈ d.matchesOf t, m.status = .completed) ∧
    ∃ round champion, (d.roundsOf t).getLast? = some round ∧ d.advancing round.id = [champion] ∧
      champion ∈ participants ∧ d.losses t champion = 0 ∧ ∀ p ∈ participants, p ≠ champion → d.losses t p = 1 := by
  obtain ⟨hover, hone, -⟩ := h.settled hstatus
  obtain ⟨hk, hlength⟩ := h.knockout.champion hover hone
  obtain ⟨champion, hchampion⟩ := List.length_eq_one_iff.1 hlength
  obtain ⟨rs, round, hrs⟩ := h.stored.exists_last
  have hflatten : (past ++ [last]).flatten = past.flatten ++ last := by simp
  have hclosed : ∀ f ∈ past.flatten ++ last, ¬ f.Pending := by
    intro f hf
    rcases List.mem_append.1 hf with hf | hf
    · exact h.knockout.closed f hf
    · exact hover f hf
  have hlosses : ∀ p ∈ participants, d.losses t p = if p ∈ [champion] then 0 else 1 := by
    intro p hp
    rw [h.stored.losses, hflatten, h.knockout.losses p hp, hchampion]
  have hmem : champion ∈ participants := h.knockout.subset (by simp [hchampion])
  refine ⟨?_, ?_, ?_, ?_, round, champion, by simp [hrs], ?_, hmem, by simpa using hlosses champion hmem, ?_⟩
  · have hcount := h.count
    rw [if_pos hstatus] at hcount
    omega
  · rw [← hk, ← List.length_map (f := fun round => d.fixtures round.id), h.stored.rounds]
    simp
  · rw [h.stored.twoPlayerMatches, hflatten, ← h.knockout.played, hlength]
    refine congrArg (· + 1) (List.countP_congr fun f hf => ?_)
    simpa using ((h.knockout.regular f hf).completed (hclosed f hf)).2
  · intro m hm
    have hf : m.toFixture ∈ past.flatten ++ last := by
      rw [← hflatten, ← h.stored.toFixture_matchesOf]
      exact List.mem_map_of_mem hm
    exact ((h.knockout.regular _ hf).completed (hclosed _ hf)).1
  · exact List.perm_singleton.1 (hchampion ▸ advancing_perm h.stored h.knockout hrs hover)
  · intro p hp hne
    rw [hlosses p hp, if_neg (by simpa using hne)]

/-- A single-elimination tournament of any number of participants. Along every run, nobody is in two matches of a round,
and `on_match_completed` succeeds. A run makes at most as many calls that change something as there are matches to play
and rounds to end; until the tournament is completed there is such a call. Then all rounds have been played, one of the
participants has lost no match, and all others have lost one. -/
theorem single_elimination {t : Uuid} {participants : List Uuid} {d₀ : Database} (hfresh : d₀.Fresh t)
    (hn : 2 ≤ participants.length) (hnodup : participants.Nodup) :
    ((seedBracket t participants).run d₀).1 = .ok () ∧
    ∀ (c : ℕ) (d : Database), (tournament t participants d₀).Tally Unrestricted (changes t) c () d →
      (∀ round ∈ d.roundsOf t, (d.playersOf round.id).Nodup ∧ ((onMatchCompleted t round.id).run d).1 = .ok ()) ∧
      (d.roundsOf t).length ≤ Nat.clog 2 participants.length ∧
      c ≤ participants.length - 1 + Nat.clog 2 participants.length ∧
      (d.statusOf t ≠ some .completed → ∃ call d', execute t d call = some d' ∧ d' ≠ d) ∧
      (d.statusOf t = some .completed →
        c = participants.length - 1 + Nat.clog 2 participants.length ∧
        (d.roundsOf t).length = Nat.clog 2 participants.length ∧
        d.twoPlayerMatches t = participants.length - 1 ∧
        (∀ m ∈ d.matchesOf t, m.status = .completed) ∧
        ∃ round champion, (d.roundsOf t).getLast? = some round ∧ d.advancing round.id = [champion] ∧
          champion ∈ participants ∧ d.losses t champion = 0 ∧ ∀ p ∈ participants, p ≠ champion → d.losses t p = 1) := by
  obtain ⟨d₁, -, hrun, -⟩ := Underway.start hfresh hn hnodup
  refine ⟨congrArg Prod.fst hrun, fun c d hd => ?_⟩
  obtain ⟨past, last, h⟩ := underway_of_tally hfresh hn hnodup hd
  refine ⟨fun round hround => ⟨?_, ?_⟩, ?_, ?_, h.progress, fun hstatus => ?_⟩
  · obtain ⟨fs, hfs, hplayers⟩ := h.stored.playersOf hround
    rw [hplayers]
    exact h.knockout.nodup fs hfs
  · obtain ⟨d', hd', -⟩ := h.advance hround
    rw [hd']
  · rw [← List.length_map (f := fun round => d.fixtures round.id), h.stored.rounds]
    simpa using h.knockout.length_past
  · by_cases hstatus : d.statusOf t = some .completed
    · have := (h.outcome hstatus).1
      omega
    · have hcount := h.count
      rw [if_neg hstatus] at hcount
      omega
  · obtain ⟨hc, hrounds, hmatches, hrest⟩ := h.outcome hstatus
    exact ⟨by omega, hrounds, by omega, hrest⟩

namespace Sample

/-- A tournament that has not been seeded. -/
def announced : Database where
  nextId := 4
  tournaments := [⟨cup, "chess", "single_elimination", .registrationClosed⟩]
  tournamentParticipants := []
  userElo := []
  tournamentRounds := []
  tournamentMatches := []

theorem fresh_announced : announced.Fresh cup where
  keyed := ⟨List.nodup_nil, List.nodup_nil, by simp [announced], by simp [announced], by simp [announced]⟩
  tournament := by decide
  rounds := rfl
  unplayed := rfl

/-- Alice has a bye; Carol beats Bob and then Alice. -/
def cupCalls : List (Unit × Call) :=
  [((), .advance ⟨4⟩), ((), .complete ⟨6⟩ carol), ((), .advance ⟨4⟩), ((), .advance ⟨4⟩), ((), .complete ⟨8⟩ carol),
    ((), .advance ⟨7⟩)]

def seeded : Database := ((seedBracket cup [alice, bob, carol]).run announced).2

theorem cup_of_three : ∃ d, (tournament cup [alice, bob, carol] announced).Tally Unrestricted (changes cup) 4 () d ∧
    d.statusOf cup = some .completed ∧ (d.roundsOf cup).length = 2 ∧ d.twoPlayerMatches cup = 2 ∧
    ∃ round champion, (d.roundsOf cup).getLast? = some round ∧ d.advancing round.id = [champion] ∧
      ∀ p ∈ [alice, bob, carol], p ≠ champion → d.losses cup p = 1 := by
  have hrun : ((tournament cup [alice, bob, carol] announced).replay Unrestricted () seeded cupCalls).map
      (fun r => r.2.statusOf cup) = some (some .completed) := by
    decide +kernel
  obtain ⟨r, hr, hstatus⟩ := Option.map_eq_some_iff.1 hrun
  have hcount : (tournament cup [alice, bob, carol] announced).tallied (changes cup) seeded cupCalls = 4 := by
    decide +kernel
  have hinit : (tournament cup [alice, bob, carol] announced).Tally Unrestricted (changes cup) 0 () seeded := .init rfl
  have htally := hinit.replay hr
  rw [zero_add, hcount] at htally
  obtain ⟨-, -, -, -, hend⟩ := (single_elimination fresh_announced (by decide) (by decide)).2 4 r.2 htally
  obtain ⟨-, hrounds, hmatches, -, round, champion, hlast, hadvancing, -, -, hlosses⟩ := hend hstatus
  exact ⟨r.2, htally, hstatus, hrounds, hmatches, round, champion, hlast, hadvancing, hlosses⟩

end Sample

end ArenaX.Orchestrator
