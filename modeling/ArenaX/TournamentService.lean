/-
The brackets that the job queue generates. A round of an elimination has the participants' number halved as often as the
round's number says, rounded down each time, and every round is filled from the front of the list of participants: in
any bracket but one of two players a match is missing, a player has no match, or a player is put into the second round
before the first is played.
-/
import ArenaX.Orchestrator.Tournament

namespace ArenaX

open Machine Script

/-! ## Rounds that have not begun -/

namespace Orchestrator.Database

/-- The database with a new round that is pending. -/
def addPendingRound (t : Uuid) (roundNumber : ℕ) (roundType : RoundType) (d : Database) : Database :=
  { d with
    nextId := d.nextId + 1
    tournamentRounds := d.tournamentRounds ++ [⟨⟨d.nextId⟩, t, roundNumber, roundType, .pending⟩] }

/-- A tournament has one round of a number. -/
def insertPendingRound (t : Uuid) (roundNumber : ℕ) (roundType : RoundType) (d : Database) :
    Except ApiError (Uuid × Database) :=
  if ∃ row ∈ d.tournamentRounds, row.tournamentId = t ∧ row.roundNumber = roundNumber then .error .databaseError
  else .ok (⟨d.nextId⟩, d.addPendingRound t roundNumber roundType)

/-- The active participants in the order of their registration. -/
def activeParticipants (d : Database) (t : Uuid) : List TournamentParticipant :=
  (d.tournamentParticipants.filter fun row => row.tournamentId = t ∧ row.status = .active).insertionSort fun row row' =>
    row.registeredAt ≤ row'.registeredAt

end Orchestrator.Database

namespace TournamentService

open Orchestrator

/-! ## The generators -/

section Generators

variable (t : Uuid) (participants : List TournamentParticipant)

/-- The match of a number: `none` when the first index is not one of the list. -/
def fixtureAt (matchNum : ℕ) : Option Fixture :=
  let player1Idx := (matchNum - 1) * 2
  let player2Idx := player1Idx + 1
  participants[player1Idx]?.map fun player1 =>
    ⟨some player1.userId, participants[player2Idx]?.map (·.userId), none, .pending⟩

/-- The match of two participants, for indices of the list. -/
def pairAt (indices : ℕ × ℕ) : Option Fixture :=
  match participants[indices.1]?, participants[indices.2]? with
  | some player1, some player2 => some (.duel player1.userId player2.userId)
  | _, _ => none

/-- A round with its matches, unless the number of the matches cannot be computed. -/
def createRound (roundType : RoundType) (matchesInRound : Option ℕ) (roundNum : ℕ) : Sql Unit := do
  let roundId ← change (Database.insertPendingRound t roundNum roundType)
  let count ← okOr matchesInRound .panic
  insertMatches t roundId (fixtureAt participants) 0 (List.range' 1 count)

def createRounds (roundType : ℕ → RoundType) (matchesInRound : ℕ → Option ℕ) : List ℕ → Sql Unit
  | [] => pure ()
  | roundNum :: rest => do
    createRound t participants (roundType roundNum) (matchesInRound roundNum) roundNum
    createRounds roundType matchesInRound rest

/-- A quotient; dividing by zero panics. -/
def quotient (n m : ℕ) : Option ℕ := if m = 0 then none else some (n / m)

/-- The power wraps to zero from the thirty-second round on. -/
def singleEliminationMatches (participantCount roundNum : ℕ) : Option ℕ :=
  if roundNum = 1 then some (participantCount / 2) else quotient (participantCount % 2 ^ 32) (2 ^ roundNum % 2 ^ 32)

def generateSingleEliminationBracket : Sql Unit := do
  let participantCount := participants.length
  reject (participantCount < 2) (.badRequest "Not enough participants for bracket")
  let rounds := Nat.clog 2 participantCount
  createRounds t participants (fun roundNum => if roundNum = rounds then .final else .elimination)
    (singleEliminationMatches participantCount) (List.range' 1 rounds)

/-- The power is an `i32` that is then read as a `usize`. -/
def doubleEliminationMatches (participantCount roundNum : ℕ) : Option ℕ :=
  quotient participantCount ((i32.wrap (2 ^ roundNum) : ℤ) % 2 ^ 64).toNat

def generateDoubleEliminationBracket : Sql Unit := do
  let participantCount := participants.length
  reject (participantCount < 2) (.badRequest "Not enough participants for bracket")
  let rounds := Nat.clog 2 participantCount
  createRounds t participants (fun _ => .elimination) (doubleEliminationMatches participantCount) (List.range' 1 rounds)

def generateRoundRobinBracket : Sql Unit := do
  let participantCount := participants.length
  reject (participantCount < 2) (.badRequest "Not enough participants for bracket")
  let roundId ← change (Database.insertPendingRound t 1 .elimination)
  insertMatches t roundId (pairAt participants) 0 ((List.range participantCount).flatMap fun i =>
    (List.range' (i + 1) (participantCount - (i + 1))).map (i, ·))

/-- One and a half times the logarithm, rounded up; only the first round has matches. -/
def generateSwissBracket : Sql Unit := do
  let participantCount := participants.length
  reject (participantCount < 2) (.badRequest "Not enough participants for bracket")
  let rounds := Nat.clog 4 (participantCount ^ 3)
  createRounds t participants (fun _ => .elimination)
    (fun roundNum => some (if roundNum = 1 then participantCount / 2 else 0)) (List.range' 1 rounds)

end Generators

inductive BracketType where
  | singleElimination
  | doubleElimination
  | roundRobin
  | swiss
deriving DecidableEq

/-- `rename_all = "lowercase"`. -/
def BracketType.decode : String → Option BracketType
  | "singleelimination" => some .singleElimination
  | "doubleelimination" => some .doubleElimination
  | "roundrobin" => some .roundRobin
  | "swiss" => some .swiss
  | _ => none

def generateTournamentBracket (t : Uuid) : Sql Unit := do
  let participants ← query (·.activeParticipants t)
  let row ← query (·.findTournament t)
  let tournament ← okOr row .notFound
  let bracketType ← okOr (BracketType.decode tournament.bracketType) .databaseError
  match bracketType with
  | .singleElimination => generateSingleEliminationBracket t participants
  | .doubleElimination => generateDoubleEliminationBracket t participants
  | .roundRobin => generateRoundRobinBracket t participants
  | .swiss => generateSwissBracket t participants

/-- A tournament that is stored as a single elimination gets the bracket of one, from the participants that are
active. -/
theorem run_generateTournamentBracket {t : Uuid} {d : Database} {row : Tournament} (h : d.findTournament t = some row)
    (hsingle : row.bracketType = "singleelimination") : (generateTournamentBracket t).run d =
      (generateSingleEliminationBracket t (d.activeParticipants t)).run d := by
  unfold generateTournamentBracket
  rw [run_query_bind, run_query_bind, h, run_bind_of_ok rfl, hsingle]
  rfl

end TournamentService

/-! ## The matches of a round -/

namespace Orchestrator.Database

variable {d : Database} {t : Uuid} {roundNumber : ℕ} {roundType : RoundType}

theorem Keyed.addPendingRound (h : d.Keyed) : (d.addPendingRound t roundNumber roundType).Keyed where
  roundIds := by
    simpa [Database.addPendingRound, Database.addRound] using (h.addRound (t := t) roundNumber roundType).roundIds
  matchIds := h.matchIds
  round_lt := by simpa [Database.addPendingRound, Database.addRound, forall_and, or_imp] using
    (h.addRound (t := t) roundNumber roundType).round_lt
  match_lt row hrow := (h.match_lt row hrow).trans (Nat.lt_succ_self _)
  matchRound_lt row hrow := (h.matchRound_lt row hrow).trans (Nat.lt_succ_self _)

/-- The matches of the rounds of a number. -/
def inRound (d : Database) (t : Uuid) (roundNumber : ℕ) : List Fixture :=
  ((d.tournamentRounds.filter fun row => row.tournamentId = t ∧ row.roundNumber = roundNumber).flatMap fun row =>
    d.roundMatches row.id).map (·.toFixture)

/-- A new round changes no other. -/
theorem inRound_addPendingRound (h : d.Keyed) (fs : List Fixture) (r : ℕ) :
    ((d.addPendingRound t roundNumber roundType).addMatches t ⟨d.nextId⟩ 0 fs).inRound t r =
      d.inRound t r ++ if r = roundNumber then fs else [] := by
  let d' := (d.addPendingRound t roundNumber roundType).addMatches t ⟨d.nextId⟩ 0 fs
  let ofRound : List TournamentRound → List TournamentRound :=
    List.filter fun row => row.tournamentId = t ∧ row.roundNumber = r
  have hold : (ofRound d.tournamentRounds).flatMap (fun row => d'.roundMatches row.id) =
      (ofRound d.tournamentRounds).flatMap fun row => d.roundMatches row.id := by
    refine List.flatMap_congr fun row hrow => ?_
    refine roundMatches_addMatches_of_ne 0 fs fun hid => ?_
    have := h.round_lt row (List.mem_of_mem_filter hrow)
    rw [hid] at this
    exact absurd this (lt_irrefl _)
  have hnew : (d'.roundMatches ⟨d.nextId⟩).map (·.toFixture) = fs := by
    have hnone : (d.addPendingRound t roundNumber roundType).roundMatches ⟨d.nextId⟩ = [] := h.roundMatches_nextId
    rw [roundMatches_addMatches, hnone, List.nil_append, matchRows_toFixture]
  have hrounds : d'.tournamentRounds = d.tournamentRounds ++ [⟨⟨d.nextId⟩, t, roundNumber, roundType, .pending⟩] := rfl
  show (((d'.tournamentRounds.filter _).flatMap _).map _ : List Fixture) = _
  rw [hrounds, List.filter_append, List.flatMap_append, List.map_append]
  refine congrArg₂ (· ++ ·) (congrArg _ hold) ?_
  split
  case isTrue hr => simpa [hr] using hnew
  case isFalse hr => simp [Ne.symm hr]

theorem matchesOf_addPendingRound (fs : List Fixture) :
    (((d.addPendingRound t roundNumber roundType).addMatches t ⟨d.nextId⟩ 0 fs).matchesOf t).map (·.toFixture) =
      (d.matchesOf t).map (·.toFixture) ++ fs := by
  rw [matchesOf_addMatches, List.map_append, matchRows_toFixture]
  rfl

end Orchestrator.Database

/-! ## What a generator creates -/

namespace TournamentService

open Orchestrator

variable {r m : ℕ} {t : Uuid} {participants : List TournamentParticipant} {d d' : Database}

section Created

variable {roundTypes : ℕ → RoundType} {matchesIn : ℕ → Option ℕ} {roundType : RoundType} {F : ℕ → List Fixture}

/-- The tournament has no round of these numbers. -/
def Free (t : Uuid) (roundNums : List ℕ) (d : Database) : Prop :=
  ∀ row ∈ d.tournamentRounds, row.tournamentId = t → row.roundNumber ∉ roundNums

/-- The rounds that get matches: those before the first division by zero. -/
def created (matchesIn : ℕ → Option ℕ) (roundNums : List ℕ) : List ℕ :=
  roundNums.takeWhile fun r => (matchesIn r).isSome

/-- What a generator makes of the tables: the rounds have these matches, and no others are created. -/
structure Generated (t : Uuid) (F : ℕ → List Fixture) (roundNums : List ℕ) (d d' : Database) : Prop where
  inRound : ∀ r, d'.inRound t r = d.inRound t r ++ if r ∈ roundNums then F r else []
  matchesOf : (d'.matchesOf t).map (·.toFixture) = (d.matchesOf t).map (·.toFixture) ++ roundNums.flatMap F

theorem run_insertPendingRound {roundNum : ℕ} (hfree : Free t [roundNum] d) :
    (change (Database.insertPendingRound t roundNum roundType)).run d =
      (.ok ⟨d.nextId⟩, d.addPendingRound t roundNum roundType) := by
  refine run_change_of_ok (if_neg ?_)
  rintro ⟨row, hrow, ht, hnumber⟩
  exact hfree row hrow ht (by simp [hnumber])

theorem run_createRound {fs : List Fixture} (hfree : Free t [r] d)
    (hfs : (List.range' 1 m).map (fixtureAt participants) = fs.map some) :
    (createRound t participants roundType (some m) r).run d =
      (.ok (), (d.addPendingRound t r roundType).addMatches t ⟨d.nextId⟩ 0 fs) := by
  unfold createRound
  rw [run_bind_of_ok (run_insertPendingRound hfree)]
  exact run_insertMatches 0 _ hfs

theorem run_createRound_of_none (hfree : Free t [r] d) :
    (createRound t participants roundType none r).run d = (.error .panic, d.addPendingRound t r roundType) := by
  unfold createRound
  rw [run_bind_of_ok (run_insertPendingRound hfree)]
  rfl

namespace Generated

variable {d'' : Database} {roundNums : List ℕ}

theorem one (hkeyed : d.Keyed) :
    Generated t F [r] d ((d.addPendingRound t r roundType).addMatches t ⟨d.nextId⟩ 0 (F r)) where
  inRound r' := by
    rw [Database.inRound_addPendingRound hkeyed]
    by_cases hr : r' = r
    · simp [hr]
    · simp [hr]
  matchesOf := by
    rw [Database.matchesOf_addPendingRound]
    simp

/-- A round without matches. -/
theorem none (hkeyed : d.Keyed) : Generated t F [] d (d.addPendingRound t r roundType) := by
  have hsame : (d.addPendingRound t r roundType).addMatches t ⟨d.nextId⟩ 0 [] = d.addPendingRound t r roundType := by
    simp [Database.addMatches, matchRows]
  refine ⟨fun r' => ?_, ?_⟩
  · rw [← hsame, Database.inRound_addPendingRound hkeyed]
    simp
  · rw [← hsame, Database.matchesOf_addPendingRound]
    simp

theorem cons (h : Generated t F [r] d d') (h' : Generated t F roundNums d' d'') (hr : r ∉ roundNums) :
    Generated t F (r :: roundNums) d d'' where
  inRound r' := by
    rw [h'.inRound, h.inRound]
    by_cases heq : r' = r
    · simp [heq, hr]
    · simp [heq]
  matchesOf := by
    rw [h'.matchesOf, h.matchesOf]
    simp

end Generated

/-- The rounds are created one after the other, up to the one whose number of matches cannot be computed. -/
theorem run_createRounds : ∀ {roundNums : List ℕ} {d : Database},
    (∀ r ∈ roundNums, ∀ m, matchesIn r = some m → (List.range' 1 m).map (fixtureAt participants) = (F r).map some) →
    roundNums.Nodup → d.Keyed → Free t roundNums d →
      Generated t F (created matchesIn roundNums)
      d ((createRounds t participants roundTypes matchesIn roundNums).run d).2
  | [], d, _, _, _, _ => ⟨by simp [createRounds, created], by simp [createRounds, created]⟩
  | r :: rest, d, hF, hnodup, hkeyed, hfree => by
    obtain ⟨hfr, hF⟩ := List.forall_mem_cons.1 hF
    obtain ⟨hr, hrest⟩ := List.nodup_cons.1 hnodup
    have hone : Free t [r] d := fun row hrow ht hmem =>
      hfree row hrow ht (List.mem_cons.2 (.inl (List.mem_singleton.1 hmem)))
    cases hm : matchesIn r with
    | none =>
      have hrun : (createRounds t participants roundTypes matchesIn (r :: rest)).run d =
          (.error .panic, d.addPendingRound t r (roundTypes r)) := by
        rw [createRounds, hm, run_bind, run_createRound_of_none hone]
      rw [hrun, created, List.takeWhile_cons, hm]
      exact .none hkeyed
    | some m =>
      let d' := (d.addPendingRound t r (roundTypes r)).addMatches t ⟨d.nextId⟩ 0 (F r)
      have hrun : (createRounds t participants roundTypes matchesIn (r :: rest)).run d =
          (createRounds t participants roundTypes matchesIn rest).run d' := by
        rw [createRounds, hm, run_bind_of_ok (run_createRound hone (hfr m hm))]
      have hfree' : Free t rest d' := by
        intro row hrow ht hmem
        rcases List.mem_append.1 hrow with hrow | hrow
        · exact hfree row hrow ht (List.mem_cons_of_mem r hmem)
        · rw [List.mem_singleton.1 hrow] at hmem
          exact hr hmem
      have hkeyed' : d'.Keyed := hkeyed.addPendingRound.addMatches (Nat.lt_succ_self d.nextId) 0 (F r)
      rw [hrun, created, List.takeWhile_cons, hm]
      exact (Generated.one hkeyed).cons (run_createRounds hF hrest hkeyed' hfree') fun hmem =>
        hr (List.takeWhile_sublist _ |>.mem hmem)

end Created

/-! ## Single elimination -/

section SingleElimination

/-- The players of a match are on the list. -/
theorem fixtureAt_of_le (hm : m ≤ participants.length / 2) {matchNum : ℕ} (hmem : matchNum ∈ List.range' 1 m) :
    ∃ p q, participants[(matchNum - 1) * 2]? = some p ∧ participants[(matchNum - 1) * 2 + 1]? = some q ∧
      fixtureAt participants matchNum = some (.duel p.userId q.userId) := by
  have hrange := List.mem_range'_1.1 hmem
  have hp : participants[(matchNum - 1) * 2]? = some (participants[(matchNum - 1) * 2]) :=
    List.getElem?_eq_getElem (by omega)
  have hq : participants[(matchNum - 1) * 2 + 1]? = some (participants[(matchNum - 1) * 2 + 1]) :=
    List.getElem?_eq_getElem (by omega)
  exact ⟨_, _, hp, hq, by simp [fixtureAt, hp, hq, Fixture.duel]⟩

/-- A power that does not wrap to zero does not wrap. -/
theorem two_pow_mod_eq (h : 2 ^ r % 2 ^ 32 ≠ 0) : 2 ^ r % 2 ^ 32 = 2 ^ r := by
  rcases Nat.lt_or_ge r 32 with hlt | hge
  · exact Nat.mod_eq_of_lt (Nat.pow_lt_pow_right (by norm_num) hlt)
  · exact absurd (Nat.mod_eq_zero_of_dvd (Nat.pow_dvd_pow 2 hge)) h

theorem singleEliminationMatches_eq {n : ℕ} (hr : 1 < r) (h : singleEliminationMatches n r = some m) :
    m = n % 2 ^ 32 / 2 ^ r := by
  unfold singleEliminationMatches quotient at h
  rw [if_neg (by omega)] at h
  split_ifs at h with hzero
  rw [two_pow_mod_eq hzero] at h
  exact (Option.some.inj h).symm

/-- No round has more matches than the first. -/
theorem singleEliminationMatches_le {n : ℕ} (hr : 1 ≤ r) (h : singleEliminationMatches n r = some m) :
    m ≤ n / 2 := by
  rcases eq_or_lt_of_le hr with rfl | hr
  · exact (Option.some.inj h).symm.le
  · rw [singleEliminationMatches_eq hr h]
    have hpow : 2 ≤ 2 ^ r := Nat.le_self_pow (by omega) 2
    exact Nat.div_le_div (Nat.mod_le n (2 ^ 32)) hpow (by norm_num)

/-- The matches of a round. -/
def singleEliminationRound (participants : List TournamentParticipant) (r : ℕ) : List Fixture :=
  (List.range' 1 ((singleEliminationMatches participants.length r).getD 0)).filterMap (fixtureAt participants)

theorem map_fixtureAt (hr : 1 ≤ r) (h : singleEliminationMatches participants.length r = some m) :
    (List.range' 1 m).map (fixtureAt participants) = (singleEliminationRound participants r).map some := by
  have hall : ∀ matchNum ∈ List.range' 1 m, (fixtureAt participants matchNum).isSome := by
    intro matchNum hmem
    obtain ⟨p, q, -, -, hfixture⟩ := fixtureAt_of_le (singleEliminationMatches_le hr h) hmem
    rw [hfixture]
    rfl
  unfold singleEliminationRound
  rw [h, Option.getD_some, List.map_filterMap_some_eq_filter_map_isSome, List.filter_eq_self.2]
  intro f hf
  obtain ⟨matchNum, hmem, rfl⟩ := List.mem_map.1 hf
  exact hall matchNum hmem

/-- Every match has two players. -/
theorem eq_duel_of_mem (hr : 1 ≤ r) {f : Fixture} (hf : f ∈ singleEliminationRound participants r) :
    ∃ p q, f = .duel p q := by
  obtain ⟨matchNum, hmem, hfixture⟩ := List.mem_filterMap.1 hf
  cases hm : singleEliminationMatches participants.length r with
  | none => simp [hm] at hmem
  | some m =>
    rw [hm] at hmem
    obtain ⟨p, q, -, -, hduel⟩ := fixtureAt_of_le (singleEliminationMatches_le hr hm) hmem
    exact ⟨p.userId, q.userId, Option.some.inj (hfixture.symm.trans hduel)⟩

theorem length_singleEliminationRound (hr : 1 ≤ r) (h : singleEliminationMatches participants.length r = some m) :
    (singleEliminationRound participants r).length = m := by
  have hlength := congrArg List.length (map_fixtureAt hr h)
  simpa using hlength.symm

/-- The rounds that get matches. -/
def createdRounds (n : ℕ) : List ℕ := created (singleEliminationMatches n) (List.range' 1 (Nat.clog 2 n))

theorem generated_singleElimination (hn : 2 ≤ participants.length) (hkeyed : d.Keyed) (hfree : d.roundsOf t = []) :
    Generated t (singleEliminationRound participants) (createdRounds participants.length) d
      ((generateSingleEliminationBracket t participants).run d).2 := by
  have hreject : (reject (participants.length < 2)
      (.badRequest "Not enough participants for bracket") : Sql Unit).run d = (.ok (), d) := by
    rw [reject, if_neg (by omega)]
    rfl
  unfold generateSingleEliminationBracket
  rw [run_bind_of_ok hreject]
  refine run_createRounds (fun r hr m hm => map_fixtureAt (List.mem_range'_1.1 hr).1 hm) List.nodup_range' hkeyed ?_
  intro row hrow ht
  have hmem : row ∈ d.roundsOf t := List.mem_filter.2 ⟨hrow, decide_eq_true ht⟩
  rw [hfree] at hmem
  exact absurd hmem List.not_mem_nil

theorem one_le_of_mem_createdRounds {n : ℕ} (h : r ∈ createdRounds n) : 1 ≤ r :=
  (List.mem_range'_1.1 ((List.takeWhile_sublist _).mem h)).1

/-- A bracket of three or more players has a first and a second round. -/
theorem createdRounds_eq {n : ℕ} (hn : 3 ≤ n) : ∃ rest, createdRounds n = 1 :: 2 :: rest ∧ ∀ r ∈ rest, 2 < r := by
  have hclog : 2 ≤ Nat.clog 2 n := by
    exact (Nat.lt_clog_iff_pow_lt (by norm_num)).2 (by omega)
  obtain ⟨k, hk⟩ := Nat.exists_eq_add_of_le' hclog
  refine ⟨created (singleEliminationMatches n) (List.range' 3 k), ?_, ?_⟩
  · rw [createdRounds, hk]
    simp [created, List.range'_succ, singleEliminationMatches, quotient]
  · intro r hr
    have := List.mem_range'_1.1 ((List.takeWhile_sublist _).mem hr)
    omega

/-- The first two participants meet in the first match of every round that has one. -/
theorem mem_singleEliminationRound {p q : TournamentParticipant} {rest : List TournamentParticipant}
    (hm : singleEliminationMatches (p :: q :: rest).length r = some m) (hpos : 0 < m) :
    Fixture.duel p.userId q.userId ∈ singleEliminationRound (p :: q :: rest) r := by
  refine List.mem_filterMap.2 ⟨1, ?_, rfl⟩
  rw [hm, Option.getD_some, List.mem_range'_1]
  omega

end SingleElimination

/-! ## When a bracket is right -/

section Right

/-- Every participant is in one match of the first round, be it a bye. -/
def FirstRoundSeats (t : Uuid) (participants : List TournamentParticipant) (d : Database) : Prop :=
  ∀ p ∈ participants, (d.inRound t 1).countP (p.userId ∈ ·.players) = 1

/-- Whoever has a place in a round has a result in every match of an earlier one. -/
def PlacedByResults (t : Uuid) (d : Database) : Prop :=
  ∀ r' r, r' < r → ∀ f ∈ d.inRound t r, ∀ f' ∈ d.inRound t r', ∀ p ∈ f.players, p ∈ f'.players → f'.status = .completed

theorem inRound_of_generated {F : ℕ → List Fixture} {roundNums : List ℕ} (h : Generated t F roundNums d d')
    (hfree : d.roundsOf t = []) (r : ℕ) : d'.inRound t r = if r ∈ roundNums then F r else [] := by
  have hnone : d.inRound t r = [] := by
    unfold Database.inRound
    rw [List.filter_eq_nil_iff.2]
    · rfl
    · intro row hrow hnumber
      have hmem : row ∈ d.roundsOf t := List.mem_filter.2 ⟨hrow, decide_eq_true (of_decide_eq_true hnumber).1⟩
      rw [hfree] at hmem
      exact List.not_mem_nil hmem
  rw [h.inRound, hnone, List.nil_append]

theorem twoPlayerMatches_of_generated
    (h : Generated t (singleEliminationRound participants) (createdRounds participants.length) d d')
    (hunplayed : d.matchesOf t = []) :
    d'.twoPlayerMatches t = ((createdRounds participants.length).flatMap
      (singleEliminationRound participants)).length := by
  have hmatches := h.matchesOf
  rw [hunplayed, List.map_nil, List.nil_append] at hmatches
  rw [← hmatches, Database.twoPlayerMatches, List.length_map, List.countP_eq_length]
  intro m hm
  have hmem : m.toFixture ∈ (createdRounds participants.length).flatMap (singleEliminationRound participants) :=
    hmatches ▸ List.mem_map_of_mem hm
  obtain ⟨r, hr, hf⟩ := List.mem_flatMap.1 hmem
  obtain ⟨p, q, hduel⟩ := eq_duel_of_mem (one_le_of_mem_createdRounds hr) hf
  rw [hduel]
  rfl

/-- If the second round has a match, then its players have not played the first. -/
theorem not_placedByResults (hn : 3 ≤ participants.length) (hcount : 4 ≤ participants.length % 2 ^ 32)
    (hrounds : ∀ r ∈ createdRounds participants.length, d'.inRound t r = singleEliminationRound participants r) :
    ¬ PlacedByResults t d' := by
  intro hplaced
  obtain ⟨later, hcreated, -⟩ := createdRounds_eq hn
  match participants, hn with
  | p :: q :: rest, _ =>
    have hfirst : Fixture.duel p.userId q.userId ∈ d'.inRound t 1 := by
      rw [hrounds 1 (by rw [hcreated]; simp)]
      exact mem_singleEliminationRound rfl (by simp)
    have hsecond : Fixture.duel p.userId q.userId ∈ d'.inRound t 2 := by
      rw [hrounds 2 (by rw [hcreated]; simp)]
      exact mem_singleEliminationRound rfl (by norm_num at hcount ⊢; omega)
    have hp : p.userId ∈ (Fixture.duel p.userId q.userId).players := by simp [Fixture.players, Fixture.duel]
    have hdone := hplaced 1 2 (by omega) _ hsecond _ hfirst _ hp hp
    cases hdone

/-- If it has none, then no later one has any: only the first round's matches are created. -/
theorem length_of_small (hn : 3 ≤ participants.length) (hcount : participants.length % 2 ^ 32 < 4) :
    ((createdRounds participants.length).flatMap (singleEliminationRound participants)).length =
      participants.length / 2 := by
  obtain ⟨later, hcreated, hlater⟩ := createdRounds_eq hn
  have hempty : ∀ r ∈ 2 :: later, singleEliminationRound participants r = [] := by
    intro r hr
    have hr2 : 1 < r := by
      rcases List.mem_cons.1 hr with rfl | hr
      · omega
      · exact lt_trans (by omega) (hlater r hr)
    cases hm : singleEliminationMatches participants.length r with
    | none => simp [singleEliminationRound, hm]
    | some m =>
      refine List.length_eq_zero_iff.1 ?_
      rw [length_singleEliminationRound hr2.le hm, singleEliminationMatches_eq hr2 hm]
      have hpow : 2 ^ 2 ≤ 2 ^ r := Nat.pow_le_pow_right (by norm_num) hr2
      exact Nat.div_eq_of_lt (by omega)
  rw [hcreated, List.flatMap_cons, List.length_append, length_singleEliminationRound le_rfl rfl,
    List.flatMap_eq_nil_iff.2 hempty]
  rfl

/-- A bracket of two players: they meet. -/
theorem right_of_two {p q : TournamentParticipant} (hpq : p.userId ≠ q.userId)
    (hround : ∀ r, d'.inRound t r = if r ∈ [1] then [.duel p.userId q.userId] else []) :
    FirstRoundSeats t [p, q] d' ∧ PlacedByResults t d' := by
  constructor
  · intro x hx
    rw [hround]
    rcases List.mem_pair.1 hx with rfl | rfl
    · simp [Fixture.players, Fixture.duel]
    · simp [Fixture.players, Fixture.duel]
  · intro r' r hr f hf f' hf'
    have hr1 : r = 1 := by
      by_contra hne
      rw [hround, if_neg (by simpa using hne)] at hf
      exact List.not_mem_nil hf
    have hr1' : r' = 1 := by
      by_contra hne
      rw [hround, if_neg (by simpa using hne)] at hf'
      exact List.not_mem_nil hf'
    omega

/-- The generator never reads outside the list of participants. All but one of them have a match to lose, everybody has
a place in the first round and nobody a place in a later one that has not been won: this is so of brackets of two
players only. -/
theorem singleElimination_right (t : Uuid) (participants : List TournamentParticipant) (d : Database)
    (hn : 2 ≤ participants.length) (hdistinct : (participants.map (·.userId)).Nodup) (hkeyed : d.Keyed)
    (hrounds : d.roundsOf t = []) (hmatches : d.matchesOf t = []) :
    (∀ r ∈ List.range' 1 (Nat.clog 2 participants.length),
      ∀ m, singleEliminationMatches participants.length r = some m →
      ∀ matchNum ∈ List.range' 1 m, (fixtureAt participants matchNum).isSome) ∧
    (((generateSingleEliminationBracket t participants).run d).2.twoPlayerMatches t = participants.length - 1 ∧
        FirstRoundSeats t participants ((generateSingleEliminationBracket t participants).run d).2 ∧
        PlacedByResults t ((generateSingleEliminationBracket t participants).run d).2 ↔
      participants.length = 2) := by
  have hgenerated := generated_singleElimination hn hkeyed hrounds
  generalize ((generateSingleEliminationBracket t participants).run d).2 = d' at hgenerated ⊢
  have hinRound := inRound_of_generated hgenerated hrounds
  have htotal := twoPlayerMatches_of_generated hgenerated hmatches
  refine ⟨?_, ?_, ?_⟩
  · intro r hr m hm matchNum hmem
    obtain ⟨p, q, -, -, hfixture⟩ := fixtureAt_of_le (singleEliminationMatches_le (List.mem_range'_1.1 hr).1 hm) hmem
    rw [hfixture]
    rfl
  · rintro ⟨hcount, -, hplaced⟩
    by_contra hne
    have h3 : 3 ≤ participants.length := by omega
    rcases Nat.lt_or_ge (participants.length % 2 ^ 32) 4 with hsmall | hlarge
    · rw [htotal, length_of_small h3 hsmall] at hcount
      omega
    · exact not_placedByResults h3 hlarge (fun r hr => (hinRound r).trans (if_pos hr)) hplaced
  · intro htwo
    obtain ⟨p, q, rfl⟩ := List.length_eq_two.1 htwo
    have hpq : p.userId ≠ q.userId := by simpa using hdistinct
    have hcreated : createdRounds [p, q].length = [1] := show createdRounds 2 = [1] by decide +kernel
    have hfirst : singleEliminationRound [p, q] 1 = [.duel p.userId q.userId] := by
      simp [singleEliminationRound, singleEliminationMatches, fixtureAt, Fixture.duel]
    refine ⟨?_, right_of_two hpq fun r => ?_⟩
    · rw [htotal, hcreated]
      simp [hfirst]
    · rw [hinRound, hcreated]
      split
      case isTrue hr => rw [List.mem_singleton.1 hr, hfirst]
      case isFalse => rfl

end Right

namespace Sample

/-- An active participant of the cup. -/
def entrant (user : Uuid) : TournamentParticipant := ⟨user, Orchestrator.Sample.cup, user, user.value, .active, none⟩

theorem singleElimination_right_two :
    ((generateSingleEliminationBracket ⟨0⟩ [entrant ⟨1⟩, entrant ⟨2⟩]).run
      Orchestrator.Sample.announced).2.twoPlayerMatches ⟨0⟩ = 1 := by
  have hfresh := Orchestrator.Sample.fresh_announced
  obtain ⟨-, hright⟩ := singleElimination_right ⟨0⟩ [entrant ⟨1⟩, entrant ⟨2⟩] Orchestrator.Sample.announced (by decide)
    (by decide) hfresh.keyed hfresh.rounds hfresh.unplayed
  exact (hright.2 rfl).1

/-- Of five players, three matches are created, not four; the fifth is in none of them; the first two meet in the second
round before they have played the first. -/
theorem bracket_of_five :
    let participants := [entrant ⟨1⟩, entrant ⟨2⟩, entrant ⟨3⟩, entrant ⟨4⟩, entrant ⟨5⟩]
    let d := ((generateSingleEliminationBracket ⟨0⟩ participants).run Orchestrator.Sample.announced).2
    d.twoPlayerMatches ⟨0⟩ = 3 ∧ (d.inRound ⟨0⟩ 1).countP (⟨5⟩ ∈ ·.players) = 0 ∧
      Fixture.duel ⟨1⟩ ⟨2⟩ ∈ d.inRound ⟨0⟩ 1 ∧ Fixture.duel ⟨1⟩ ⟨2⟩ ∈ d.inRound ⟨0⟩ 2 := by
  decide +kernel

end Sample

end TournamentService

end ArenaX
