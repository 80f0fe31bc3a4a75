/-
The workers that advance a tournament at the same time: calls of `on_match_completed` and passes of
`poll_for_stale_rounds`, whose statements may come in any order, while matches are decided. A worker is at one of a few
points of its program; for each of them there is the statement that comes next, and where it leads.
-/
import ArenaX.Lib.Interleaving
import ArenaX.Orchestrator.Tournament

namespace ArenaX.Orchestrator

open Machine Script

/-! ## Polling -/

/-- Rounds in progress that have matches, none of them pending, and that no later round follows, with their
tournaments. -/
def Database.staleRounds (d : Database) : List (Uuid × Uuid) :=
  (d.tournamentRounds.filter fun tr => tr.status = .inProgress ∧
      (∃ t ∈ d.tournaments, t.id = tr.tournamentId ∧ t.status = .inProgress) ∧
      (∀ m ∈ d.roundMatches tr.id, ¬ m.Pending) ∧
      (∀ tr' ∈ d.tournamentRounds, tr'.tournamentId = tr.tournamentId → ¬ tr.roundNumber < tr'.roundNumber) ∧
      d.roundMatches tr.id ≠ []).map fun tr => (tr.id, tr.tournamentId)

/-- Errors are logged, and the next round is tried. -/
def advanceRounds : List (Uuid × Uuid) → Sql Unit
  | [] => pure ()
  | (roundId, t) :: rest => do
    let _ ← attempt (onMatchCompleted t roundId)
    advanceRounds rest

def pollForStaleRounds : Sql Unit := do
  let staleRows ← query (·.staleRounds)
  advanceRounds staleRows

/-! ## Results of matches -/

/-- How a match ends. -/
inductive Outcome where
  | won (winner : Uuid)
  | drawn
  | cancelled
deriving DecidableEq

namespace Fixture

def settle (f : Fixture) : Outcome → Fixture
  | .won winner => f.won winner
  | .drawn => { f with winnerId := none, status := .completed }
  | .cancelled => { f with status := .cancelled }

/-- A match can end so: its winner is one of its players. -/
def Allows (f : Fixture) : Outcome → Prop
  | .won winner => winner ∈ f.players
  | _ => True

instance (f : Fixture) (o : Outcome) : Decidable (f.Allows o) :=
  Outcome.casesOn (motive := fun o => Decidable (f.Allows o))
    o (fun winner => inferInstanceAs (Decidable (winner ∈ f.players)))
    (inferInstanceAs (Decidable True)) (inferInstanceAs (Decidable True))

end Fixture

/-- The row after its match has ended. -/
def TournamentMatch.settle (matchId : Uuid) (o : Outcome) (row : TournamentMatch) : TournamentMatch :=
  if row.id = matchId then { row with toFixture := row.toFixture.settle o } else row

def Database.settle (matchId : Uuid) (o : Outcome) (d : Database) : Database :=
  { d with tournamentMatches := d.tournamentMatches.map (·.settle matchId o) }

/-- A pending match ends. -/
def decideMatch (d : Database) (result : Uuid × Outcome) : Option Database :=
  if ∃ m ∈ d.tournamentMatches, m.id = result.1 ∧ m.Pending ∧ m.Allows result.2 then some (d.settle result.1 result.2)
  else none

/-! ## The points of a program -/

section Rest

variable (t roundId : Uuid) (roundNumber : ℕ) (advancing : List Uuid)

/-- From the insertion of the next round on. -/
def drawNext : Sql Unit := do
  let newRoundId ← change (Database.insertRound t (roundNumber + 1) (nextRoundType advancing.length))
  insertMatches t newRoundId some 0 (nextFixtures advancing)

/-- From the collection of the players who advance on. -/
def collectAdvancing : Sql Unit := do
  let advancing ← query (·.advancing roundId)
  if advancing.length ≤ 1 then update (Database.setTournamentStatus t .completed) else drawNext t roundNumber advancing

/-- From the end of the round on. -/
def closeRound : Sql Unit := do
  update (Database.setRoundStatus roundId .completed)
  collectAdvancing t roundId roundNumber

/-- From the search for a later round on. -/
def lookForNext : Sql Unit := do
  let next ← query fun d => d.tournamentRounds.find? fun row => row.tournamentId = t ∧ roundNumber < row.roundNumber
  if next.isSome then pure () else closeRound t roundId roundNumber

/-- From the search for the round on. -/
def fetchRound : Sql Unit := do
  let row ← query (·.findRound roundId)
  let round ← okOr row .notFound
  lookForNext t roundId round.roundNumber

end Rest

/-- Where a call of `on_match_completed` stands, with what it has read. -/
inductive Task where
  | count (roundId : Uuid)
  | fetch (roundId : Uuid)
  | look (roundId : Uuid) (roundNumber : ℕ)
  | close (roundId : Uuid) (roundNumber : ℕ)
  | collect (roundId : Uuid) (roundNumber : ℕ)
  | finish (roundId : Uuid)
  | draw (roundId : Uuid) (roundNumber : ℕ) (advancing : List Uuid)
  | insert (newRoundId : Uuid) (idx : ℕ) (fixtures : List Fixture)
  | done (result : Except ApiError Unit)

namespace Task

variable {t : Uuid} {task : Task}

/-- The statements that are left. -/
def script (t : Uuid) : Task → Sql Unit
  | .count roundId => onMatchCompleted t roundId
  | .fetch roundId => fetchRound t roundId
  | .look roundId roundNumber => lookForNext t roundId roundNumber
  | .close roundId roundNumber => closeRound t roundId roundNumber
  | .collect roundId roundNumber => collectAdvancing t roundId roundNumber
  | .finish _ => update (Database.setTournamentStatus t .completed)
  | .draw _ roundNumber advancing => drawNext t roundNumber advancing
  | .insert newRoundId idx fixtures => insertMatches t newRoundId some idx fixtures
  | .done result => .ret result

/-- What the call returns, when no statement is left. -/
def result : Task → Option (Except ApiError Unit)
  | .insert _ _ [] => some (.ok ())
  | .done result => some result
  | _ => none

/-- What the next statement writes. -/
def write (t : Uuid) : Task → Database → Database
  | .close roundId _ => Database.setRoundStatus roundId .completed
  | .finish _ => Database.setTournamentStatus t .completed
  | .draw _ roundNumber advancing => fun d =>
    match d.insertRound t (roundNumber + 1) (nextRoundType advancing.length) with
    | .ok (_, d') => d'
    | .error _ => d
  | .insert newRoundId idx (f :: _) => Database.insertMatch t newRoundId (i32.wrap (idx + 1)) f
  | _ => id

/-- Where the next statement leads. -/
def next (t : Uuid) : Task → Database → Task
  | .count roundId, d => if 0 < (d.roundMatches roundId).countP (·.Pending) then .done (.ok ()) else .fetch roundId
  | .fetch roundId, d => match d.findRound roundId with
    | some round => .look roundId round.roundNumber
    | none => .done (.error .notFound)
  | .look roundId roundNumber, d =>
    if (d.tournamentRounds.find? fun row => row.tournamentId = t ∧ roundNumber < row.roundNumber).isSome then
      .done (.ok ())
    else .close roundId roundNumber
  | .close roundId roundNumber, _ => .collect roundId roundNumber
  | .collect roundId roundNumber, d =>
    if (d.advancing roundId).length ≤ 1 then .finish roundId else .draw roundId roundNumber (d.advancing roundId)
  | .finish _, _ => .done (.ok ())
  | .draw _ roundNumber advancing, d =>
    match d.insertRound t (roundNumber + 1) (nextRoundType advancing.length) with
    | .ok (newRoundId, _) => .insert newRoundId 0 (nextFixtures advancing)
    | .error e => .done (.error e)
  | .insert newRoundId idx fixtures, _ => .insert newRoundId (idx + 1) fixtures.tail
  | .done result, _ => .done result

/-- The program makes the statement of the point it is at. -/
theorem script_eq (h : task.result = none) :
    task.script t = Prog.stmt (task.write t) fun d => (task.next t d).script t := by
  cases task with
  | count roundId =>
    exact congrArg (Prog.stmt id) (funext fun d => (apply_ite (script t) _ (.done (.ok ())) (.fetch roundId)).symm)
  | fetch roundId =>
    refine congrArg (Prog.stmt id) (funext fun d => ?_)
    show Prog.bind (okOr (d.findRound roundId) ApiError.notFound) _ = script t (match d.findRound roundId with
      | some round => .look roundId round.roundNumber
      | none => .done (.error .notFound))
    cases d.findRound roundId <;> rfl
  | look roundId roundNumber =>
    exact congrArg (Prog.stmt id) (funext fun d =>
      (apply_ite (script t) _ (.done (.ok ())) (.close roundId roundNumber)).symm)
  | close roundId roundNumber => rfl
  | collect roundId roundNumber =>
    exact congrArg (Prog.stmt id) (funext fun d =>
      (apply_ite (script t) _ (.finish roundId) (.draw roundId roundNumber (d.advancing roundId))).symm)
  | finish roundId => rfl
  | draw roundId roundNumber advancing =>
    refine congrArg₂ Prog.stmt (funext fun d => ?_) (funext fun d => ?_)
    · unfold write
      dsimp only
      cases d.insertRound t (roundNumber + 1) (nextRoundType advancing.length) <;> rfl
    · unfold next
      dsimp only
      cases d.insertRound t (roundNumber + 1) (nextRoundType advancing.length) <;> rfl
  | insert newRoundId idx fixtures =>
    cases fixtures with
    | nil => cases h
    | cons f fixtures => rfl
  | done result => cases h

end Task

/-! ## Runs -/

inductive Advance where
  | call (t roundId : Uuid)
  | poll
deriving DecidableEq

end ArenaX.Orchestrator
