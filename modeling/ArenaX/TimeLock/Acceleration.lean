/-
When operations are executed. Execution after the delay checks the window of the operation, and the delay was at least
the minimum in force when it was scheduled. Acceleration counts the votes that were cast, whoever cast them and
whenever: it is made by governors, and in time, where no governor is removed whose vote on a scheduled operation is
recorded, and where the vote that reaches the quorum is not cast after the window.
-/
import ArenaX.TimeLock.Contract
import Mathlib.Algebra.FreeMonoid.Basic

namespace ArenaX.TimeLock

open Machine Exec Sample
open Host (Address Env)

/-- Delays end in the range of times, the vote that reaches the quorum is cast before the window ends, and a governor
that is removed has no vote on a scheduled operation. -/
def Call.Timely (env : Env) (s : State) : Call → Prop
  | .scheduleOperation _ _ _ _ _ delay _ _ _ _ => (env.timestamp : ℤ) + delay ≤ u64.max
  | .voteAccelerate _ operationId => ∀ op ∈ s.operation.get operationId,
    (s.accelQuorum : ℤ) ≤ (s.getAccelVotes operationId).length + 1 → (env.timestamp : ℤ) ≤ op.executeBefore
  | .removeGovernor _ governor =>
    s.operation.All fun id op => op.status = .scheduled → governor ∉ s.getAccelVotes id
  | _ => True

instance (env : Env) (s : State) (c : Call) : Decidable (c.Timely env s) := by
  apply Call.casesOn (motive := fun c => Decidable (c.Timely env s)) c <;> intros <;> dsimp only [Call.Timely] <;>
    infer_instance

def Timely : Rule := fun _ e s c => c.Timely e s

instance (e e' : Env) (s : State) (c : Call) : Decidable (Timely e e' s c) :=
  inferInstanceAs (Decidable (c.Timely e' s))

/-! ## Votes -/

/-- Nobody has voted twice on a scheduled operation, and who has voted is a governor. -/
def State.Voted (s : State) : Prop := s.operation.All fun id op =>
  op.status = .scheduled → (s.getAccelVotes id).Nodup ∧ ∀ voter ∈ s.getAccelVotes id, voter ∈ s.governors

section Votes

variable {env : Env} {s s' : State} {c : Call} {operationId : BytesN 32} {op : Operation} {status : Status}

theorem getAccelVotes_set (votes : Table (BytesN 32) (List Address)) (operationId id : BytesN 32)
    (voters : List Address) :
    ((votes.set operationId voters).get id).getD [] = if id = operationId then voters else (votes.get id).getD [] := by
  rw [Table.get_set]
  split <;> rfl

theorem getAccelVotes_record (voter : Address) :
    (s.record operationId voter).getAccelVotes operationId = s.getAccelVotes operationId ++ [voter] :=
  (getAccelVotes_set _ _ _ _).trans (if_pos rfl)

/-- An operation that is scheduled no longer does not count. -/
theorem State.Voted.finish (hs : s.Voted) (hstatus : status ≠ .scheduled)
    (hoperation : s'.operation = s.operation.set operationId { op with status := status })
    (hvotes : s'.accelVotes = s.accelVotes) (hgovernors : s'.governors = s.governors) : s'.Voted := by
  unfold State.Voted State.getAccelVotes
  rw [hoperation, hvotes, hgovernors]
  exact hs.set fun h => absurd h hstatus

theorem State.Voted.enqueue (hs : s.Voted) : (s.enqueue operationId op).Voted := by
  intro id op' hget hstatus
  have hvotes : (s.enqueue operationId op).getAccelVotes id =
      if id = operationId then [] else s.getAccelVotes id := getAccelVotes_set _ _ _ _
  rw [hvotes]
  split
  · exact ⟨List.nodup_nil, fun voter hvoter => absurd hvoter List.not_mem_nil⟩
  · rename_i hid
    rw [show (s.enqueue operationId op).operation = s.operation.set operationId op from rfl,
      Table.get_set_of_ne _ _ hid] at hget
    exact hs id op' hget hstatus

theorem State.Voted.record {voter : Address} (hs : s.Voted) (hgovernor : voter ∈ s.governors)
    (hnew : voter ∉ s.getAccelVotes operationId) : (s.record operationId voter).Voted := by
  intro id op hget hstatus
  obtain ⟨hnodup, hvoters⟩ := hs id op hget hstatus
  have hvotes : (s.record operationId voter).getAccelVotes id =
      if id = operationId then s.getAccelVotes operationId ++ [voter] else s.getAccelVotes id :=
    getAccelVotes_set _ _ _ _
  rw [hvotes]
  split
  · rename_i hid
    subst hid
    refine ⟨List.nodup_append.2 ⟨hnodup, List.nodup_singleton voter, ?_⟩, ?_⟩
    · rintro a ha b hb rfl
      exact hnew (List.mem_singleton.1 hb ▸ ha)
    · intro v hv
      rcases List.mem_append.1 hv with hv | hv
      · exact hvoters v hv
      · exact List.mem_singleton.1 hv ▸ hgovernor
  · exact ⟨hnodup, hvoters⟩

theorem execute_voted (hs : s.Voted) (hok : c.Timely env s) (h : (execute env s c).run .wrapping = some s') :
    s'.Voted := by
  cases c with
  | scheduleOperation =>
    obtain ⟨-, -, op, -, -, -, -, rfl⟩ := scheduleOperation_spec h
    exact hs.enqueue
  | executeOperation =>
    obtain ⟨op, -, -, -, -, rfl⟩ := executeOperation_spec h
    exact hs.finish (fun h => by cases h) rfl rfl rfl
  | cancelOperation =>
    obtain ⟨op, -, -, rfl⟩ := cancelOperation_spec h
    exact hs.finish (fun h => by cases h) rfl rfl rfl
  | voteAccelerate voter operationId =>
    obtain ⟨hgovernor, hnew, op, -, -, rfl⟩ := voteAccelerate_spec h
    have hrecord := hs.record hgovernor hnew
    split
    · exact hrecord.finish (fun h => by cases h) rfl rfl rfl
    · exact hrecord
  | governanceOverride =>
    obtain ⟨op, -, -, rfl⟩ := governanceOverride_spec h
    split
    · exact hs.finish (fun h => by cases h) rfl rfl rfl
    · exact hs.finish (fun h => by cases h) rfl rfl rfl
  | addGovernor =>
    cases addGovernor_spec h
    intro id op hget hstatus
    obtain ⟨hnodup, hvoters⟩ := hs id op hget hstatus
    exact ⟨hnodup, fun voter hvoter => List.mem_append_left _ (hvoters voter hvoter)⟩
  | removeGovernor _ governor =>
    cases removeGovernor_spec h
    intro id op hget hstatus
    obtain ⟨hnodup, hvoters⟩ := hs id op hget hstatus
    refine ⟨hnodup, fun voter hvoter => List.mem_filter.2 ⟨hvoters voter hvoter, ?_⟩⟩
    simp only [ne_eq, decide_not, Bool.not_eq_eq_eq_not, Bool.not_true, decide_eq_false_iff_not]
    rintro rfl
    exact hok id op hget hstatus hvoter
  | updateMinDelay => cases updateMinDelay_spec h; exact hs
  | updateGracePeriod => cases updateGracePeriod_spec h; exact hs
  | updateAccelQuorum => cases updateAccelQuorum_spec h; exact hs
  | setPaused => cases setPaused_spec h; exact hs

end Votes

/-! ## Delays -/

/-- The minimum delays in force when an operation was scheduled under an id. -/
def minDelays (operationId : BytesN 32) (_ : Env) (s : State) (c : Call) : FreeAddMonoid U64 :=
  if c.schedules operationId then .of s.minDelay else 0

/-- An operation that is stored was scheduled once, and can be executed after the minimum delay then in force. -/
structure State.Delayed (operationId : BytesN 32) (history : FreeAddMonoid U64) (s : State) : Prop where
  none : s.operation.get operationId = none → history = 0
  some : ∀ op, s.operation.get operationId = some op →
    ∃ delay, history = .of delay ∧ (op.scheduledAt : ℤ) + delay ≤ op.executeAfter

section Delays

variable {env : Env} {s s' : State} {c : Call} {operationId id : BytesN 32} {op op' : Operation}
  {history : FreeAddMonoid U64}

theorem scheduleOperation_delayed {target caller : Address} {functionName description : Symbol} {args : Bytes}
    {delay grace : U64} {category priority : U32} (hs : s.Delayed operationId history)
    (hok : env.timestamp + delay ≤ u64.max)
    (h : (scheduleOperation env s caller id target functionName args delay description category priority
      grace).run .wrapping = some s') :
    s'.Delayed operationId (history + if id = operationId then .of s.minDelay else 0) := by
  obtain ⟨hnew, hdelay, op, -, hscheduled, hafter, -, rfl⟩ := scheduleOperation_spec h
  have hoperation : (s.enqueue id op).operation = s.operation.set id op := rfl
  have hvalue : (op.executeAfter : ℤ) = env.timestamp + delay := by
    have := env.timestamp.bounds
    have := delay.bounds
    rw [hafter]
    exact wrap_of_nonneg (by omega) hok
  by_cases hid : id = operationId
  · subst hid
    rw [if_pos rfl, hs.none hnew]
    refine ⟨fun hnone => ?_, fun p hp => ?_⟩
    · rw [hoperation, Table.get_set_self] at hnone
      cases hnone
    · rw [hoperation, Table.get_set_self] at hp
      cases hp
      exact ⟨s.minDelay, rfl, by rw [hscheduled]; omega⟩
  · rw [if_neg hid, add_zero]
    have hget : (s.enqueue id op).operation.get operationId = s.operation.get operationId :=
      Table.get_set_of_ne _ _ (Ne.symm hid)
    exact ⟨fun hnone => hs.none (hget ▸ hnone), fun p hp => hs.some p (hget ▸ hp)⟩

theorem execute_delayed (hs : s.Delayed operationId history) (hok : c.Timely env s)
    (h : (execute env s c).run .wrapping = some s') :
    s'.Delayed operationId (history + minDelays operationId env s c) := by
  cases hc : c.schedules operationId with
  | false =>
    -- the times of a stored operation do not change
    have hmoves := execute_moves hc h
    rw [minDelays, hc, if_neg Bool.false_ne_true, add_zero]
    refine ⟨fun hnone => hs.none (Moves.of_none (hnone ▸ hmoves)), fun op' hop' => ?_⟩
    obtain ⟨op, status, hop, rfl⟩ := Moves.of_some (hop' ▸ hmoves)
    exact hs.some op hop
  | true =>
    cases c with
    | scheduleOperation =>
      simpa only [minDelays, Call.schedules, decide_eq_true_eq] using scheduleOperation_delayed hs hok h
    | _ => cases hc

end Delays

/-! ## Runs -/

section Runs

variable {e e' : Env} {s s' : State} {c : Call} {operationId : BytesN 32} {op op' : Operation}
  {history : FreeAddMonoid U64}

theorem reach_voted (h : contract.Reach Timely e s) : s.Voted := by
  refine h.invariant (P := fun _ s => s.Voted) ?_ ?_
  · intro e s hinit
    obtain ⟨admin, minDelay, gracePeriod, accelQuorum, rfl⟩ := contract_init hinit
    exact .empty
  · intro e e' s c s' hs hok hstep
    exact execute_voted hs hok hstep

theorem tally_delayed (h : contract.Tally Timely (minDelays operationId) history e s) :
    s.Delayed operationId history := by
  refine h.invariant (P := fun history _ s => s.Delayed operationId history) ?_ ?_
  · intro e s hinit
    obtain ⟨admin, minDelay, gracePeriod, accelQuorum, rfl⟩ := contract_init hinit
    refine ⟨fun _ => rfl, fun op hop => ?_⟩
    cases hop
  · intro history e e' s c s' _ hs hok hstep
    exact execute_delayed hs hok hstep

/-- In such runs, an operation that a vote turns to executed has the votes of a quorum of governors and is in its
window, and one that is executed after its delay is in its window, which begins after the minimum delay in force when
it was scheduled. -/
theorem executions_are_timely (h : contract.Tally Timely (minDelays operationId) history e s)
    (hok : Timely e e' s c) (hstep : contract.step e' s c = some s')
    (hop : s.operation.get operationId = some op) (hscheduled : op.status = .scheduled)
    (hop' : s'.operation.get operationId = some op') (hexecuted : op'.status = .executed) :
    (∀ voter, c = .voteAccelerate voter operationId →
      ∃ votes, s'.accelVotes.get operationId = some votes ∧ votes.Nodup ∧
        (s'.accelQuorum : ℤ) ≤ (votes.filter (· ∈ s'.governors)).length ∧
        (e'.timestamp : ℤ) ≤ op.executeBefore) ∧
    (∀ caller, c = .executeOperation caller operationId →
      (op.executeAfter : ℤ) ≤ e'.timestamp ∧ (e'.timestamp : ℤ) ≤ op.executeBefore ∧
      ∃ delay, history.toList = [delay] ∧ (op.scheduledAt : ℤ) + delay ≤ op.executeAfter) := by
  constructor
  · rintro voter rfl
    obtain ⟨hgovernor, hnew, op₁, hget, hstatus, rfl⟩ := voteAccelerate_spec hstep
    cases hop.symm.trans hget
    split at hop'
    · rename_i hquorum
      rw [if_pos hquorum]
      obtain ⟨hnodup, hvoters⟩ := (reach_voted h.reach).record hgovernor hnew operationId op hop hscheduled
      rw [getAccelVotes_record] at hnodup hvoters
      refine ⟨_, Table.get_set_self _ _ _, hnodup, ?_, hok op hop (by simpa using hquorum)⟩
      have hall : (s.getAccelVotes operationId ++ [voter]).filter (· ∈ s.governors) =
          s.getAccelVotes operationId ++ [voter] := List.filter_eq_self.2 fun v hv => decide_eq_true (hvoters v hv)
      rw [← hall] at hquorum
      exact hquorum
    · cases hop.symm.trans hop'
      rw [hscheduled] at hexecuted
      cases hexecuted
  · rintro caller rfl
    obtain ⟨op₁, hget, -, hafter, hbefore, rfl⟩ := executeOperation_spec hstep
    cases hop.symm.trans hget
    obtain ⟨delay, hhistory, hdelay⟩ := (tally_delayed h).some op hop
    exact ⟨hafter, hbefore, delay, by rw [hhistory]; rfl, hdelay⟩

/-- Alice and Bob accelerate the operation: the second vote is the quorum's, made by two governors before time 160. -/
theorem accelerated_by_two_governors : ∃ r s' op op' votes,
    deployment.after Timely (staffed ++ [signed 20 (.voteAccelerate alice (idOf 0))]) = some r ∧
    contract.step (signedAt 30) r.2 (.voteAccelerate bob (idOf 0)) = some s' ∧
    r.2.operation.get (idOf 0) = some op ∧ s'.operation.get (idOf 0) = some op' ∧ op'.status = .executed ∧
    s'.accelVotes.get (idOf 0) = some votes ∧ votes.Nodup ∧
    (s'.accelQuorum : ℤ) ≤ (votes.filter (· ∈ s'.governors)).length ∧
    ((signedAt 30).timestamp : ℤ) ≤ op.executeBefore := by
  have hrun : (deployment.after Timely (staffed ++ [signed 20 (.voteAccelerate alice (idOf 0))])).bind (fun r =>
      (contract.step (signedAt 30) r.2 (.voteAccelerate bob (idOf 0))).map fun s' =>
        (decide (Timely r.1 (signedAt 30) r.2 (.voteAccelerate bob (idOf 0))),
          (r.2.operation.get (idOf 0)).map Operation.status, (s'.operation.get (idOf 0)).map Operation.status)) =
      some (true, some .scheduled, some .executed) := by
    decide +kernel
  obtain ⟨r, hr, hvalues⟩ := Option.bind_eq_some_iff.1 hrun
  obtain ⟨s', hs', hvalues⟩ := Option.map_eq_some_iff.1 hvalues
  simp only [Prod.mk.injEq, decide_eq_true_eq, Option.map_eq_some_iff] at hvalues
  obtain ⟨hok, ⟨op, hop, hscheduled⟩, op', hop', hexecuted⟩ := hvalues
  obtain ⟨votes, hvotes⟩ := (executions_are_timely (tally_after (minDelays (idOf 0)) hr) hok hs' hop hscheduled hop'
    hexecuted).1 bob rfl
  exact ⟨r, s', op, op', votes, hr, hs', hop, hop', hexecuted, hvotes⟩

/-- Calls in order of time. -/
abbrev Ordered : Rule := TransitionSystem.Ordered fun e => (e.timestamp : ℤ)

/-- Alice votes and is then removed as a governor. -/
def Sample.removed : List (Env × Call) :=
  staffed ++ [signed 20 (.voteAccelerate alice (idOf 0)), signed 30 (.removeGovernor admin alice)]

/-- Her vote still counts: with Bob's, long after the window has ended, the quorum of two is reached, by one
governor. -/
theorem accelerated_by_a_former_governor : ∃ e s s' op op' votes, contract.Reach Ordered e s ∧
    (e.timestamp : ℤ) ≤ (signedAt 200).timestamp ∧
    contract.step (signedAt 200) s (.voteAccelerate bob (idOf 0)) = some s' ∧
    s.operation.get (idOf 0) = some op ∧ op.status = .scheduled ∧
    s'.operation.get (idOf 0) = some op' ∧ op'.status = .executed ∧
    s'.accelVotes.get (idOf 0) = some votes ∧ (s'.accelQuorum : ℤ) = 2 ∧
    (votes.filter (· ∈ s'.governors)).length = 1 ∧ (op.executeBefore : ℤ) = 160 := by
  have hreach := reach_after (evaluated (o := deployment.after Ordered removed))
  exact ⟨_, _, _, _, _, _, hreach, by decide +kernel, evaluated,
    evaluated, by decide +kernel, evaluated,
    by decide +kernel, evaluated, by decide +kernel⟩

end Runs

end ArenaX.TimeLock
