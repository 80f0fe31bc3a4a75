/-
The counters of the time lock against the operations it stores. Every call that schedules or finishes an operation
updates the counters by as much as the stored operations change, as long as the counters stay in their ranges; the
number of active operations is a `u32` and wraps around at 2^32 of them.
-/
import ArenaX.TimeLock.Contract

namespace ArenaX.TimeLock

open Machine Exec Sample
open Host (Address Env)

/-- A scheduled operation stays in the ranges of the counters. -/
def Call.InRange (s : State) : Call → Prop
  | .scheduleOperation .. => (s.activeCount : ℤ) + 1 ≤ u32.max ∧ (s.analyticsTotal.totalScheduled : ℤ) + 1 ≤ u64.max
  | _ => True

instance (s : State) (c : Call) : Decidable (c.InRange s) := by
  apply Call.casesOn (motive := fun c => Decidable (c.InRange s)) c <;> intros <;> dsimp only [Call.InRange] <;>
    infer_instance

def InRange : Rule := fun _ _ s c => c.InRange s

instance (e e' : Env) (s : State) (c : Call) : Decidable (InRange e e' s c) := inferInstanceAs (Decidable (c.InRange s))

/-! ## Counters of categories -/

/-- A counter of the categories counts the operations with a property. -/
def State.Tallies (s : State) (counter : CategoryStats → U64) (p : Operation → Prop) [DecidablePred p] : Prop :=
  ∀ category, (counter (s.getCategoryStats category) : ℤ) = s.operation.count fun op => op.category = category ∧ p op

section Categories

variable {s s' : State} {operationId : BytesN 32} {op : Operation} {category : U32} {status : Status}
  {counter : CategoryStats → U64} {p : Operation → Prop} [DecidablePred p] {bump : CategoryStats → CategoryStats}

theorem getCategoryStats_set (stats : CategoryStats) (id : U32) :
    ((s.analyticsByCategory.set category stats).get id).getD { category := id } =
      if id = category then stats else s.getCategoryStats id := by
  rw [Table.get_set]
  split <;> rfl

theorem increment_eq {x : U64} (h : (x : ℤ) + 1 ≤ u64.max) : (increment x : ℤ) = x + 1 := by
  have := x.bounds
  exact wrap_of_nonneg (by omega) h

/-- A counter still counts, if it goes up in the category of an operation that is written and has come to have the
property. -/
theorem State.Tallies.write (h : s.Tallies counter p) (hoperation : s'.operation = s.operation.set operationId op)
    (hold : ∀ o ∈ s.operation.get operationId, o.category = op.category ∧ (p o → p op))
    (hrange : s'.operation.rows.card ≤ u64.max)
    (hstats : ∀ category, counter (s'.getCategoryStats category) =
      if category = op.category ∧ p op ∧ ¬ ∃ o ∈ s.operation.get operationId, p o then
        increment (counter (s.getCategoryStats category))
      else counter (s.getCategoryStats category)) : s'.Tallies counter p := by
  intro category
  have hcount := Table.count_set (fun o => o.category = category ∧ p o) s.operation operationId op
  have hle := Table.count_le_card (fun o => o.category = category ∧ p o) s'.operation
  have hbefore : (∃ o ∈ s.operation.get operationId, o.category = category ∧ p o) ↔
      category = op.category ∧ ∃ o ∈ s.operation.get operationId, p o := by
    constructor
    · rintro ⟨o, ho, rfl, hp⟩
      exact ⟨(hold o ho).1, o, ho, hp⟩
    · rintro ⟨rfl, o, ho, hp⟩
      exact ⟨o, ho, (hold o ho).1, hp⟩
  simp only [hbefore, eq_comm (a := op.category)] at hcount
  rw [hoperation] at hle hrange ⊢
  rw [hstats]
  by_cases hwas : ∃ o ∈ s.operation.get operationId, p o
  · obtain ⟨o, ho, hp⟩ := id hwas
    simp only [hwas, (hold o ho).2 hp, and_true, not_true_eq_false, and_false, if_false] at hcount ⊢
    rw [h category]
    omega
  · simp only [hwas, and_false, not_false_eq_true, and_true, if_false] at hcount ⊢
    split <;> rename_i hcase
    · rw [if_pos hcase] at hcount
      rw [increment_eq (by rw [h category]; omega), h category]
      omega
    · rw [if_neg hcase] at hcount
      rw [h category]
      omega

end Categories

/-! ## All counters -/

/-- The counters agree with the stored operations and with each other. -/
structure State.Counted (s : State) : Prop where
  active : (s.activeCount : ℤ) = s.operation.count (·.status = .scheduled)
  stored : (s.analyticsTotal.totalScheduled : ℤ) = s.operation.rows.card
  total : (s.analyticsTotal.totalScheduled : ℤ) = s.activeCount + s.analyticsTotal.totalExecuted +
    s.analyticsTotal.totalCancelled + s.analyticsTotal.totalExpired
  accelerated : (s.analyticsTotal.totalAccelerated : ℤ) ≤ s.analyticsTotal.totalExecuted
  scheduled : s.Tallies CategoryStats.scheduled fun _ => True
  executed : s.Tallies CategoryStats.executed (·.status = .executed)
  cancelled : s.Tallies CategoryStats.cancelled (·.status = .cancelled)

section Counters

variable {env : Env} {s s' : State} {c : Call} {operationId : BytesN 32} {op : Operation} {now : U64}
  {accelerated : Bool}

theorem State.Counted.enqueue (hs : s.Counted) (hget : s.operation.get operationId = none)
    (hscheduled : op.status = .scheduled) (hactive : s.activeCount + 1 ≤ u32.max)
    (htotal : s.analyticsTotal.totalScheduled + 1 ≤ u64.max) : (s.enqueue operationId op).Counted := by
  have hoperation : (s.enqueue operationId op).operation = s.operation.set operationId op := rfl
  have hcount := Table.count_set_of_none (·.status = .scheduled) hget op
  rw [if_pos hscheduled] at hcount
  have hactive' : ((s.enqueue operationId op).activeCount : ℤ) = s.activeCount + 1 := by
    have hrange : 0 ≤ (s.activeCount : ℤ) + 1 := by have := s.activeCount.bounds; omega
    exact wrap_of_nonneg hrange hactive
  have htotal' : ((s.enqueue operationId op).analyticsTotal.totalScheduled : ℤ) = s.analyticsTotal.totalScheduled + 1 :=
    increment_eq htotal
  have hcard : ((s.enqueue operationId op).operation.rows.card : ℤ) = s.analyticsTotal.totalScheduled + 1 := by
    rw [hoperation, Table.card_rows_set_of_none hget, hs.stored]
    rfl
  have hrange := hcard.le.trans htotal
  have hstats (category : U32) : (s.enqueue operationId op).getCategoryStats category =
      if category = op.category then
        { s.getCategoryStats op.category with scheduled := increment (s.getCategoryStats op.category).scheduled }
      else s.getCategoryStats category := getCategoryStats_set _ _
  refine ⟨?_, htotal'.trans hcard.symm, ?_, hs.accelerated,
    hs.scheduled.write hoperation (by simp [hget]) hrange fun category => ?_,
    hs.executed.write hoperation (by simp [hget]) hrange fun category => ?_,
    hs.cancelled.write hoperation (by simp [hget]) hrange fun category => ?_⟩
  · rw [hactive', hs.active, hoperation, hcount]
    push_cast
    ring
  · rw [htotal', hactive', hs.total]
    show _ = (s.activeCount : ℤ) + 1 + s.analyticsTotal.totalExecuted + s.analyticsTotal.totalCancelled +
      s.analyticsTotal.totalExpired
    ring
  all_goals
    rw [hstats]
    by_cases h : category = op.category <;> simp [h, hget, hscheduled]

/-- A scheduled operation is active, so that there is room for it among the executed and the cancelled ones. -/
theorem State.Counted.room (hs : s.Counted) (hget : s.operation.get operationId = some op)
    (hscheduled : op.status = .scheduled) : 0 < (s.activeCount : ℤ) ∧ s.analyticsTotal.totalExecuted + 1 ≤ u64.max ∧
      s.analyticsTotal.totalCancelled + 1 ≤ u64.max := by
  have hpos : 0 < (s.activeCount : ℤ) := by
    rw [hs.active]
    exact_mod_cast Table.count_pos_of_get (·.status = .scheduled) hget hscheduled
  have hmax := s.analyticsTotal.totalScheduled.hi
  have hsum := hs.total
  have hexecuted := s.analyticsTotal.totalExecuted.bounds
  have hcancelled := s.analyticsTotal.totalCancelled.bounds
  have hexpired := s.analyticsTotal.totalExpired.bounds
  exact ⟨hpos, by omega, by omega⟩

/-- A scheduled operation is executed or cancelled. -/
theorem State.Counted.finish (hs : s.Counted) (hget : s.operation.get operationId = some op)
    (hscheduled : op.status = .scheduled) (status : Status) (hstatus : status ≠ .scheduled)
    (hoperation : s'.operation = s.operation.set operationId { op with status := status })
    (hactive : s'.activeCount = if (s.activeCount : ℤ) > 0 then u32.wrap (s.activeCount - 1) else s.activeCount)
    (htotal : s'.analyticsTotal.totalScheduled = s.analyticsTotal.totalScheduled)
    (hfinished : (s'.analyticsTotal.totalExecuted : ℤ) + s'.analyticsTotal.totalCancelled +
      s'.analyticsTotal.totalExpired =
      s.analyticsTotal.totalExecuted + s.analyticsTotal.totalCancelled + s.analyticsTotal.totalExpired + 1)
    (haccelerated : (s'.analyticsTotal.totalAccelerated : ℤ) ≤ s'.analyticsTotal.totalExecuted)
    (hstats : ∀ category, s'.getCategoryStats category = if category = op.category then
      { s.getCategoryStats category with
        executed := if status = .executed then increment (s.getCategoryStats category).executed
          else (s.getCategoryStats category).executed
        cancelled := if status = .cancelled then increment (s.getCategoryStats category).cancelled
          else (s.getCategoryStats category).cancelled }
      else s.getCategoryStats category) : s'.Counted := by
  have hactive' : (s'.activeCount : ℤ) = s.activeCount - 1 := by
    have hpos := (hs.room hget hscheduled).1
    have := s.activeCount.hi
    rw [hactive, if_pos hpos]
    exact wrap_of_nonneg (by omega) (by omega)
  have hcount := Table.count_set_of_some (·.status = .scheduled) hget { op with status := status }
  rw [if_pos hscheduled, if_neg hstatus] at hcount
  have hcard : s'.operation.rows.card = s.operation.rows.card := by rw [hoperation, Table.card_rows_set_of_some hget]
  have hrange : s'.operation.rows.card ≤ u64.max := by
    rw [hcard, ← hs.stored]
    exact s.analyticsTotal.totalScheduled.hi
  refine ⟨?_, by rw [htotal, hs.stored, hcard], ?_, haccelerated,
    hs.scheduled.write hoperation (by simp [hget]) hrange fun category => ?_,
    hs.executed.write hoperation (by simp [hget, hscheduled]) hrange fun category => ?_,
    hs.cancelled.write hoperation (by simp [hget, hscheduled]) hrange fun category => ?_⟩
  · have := hs.active
    rw [hoperation]
    omega
  · rw [htotal, hs.total]
    omega
  all_goals
    rw [hstats]
    by_cases h : category = op.category <;> simp [h, hget, hscheduled]

theorem State.Counted.markExecuted (hs : s.Counted) (hget : s.operation.get operationId = some op)
    (hscheduled : op.status = .scheduled) : (s.markExecuted operationId op now accelerated).Counted := by
  have hexecuted := increment_eq (hs.room hget hscheduled).2.1
  refine hs.finish hget hscheduled .executed nofun rfl rfl rfl ?_ ?_ fun category => ?_
  · show (increment s.analyticsTotal.totalExecuted : ℤ) + s.analyticsTotal.totalCancelled +
      s.analyticsTotal.totalExpired = _
    rw [hexecuted]
    ring
  · have hle := hs.accelerated
    have hmax := (hs.room hget hscheduled).2.1
    show ((if accelerated then increment s.analyticsTotal.totalAccelerated else
      s.analyticsTotal.totalAccelerated : U64) : ℤ) ≤ increment s.analyticsTotal.totalExecuted
    split
    · rw [increment_eq (by omega)]
      omega
    · omega
  · refine (getCategoryStats_set _ _).trans ?_
    by_cases h : category = op.category
    · rw [if_pos h, if_pos h, h]; rfl
    · rw [if_neg h, if_neg h]; rfl

theorem State.Counted.markCancelled (hs : s.Counted) (hget : s.operation.get operationId = some op)
    (hscheduled : op.status = .scheduled) : (s.markCancelled operationId op).Counted := by
  refine hs.finish hget hscheduled .cancelled nofun rfl rfl rfl ?_ hs.accelerated fun category => ?_
  · show (s.analyticsTotal.totalExecuted : ℤ) + increment s.analyticsTotal.totalCancelled +
      s.analyticsTotal.totalExpired = _
    rw [increment_eq (hs.room hget hscheduled).2.2]
    ring
  · refine (getCategoryStats_set _ _).trans ?_
    by_cases h : category = op.category
    · rw [if_pos h, if_pos h, h]; rfl
    · rw [if_neg h, if_neg h]; rfl

theorem execute_counted (hs : s.Counted) (hok : c.InRange s) (h : (execute env s c).run .wrapping = some s') :
    s'.Counted := by
  cases c with
  | scheduleOperation =>
    obtain ⟨hnew, -, op, hscheduled, -, -, -, rfl⟩ := scheduleOperation_spec h
    exact hs.enqueue hnew hscheduled hok.1 hok.2
  | executeOperation =>
    obtain ⟨op, hget, hscheduled, -, -, rfl⟩ := executeOperation_spec h
    exact hs.markExecuted hget hscheduled
  | cancelOperation =>
    obtain ⟨op, hget, hscheduled, rfl⟩ := cancelOperation_spec h
    exact hs.markCancelled hget hscheduled
  | voteAccelerate voter operationId =>
    obtain ⟨-, -, _, hget, hscheduled, rfl⟩ := voteAccelerate_spec h
    have hrecord : (s.record operationId voter).Counted := { hs with }
    split
    · exact hrecord.markExecuted hget hscheduled
    · exact hrecord
  | governanceOverride =>
    obtain ⟨_, hget, hscheduled, rfl⟩ := governanceOverride_spec h
    split
    · exact hs.markExecuted hget hscheduled
    · exact hs.markCancelled hget hscheduled
  | addGovernor => cases addGovernor_spec h; exact { hs with }
  | removeGovernor => cases removeGovernor_spec h; exact { hs with }
  | updateMinDelay => cases updateMinDelay_spec h; exact { hs with }
  | updateGracePeriod => cases updateGracePeriod_spec h; exact { hs with }
  | updateAccelQuorum => cases updateAccelQuorum_spec h; exact { hs with }
  | setPaused => cases setPaused_spec h; exact { hs with }

end Counters

/-! ## Runs -/

section Runs

variable {e e' : Env} {s s' : State} {operationId : BytesN 32} {op : Operation}

theorem reach_counted (h : contract.Reach InRange e s) : s.Counted := by
  refine h.invariant (P := fun _ s => s.Counted) ?_ ?_
  · intro e s hinit
    obtain ⟨admin, minDelay, gracePeriod, accelQuorum, rfl⟩ := contract_init hinit
    exact ⟨rfl, rfl, rfl, le_rfl, fun _ => rfl, fun _ => rfl, fun _ => rfl⟩
  · intro e e' s c s' hs hok hstep
    exact execute_counted hs hok hstep

/-- An id under which an operation is stored cannot be scheduled. -/
theorem schedules_refused {env : Env} {c : Call} (hget : s.operation.get operationId = some op)
    (hc : c.schedules operationId = true) : contract.step env s c = none := by
  cases c with
  | scheduleOperation _ id =>
    cases of_decide_eq_true hc
    by_contra hsome
    obtain ⟨s', h⟩ := Option.ne_none_iff_exists'.1 hsome
    obtain ⟨hnew, -⟩ := scheduleOperation_spec h
    rw [hget] at hnew
    cases hnew
  | _ => cases hc

/-- The states a run goes on to from a state. -/
def After (s : State) : TransitionSystem Env State Call := contract.restart fun _ s₀ => s₀ = s

/-- An operation that is finished stays as it is. -/
theorem finished_stays {ok : Rule} (hget : s.operation.get operationId = some op) (hne : op.status ≠ .scheduled)
    (h : (After s).Reach ok e' s') : s'.operation.get operationId = some op := by
  refine h.invariant (P := fun _ s' => s'.operation.get operationId = some op) ?_ ?_
  · rintro e _ rfl
    exact hget
  · intro e e' s c s' hs _ hstep
    cases hc : c.schedules operationId with
    | false => exact Moves.eq_some (hs ▸ execute_moves hc hstep) hne
    | true =>
      rw [show (After _).step e' s c = none from schedules_refused hs hc] at hstep
      cases hstep

/-- Where the counters stay in their ranges, they agree with the stored operations and with each other, and an
operation that is no longer scheduled stays as it is and keeps its id. -/
theorem counters_agree (h : contract.Reach InRange e s) :
    (s.activeCount : ℤ) = s.operation.count (·.status = .scheduled) ∧
    (s.analyticsTotal.totalScheduled : ℤ) = s.activeCount + s.analyticsTotal.totalExecuted +
      s.analyticsTotal.totalCancelled + s.analyticsTotal.totalExpired ∧
    (∀ category,
      ((s.getCategoryStats category).scheduled : ℤ) = s.operation.count (·.category = category) ∧
      ((s.getCategoryStats category).executed : ℤ) =
        s.operation.count (fun op => op.category = category ∧ op.status = .executed) ∧
      ((s.getCategoryStats category).cancelled : ℤ) =
        s.operation.count (fun op => op.category = category ∧ op.status = .cancelled)) ∧
    (s.analyticsTotal.totalAccelerated : ℤ) ≤ s.analyticsTotal.totalExecuted ∧
    s.operation.All fun operationId op => op.status ≠ .scheduled → ∀ e' s', (After s).Reach Unrestricted e' s' →
      s'.operation.get operationId = some op ∧
      ∀ env c, c.schedules operationId = true → contract.step env s' c = none := by
  have hs := reach_counted h
  refine ⟨hs.active, hs.total, fun category => ⟨?_, hs.executed category, hs.cancelled category⟩, hs.accelerated, ?_⟩
  · simpa using hs.scheduled category
  · intro operationId op hget hne e' s' hreach
    have hstays := finished_stays hget hne hreach
    exact ⟨hstays, fun env c hc => schedules_refused hstays hc⟩

/-- Of three operations one is executed and one cancelled. -/
def Sample.threeOperations : List (Env × Call) :=
  staffed ++ [signed 10 (schedule 1), signed 10 (schedule 2), signed 20 (.cancelOperation alice (idOf 1)),
    signed 120 (.executeOperation bob (idOf 0))]

theorem counters_of_three : ∃ r, deployment.after InRange threeOperations = some r ∧
    (r.2.analyticsTotal.totalScheduled : ℤ) = 3 ∧ (r.2.activeCount : ℤ) = 1 ∧
    (r.2.activeCount : ℤ) = r.2.operation.count (·.status = .scheduled) ∧
    (r.2.analyticsTotal.totalScheduled : ℤ) = r.2.activeCount + r.2.analyticsTotal.totalExecuted +
      r.2.analyticsTotal.totalCancelled + r.2.analyticsTotal.totalExpired := by
  obtain ⟨hactive, htotal, -⟩ := counters_agree (reach_after (evaluated
    (o := deployment.after InRange threeOperations)))
  exact ⟨_, (evaluated _), by decide +kernel, by decide +kernel, hactive, htotal⟩

end Runs

/-! ## 2^32 operations -/

/-- The first `n` operations of the admin are scheduled. -/
structure Enqueued (n : ℕ) (s : State) : Prop where
  reachable : ∃ e, contract.Reach Unrestricted e s
  governor : admin ∈ s.governors
  unpaused : s.paused = false
  minDelay : s.minDelay = u64.wrap 100
  fresh : ∀ i, n ≤ i → i < 2 ^ 64 → s.operation.get (idOf i) = none
  count : s.operation.count (·.status = .scheduled) = n
  active : s.activeCount = u32.wrap n

theorem idOf_inj {i j : ℕ} (hi : i < 2 ^ 64) (hj : j < 2 ^ 64) (h : idOf i = idOf j) : i = j :=
  beBytes_inj (hi.trans (by norm_num)) (hj.trans (by norm_num)) (congrArg Subtype.val h)

theorem enqueued_zero : Enqueued 0 deployed where
  reachable := ⟨_, .init deployment.starts⟩
  governor := List.mem_singleton_self _
  unpaused := rfl
  minDelay := rfl
  fresh _ _ _ := Table.get_empty _
  count := rfl
  active := by decide

theorem schedule_accepted {s : State} {n : ℕ} (hs : Enqueued n s) (hn : n < 2 ^ 64) :
    ∃ s', contract.step (signedAt 10) s (schedule n) = some s' := by
  have hdelay : ¬ ((u64.wrap 100 : U64) : ℤ) < s.minDelay := by rw [hs.minDelay]; exact lt_irrefl _
  have hpaused : ¬ s.paused = true := by rw [hs.unpaused]; exact Bool.false_ne_true
  have hnew : ¬ (s.operation.get (idOf n)).isSome = true := by rw [hs.fresh n le_rfl hn]; exact Bool.false_ne_true
  show ∃ s', (scheduleOperation (signedAt 10) s admin (idOf n) _ _ _ _ _ _ _ _).run .wrapping = some s'
  simp only [scheduleOperation, requireNotPaused, run_iff, run_requireAuth, run_requireGovernor]
  exact ⟨_, (), List.mem_cons_self, (), hs.governor, (), hpaused, (), hdelay, (), hnew, rfl⟩

theorem Enqueued.next {s : State} {n : ℕ} (hs : Enqueued n s) (hn : n < 2 ^ 64) : ∃ s', Enqueued (n + 1) s' := by
  obtain ⟨s', h⟩ := schedule_accepted hs hn
  obtain ⟨e, hreach⟩ := hs.reachable
  have hreach' : contract.Reach Unrestricted (signedAt 10) s' := hreach.step trivial h
  obtain ⟨hnew, -, op, hscheduled, -, -, -, rfl⟩ := scheduleOperation_spec h
  refine ⟨_, ⟨_, hreach'⟩, hs.governor, hs.unpaused, hs.minDelay, fun i hi hlt => ?_, ?_, ?_⟩
  · rw [show (s.enqueue (idOf n) op).operation = s.operation.set (idOf n) op from rfl, Table.get_set_of_ne]
    · exact hs.fresh i (by omega) hlt
    · intro hid
      have := idOf_inj hlt hn hid
      omega
  · rw [show (s.enqueue (idOf n) op).operation = s.operation.set (idOf n) op from rfl,
      Table.count_set_of_none _ hnew, if_pos hscheduled, hs.count, add_comm]
  · show u32.wrap (s.activeCount + 1) = _
    rw [hs.active, wrap_wrap_add]
    rfl

theorem exists_enqueued : ∀ n ≤ 2 ^ 64, ∃ s, Enqueued n s
  | 0, _ => ⟨_, enqueued_zero⟩
  | n + 1, hn => (exists_enqueued n (by omega)).elim fun _ hs => hs.next hn

/-- With 2^32 scheduled operations the counter of active operations is back at zero. -/
theorem active_count_wraps : ∃ e s, contract.Reach Unrestricted e s ∧ (s.activeCount : ℤ) = 0 ∧
    s.operation.count (·.status = .scheduled) = 2 ^ 32 := by
  obtain ⟨s, hs⟩ := exists_enqueued (2 ^ 32) (by norm_num)
  obtain ⟨e, hreach⟩ := hs.reachable
  exact ⟨e, s, hreach, by rw [hs.active]; decide, hs.count⟩

end ArenaX.TimeLock
