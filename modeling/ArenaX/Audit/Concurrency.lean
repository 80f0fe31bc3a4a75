/-
Transactions that insert audit rows at the same time. A row's number comes from a sequence when it is inserted, and is
lost when the transaction rolls back; a transaction sees its own rows and those that are committed. The chain has no
break as long as a transaction inserts only while no other one has audit rows that are not committed: two that overlap
link their rows to the same row before.
-/
import ArenaX.Audit.Chain
import ArenaX.Lib.Lists
import ArenaX.Lib.Runs

namespace ArenaX.Audit

/-- The table and the sequence, with the rows of the transactions that are open. -/
structure AuditTables (U J T : Type) where
  lastValue : ℕ
  auditLogs : List (AuditLog U J T)
  transactions : List (List (AuditLog U J T))

inductive AuditCall (U J T : Type) where
  | begin
  | insert (i : ℕ) (entry : AuditEntry U J T)
  | commit (i : ℕ)
  | rollback (i : ℕ)

section Calls

variable {U J T : Type} (casts : Casts U J T) (digest : Text → Text)

/-- What a call does; the transaction has to be open. -/
def AuditCall.serve (s : AuditTables U J T) : AuditCall U J T → Option (AuditTables U J T)
  | .begin => some { s with transactions := s.transactions ++ [[]] }
  | .insert i entry => s.transactions[i]?.map fun rows =>
    { s with
      lastValue := s.lastValue + 1
      transactions := s.transactions.set i
        (rows ++ [buildHashChain casts digest (s.auditLogs ++ rows) (s.lastValue + 1) entry]) }
  | .commit i => s.transactions[i]?.map fun rows =>
    { s with auditLogs := s.auditLogs ++ rows, transactions := s.transactions.eraseIdx i }
  | .rollback i => s.transactions[i]?.map fun _ => { s with transactions := s.transactions.eraseIdx i }

/-- Any number of transactions, from the empty table on. -/
def auditing : TransitionSystem Unit (AuditTables U J T) (AuditCall U J T) where
  init _ s := s = ⟨0, [], []⟩
  step _ := AuditCall.serve casts digest

end Calls

/-- A transaction inserts only while no other one has rows. -/
def alone {U J T : Type} : TransitionSystem.Rule Unit (AuditTables U J T) (AuditCall U J T)
  | _, _, s, .insert i _ => ∀ rows ∈ s.transactions.eraseIdx i, rows = []
  | _, _, _, _ => True

instance {U J T : Type} : ∀ e e' (s : AuditTables U J T) call, Decidable (alone e e' s call)
  | _, _, s, .insert i _ => inferInstanceAs (Decidable (∀ rows ∈ s.transactions.eraseIdx i, rows = []))
  | _, _, _, .begin | _, _, _, .commit _ | _, _, _, .rollback _ => .isTrue trivial

section Runs

variable {U J T : Type} {casts : Casts U J T} {digest : Text → Text} {s s' : AuditTables U J T} {call : AuditCall U J T}

/-- What a call does to the transactions: one is opened, gets a row, is committed or is rolled back. -/
theorem serve_cases (h : call.serve casts digest s = some s') :
    (call = .begin ∧ s' = { s with transactions := s.transactions ++ [[]] }) ∨
    ∃ i before rows after, s.transactions = before ++ rows :: after ∧ s.transactions.eraseIdx i = before ++ after ∧
      ((∃ entry, call = .insert i entry ∧ s' = ⟨s.lastValue + 1, s.auditLogs,
          before ++ (rows ++ [buildHashChain casts digest (s.auditLogs ++ rows) (s.lastValue + 1) entry]) :: after⟩) ∨
        s' = ⟨s.lastValue, s.auditLogs ++ rows, before ++ after⟩ ∨
        s' = ⟨s.lastValue, s.auditLogs, before ++ after⟩) := by
  cases call with
  | begin =>
    cases h
    exact .inl ⟨rfl, rfl⟩
  | insert i entry =>
    obtain ⟨rows, hrows, rfl⟩ := Option.map_eq_some_iff.1 h
    obtain ⟨before, after, hsplit, herase, hset⟩ := List.split_of_getElem? hrows
    exact .inr ⟨i, before, rows, after, hsplit, herase, .inl ⟨entry, rfl, by rw [hset]⟩⟩
  | commit i =>
    obtain ⟨rows, hrows, rfl⟩ := Option.map_eq_some_iff.1 h
    obtain ⟨before, after, hsplit, herase, -⟩ := List.split_of_getElem? hrows
    exact .inr ⟨i, before, rows, after, hsplit, herase, .inr (.inl (by rw [herase]))⟩
  | rollback i =>
    obtain ⟨_, hrows, rfl⟩ := Option.map_eq_some_iff.1 h
    obtain ⟨_, _, hsplit, herase, -⟩ := List.split_of_getElem? hrows
    exact .inr ⟨i, _, _, _, hsplit, herase, .inr (.inr (by rw [herase]))⟩

variable (casts digest) in
/-- The committed rows are a chain, which the rows of a transaction continue. -/
def Continues (lastValue : ℕ) (auditLogs rows : List (AuditLog U J T)) : Prop :=
  Chained casts digest (auditLogs ++ rows) ∧ ∀ row ∈ auditLogs ++ rows, row.sequenceNumber ≤ lastValue

variable (casts digest) in
/-- Every transaction continues the chain, and no two of them have rows. -/
structure InOrder (s : AuditTables U J T) : Prop where
  committed : Continues casts digest s.lastValue s.auditLogs []
  open_ : ∀ rows ∈ s.transactions, Continues casts digest s.lastValue s.auditLogs rows
  apart : s.transactions.Pairwise fun rows rows' => rows = [] ∨ rows' = []

theorem Continues.insert {lastValue : ℕ} {auditLogs rows : List (AuditLog U J T)}
    (h : Continues casts digest lastValue auditLogs rows) (entry : AuditEntry U J T) :
    Continues casts digest (lastValue + 1) auditLogs
      (rows ++ [buildHashChain casts digest (auditLogs ++ rows) (lastValue + 1) entry]) := by
  unfold Continues
  rw [← List.append_assoc]
  refine ⟨h.1.insert fun row hrow => Nat.lt_succ_of_le (h.2 row hrow), fun row hrow => ?_⟩
  rcases List.mem_append.1 hrow with hrow | hrow
  · exact (h.2 row hrow).trans (Nat.le_succ _)
  · cases List.mem_singleton.1 hrow
    exact le_rfl

theorem Continues.mono {lastValue : ℕ} {auditLogs rows : List (AuditLog U J T)}
    (h : Continues casts digest lastValue auditLogs rows) :
    Continues casts digest (lastValue + 1) auditLogs rows := ⟨h.1, fun row hrow => (h.2 row hrow).trans (Nat.le_succ _)⟩

theorem InOrder.serve (h : InOrder casts digest s) (hok : alone () () s call)
    (hserve : call.serve casts digest s = some s') : InOrder casts digest s' := by
  have hsymm : ∀ {rows rows' : List (AuditLog U J T)}, rows = [] ∨ rows' = [] → rows' = [] ∨ rows = [] := Or.symm
  rcases serve_cases hserve with ⟨-, rfl⟩ | ⟨i, before, rows, after, hsplit, herase, hcases⟩
  · refine ⟨h.committed, fun rows hrows => ?_, List.pairwise_append.2 ⟨h.apart, List.pairwise_singleton _ _, ?_⟩⟩
    · rcases List.mem_append.1 hrows with hrows | hrows
      · exact h.open_ rows hrows
      · rw [List.mem_singleton.1 hrows]
        exact h.committed
    · exact fun _ _ rows hrows => .inr (List.mem_singleton.1 hrows)
  · have hapart := h.apart
    have hopen := h.open_
    rw [hsplit] at hapart hopen
    obtain ⟨hothers, hrest⟩ := List.pairwise_cons.1 ((List.pairwise_middle hsymm).1 hapart)
    have hrows := hopen rows (by simp)
    have hother : ∀ rows' ∈ before ++ after, Continues casts digest s.lastValue s.auditLogs rows' :=
      fun rows' hrows' => hopen rows' (List.mem_append_cons_iff.2 (.inr hrows'))
    rcases hcases with ⟨entry, rfl, rfl⟩ | rfl | rfl
    · -- the others have no rows
      have hnil : ∀ rows' ∈ before ++ after, rows' = [] := herase ▸ hok
      refine ⟨h.committed.mono, fun rows' hrows' => ?_,
        (List.pairwise_middle hsymm).2 (List.pairwise_cons.2 ⟨?_, hrest⟩)⟩
      · rcases List.mem_append_cons_iff.1 hrows' with rfl | hrows'
        · exact hrows.insert entry
        · exact (hother rows' hrows').mono
      · exact fun rows' hrows' => .inr (hnil rows' hrows')
    · refine ⟨by simpa [Continues] using hrows, fun rows' hrows' => ?_, hrest⟩
      rcases hothers rows' hrows' with rfl | rfl
      · simpa using hother rows' hrows'
      · simpa [Continues] using hrows
    · exact ⟨h.committed, hother, hrest⟩

/-- The chain has no break, as long as no two transactions have rows at the same time. -/
theorem no_false_alarm {e : Unit} (h : (auditing casts digest).Reach alone e s) :
    (verifyAuditChain casts digest 0 none s.auditLogs).ok = true := by
  have horder : InOrder casts digest s := by
    refine TransitionSystem.Reach.invariant (P := fun _ s => InOrder casts digest s) ?_ ?_ h
    · rintro _ _ rfl
      have hnil : Continues casts digest 0 [] [] := ⟨Built.empty.chained, fun row hrow => (List.not_mem_nil hrow).elim⟩
      exact ⟨hnil, fun rows hrows => (List.not_mem_nil hrows).elim, .nil⟩
    · exact fun hs hok hserve => hs.serve hok hserve
  have hchained := horder.committed.1
  rw [List.append_nil] at hchained
  exact hchained.verified

end Runs

namespace Sample

/-- Two transactions in turn; the second one rolls back, and its number is lost. -/
def inTurn : List (Unit × AuditCall ℕ ℕ ℕ) :=
  [((), .begin), ((), .begin), ((), .insert 0 (entry "a" "b")), ((), .insert 0 (entry "c" "d")), ((), .commit 0),
    ((), .insert 0 (entry "e" "f")), ((), .rollback 0), ((), .begin), ((), .insert 0 (entry "g" "h")), ((), .commit 0)]

theorem no_false_alarm_inTurn :
    ∃ s, (auditing casts escape).Reach alone () s ∧ s.auditLogs.map (·.sequenceNumber) = [1, 2, 4] ∧
    (verifyAuditChain casts escape 0 none s.auditLogs).ok = true := by
  have hreach := TransitionSystem.Reach.replay (.init rfl) (evaluated
    (o := (auditing casts escape).replay alone () ⟨0, [], []⟩ inTurn))
  exact ⟨_, hreach, by decide +kernel, no_false_alarm hreach⟩

/-- Both transactions insert before either is committed. -/
def overlapping : List (Unit × AuditCall ℕ ℕ ℕ) :=
  [((), .begin), ((), .begin), ((), .insert 0 (entry "a" "b")), ((), .insert 1 (entry "c" "d")), ((), .commit 0),
    ((), .commit 0)]

/-- Two rows are linked to no row before them; the alarm is false. -/
theorem false_alarm : ∃ s, (auditing casts escape).Reach TransitionSystem.Unrestricted () s ∧
    verifyAuditChain casts escape 0 none s.auditLogs =
      ⟨false, 2, some 2, "previous_hash does not match the preceding row (a row was altered or removed)"⟩ := by
  have hreach := TransitionSystem.Reach.replay (.init rfl) (evaluated
    (o := (auditing casts escape).replay TransitionSystem.Unrestricted () ⟨0, [], []⟩ overlapping))
  exact ⟨_, hreach, by decide +kernel⟩

end Sample

end ArenaX.Audit
