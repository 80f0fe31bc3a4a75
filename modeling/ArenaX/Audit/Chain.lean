/-
The audit log's hash chain: the trigger that links each new row to the one before it, and the function that verifies the
chain. A table that has been built by inserts, one after another, is verified. Tampering is noticed exactly when a row
that is left has another text to be hashed, or a row is gone from between two that are left. Another content has another
text where actions and resource types do not contain the separator. The function accepts any hash as that of the row
before the first one, so rows may be missing at the beginning.
-/
import ArenaX.Lib.Delimited

namespace ArenaX.Audit

open Text

/-- How the database prints values of the types it hashes. A JSON value may contain the separator inside of a string,
and can still be told from what follows. -/
structure Casts (U J T : Type) where
  uuid : U → Text
  jsonb : J → Text
  timestamptz : T → Text
  uuid_delimited : Delimited '|' uuid
  uuid_visible : Visible '|' uuid
  jsonb_delimited : Delimited '|' jsonb
  jsonb_visible : Visible '|' jsonb
  timestamptz_injective : Function.Injective timestamptz

/-- The columns of a row that are hashed along with its number and the hash before. -/
structure AuditEntry (U J T : Type) where
  userId : Option U
  action : Text
  resourceType : Text
  resourceId : Option U
  oldValues : Option J
  newValues : Option J
  createdAt : T
deriving DecidableEq

structure AuditLog (U J T : Type) where
  sequenceNumber : ℕ
  entry : AuditEntry U J T
  previousHash : Option Text
  entryHash : Option Text
deriving DecidableEq

structure ChainStatus where
  ok : Bool
  checkedRows : ℕ
  firstBadSequence : Option ℕ
  reason : String
deriving DecidableEq

section Chain

variable {U J T : Type} (casts : Casts U J T) (digest : Text → Text)

/-- The text that is hashed. -/
def hashedText (previousHash : Option Text) (n : ℕ) (entry : AuditEntry U J T) : Text :=
  coalesce id previousHash ++ '|' :: (digits n ++ '|' :: (coalesce casts.uuid entry.userId ++ '|' ::
    (entry.action ++ '|' :: (entry.resourceType ++ '|' :: (coalesce casts.uuid entry.resourceId ++ '|' ::
      (coalesce casts.jsonb entry.oldValues ++ '|' ::
        (coalesce casts.jsonb entry.newValues ++ '|' :: casts.timestamptz entry.createdAt)))))))

/-- The hash that belongs to a row's content. -/
def AuditLog.expectedHash (row : AuditLog U J T) : Text :=
  digest (hashedText casts row.previousHash row.sequenceNumber row.entry)

/-- `audit_logs_build_hash_chain`: a new row, linked to the one before it among the rows that the statement sees. -/
def buildHashChain (rows : List (AuditLog U J T)) (n : ℕ) (entry : AuditEntry U J T) : AuditLog U J T :=
  let prevHash := (List.argmax AuditLog.sequenceNumber (rows.filter (·.sequenceNumber < n))).bind (·.entryHash)
  let previousHash := prevHash.getD "genesis".toList
  ⟨n, entry, some previousHash, some (digest (hashedText casts (some previousHash) n entry))⟩

/-- The loop of `verify_audit_chain`. -/
def verifyRows (runningPrev : Option Text) (n : ℕ) : List (AuditLog U J T) → ChainStatus
  | [] => ⟨true, n, none, "chain intact"⟩
  | row :: rows =>
    if runningPrev ≠ none ∧ row.previousHash ≠ runningPrev then
      ⟨false, n + 1, some row.sequenceNumber,
        "previous_hash does not match the preceding row (a row was altered or removed)"⟩
    else if row.entryHash ≠ some (row.expectedHash casts digest) then
      ⟨false, n + 1, some row.sequenceNumber, "entry_hash does not match the row content (this row was altered)"⟩
    else verifyRows row.entryHash (n + 1) rows

def verifyAuditChain (fromSequence : ℕ) (toSequence : Option ℕ) (rows : List (AuditLog U J T)) : ChainStatus :=
  verifyRows casts digest none 0 ((rows.filter fun row => fromSequence ≤ row.sequenceNumber ∧
    ∀ n ∈ toSequence, row.sequenceNumber ≤ n).insertionSort fun row row' => row.sequenceNumber ≤ row'.sequenceNumber)

/-- The tables that inserts build, one after another; numbers grow and may have gaps. -/
inductive Built : List (AuditLog U J T) → Prop where
  | empty : Built []
  | insert {rows n entry} : Built rows → (∀ row ∈ rows, row.sequenceNumber < n) →
    Built (rows ++ [buildHashChain casts digest rows n entry])

end Chain

/-! ## What the verification accepts -/

section Verify

variable {U J T : Type} {casts : Casts U J T} {digest : Text → Text} {rows : List (AuditLog U J T)}
  {row : AuditLog U J T}

/-- A row names the hash of the row before it. -/
def Links (row row' : AuditLog U J T) : Prop := row'.previousHash = row.entryHash

variable (casts digest) in
/-- A row's hash is that of its content. -/
def Sealed (row : AuditLog U J T) : Prop := row.entryHash = some (row.expectedHash casts digest)

theorem verifyRows_ok {row : AuditLog U J T} : ∀ {rows : List (AuditLog U J T)} {n : ℕ}, Sealed casts digest row →
    ((verifyRows casts digest row.entryHash n rows).ok = true ↔
      (row :: rows).IsChain Links ∧ ∀ row ∈ rows, Sealed casts digest row)
  | [], n, _ => by simp [verifyRows]
  | row' :: rows, n, hsealed => by
    have hsome : row.entryHash ≠ none := by
      rw [hsealed]
      exact Option.some_ne_none _
    rw [verifyRows, List.isChain_cons_cons, List.forall_mem_cons]
    by_cases hlink : row'.previousHash = row.entryHash
    · rw [if_neg fun h => h.2 hlink]
      by_cases hsealed' : row'.entryHash = some (row'.expectedHash casts digest)
      · rw [if_neg fun h => h hsealed', verifyRows_ok hsealed']
        exact ⟨fun h => ⟨⟨hlink, h.1⟩, hsealed', h.2⟩, fun h => ⟨h.1.2, h.2.2⟩⟩
      · rw [if_pos hsealed']
        exact ⟨fun h => (nomatch h), fun h => absurd h.2.1 hsealed'⟩
    · rw [if_pos ⟨hsome, hlink⟩]
      exact ⟨fun h => (nomatch h), fun h => absurd h.1.1 hlink⟩

/-- The rows pass when each is linked to the one before it and carries the hash of its content. -/
theorem verifyRows_none_ok : (verifyRows casts digest none 0 rows).ok = true ↔
    rows.IsChain Links ∧ ∀ row ∈ rows, Sealed casts digest row := by
  cases rows with
  | nil => simp [verifyRows]
  | cons row rows =>
    rw [verifyRows, if_neg fun h => h.1 rfl, List.forall_mem_cons]
    by_cases hsealed : row.entryHash = some (row.expectedHash casts digest)
    · rw [if_neg fun h => h hsealed, verifyRows_ok hsealed]
      exact ⟨fun h => ⟨h.1, hsealed, h.2⟩, fun h => ⟨h.1, h.2.2⟩⟩
    · rw [if_pos hsealed]
      exact ⟨fun h => (nomatch h), fun h => absurd h.2.1 hsealed⟩

/-- Numbers grow from row to row. -/
abbrev Sorted (rows : List (AuditLog U J T)) : Prop :=
  rows.Pairwise fun row row' => row.sequenceNumber < row'.sequenceNumber

theorem verifyAuditChain_sorted (h : Sorted rows) :
    verifyAuditChain casts digest 0 none rows = verifyRows casts digest none 0 rows := by
  have hall : (rows.filter fun row => 0 ≤ row.sequenceNumber ∧ ∀ n ∈ (none : Option ℕ), row.sequenceNumber ≤ n) =
    rows := by
    simp
  rw [verifyAuditChain, hall, List.Pairwise.insertionSort_eq (h.imp fun hlt => le_of_lt hlt)]

end Verify

/-! ## Tables that inserts build -/

section Tables

variable {U J T : Type} {casts : Casts U J T} {digest : Text → Text} {rows : List (AuditLog U J T)} {n : ℕ}
  {entry : AuditEntry U J T}

variable (casts digest) in
/-- A chain without a break. -/
structure Chained (rows : List (AuditLog U J T)) : Prop where
  sorted : Sorted rows
  linked : rows.IsChain Links
  sealed : ∀ row ∈ rows, Sealed casts digest row

/-- The row with the largest number is the last one. -/
theorem argmax_sorted (h : Sorted rows) : List.argmax AuditLog.sequenceNumber rows = rows.getLast? := by
  induction rows using List.reverseRecOn with
  | nil => rfl
  | append_singleton rows row ih =>
    obtain ⟨hrows, -, hlt⟩ := List.pairwise_append.1 h
    rw [List.argmax_concat, ih hrows, List.getLast?_concat]
    cases hlast : rows.getLast? with
    | none => rfl
    | some last =>
      have hmem := List.mem_of_getLast? hlast
      exact if_pos (hlt last hmem row (List.mem_singleton.2 rfl))

theorem previousHash_buildHashChain (h : Sorted rows) (hn : ∀ row ∈ rows, row.sequenceNumber < n) :
    (buildHashChain casts digest rows n entry).previousHash =
      some ((rows.getLast?.bind (·.entryHash)).getD "genesis".toList) := by
  have hall : rows.filter (·.sequenceNumber < n) = rows := List.filter_eq_self.2 fun row hrow => by
    simpa using hn row hrow
  rw [buildHashChain, hall, argmax_sorted h]

/-- An insert into a chain makes it longer. -/
theorem Chained.insert (h : Chained casts digest rows) (hn : ∀ row ∈ rows, row.sequenceNumber < n) :
    Chained casts digest (rows ++ [buildHashChain casts digest rows n entry]) := by
  refine ⟨List.pairwise_append.2 ⟨h.sorted, List.pairwise_singleton _ _, fun row hrow row' hrow' => ?_⟩,
    List.isChain_append.2 ⟨h.linked, List.isChain_singleton _, fun last hlast row' hrow' => ?_⟩, fun row hrow => ?_⟩
  · rw [List.mem_singleton.1 hrow']
    exact hn row hrow
  · cases Option.mem_some_iff.1 hrow'
    have hmem := List.mem_of_getLast? hlast
    rw [Links, previousHash_buildHashChain h.sorted hn, Option.mem_def.1 hlast, Option.bind_some, h.sealed last hmem,
      Option.getD_some]
  · rcases List.mem_append.1 hrow with hrow | hrow
    · exact h.sealed row hrow
    · cases List.mem_singleton.1 hrow
      rfl

theorem Built.chained (h : Built casts digest rows) : Chained casts digest rows := by
  induction h with
  | empty => exact ⟨.nil, .nil, fun row hrow => (List.not_mem_nil hrow).elim⟩
  | insert _ hn ih => exact ih.insert hn

/-- A chain without a break is verified. -/
theorem Chained.verified (h : Chained casts digest rows) : (verifyAuditChain casts digest 0 none rows).ok = true := by
  rw [verifyAuditChain_sorted h.sorted]
  exact verifyRows_none_ok.2 ⟨h.linked, h.sealed⟩

end Tables

/-! ## Tampering -/

section Tampering

variable {U J T : Type} {casts : Casts U J T} {digest : Text → Text} {rows : List (AuditLog U J T)}
  {edit : AuditLog U J T → Option (AuditEntry U J T)}

/-- Rows are removed, or get another content; numbers and hashes stay. -/
def tamper (edit : AuditLog U J T → Option (AuditEntry U J T)) (rows : List (AuditLog U J T)) : List (AuditLog U J T) :=
  rows.filterMap fun row => (edit row).map fun entry => { row with entry }

/-- The free texts do not contain the separator. -/
def AuditEntry.Plain (entry : AuditEntry U J T) : Prop := '|' ∉ entry.action ∧ '|' ∉ entry.resourceType
deriving Decidable

/-- The hashed text determines the content of a row whose number and previous hash are known. -/
theorem entry_of_hashedText {previousHash : Option Text} {n : ℕ} {entry entry' : AuditEntry U J T}
    (hplain : entry.Plain) (hplain' : entry'.Plain)
    (h : hashedText casts previousHash n entry =
      hashedText casts previousHash n entry') : entry = entry' := by
  have huuid := casts.uuid_delimited.coalesce casts.uuid_visible
  have hjson := casts.jsonb_delimited.coalesce casts.jsonb_visible
  have h := (List.cons.inj (List.append_cancel_left h)).2
  have h := (List.cons.inj (List.append_cancel_left h)).2
  obtain ⟨huser, h⟩ := huuid h
  obtain ⟨haction, h⟩ := append_sep_inj hplain.1 hplain'.1 h
  obtain ⟨htype, h⟩ := append_sep_inj hplain.2 hplain'.2 h
  obtain ⟨hresource, h⟩ := huuid h
  obtain ⟨hold, h⟩ := hjson h
  obtain ⟨hnew, h⟩ := hjson h
  have hcreated := casts.timestamptz_injective h
  cases entry
  simp_all

/-- Hashes come from the digest, which prints no separator. -/
theorem Built.previousHash (h : Built casts digest rows) (hdigest : ∀ text, '|' ∉ digest text) :
    ∀ row ∈ rows, ∃ hash, row.previousHash = some hash ∧ '|' ∉ hash := by
  induction h with
  | empty => exact fun row hrow => (List.not_mem_nil hrow).elim
  | @insert rows' n entry hbuilt hn ih =>
    intro row hrow
    rcases List.mem_append.1 hrow with hrow | hrow
    · exact ih row hrow
    · cases List.mem_singleton.1 hrow
      refine ⟨_, previousHash_buildHashChain hbuilt.chained.sorted hn, ?_⟩
      cases hlast : rows'.getLast? with
      | none => exact show '|' ∉ "genesis".toList by decide
      | some last =>
        rw [Option.bind_some, hbuilt.chained.sealed last (List.mem_of_getLast? hlast)]
        exact hdigest _

/-- Rows with different numbers have different hashes. -/
theorem Built.hash_ne (h : Built casts digest rows) (hinj : Function.Injective digest)
    (hdigest : ∀ text, '|' ∉ digest text) {row row' : AuditLog U J T} (hrow : row ∈ rows) (hrow' : row' ∈ rows)
    (hlt : row.sequenceNumber < row'.sequenceNumber) :
    row.entryHash ≠ row'.entryHash := by
  intro heq
  rw [h.chained.sealed row hrow, h.chained.sealed row' hrow'] at heq
  obtain ⟨hash, hhash, hplain⟩ := h.previousHash hdigest row hrow
  obtain ⟨hash', hhash', hplain'⟩ := h.previousHash hdigest row' hrow'
  have htext := hinj (Option.some.inj heq)
  rw [hhash, hhash'] at htext
  obtain ⟨-, htext⟩ := append_sep_inj (a := coalesce id (some hash)) (b := coalesce id (some hash'))
    hplain hplain' htext
  obtain ⟨hnumber, -⟩ := (delimited_digits rfl : Delimited '|' digits) htext
  exact absurd hnumber hlt.ne

/-- In a chain every row but the first one is linked to another one. -/
theorem exists_links {first : AuditLog U J T} : ∀ {rows : List (AuditLog U J T)}, (first :: rows).IsChain Links →
    ∀ row ∈ rows, ∃ before ∈ first :: rows, Links before row
  | [], _, row, hrow => (List.not_mem_nil hrow).elim
  | second :: rows, h, row, hrow => by
    obtain ⟨hlinks, h⟩ := List.isChain_cons_cons.1 h
    rcases List.mem_cons.1 hrow with rfl | hrow
    · exact ⟨first, List.mem_cons_self, hlinks⟩
    · obtain ⟨_, hbefore, hlinks⟩ := exists_links h row hrow
      exact ⟨_, List.mem_cons_of_mem _ hbefore, hlinks⟩

theorem mem_tamper {row : AuditLog U J T} : row ∈ tamper edit rows ↔ ∃ row₀ ∈ rows, ∃ entry, edit row₀ = some entry ∧
    { row₀ with entry } = row := by
  unfold tamper
  simp only [List.mem_filterMap, Option.map_eq_some_iff]

theorem sorted_tamper (h : Sorted rows) : Sorted (tamper edit rows) := by
  refine h.filterMap _ fun row row' hlt new hnew new' hnew' => ?_
  obtain ⟨entry, -, rfl⟩ := Option.map_eq_some_iff.1 hnew
  obtain ⟨entry', -, rfl⟩ := Option.map_eq_some_iff.1 hnew'
  exact hlt

/-- A row is gone from between two that are left. -/
def CutOut (edit : AuditLog U J T → Option (AuditEntry U J T)) (rows : List (AuditLog U J T)) : Prop :=
  ∃ before after gone, rows = before ++ gone :: after ∧ edit gone = none ∧ (∃ row ∈ before, edit row ≠ none) ∧
    ∃ row ∈ after, edit row ≠ none

theorem tamper_ne_nil {row : AuditLog U J T} (hrow : row ∈ rows) (h : edit row ≠ none) : tamper edit rows ≠ [] := by
  obtain ⟨_, hentry⟩ := Option.ne_none_iff_exists'.1 h
  exact List.ne_nil_of_mem (mem_tamper.2 ⟨row, hrow, _, hentry, rfl⟩)

/-- Where a row is gone, the next one that is left names a hash that the one before it does not have. -/
theorem not_linked_of_cutOut (h : Built casts digest rows) (hinj : Function.Injective digest)
    (hdigest : ∀ text, '|' ∉ digest text) (hcut : CutOut edit rows) : ¬ (tamper edit rows).IsChain Links := by
  obtain ⟨before, after, gone, rfl, hgone, ⟨a, ha, hakept⟩, b, hb, hbkept⟩ := hcut
  intro hchain
  have htamper : tamper edit (before ++ gone :: after) = tamper edit before ++ tamper edit after := by
    simp [tamper, hgone]
  rw [htamper] at hchain
  obtain ⟨-, -, hjoint⟩ := List.isChain_append.1 hchain
  -- the two rows that have become neighbours
  obtain ⟨x, hx⟩ := Option.ne_none_iff_exists'.1 (mt List.getLast?_eq_none_iff.1 (tamper_ne_nil ha hakept))
  obtain ⟨y, hy⟩ := Option.ne_none_iff_exists'.1 (mt List.head?_eq_none_iff.1 (tamper_ne_nil hb hbkept))
  have hlinks : Links x y := hjoint x hx y hy
  obtain ⟨x₀, hx₀, entry, -, rfl⟩ := mem_tamper.1 (List.mem_of_getLast? hx)
  obtain ⟨y₀, hy₀, entry', -, rfl⟩ := mem_tamper.1 (List.mem_of_head? hy)
  -- in the table it was, the second one is linked to a row after the first one
  obtain ⟨-, hlinked, -⟩ := List.isChain_append.1 h.chained.linked
  obtain ⟨z, hz, hzlinks⟩ := exists_links hlinked y₀ hy₀
  obtain ⟨-, -, hlt⟩ := List.pairwise_append.1 h.chained.sorted
  refine h.hash_ne hinj hdigest (List.mem_append_left _ hx₀) (List.mem_append_right _ hz) (hlt x₀ hx₀ z hz) ?_
  exact hlinks.symm.trans hzlinks

theorem CutOut.cons (row : AuditLog U J T) (h : CutOut edit rows) : CutOut edit (row :: rows) := by
  obtain ⟨before, after, gone, rfl, hgone, ⟨kept, hkept, hedit⟩, hafter⟩ := h
  exact ⟨row :: before, after, gone, rfl, hgone, ⟨kept, List.mem_cons_of_mem _ hkept, hedit⟩, hafter⟩

/-- Rows that are gone from the ends only leave a chain. -/
theorem isChain_tamper (h : rows.IsChain Links) (hcut : ¬ CutOut edit rows) : (tamper edit rows).IsChain Links := by
  induction rows with
  | nil => exact .nil
  | cons row rows ih =>
    have ih := ih h.tail fun hrest => hcut (hrest.cons row)
    cases hrow : edit row with
    | none => rwa [tamper, List.filterMap_cons_none (by rw [hrow]; rfl)]
    | some entry =>
      rw [tamper, List.filterMap_cons_some (by rw [hrow]; rfl)]
      cases rows with
      | nil => exact List.isChain_singleton _
      | cons second rest =>
        cases hsecond : edit second with
        | none =>
          -- whatever follows a row that is gone is gone as well
          have hnil : tamper edit (second :: rest) = [] := by
            by_contra hne
            obtain ⟨_, hmem⟩ := List.exists_mem_of_ne_nil _ hne
            obtain ⟨kept, hkept, entry', hedit, -⟩ := mem_tamper.1 hmem
            rcases List.mem_cons.1 hkept with rfl | hkept
            · cases hsecond.symm.trans hedit
            · exact hcut ⟨[row], rest, second, rfl, hsecond, ⟨row, List.mem_singleton_self _, by simp [hrow]⟩, kept,
                hkept, by simp [hedit]⟩
          rw [show List.filterMap _ _ = _ from hnil]
          exact List.isChain_singleton _
        | some entry' =>
          rw [tamper, List.filterMap_cons_some (by rw [hsecond]; rfl)] at ih
          rw [List.filterMap_cons_some (by rw [hsecond]; rfl)]
          exact List.isChain_cons_cons.2 ⟨(List.isChain_cons_cons.1 h).1, ih⟩

variable (casts) in
/-- A row that is left has got another text. -/
def Retold (edit : AuditLog U J T → Option (AuditEntry U J T)) (rows : List (AuditLog U J T)) : Prop :=
  ∃ row ∈ rows, ∃ entry, edit row = some entry ∧
    hashedText casts row.previousHash row.sequenceNumber entry ≠
      hashedText casts row.previousHash row.sequenceNumber row.entry

/-- Tampering is noticed exactly when a row that is left has another text, or a row is gone from between two that are
left. A content that is changed has another text, as long as the separator is in its free texts neither before nor
after. -/
theorem tampering_detected (hbuilt : Built casts digest rows) (hinj : Function.Injective digest)
    (hdigest : ∀ text, '|' ∉ digest text) :
    ((verifyAuditChain casts digest 0 none (tamper edit rows)).ok = false ↔ Retold casts edit rows ∨ CutOut edit rows) ∧
    ((∃ row ∈ rows, ∃ entry, edit row = some entry ∧ entry ≠ row.entry ∧ row.entry.Plain ∧ entry.Plain) →
      Retold casts edit rows) := by
  rw [verifyAuditChain_sorted (sorted_tamper hbuilt.chained.sorted), ← Bool.not_eq_true, verifyRows_none_ok]
  refine ⟨⟨fun hbad => ?_, ?_⟩, ?_⟩
  · by_contra hsame
    obtain ⟨hretold, hcut⟩ := not_or.1 hsame
    refine hbad ⟨isChain_tamper hbuilt.chained.linked hcut, fun row hrow => ?_⟩
    obtain ⟨row₀, hrow₀, entry, hentry, rfl⟩ := mem_tamper.1 hrow
    have htext : hashedText casts row₀.previousHash row₀.sequenceNumber entry = _ :=
      not_not.1 fun hne => hretold ⟨row₀, hrow₀, entry, hentry, hne⟩
    exact (hbuilt.chained.sealed row₀ hrow₀).trans (congrArg (some <| digest ·) htext.symm)
  · rintro (⟨row, hrow, entry, hentry, hne⟩ | hcut) ⟨hlinked, hsealed⟩
    · have hnew := hsealed _ (mem_tamper.2 ⟨row, hrow, entry, hentry, rfl⟩)
      exact hne (hinj (Option.some.inj (hnew.symm.trans (hbuilt.chained.sealed row hrow))))
    · exact not_linked_of_cutOut hbuilt hinj hdigest hcut hlinked
  · rintro ⟨row, hrow, entry, hentry, hne, hplain, hplain'⟩
    exact ⟨row, hrow, entry, hentry, fun htext => hne (entry_of_hashedText hplain' hplain htext)⟩

end Tampering

namespace Sample

/-- Ids, values and instants are numbers. -/
def casts : Casts ℕ ℕ ℕ where
  uuid := digits
  jsonb := digits
  timestamptz := digits
  uuid_delimited := delimited_digits rfl
  uuid_visible := visible_digits rfl
  jsonb_delimited := delimited_digits rfl
  jsonb_visible := visible_digits rfl
  timestamptz_injective := digits_injective

/-- A character that can be told from the next one, without the separator. -/
def escaped (c : Char) : Text := if c = '|' then ['~', 'p'] else if c = '~' then ['~', 't'] else [c]

/-- A digest that is injective and does not print the separator. -/
def escape (text : Text) : Text := text.flatMap escaped

theorem notMem_escape (text : Text) : '|' ∉ escape text := by
  intro h
  obtain ⟨c, -, hc⟩ := List.mem_flatMap.1 h
  unfold escaped at hc
  split_ifs at hc with hbar htilde
  · simp at hc
  · simp at hc
  · exact hbar (List.mem_singleton.1 hc).symm

theorem escaped_append_inj {c d : Char} {rest rest' : Text} (h : escaped c ++ rest = escaped d ++ rest') :
    c = d ∧ rest = rest' := by
  unfold escaped at h
  split_ifs at h with hc htc hd htd <;> grind

theorem escaped_ne_nil (c : Char) : escaped c ≠ [] := by
  unfold escaped
  split_ifs <;> simp

theorem escape_injective : Function.Injective escape := by
  intro a
  induction a with
  | nil =>
    intro b h
    cases b with
    | nil => rfl
    | cons d b => exact absurd (List.append_eq_nil_iff.1 h.symm).1 (escaped_ne_nil d)
  | cons c a ih =>
    intro b h
    cases b with
    | nil => exact absurd (List.append_eq_nil_iff.1 h).1 (escaped_ne_nil c)
    | cons d b =>
      obtain ⟨rfl, hrest⟩ := escaped_append_inj h
      rw [ih hrest]

def entry (action resourceType : String) : AuditEntry ℕ ℕ ℕ :=
  ⟨some 1, action.toList, resourceType.toList, none, none, some 5, 7⟩

/-- Three inserts; the number 2 has been lost with a transaction. -/
def table (first : AuditEntry ℕ ℕ ℕ) : List (AuditLog ℕ ℕ ℕ) :=
  let row₁ := buildHashChain casts escape [] 1 first
  let row₃ := buildHashChain casts escape [row₁] 3 (entry "login" "user")
  [row₁, row₃, buildHashChain casts escape [row₁, row₃] 4 (entry "pay" "wallet")]

theorem built (first : AuditEntry ℕ ℕ ℕ) : Built casts escape (table first) := by
  have h₁ : Built casts escape [buildHashChain casts escape [] 1 first] := .insert .empty fun row hrow =>
    (List.not_mem_nil hrow).elim
  have h₃ : Built casts escape ([buildHashChain casts escape [] 1 first] ++
      [buildHashChain casts escape [buildHashChain casts escape [] 1 first] 3 (entry "login" "user")]) :=
    .insert h₁ (by simp [buildHashChain])
  exact Built.insert h₃ (by simp [buildHashChain])

/-- The payment is made to look like another action. -/
def redirect (row : AuditLog ℕ ℕ ℕ) : Option (AuditEntry ℕ ℕ ℕ) :=
  if row.sequenceNumber = 4 then some (entry "view" "wallet") else some row.entry

theorem tampering_detected_redirect :
    (verifyAuditChain casts escape 0 none (tamper redirect (table (entry "join" "game")))).ok = false := by
  obtain ⟨hdetected, hretold⟩ : (_ ↔ _ ∨ _) ∧ (_ → Retold casts redirect _) :=
    tampering_detected (built (entry "join" "game")) escape_injective notMem_escape
  refine hdetected.2 (.inl (hretold ⟨_, List.mem_cons_of_mem _ (List.mem_cons_of_mem _ List.mem_cons_self),
    entry "view" "wallet", rfl, by decide, by decide, by decide⟩))

/-- The separator moves from one text to the next. -/
def shift (row : AuditLog ℕ ℕ ℕ) : Option (AuditEntry ℕ ℕ ℕ) :=
  if row.sequenceNumber = 1 then some (entry "a" "b|c") else some row.entry

/-- The first row is removed. -/
def behead (row : AuditLog ℕ ℕ ℕ) : Option (AuditEntry ℕ ℕ ℕ) := if row.sequenceNumber = 1 then none else some row.entry

/-- A content that is changed along a separator, and a first row that is gone, are not noticed. -/
theorem tampering_missed : Built casts escape (table (entry "a|b" "c")) ∧
    (∃ row ∈ table (entry "a|b" "c"), ∃ changed, shift row = some changed ∧ changed ≠ row.entry) ∧
    (verifyAuditChain casts escape 0 none (tamper shift (table (entry "a|b" "c")))).ok = true ∧
    (tamper behead (table (entry "a|b" "c"))).length + 1 = (table (entry "a|b" "c")).length ∧
    (verifyAuditChain casts escape 0 none (tamper behead (table (entry "a|b" "c")))).ok = true := by
  refine ⟨built _, ⟨_, List.mem_cons_self, entry "a" "b|c", rfl, by decide⟩, ?_, ?_, ?_⟩
  · decide +kernel
  · decide +kernel
  · decide +kernel

end Sample

end ArenaX.Audit
