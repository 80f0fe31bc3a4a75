/-
Prizes. `finalize_tournament` ranks the participants of a completed tournament and pays the first of them their shares
of the prize pool, in one transaction. A share is computed as a decimal, printed and read back as an integer. Decimals
are taken as exact; how the library prints them is a parameter. The integer parser rejects a decimal point, which a
decimal that is no integer is printed with, and an integer as well when its scale is not zero: the prize is then zero,
not the share without its fraction.
-/
import ArenaX.Lib.Sessions
import ArenaX.Orchestrator.Rankings

namespace ArenaX.Orchestrator

open Machine

/-! ## Amounts -/

def share (totalAmount : I64) (percentage : ℚ) : ℚ := (totalAmount : ℤ) * percentage / 100

/-- How shares are printed. The library keeps as many digits after the point as the scale has, so that an integer may
have some; what is printed without a point is the digits of an integer. -/
class Decimals where
  print : I64 → ℚ → List Char
  plain : ∀ {totalAmount percentage}, 0 ≤ share totalAmount percentage → '.' ∉ print totalAmount percentage →
    ∃ n : ℕ, share totalAmount percentage = n ∧ print totalAmount percentage = Nat.toDigits 10 n

def parseDigits (sign : ℤ) (digits : List Char) : Option ℤ :=
  if digits ≠ [] ∧ digits.all Char.isDigit = true ∧ i64.Fits (sign * Nat.ofDigitChars 10 digits 0) then
    some (sign * Nat.ofDigitChars 10 digits 0) else none

/-- `parse::<i64>()`: digits after an optional sign. -/
def parseI64 : List Char → Option ℤ
  | '-' :: digits => parseDigits (-1) digits
  | '+' :: digits => parseDigits 1 digits
  | digits => parseDigits 1 digits

def prizeAmount [Decimals] (totalAmount : I64) (percentage : ℚ) : ℤ :=
  (parseI64 (Decimals.print totalAmount percentage)).getD 0

structure Prize where
  userId : Uuid
  rank : ℕ
  amount : ℤ
deriving DecidableEq

/-- There are as many prizes as there are percentages and ranked participants for them. -/
def prizesFor [Decimals] (pool : PrizePool) (percentages : List ℚ) (participants : List (Uuid × ℕ)) : List Prize :=
  (participants.zip percentages).map fun entry => ⟨entry.1.1, entry.1.2, prizeAmount pool.totalAmount entry.2⟩

/-! ## The program -/

def Prize.transaction (t : Uuid) (currency : String) (p : Prize) : Transaction :=
  ⟨p.userId, .prize, p.amount, currency, .prize t p.userId, .prize t p.rank⟩

open Dialog in
def payPrizes (t : Uuid) (currency : String) : List Prize → Dialog ApiError Books Row Unit
  | [] => pure ()
  | p :: rest => do
    write (Books.setPrize t p.userId p.amount currency)
    write (Books.creditNgn p.userId p.amount)
    insert (.reference (.prize t p.userId)) (Books.HasReference (.prize t p.userId)) .databaseError
      (Books.addTransaction (p.transaction t currency))
    payPrizes t currency rest

open Dialog in
/-- From the row lock on. -/
def settlePrizes [Decimals] (t : Uuid) : Dialog ApiError Books Row Unit := do
  forUpdate (.tournament t)
  let existingCount ← select fun b => (b.prizes t).length
  if 0 < existingCount then rollback else do
    script (computeRankings t)
    let row ← select (·.findPrizePool t)
    let pool ← okOr row .notFound
    match pool.distributionPercentages with
    | .error e => throw (.badRequest ("Invalid distribution_percentages JSON: " ++ e))
    | .ok percentages => do
      reject (percentages = []) (.badRequest "distribution_percentages must not be empty")
      let participants ← select (·.ranked t)
      payPrizes t pool.currency (prizesFor pool percentages participants)
      commit

open Dialog in
def finalizeTournament [Decimals] (t : Uuid) : Dialog ApiError Books Row Unit := do
  let row ← query (·.findTournament t)
  let tournament ← okOr row .notFound
  reject (tournament.status ≠ .completed) (.badRequest "Tournament must be in completed status to finalize payouts")
  transaction (settlePrizes t)

/-! ## What it does alone -/

namespace Books

variable {b : Books} {t user : Uuid} {currency : String} {p : Prize} {ps : List Prize}

def pay (t : Uuid) (currency : String) (b : Books) (p : Prize) : Books :=
  ((b.setPrize t p.userId p.amount currency).creditNgn p.userId p.amount).addTransaction (p.transaction t currency)

/-- What the three statements for a prize write. -/
def tryPay (t : Uuid) (currency : String) (p : Prize) (b : Books) : Books :=
  let credited := (b.setPrize t p.userId p.amount currency).creditNgn p.userId p.amount
  if credited.HasReference (.prize t p.userId) then credited else credited.addTransaction (p.transaction t currency)

theorem tryPay_of_free (h : ¬ b.HasReference (.prize t p.userId)) :
    b.tryPay t currency p = b.pay t currency p := if_neg h

/-- Prizes paid one after another. -/
def payAll (t : Uuid) (currency : String) (ps : List Prize) (b : Books) : Books := ps.foldl (pay t currency) b

@[simp] theorem transactions_payAll :
    (b.payAll t currency ps).transactions = b.transactions ++ ps.map (·.transaction t currency) := by
  induction ps generalizing b with
  | nil => simp [payAll]
  | cons p ps ih =>
    refine (ih (b := b.pay t currency p)).trans ?_
    simp [pay, addTransaction, creditNgn, setPrize]

/-- What a user's wallet holds in naira. -/
def ngnOf (b : Books) (user : Uuid) : ℤ := ((b.wallets.find? (·.userId = user)).bind (·.balanceNgn)).getD 0

def HasWallet (b : Books) (user : Uuid) : Prop := ∃ w ∈ b.wallets, w.userId = user
deriving Decidable

theorem find?_creditNgn (user' : Uuid) (amount : ℤ) : (b.creditNgn user' amount).wallets.find? (·.userId = user) =
    (b.wallets.find? (·.userId = user)).map fun row =>
      if row.userId = user' then { row with balanceNgn := some (row.balanceNgn.getD 0 + amount) } else row := by
  rw [creditNgn, List.find?_map]
  refine congrArg (Option.map _) (congrArg (b.wallets.find? ·) (funext fun row => ?_))
  simp only [Function.comp]
  split <;> rfl

theorem ngnOf_creditNgn (h : b.HasWallet user) (amount : ℤ) :
    (b.creditNgn user amount).ngnOf user = b.ngnOf user + amount := by
  have hsome : (b.wallets.find? (·.userId = user)).isSome := by simpa [HasWallet] using h
  obtain ⟨row, hrow⟩ := Option.isSome_iff_exists.1 hsome
  have hid : row.userId = user := by simpa using List.find?_some hrow
  rw [ngnOf, find?_creditNgn, ngnOf, hrow, Option.map_some, if_pos hid]
  rfl

theorem ngnOf_creditNgn_of_ne {user' : Uuid} (h : user ≠ user') (amount : ℤ) :
    (b.creditNgn user' amount).ngnOf user = b.ngnOf user := by
  rw [ngnOf, find?_creditNgn, ngnOf]
  cases hrow : b.wallets.find? (·.userId = user) with
  | none => rfl
  | some row =>
    have hid : row.userId = user := by simpa using List.find?_some hrow
    rw [Option.map_some, if_neg fun heq => h (hid.symm.trans heq)]

theorem HasWallet.pay (h : b.HasWallet user) : (b.pay t currency p).HasWallet user := by
  obtain ⟨w, hw, huser⟩ := h
  refine ⟨_, List.mem_map_of_mem hw, ?_⟩
  split <;> exact huser

/-- Users who are not paid keep what they have. -/
theorem ngnOf_payAll_of_not_mem (h : user ∉ ps.map (·.userId)) :
    (b.payAll t currency ps).ngnOf user = b.ngnOf user := by
  induction ps generalizing b with
  | nil => rfl
  | cons p ps ih =>
    rw [List.map_cons, List.mem_cons, not_or] at h
    exact (ih h.2 (b := b.pay t currency p)).trans
      (ngnOf_creditNgn_of_ne (b := b.setPrize t p.userId p.amount currency) h.1 p.amount)

/-- Users who are paid once get their prize. -/
theorem ngnOf_payAll (hnodup : (ps.map (·.userId)).Nodup) (hp : p ∈ ps) (hwallet : b.HasWallet p.userId) :
    (b.payAll t currency ps).ngnOf p.userId = b.ngnOf p.userId + p.amount := by
  induction ps generalizing b with
  | nil => cases hp
  | cons q ps ih =>
    rw [List.map_cons, List.nodup_cons] at hnodup
    rcases List.mem_cons.1 hp with rfl | hp
    · exact (ngnOf_payAll_of_not_mem hnodup.1 (b := b.pay t currency p)).trans
        (ngnOf_creditNgn (b := b.setPrize t p.userId p.amount currency) hwallet p.amount)
    · have hne : p.userId ≠ q.userId := fun heq => hnodup.1 (heq ▸ List.mem_map_of_mem hp)
      refine (ih hnodup.2 hp hwallet.pay (b := b.pay t currency q)).trans (congrArg (· + p.amount) ?_)
      exact ngnOf_creditNgn_of_ne (b := b.setPrize t q.userId q.amount currency) hne q.amount

/-- The prizes that a tournament has been paid are those that were paid just now. -/
theorem prizes_payAll (h : b.prizes t = []) :
    (b.payAll t currency ps).prizes t = ps.map (·.transaction t currency) := by
  rw [prizes, transactions_payAll, List.filter_append, show b.transactions.filter (·.IsPrize t) = [] from h,
    List.nil_append]
  refine List.filter_eq_self.2 fun row hrow => ?_
  obtain ⟨p, -, rfl⟩ := List.mem_map.1 hrow
  exact decide_eq_true ⟨rfl, rfl⟩

theorem hasReference_addTransaction {row : Transaction} {reference : Reference} :
    (b.addTransaction row).HasReference reference ↔ b.HasReference reference ∨ row.reference = reference := by
  simp [HasReference, addTransaction]

theorem hasReference_payAll {reference : Reference} :
    (b.payAll t currency ps).HasReference reference ↔ b.HasReference reference ∨
    ∃ p ∈ ps, .prize t p.userId = reference := by
  simp only [HasReference, transactions_payAll, List.mem_append, List.mem_map]
  constructor
  · rintro ⟨row, hrow | ⟨p, hp, rfl⟩, hreference⟩
    · exact .inl ⟨row, hrow, hreference⟩
    · exact .inr ⟨p, hp, hreference⟩
  · rintro (⟨_, hrow, hreference⟩ | ⟨_, hp, hreference⟩)
    · exact ⟨_, .inl hrow, hreference⟩
    · exact ⟨_, .inr ⟨_, hp, rfl⟩, hreference⟩

end Books

section Run

variable {b ranked : Books} {t : Uuid} {currency : String} {pending : Books → Books}

/-- The prizes are paid when nobody is paid twice and their references are free. -/
theorem exec_payPrizes {ps : List Prize} (hnodup : (ps.map (·.userId)).Nodup)
    (hfree : ∀ p ∈ ps, ¬ (pending b).HasReference (.prize t p.userId)) :
    ∃ pending', (payPrizes t currency ps).exec pending b = (.ok (), pending', b) ∧
      pending' b = (pending b).payAll t currency ps := by
  induction ps generalizing pending with
  | nil => exact ⟨pending, rfl, rfl⟩
  | cons p ps ih =>
    rw [List.map_cons, List.nodup_cons] at hnodup
    have hp : ¬ (pending b).HasReference (.prize t p.userId) := hfree p (by simp)
    have hrest : ∀ q ∈ ps, ¬ ((pending b).pay t currency p).HasReference (.prize t q.userId) := by
      intro q hq hmem
      rcases Books.hasReference_addTransaction.1 hmem with hmem | heq
      · exact hfree q (by simp [hq]) hmem
      · have : p.userId = q.userId := by simpa [Prize.transaction] using heq
        exact hnodup.1 (this ▸ List.mem_map_of_mem hq)
    rw [← Books.tryPay_of_free hp] at hrest
    have hrest' : ∀ q ∈ ps, ¬ ((Books.tryPay t currency p ∘ pending) b).HasReference (.prize t q.userId) := hrest
    obtain ⟨_, hexec, hpending'⟩ := ih hnodup.2 hrest'
    refine ⟨_, ?_, hpending'.trans ?_⟩
    · have hp' : ¬ ((Books.creditNgn p.userId p.amount ∘ Books.setPrize t p.userId p.amount currency ∘ pending)
          b).HasReference (.prize t p.userId) := hp
      unfold payPrizes
      rw [Dialog.exec_bind_of_ok (Dialog.exec_write _), Dialog.exec_bind_of_ok (Dialog.exec_write _),
        Dialog.exec_bind_of_ok (Dialog.exec_insert_of_free hp')]
      exact hexec
    · rw [Function.comp, Books.tryPay_of_free hp]
      rfl

theorem nodup_prizesFor [Decimals] {pool : PrizePool} {percentages : List ℚ} {participants : List (Uuid × ℕ)}
    (h : (participants.map Prod.fst).Nodup) : ((prizesFor pool percentages participants).map (·.userId)).Nodup := by
  have hmap : (prizesFor pool percentages participants).map (·.userId) =
      ((participants.zip percentages).map Prod.fst).map Prod.fst := by
    simp [prizesFor, Function.comp_def]
  rw [hmap, List.zip_eq_zip_take_min, List.map_fst_zip (by simp)]
  exact h.sublist ((List.take_sublist _ _).map _)

/-- A call alone, for a tournament whose prizes have not been paid: the participants are ranked, then paid. -/
theorem run_finalizeTournament [Decimals] {pool : PrizePool} {percentages : List ℚ}
    (hstatus : b.statusOf t = some .completed) (hprizes : b.prizes t = [])
    (hranked : (computeRankings t).run b = (.ok (), ranked))
    (hpool : ranked.findPrizePool t = some pool) (hpercentages : pool.distributionPercentages = .ok percentages)
    (hne : percentages ≠ []) (hnodup : ((ranked.ranked t).map Prod.fst).Nodup)
    (hfree : ∀ user, ¬ ranked.HasReference (.prize t user)) : (finalizeTournament t).run b =
      (.ok (), ranked.payAll t pool.currency (prizesFor pool percentages (ranked.ranked t))) := by
  obtain ⟨row, hrow, hcompleted⟩ := Option.map_eq_some_iff.1 hstatus
  have husers : ((prizesFor pool percentages (ranked.ranked t)).map (·.userId)).Nodup := nodup_prizesFor hnodup
  obtain ⟨pending, hexec, hpending⟩ : ∃ pending,
    (payPrizes t pool.currency (prizesFor pool percentages (ranked.ranked t))).exec id ranked =
      (.ok (), pending, ranked) ∧ pending ranked =
        ranked.payAll t pool.currency (prizesFor pool percentages (ranked.ranked t)) :=
    exec_payPrizes husers fun p _ => hfree p.userId
  have hscript : (Dialog.script (computeRankings t) : Dialog ApiError Books Row Unit).exec id b =
    (.ok (), id, ranked) := by
    rw [Dialog.exec_script, hranked]
  have hsettle : (settlePrizes t).exec id b =
      (.ok (), id, ranked.payAll t pool.currency (prizesFor pool percentages (ranked.ranked t))) := by
    unfold settlePrizes
    rw [Dialog.exec_bind_of_ok (Dialog.exec_forUpdate _), Dialog.exec_bind_of_ok (Dialog.exec_select _), id, hprizes,
      if_neg (by simp), Dialog.exec_bind_of_ok hscript,
      Dialog.exec_bind_of_ok (Dialog.exec_select _), id, hpool,
        Dialog.exec_bind_of_ok (Dialog.exec_okOr_some pool _), hpercentages]
    rw [Dialog.exec_bind_of_ok (Dialog.exec_reject_of_not hne), Dialog.exec_bind_of_ok (Dialog.exec_select _), id,
      Dialog.exec_bind_of_ok hexec, Dialog.exec_commit, hpending]
  rw [Dialog.run_eq]
  have hrun : (finalizeTournament t).exec id b =
      (.ok (), id, ranked.payAll t pool.currency (prizesFor pool percentages (ranked.ranked t))) := by
    unfold finalizeTournament
    rw [Dialog.exec_bind_of_ok (Dialog.exec_query _), hrow, Dialog.exec_bind_of_ok (Dialog.exec_okOr_some row _),
      Dialog.exec_bind_of_ok (Dialog.exec_reject_of_not (by simp [hcompleted]))]
    exact Dialog.exec_transaction_of_ok hsettle
  rw [hrun]

end Run

/-! ## What ranking leaves as it is -/

/-- Nothing but the ranks of a tournament and the status of participants has changed. -/
structure Reranked (t : Uuid) (b b' : Books) : Prop where
  wallets : b'.wallets = b.wallets
  transactions : b'.transactions = b.transactions
  prizePools : b'.prizePools = b.prizePools
  keys : b'.results.map (fun row => (row.tournamentId, row.userId)) = b.results.map fun row =>
    (row.tournamentId, row.userId)
  ranks : ∀ t', t' ≠ t → b'.ranked t' = b.ranked t'
  recorded : ∀ t' user, b.Recorded t' user → b'.Recorded t' user

namespace Reranked

variable {b b' b'' : Books} {t user : Uuid} {rank : ℕ}

theorem refl (b : Books) : Reranked t b b := ⟨rfl, rfl, rfl, rfl, fun _ _ => rfl, fun _ _ h => h⟩

theorem trans (h : Reranked t b b') (h' : Reranked t b' b'') : Reranked t b b'' :=
  ⟨h'.wallets.trans h.wallets, h'.transactions.trans h.transactions, h'.prizePools.trans h.prizePools,
    h'.keys.trans h.keys,
    fun t' ht' => (h'.ranks t' ht').trans (h.ranks t' ht'),
      fun t' user hr => h'.recorded t' user (h.recorded t' user hr)⟩

theorem setRank (b : Books) : Reranked t b (b.setRank t user rank) :=
  ⟨rfl, rfl, rfl, by simp [Books.setRank, Function.comp_def], fun _ => Books.ranked_setRank,
    fun _ _ => Books.Recorded.setRank⟩

theorem eliminate (b : Books) : Reranked t b (b.eliminate t) := ⟨rfl, rfl, rfl, rfl, fun _ _ => rfl, fun _ _ h => h⟩

end Reranked

section Writes

open Script

variable {t : Uuid}

theorem writes_rankPlayer (rank : ℕ) (user : Option Uuid) : (rankPlayer t rank user).Writes (Reranked t) := by
  cases user with
  | none => exact writes_pure ()
  | some user => exact writes_update Reranked.setRank

theorem writes_rankLosers (rank n : ℕ) (rows : List TournamentMatch) :
    (rankLosers t rank n rows).Writes (Reranked t) := by
  induction rows generalizing n with
  | nil => exact writes_pure n
  | cons m rows ih =>
    unfold rankLosers
    cases m.loser with
    | none => exact ih n
    | some user => exact writes_bind (writes_update Reranked.setRank) fun _ => ih (n + 1)

theorem writes_rankRounds (i rank : ℕ) (rounds : List TournamentRound) :
    (rankRounds t i rank rounds).Writes (Reranked t) := by
  induction rounds generalizing i rank with
  | nil => exact writes_pure ()
  | cons round rest ih =>
    refine writes_bind (writes_query Reranked.refl _) fun rows => writes_ite ?_ ?_
    · exact writes_bind (writes_rankPlayer _ _) fun _ => writes_bind (writes_rankPlayer _ _) fun _ => ih _ _
    · exact writes_bind (writes_rankLosers _ _ _) fun _ => ih _ _

theorem writes_computeRankings : (computeRankings t).Writes (Reranked t) := by
  refine writes_bind (writes_query Reranked.refl _) fun rounds => writes_ite (writes_throw _) ?_
  exact writes_bind (writes_rankRounds _ _ _) fun _ => writes_update Reranked.eliminate

theorem reranked_of_run {b ranked : Books} {r : Except ApiError Unit} (h : (computeRankings t).run b = (r, ranked)) :
    Reranked t b ranked := by
  have := Prog.Writes.run Reranked.refl Reranked.trans b (writes_computeRankings (t := t))
  rwa [show Prog.run (computeRankings t) b = (r, ranked) from h] at this

end Writes

/-- A user takes part in a tournament once. -/
theorem Books.nodup_users {b : Books} (t : Uuid) (h : (b.results.map fun row => (row.tournamentId, row.userId)).Nodup) :
    ((b.results.filter (·.tournamentId = t)).map (·.userId)).Nodup := by
  refine List.Nodup.map_on (fun x hx y hy huser => ?_) (h.of_map.filter _)
  obtain ⟨hx, hxt⟩ := List.mem_filter.1 hx
  obtain ⟨hy, hyt⟩ := List.mem_filter.1 hy
  have hkey : (x.tournamentId, x.userId) = (y.tournamentId, y.userId) :=
    Prod.ext ((of_decide_eq_true hxt).trans (of_decide_eq_true hyt).symm) huser
  exact List.inj_on_of_nodup_map h hx hy hkey

/-- And is ranked once. -/
theorem Books.nodup_ranked {b : Books} (t : Uuid)
    (h : (b.results.map fun row => (row.tournamentId, row.userId)).Nodup) : ((b.ranked t).map Prod.fst).Nodup := by
  refine ((List.perm_insertionSort _ _).map _).nodup_iff.2 ?_
  refine (b.nodup_users t h).sublist ?_
  induction b.results.filter (·.tournamentId = t) with
  | nil => exact .slnil
  | cons row rows ih =>
    cases hrank : row.finalRank with
    | none => simpa [hrank] using ih.cons row.userId
    | some rank => simpa [hrank] using ih

/-! ## Shares -/

/-- Rounding down loses less than one in each share. -/
theorem sum_floor (qs : List ℚ) : (((qs.map (⌊·⌋)).sum : ℤ) : ℚ) ≤ qs.sum ∧
    (qs ≠ [] → qs.sum - qs.length < ((qs.map (⌊·⌋)).sum : ℤ)) := by
  induction qs with
  | nil => simp
  | cons q qs ih =>
    have hle := Int.floor_le q
    have hlt := Int.sub_one_lt_floor q
    obtain ⟨hsum, hlost⟩ := ih
    simp only [List.map_cons, List.sum_cons, List.length_cons, Nat.cast_add, Nat.cast_one, Int.cast_add]
    refine ⟨by linarith, fun _ => ?_⟩
    by_cases hnil : qs = []
    · simp only [hnil, List.map_nil, List.sum_nil, List.length_nil, Nat.cast_zero, Int.cast_zero]
      linarith
    · linarith [hlost hnil]

theorem sum_share (totalAmount : I64) (percentages : List ℚ) :
    (percentages.map (share totalAmount)).sum = totalAmount * percentages.sum / 100 := by
  induction percentages with
  | nil => simp
  | cons percentage percentages ih =>
    rw [List.map_cons, List.sum_cons, List.sum_cons, ih, share]
    ring

/-- Shares that are rounded down add up to at most the pool, and to less than one below each of them. -/
theorem sum_floor_share {totalAmount : I64} {percentages : List ℚ} (htotal : 0 ≤ (totalAmount : ℤ))
    (hsum : percentages.sum ≤ 100) (hne : percentages ≠ []) :
    (((percentages.map fun percentage => ⌊share totalAmount percentage⌋).sum : ℤ) : ℚ) ≤ (totalAmount : ℤ) ∧
    (totalAmount : ℤ) * percentages.sum / 100 - percentages.length <
      ((percentages.map fun percentage => ⌊share totalAmount percentage⌋).sum : ℤ) := by
  obtain ⟨hle, hlost⟩ := sum_floor (percentages.map (share totalAmount))
  rw [List.map_map, sum_share] at hle hlost
  rw [List.length_map] at hlost
  have htotal' : (0 : ℚ) ≤ (totalAmount : ℤ) := by exact_mod_cast htotal
  refine ⟨hle.trans ?_, hlost (by simpa using hne)⟩
  rw [div_le_iff₀ (by norm_num)]
  exact mul_le_mul_of_nonneg_left hsum htotal'

theorem parseI64_digits {n : ℕ} (h : i64.Fits n) : parseI64 (Nat.toDigits 10 n) = some (n : ℤ) := by
  have hdigits : ∀ c ∈ Nat.toDigits 10 n, c.isDigit = true := fun c hc => Nat.isDigit_of_mem_toDigits (b := 10)
    (by norm_num) le_rfl hc
  have hparse : parseDigits 1 (Nat.toDigits 10 n) = some (n : ℤ) := by
    rw [parseDigits, Nat.ofDigitChars_ten_toDigits, one_mul]
    exact if_pos ⟨Nat.toDigits_ne_nil, List.all_eq_true.2 hdigits, h⟩
  -- the first digit is no sign
  unfold parseI64
  split
  · rename_i digits heq
    exact absurd (hdigits '-' (by simp [heq])) (by decide)
  · rename_i digits heq
    exact absurd (hdigits '+' (by simp [heq])) (by decide)
  · exact hparse

theorem parseDigits_point {sign : ℤ} {digits : List Char} (h : '.' ∈ digits) : parseDigits sign digits = none :=
  if_neg fun hparse => absurd (List.all_eq_true.1 hparse.2.1 _ h) (by decide)

theorem parseI64_point {text : List Char} (h : '.' ∈ text) : parseI64 text = none := by
  unfold parseI64
  split
  · exact parseDigits_point (by simpa using h)
  · exact parseDigits_point (by simpa using h)
  · exact parseDigits_point h

/-- A share that is printed without a point is paid; nothing is paid for the others, which is right for those below
one. -/
theorem prizeAmount_eq_floor_iff [Decimals] {totalAmount : I64} {percentage : ℚ} (htotal : 0 ≤ (totalAmount : ℤ))
    (hnonneg : 0 ≤ percentage) (hle : percentage ≤ 100) :
    prizeAmount totalAmount percentage = ⌊share totalAmount percentage⌋ ↔
      '.' ∉ Decimals.print totalAmount percentage ∨ share totalAmount percentage < 1 := by
  have htotal' : (0 : ℚ) ≤ totalAmount := by exact_mod_cast htotal
  have hpos : 0 ≤ share totalAmount percentage := by
    unfold share
    positivity
  have hbound : share totalAmount percentage ≤ totalAmount := by
    rw [share, div_le_iff₀ (by norm_num)]
    exact mul_le_mul_of_nonneg_left hle htotal'
  by_cases hpoint : '.' ∈ Decimals.print totalAmount percentage
  · rw [prizeAmount, parseI64_point hpoint, Option.getD_none, eq_comm, Int.floor_eq_zero_iff]
    exact ⟨fun h => .inr h.2, fun h => ⟨hpos, h.resolve_left (not_not_intro hpoint)⟩⟩
  · obtain ⟨n, hn, hprint⟩ := Decimals.plain hpos hpoint
    have hfits : i64.Fits n := by
      refine ⟨i64.min_le.trans n.cast_nonneg, le_trans ?_ totalAmount.hi⟩
      rw [hn] at hbound
      exact_mod_cast hbound
    rw [prizeAmount, hprint, parseI64_digits hfits, Option.getD_some, hn, Int.floor_natCast]
    exact iff_of_true rfl (.inl (hprint ▸ hpoint))

/-- A completed tournament whose prizes have not been paid: its participants are ranked, have wallets and are recorded
once, and there is a pool for them. -/
structure Payable (t : Uuid) (b ranked : Books) (pool : PrizePool) (percentages : List ℚ) : Prop where
  completed : b.statusOf t = some .completed
  unpaid : b.prizes t = []
  ranking : (computeRankings t).run b = (.ok (), ranked)
  unique : (b.results.map fun row => (row.tournamentId, row.userId)).Nodup
  wallets : ∀ entry ∈ ranked.ranked t, b.HasWallet entry.1
  free : ∀ user, ¬ b.HasReference (.prize t user)
  found : b.findPrizePool t = some pool
  parsed : pool.distributionPercentages = .ok percentages

section Payable

variable [Decimals] {b ranked : Books} {t : Uuid} {pool : PrizePool} {percentages : List ℚ}

/-- The call succeeds, and everyone who is ranked high enough is credited with their prize. -/
theorem Payable.run (h : Payable t b ranked pool percentages) (hrecipient : (ranked.ranked t).zip percentages ≠ []) :
    ∃ after, (finalizeTournament t).run b = (.ok (), after) ∧
      (after.prizes t).map (fun row => (row.userId, row.amount)) =
        ((ranked.ranked t).zip percentages).map
          (fun entry => (entry.1.1, (prizeAmount pool.totalAmount entry.2 : ℚ))) ∧
      ∀ entry ∈ (ranked.ranked t).zip percentages,
        after.ngnOf entry.1.1 = b.ngnOf entry.1.1 + prizeAmount pool.totalAmount entry.2 := by
  have hframe := reranked_of_run h.ranking
  have hnodup := Books.nodup_ranked t (hframe.keys ▸ h.unique)
  have hne : percentages ≠ [] := by
    rintro rfl
    simp at hrecipient
  have hpool : ranked.findPrizePool t = some pool := by
    rw [Books.findPrizePool, hframe.prizePools]
    exact h.found
  have hfree : ∀ user, ¬ ranked.HasReference (.prize t user) := by
    intro user
    rw [Books.HasReference, hframe.transactions]
    exact h.free user
  have hprizes : ranked.prizes t = [] := by
    rw [Books.prizes, hframe.transactions]
    exact h.unpaid
  refine ⟨_, run_finalizeTournament h.completed h.unpaid h.ranking hpool h.parsed hne hnodup hfree, ?_,
    fun entry hentry => ?_⟩
  · rw [Books.prizes_payAll hprizes, prizesFor, List.map_map, List.map_map]
    rfl
  · have hwallet : ranked.HasWallet entry.1.1 := by
      rw [Books.HasWallet, hframe.wallets]
      exact h.wallets _ (List.of_mem_zip hentry).1
    have hngn : ranked.ngnOf entry.1.1 = b.ngnOf entry.1.1 := by
      rw [Books.ngnOf, hframe.wallets]
      rfl
    have hmem : (⟨entry.1.1, entry.1.2, prizeAmount pool.totalAmount entry.2⟩ : Prize) ∈
        prizesFor pool percentages (ranked.ranked t) := List.mem_map_of_mem hentry
    rw [← hngn]
    exact Books.ngnOf_payAll (nodup_prizesFor hnodup) hmem hwallet

end Payable

namespace Sample

/-- Alice has beaten Bob in the final, and a prize pool is to be paid. -/
def decided (totalAmount : I64) (percentages : List ℚ) : Books where
  nextId := 20
  tournaments := [⟨cup, "chess", "single_elimination", .completed⟩]
  tournamentParticipants := []
  userElo := []
  tournamentRounds := [⟨⟨10⟩, cup, 1, .final, .completed⟩]
  tournamentMatches := [⟨(Fixture.duel alice bob).won alice, ⟨11⟩, cup, ⟨10⟩, 1⟩]
  cleanedUp := []
  results := [⟨cup, alice, none, none, none⟩, ⟨cup, bob, none, none, none⟩]
  wallets := [⟨alice, 0, 0, some 7, none⟩, ⟨bob, 0, 0, none, none⟩]
  transactions := []
  prizePools := [⟨cup, totalAmount, "NGN", .ok percentages⟩]

/-- An integer share of an integer percentage has no point; of the others one digit after the point is printed. -/
scoped instance decimals : Decimals where
  print totalAmount percentage :=
    if percentage.den = 1 ∧ (share totalAmount percentage).den =
      1 then Nat.toDigits 10 (share totalAmount percentage).num.toNat
    else Nat.toDigits 10 ⌊share totalAmount percentage⌋.toNat ++
      '.' :: Nat.toDigits 10 (⌊share totalAmount percentage * 10⌋.toNat % 10)
  plain := by
    intro totalAmount percentage hpos hplain
    split at hplain
    · rename_i hinteger
      refine ⟨_, ?_, if_pos hinteger⟩
      have hnum := Rat.coe_int_num_of_den_eq_one hinteger.2
      rw [← Int.cast_natCast, Int.toNat_of_nonneg (Rat.num_nonneg.2 hpos), hnum]
    · simp at hplain

end Sample

end ArenaX.Orchestrator
