/-
Payouts when many callers finalize tournaments at the same time. The row of the tournament is locked, and whether it has
`Prize` transactions is looked up under the lock; they are written when the transaction is committed. In the eyes of
everybody else the prizes of a tournament appear at once, when there were none, and not while they hold its row. Along
every run, the `Prize` transactions of a tournament are those of one call, for different users, and wallets have grown
by them and nothing else.
-/
import ArenaX.Lib.RelyGuarantee
import ArenaX.Orchestrator.Payout

namespace ArenaX.Orchestrator

open Machine
open TransitionSystem (Unrestricted)

/-! ## Callers -/

section Advance

open Script

/-- `on_match_completed`, up to the payout: whether the tournament has been completed. -/
def advanceRound (t roundId : Uuid) : Sql Bool := do
  let pendingCount ← query fun d => (d.roundMatches roundId).countP (·.Pending)
  if 0 < pendingCount then pure false else do
    let row ← query (·.findRound roundId)
    let round ← okOr row .notFound
    let next ← query fun d =>
      d.tournamentRounds.find? fun row => row.tournamentId = t ∧ round.roundNumber < row.roundNumber
    if next.isSome then pure false else do
      update (Database.setRoundStatus roundId .completed)
      let advancing ← query (·.advancing roundId)
      if advancing.length ≤ 1 then do
        update (Database.setTournamentStatus t .completed)
        pure true
      else do
        let nextRoundNumber := round.roundNumber + 1
        let newRoundId ← change (Database.insertRound t nextRoundNumber (nextRoundType advancing.length))
        insertMatches t newRoundId some 0 (nextFixtures advancing)
        pure false

/-- What the worker for rounds does, with the answer left out. -/
theorem onMatchCompleted_eq (t roundId : Uuid) :
    onMatchCompleted t roundId = (fun _ => ()) <$> advanceRound t roundId := by
  have hite {c : Prop} [Decidable c] (x y : Sql Bool) :
      (fun _ => ()) <$> (if c then x else y) = if c then (fun _ => ()) <$> x else (fun _ => ()) <$> y :=
        apply_ite _ c x y
  simp only [onMatchCompleted, advanceRound, map_bind, hite, map_pure]
  simp

end Advance

namespace Books

/-- Statements on the tables of the bracket. -/
def bracket {α : Type} (x : Sql α) : Script ApiError Books α :=
  x.zoom (·.toDatabase) fun d b => { b with toDatabase := d }

/-- `'pending'` and `'in_progress'` matches among these are cancelled. -/
def cancelStuck (t : Uuid) (stuck : List Uuid) (b : Books) : Books :=
  { b with
    tournamentMatches := b.tournamentMatches.map fun m =>
      if m.tournamentId = t ∧ (m.status = .pending ∨ m.status = .inProgress) ∧ m.id ∈ stuck then
        { m with status := .cancelled } else m }

/-- Completed tournaments that have not been cleaned up and have no prizes. -/
def unfinalized (b : Books) : List Uuid :=
  (b.tournaments.filter fun t => t.status = .completed ∧ t.id ∉ b.cleanedUp ∧ b.prizes t.id = []).map (·.id)

/-- The participants of a tournament with something in escrow. -/
def escrows (b : Books) (t : Uuid) : List (Uuid × ℚ) :=
  (b.tournamentParticipants.filter (·.tournamentId = t)).flatMap fun p =>
    (b.wallets.filter fun w => w.userId = p.userId ∧ 0 < w.escrowBalance).map fun w => (w.userId, w.escrowBalance)

/-- The wallet after an amount has been moved out of escrow. -/
def release (user : Uuid) (amount : ℚ) (w : Wallet) : Wallet :=
  if w.userId = user then { w with balance := w.balance + amount, escrowBalance := w.escrowBalance - amount } else w

/-- Neither the balance nor the escrow may become negative. -/
def releaseEscrow (user : Uuid) (amount : ℚ) (b : Books) : Except ApiError (Unit × Books) :=
  if ∀ w ∈ b.wallets, w.userId = user → 0 ≤ (release user amount w).balance ∧
    0 ≤ (release user amount w).escrowBalance then
    .ok ((), { b with wallets := b.wallets.map (release user amount) })
  else .error .databaseError

/-- `ON CONFLICT (reference) DO NOTHING`. -/
def addRelease (t user : Uuid) (amount : ℚ) (b : Books) : Books :=
  if b.HasReference (.escrowRelease t user) then b
  else b.addTransaction ⟨user, .refund, amount, "NGN", .escrowRelease t user, .escrowRelease t⟩

def stampCleanedUp (t : Uuid) (b : Books) : Books := { b with cleanedUp := t :: b.cleanedUp }

end Books

section Callers

open Dialog

/-- `on_match_completed`: errors of the payout are logged. -/
def matchCompleted [Decimals] (t roundId : Uuid) : Dialog ApiError Books Row Unit := do
  let completed ← script (Books.bracket (advanceRound t roundId))
  if completed then do
    let _ ← attempt (finalizeTournament t)
    pure ()
  else pure ()

/-- Errors are logged, and the next tournament is tried. -/
def finalizeAll [Decimals] : List Uuid → Dialog ApiError Books Row Unit
  | [] => pure ()
  | t :: rest => do
    let _ ← attempt (finalizeTournament t)
    finalizeAll rest

def pollForUnfinalized [Decimals] : Dialog ApiError Books Row Unit := do
  let rows ← query (·.unfinalized)
  finalizeAll rows

def releaseEscrows (t : Uuid) : List (Uuid × ℚ) → Script ApiError Books Unit
  | [] => pure ()
  | (user, amount) :: rest => do
    Script.change (Books.releaseEscrow user amount)
    Script.update (Books.addRelease t user amount)
    releaseEscrows t rest

/-- The statements after the payout. -/
def cleanUp (t : Uuid) : Script ApiError Books Unit := do
  Script.update (Books.eliminate t)
  let rows ← Script.query (·.escrows t)
  releaseEscrows t rows
  Script.update (Books.stampCleanedUp t)

/-- The matches that were created before the cutoff are given. -/
def cleanupTournament [Decimals] (t : Uuid) (stuck : List Uuid) : Dialog ApiError Books Row Unit := do
  let alreadyCleaned ← query fun b => decide (t ∈ b.cleanedUp)
  if alreadyCleaned then pure () else do
    script (Script.update (Books.cancelStuck t stuck))
    let payoutCount ← query fun b => (b.prizes t).length
    if payoutCount = 0 then do
      let _ ← attempt (finalizeTournament t)
      script (cleanUp t)
    else script (cleanUp t)

inductive Caller where
  | finalize (t : Uuid)
  | matchCompleted (t roundId : Uuid)
  | pollForUnfinalized
  | cleanup (t : Uuid) (stuck : List Uuid)
deriving DecidableEq

def Caller.session [Decimals] : Caller → Session Books Row (Except ApiError Unit)
  | .finalize t => finalizeTournament t
  | .matchCompleted t roundId => Orchestrator.matchCompleted t roundId
  | .pollForUnfinalized => Orchestrator.pollForUnfinalized
  | .cleanup t stuck => cleanupTournament t stuck

end Callers

/-- A pending match ends. -/
def playMatch (b : Books) (result : Uuid × Outcome) : Option Books :=
  (decideMatch b.toDatabase result).map fun d => { b with toDatabase := d }

/-- Calls overlap, fail at any statement or are repeated, and matches are decided in between. -/
def settlement [Decimals] (b₀ : Books) : TransitionSystem Unit (Pool Books Row Caller (Except ApiError Unit))
    (Turn Caller (Uuid × Outcome)) :=
  Pool.system Caller.session playMatch (· = b₀)

/-! ## What prizes do to the books -/

/-- What a user has won according to transactions. -/
def winnings (rows : List Transaction) (user : Uuid) : ℚ :=
  ((rows.filter fun row => row.transactionType = .prize ∧ row.userId = user).map (·.amount)).sum

/-- What wallets hold in naira. -/
def Books.holdings (b : Books) : List (Uuid × ℚ) := b.wallets.map fun w => (w.userId, ((w.balanceNgn.getD 0 : ℤ) : ℚ))

theorem winnings_append (rows rows' : List Transaction) (user : Uuid) :
    winnings (rows ++ rows') user = winnings rows user + winnings rows' user := by
  simp [winnings]

section Paying

variable {t user : Uuid} {currency : String} {ps pre : List Prize} {pending : Books → Books} {held : List Row}
  {b b' : Books}

theorem winnings_cons (row : Transaction) (rows : List Transaction) (user : Uuid) :
    winnings (row :: rows) user =
      (if row.transactionType = .prize ∧ row.userId = user then row.amount else 0) + winnings rows user := by
  unfold winnings
  rw [List.filter_cons]
  simp only [decide_eq_true_eq]
  split <;> simp

theorem holdings_payAll : (b.payAll t currency ps).holdings =
    b.holdings.map fun entry => (entry.1, entry.2 + winnings (ps.map (·.transaction t currency)) entry.1) := by
  induction ps generalizing b with
  | nil => simp [Books.payAll, winnings]
  | cons p ps ih =>
    have hpay : (b.pay t currency p).holdings =
        b.holdings.map fun entry => (entry.1, entry.2 + if p.userId = entry.1 then (p.amount : ℚ) else 0) := by
      simp only [Books.holdings, Books.pay, Books.addTransaction, Books.creditNgn, Books.setPrize, List.map_map]
      refine List.map_congr_left fun w _ => ?_
      simp only [Function.comp]
      by_cases hw : w.userId = p.userId
      · rw [if_pos hw, if_pos hw.symm]
        simp
      · rw [if_neg hw, if_neg fun heq => hw heq.symm]
        simp
    refine (ih (b := b.pay t currency p)).trans ?_
    rw [hpay, List.map_map]
    refine List.map_congr_left fun entry _ => ?_
    simp only [Function.comp, List.map_cons, winnings_cons, Prize.transaction, true_and, add_assoc]

theorem prizePools_payAll : (b.payAll t currency ps).prizePools = b.prizePools := by
  induction ps generalizing b with
  | nil => rfl
  | cons p ps ih => exact (ih (b := b.pay t currency p)).trans rfl

theorem ranked_payAll {t' : Uuid} : (b.payAll t currency ps).ranked t' = b.ranked t' := by
  induction ps generalizing b with
  | nil => rfl
  | cons p ps ih =>
    refine (ih (b := b.pay t currency p)).trans ?_
    exact Books.ranked_setPrize

theorem keys_payAll : (b.payAll t currency ps).results.map (·.key) = b.results.map (·.key) := by
  induction ps generalizing b with
  | nil => rfl
  | cons p ps ih =>
    refine (ih (b := b.pay t currency p)).trans ?_
    simp [Books.pay, Books.addTransaction, Books.creditNgn, Books.setPrize, ParticipantResult.key, Function.comp_def]

theorem recorded_payAll {t' : Uuid} (h : b.Recorded t' user ∨ t' = t ∧ user ∈ ps.map (·.userId)) :
    (b.payAll t currency ps).Recorded t' user := by
  induction ps generalizing b with
  | nil => simpa [Books.payAll] using h
  | cons p ps ih =>
    refine ih (b := b.pay t currency p) ?_
    rcases h with h | ⟨rfl, h⟩
    · have hkept : (b.setPrize t p.userId p.amount currency).Recorded t' user := h.setPrize
      exact .inl hkept
    · rw [List.map_cons, List.mem_cons] at h
      rcases h with rfl | h
      · have hset : (b.setPrize t' p.userId p.amount currency).Recorded t' p.userId := Books.recorded_setPrize
        exact .inl hset
      · exact .inr ⟨rfl, h⟩

/-- In the middle of paying: what has been read and written, and that nobody comes in between. -/
structure Paying (t : Uuid) (pool : PrizePool) (participants : List (Uuid × ℕ)) (pre : List Prize)
    (pending : Books → Books) (held : List Row) (b : Books) : Prop where
  held : Row.tournament t ∈ held
  prizes : b.prizes t = []
  found : b.findPrizePool t = some pool
  ranked : b.ranked t = participants
  free : ∀ p ∈ pre, ¬ b.HasReference (.prize t p.userId)
  nodup : (pre.map (·.userId)).Nodup
  pending : ∀ b' : Books, (∀ p ∈ pre, ¬ b'.HasReference (.prize t p.userId)) →
    pending b' = b'.payAll t pool.currency pre

namespace Paying

variable {pool : PrizePool} {participants : List (Uuid × ℕ)}

theorem start (hheld : Row.tournament t ∈ held) (hprizes : b.prizes t = []) (hpool : b.findPrizePool t = some pool) :
    Paying t pool (b.ranked t) [] id held b :=
  ⟨hheld, hprizes, hpool, rfl, fun _ h => (List.not_mem_nil h).elim, List.nodup_nil, fun _ _ => rfl⟩

/-- A prize whose reference is free is added. -/
theorem snoc {p : Prize} (h : Paying t pool participants pre pending held b)
    (hfree : ¬ (pending b).HasReference (.prize t p.userId)) (row : Row) :
    Paying t pool participants (pre ++ [p]) (Books.tryPay t pool.currency p ∘ pending) (row :: held) b := by
  rw [h.pending b h.free, Books.hasReference_payAll, not_or] at hfree
  obtain ⟨hfree, hnew⟩ := hfree
  have hne : ∀ q ∈ pre, q.userId ≠ p.userId := fun q hq heq => hnew ⟨q, hq, by rw [heq]⟩
  refine ⟨List.mem_cons_of_mem _ h.held, h.prizes, h.found, h.ranked, ?_, ?_, ?_⟩
  · intro q hq
    rcases List.mem_append.1 hq with hq | hq
    · exact h.free q hq
    · rwa [List.mem_singleton.1 hq]
  · rw [List.map_append]
    refine List.nodup_append.2 ⟨h.nodup, List.nodup_singleton _, ?_⟩
    rintro u hu v hv rfl
    obtain ⟨q, hq, rfl⟩ := List.mem_map.1 hu
    exact hne q hq (List.mem_singleton.1 hv)
  · intro b' hb'
    have hp : ¬ (b'.payAll t pool.currency pre).HasReference (.prize t p.userId) := by
      rw [Books.hasReference_payAll, not_or]
      refine ⟨hb' p (by simp), ?_⟩
      rintro ⟨q, hq, heq⟩
      exact hne q hq (by simpa using heq)
    rw [Function.comp, h.pending b' fun q hq => hb' q (by simp [hq]), Books.tryPay_of_free hp, Books.payAll,
      Books.payAll, List.foldl_append]
    rfl

end Paying

end Paying

/-! ## How the books may change -/

section Runs

variable [Decimals]

/-- What one call pays for a tournament, given its pool and its ranking, to different users. -/
def PaidAtOnce (t : Uuid) (b : Books) (rows : List Transaction) : Prop :=
  (rows.map (·.userId)).Nodup ∧ ∃ pool percentages, b.findPrizePool t = some pool ∧
    pool.distributionPercentages = .ok percentages ∧
    rows = (prizesFor pool percentages (b.ranked t)).map (·.transaction t pool.currency)

/-- Transactions are added; wallets grow by the prizes among them; those of a tournament come at once, when it had none,
and not while its row is held. Its ranking is settled from then on. Whoever is paid has the prize recorded, and keeps
that. -/
structure Books.Grows (held : List Row) (b b' : Books) (new : List Transaction) : Prop where
  transactions : b'.transactions = b.transactions ++ new
  holdings : b'.holdings = b.holdings.map fun entry => (entry.1, entry.2 + winnings new entry.1)
  prizePools : b'.prizePools = b.prizePools
  ranks : ∀ t, b.prizes t ≠ [] ∨ Row.tournament t ∈ held → b'.ranked t = b.ranked t
  prizes : ∀ t, new.filter (·.IsPrize t) = [] ∨
    b.prizes t = [] ∧ Row.tournament t ∉ held ∧ PaidAtOnce t b' (new.filter (·.IsPrize t))
  references : ∀ row ∈ new, ∀ t user, row.reference = .prize t user → row.IsPrize t
  keys : b'.results.map (·.key) = b.results.map (·.key)
  recorded : ∀ t user, (b.Recorded t user ∨ ∃ row ∈ new, row.IsPrize t ∧ row.userId = user) → b'.Recorded t user

namespace Books.Grows

variable {held : List Row} {b b' b'' : Books} {new new' : List Transaction} {t user : Uuid}

theorem refl (held : List Row) (b : Books) : b.Grows held b [] where
  transactions := by simp
  holdings := by simp [winnings]
  prizePools := rfl
  ranks _ _ := rfl
  prizes _ := .inl rfl
  references _ h := by cases h
  keys := rfl
  recorded _ _ h := h.elim id fun ⟨_, hrow, _⟩ => (List.not_mem_nil hrow).elim

theorem prizes_eq (h : b.Grows held b' new) (t : Uuid) : b'.prizes t = b.prizes t ++ new.filter (·.IsPrize t) := by
  rw [Books.prizes, h.transactions, List.filter_append]
  rfl

theorem findPrizePool_eq (h : b.Grows held b' new) (t : Uuid) : b'.findPrizePool t = b.findPrizePool t := by
  rw [Books.findPrizePool, h.prizePools]
  rfl

/-- Prizes that have been paid stay those of the ranking. -/
theorem paidAtOnce (h : b.Grows held b' new) {rows : List Transaction} (hpaid : PaidAtOnce t b rows)
    (ht : b.prizes t ≠ []) : PaidAtOnce t b' rows := by
  obtain ⟨hnodup, _, _, hpool, hpercentages, hrows⟩ := hpaid
  refine ⟨hnodup, _, _, (h.findPrizePool_eq t).trans hpool, hpercentages, ?_⟩
  rw [hrows, h.ranks t (.inl ht)]

theorem trans (h : b.Grows held b' new) (h' : b'.Grows held b'' new') : b.Grows held b'' (new ++ new') where
  transactions := by rw [h'.transactions, h.transactions, List.append_assoc]
  holdings := by
    rw [h'.holdings, h.holdings, List.map_map]
    refine List.map_congr_left fun entry _ => ?_
    simp only [Function.comp, winnings_append, add_assoc]
  prizePools := h'.prizePools.trans h.prizePools
  ranks t ht := by
    refine (h'.ranks t (ht.imp_left fun hprizes => ?_)).trans (h.ranks t ht)
    rw [h.prizes_eq]
    exact List.append_ne_nil_of_left_ne_nil hprizes _
  prizes t := by
    rw [List.filter_append]
    rcases h'.prizes t with hnil' | ⟨hprizes', hheld, hpaid'⟩
    · rw [hnil', List.append_nil]
      refine or_iff_not_imp_left.2 fun hne => ?_
      obtain ⟨hprizes, hheld, hpaid⟩ := (h.prizes t).resolve_left hne
      refine ⟨hprizes, hheld, h'.paidAtOnce hpaid ?_⟩
      rw [h.prizes_eq]
      exact List.append_ne_nil_of_right_ne_nil _ hne
    · -- no prizes had been paid before
      rw [h.prizes_eq, List.append_eq_nil_iff] at hprizes'
      rw [hprizes'.2]
      exact .inr ⟨hprizes'.1, hheld, hpaid'⟩
  references row hrow t user href := by
    rcases List.mem_append.1 hrow with hrow | hrow
    · exact h.references row hrow t user href
    · exact h'.references row hrow t user href
  keys := h'.keys.trans h.keys
  recorded t user hr := by
    rcases hr with hr | ⟨row, hrow, hprize⟩
    · exact h'.recorded t user (.inl (h.recorded t user (.inl hr)))
    · rcases List.mem_append.1 hrow with hrow | hrow
      · exact h'.recorded t user (.inl (h.recorded t user (.inr ⟨row, hrow, hprize⟩)))
      · exact h'.recorded t user (.inr ⟨row, hrow, hprize⟩)

/-- While the row of a tournament is held, nobody else pays its prizes. -/
theorem prizes_of_held (h : b.Grows held b' new) (hheld : Row.tournament t ∈ held) : b'.prizes t = b.prizes t := by
  rcases h.prizes t with hnil | ⟨-, hnot, -⟩
  · rw [h.prizes_eq, hnil, List.append_nil]
  · exact absurd hheld hnot

theorem reference_of_held (h : b.Grows held b' new) (hheld : Row.tournament t ∈ held)
    (hfree : ¬ b.HasReference (.prize t user)) : ¬ b'.HasReference (.prize t user) := by
  rintro ⟨row, hrow, href⟩
  rw [h.transactions] at hrow
  rcases List.mem_append.1 hrow with hrow | hrow
  · exact hfree ⟨row, hrow, href⟩
  · rcases h.prizes t with hnil | ⟨-, hnot, -⟩
    · have hprize : row ∈ new.filter (·.IsPrize t) :=
        List.mem_filter.2 ⟨hrow, decide_eq_true (h.references row hrow t user href)⟩
      rw [hnil] at hprize
      cases hprize
    · exact hnot hheld

end Books.Grows

/-- How others may change the books while a client holds rows. -/
def bookkeeping : Rely Empty Row Books where
  rel _ held b b' := ∃ new, b.Grows held b' new
  refl _ held b := ⟨[], .refl held b⟩
  trans := fun ⟨_, h⟩ ⟨_, h'⟩ => ⟨_, h.trans h'⟩

/-- Nothing that matters for prizes changes, and nobody who holds a row sees another ranking. -/
theorem rel_of_quiet {b b' : Books} {held : List Row} (htransactions : b'.transactions = b.transactions)
    (hholdings : b'.holdings = b.holdings) (hpools : b'.prizePools = b.prizePools)
    (hranks : ∀ t, b.prizes t ≠ [] ∨ Row.tournament t ∈ held → b'.ranked t = b.ranked t)
    (hkeys : b'.results.map (·.key) = b.results.map (·.key))
    (hrecorded : ∀ t user, b.Recorded t user → b'.Recorded t user)
    (o : List Empty) : bookkeeping.rel o held b b' :=
  ⟨[], by rw [htransactions, List.append_nil], by simp [hholdings, winnings], hpools, hranks, fun _ => .inl rfl,
    fun _ h => (List.not_mem_nil h).elim, hkeys,
    fun t user hr => hrecorded t user (hr.resolve_right fun ⟨_, hrow, _⟩ => List.not_mem_nil hrow)⟩

/-- A change that everybody may make. -/
def Quiet (b b' : Books) : Prop := ∀ o held, bookkeeping.rel o held b b'

theorem Quiet.refl (b : Books) : Quiet b b := fun o held => bookkeeping.refl o held b

/-- Only other tables change. -/
theorem Quiet.of_tables {b b' : Books} (htransactions : b'.transactions = b.transactions)
    (hholdings : b'.holdings = b.holdings) (hpools : b'.prizePools = b.prizePools) (hresults : b'.results = b.results) :
    Quiet b b' :=
  fun o _ => rel_of_quiet htransactions hholdings hpools (fun t _ => by rw [Books.ranked, hresults, Books.ranked])
    (by rw [hresults]) (fun t user h => by rwa [Books.Recorded, hresults]) o

theorem quiet_bracket (b : Books) (d : Database) : Quiet b { b with toDatabase := d } := Quiet.of_tables rfl rfl rfl rfl

/-! ## Paying prizes -/

section Paying

variable {t : Uuid} {ps pre : List Prize} {pending : Books → Books} {held : List Row} {b b' : Books}

namespace Paying

variable {pool : PrizePool} {participants : List (Uuid × ℕ)}

theorem rel (h : Paying t pool participants pre pending held b) (hrel : bookkeeping.rel [] held b b') :
    Paying t pool participants pre pending held b' := by
  obtain ⟨new, hgrows⟩ := hrel
  exact ⟨h.held, (hgrows.prizes_of_held h.held).trans h.prizes, (hgrows.findPrizePool_eq t).trans h.found,
    (hgrows.ranks t (.inr h.held)).trans h.ranked, fun p hp => hgrows.reference_of_held h.held (h.free p hp),
    h.nodup, h.pending⟩

/-- What has been written becomes visible at once. -/
theorem guar {percentages : List ℚ}
    (h : Paying t pool participants (prizesFor pool percentages participants) pending held b)
    (hpercentages : pool.distributionPercentages = .ok percentages) : bookkeeping.Guar [] held b (pending b) := by
  intro o' held' _ hdisjoint
  rw [h.pending b h.free]
  refine ⟨_, Books.transactions_payAll, holdings_payAll, prizePools_payAll, fun _ _ => ranked_payAll,
    fun t' => ?_, ?_, keys_payAll, fun t' user hr => recorded_payAll (hr.imp_right ?_)⟩
  · by_cases ht : t' = t
    · subst ht
      have hall : ((prizesFor pool percentages participants).map (·.transaction t' pool.currency)).filter
          (·.IsPrize t') = (prizesFor pool percentages participants).map (·.transaction t' pool.currency) :=
        List.filter_eq_self.2 fun row hrow => by
          obtain ⟨p, -, rfl⟩ := List.mem_map.1 hrow
          exact decide_eq_true ⟨rfl, rfl⟩
      rw [hall]
      refine .inr ⟨h.prizes, fun hheld => hdisjoint hheld h.held, ?_, pool, percentages, ?_, hpercentages, ?_⟩
      · rw [List.map_map]
        exact h.nodup
      · rw [Books.findPrizePool, prizePools_payAll]
        exact h.found
      · rw [ranked_payAll, h.ranked]
    · refine .inl (List.filter_eq_nil_iff.2 fun row hrow => ?_)
      obtain ⟨p, -, rfl⟩ := List.mem_map.1 hrow
      simpa [Transaction.IsPrize, Prize.transaction, Description.Mentions] using fun heq => absurd heq.symm ht
  · intro row hrow t' user href
    obtain ⟨_, -, rfl⟩ := List.mem_map.1 hrow
    obtain ⟨rfl, -⟩ := Reference.prize.inj href
    exact ⟨rfl, rfl⟩
  · rintro ⟨row, hrow, hprize, rfl⟩
    obtain ⟨_, hp, rfl⟩ := List.mem_map.1 hrow
    exact ⟨hprize.1.symm, List.mem_map_of_mem hp⟩

end Paying

open Rely in
/-- While the prizes are paid, the invariant is kept for those that have been paid. -/
theorem wp_payPrizes {pool : PrizePool} {participants : List (Uuid × ℕ)}
    {Q : Except ApiError Unit → (Books → Books) → List Row → Books → Prop}
    (herror : ∀ e pending held b, Q (.error e) pending held b)
    (hok : ∀ pending held b, Paying t pool participants (pre ++ ps) pending held b → Q (.ok ()) pending held b)
    (h : Paying t pool participants pre pending held b) :
    bookkeeping.Ends Q [] (payPrizes t pool.currency ps) pending held b := by
  induction ps generalizing pre pending held b with
  | nil => exact hok pending held b (by rwa [List.append_nil])
  | cons p ps ih =>
    refine wp_write_bind fun b₁ hb₁ => wp_write_bind fun b₂ hb₂ =>
      wp_insert_bind (fun b₃ _ _ => herror _ _ _ _) fun b₃ hb₃ hfree => ?_
    have h₃ := ((h.rel hb₁).rel hb₂).rel hb₃
    refine ih (fun pending held b hpaying => hok pending held b ?_) (h₃.snoc hfree _)
    rwa [List.append_cons]

end Paying

/-! ## The callers -/

section Callers

open Rely Dialog

variable {t : Uuid} {b b' : Books}

/-- The call has no transaction any more. -/
def Closed (_ : Except ApiError Unit) (pending : Books → Books) (held : List Row) (_ : Books) : Prop :=
  pending = id ∧ held = []

/-- Whoever holds the row of a tournament without prizes may rank its participants. -/
theorem Reranked.guar {held : List Row} (h : Reranked t b b') (hheld : Row.tournament t ∈ held)
    (hprizes : b.prizes t = []) : bookkeeping.Guar [] held b b' := by
  intro o' held' _ hdisjoint
  refine rel_of_quiet h.transactions (by rw [Books.holdings, h.wallets, Books.holdings]) h.prizePools (fun t' ht' => ?_)
    h.keys h.recorded o'
  refine h.ranks t' ?_
  rintro rfl
  exact ht'.elim (fun hne => hne hprizes) fun hmem => hdisjoint hmem hheld

theorem ends_settlePrizes (t : Uuid) (b : Books) :
    bookkeeping.Ends Closed [] (transaction (settlePrizes t)) id [] b := by
  have herror : ∀ (e : ApiError) (held : List Row) (b : Books),
      ∀ b', bookkeeping.rel [] held b b' → Closed (.error e) id [] b' := fun _ _ _ _ _ => ⟨rfl, rfl⟩
  have hheld : Row.tournament t ∈ [Row.tournament t] := List.mem_singleton_self _
  have hstable : ∀ {b b' : Books}, b.prizes t = [] → bookkeeping.rel [] [Row.tournament t] b b' → b'.prizes t = [] :=
    fun h ⟨_, hgrows⟩ => (hgrows.prizes_of_held hheld).trans h
  have hranking : ∀ {b b' : Books}, b.prizes t = [] → Reranked t b b' →
      bookkeeping.Guar [] [Row.tournament t] b b' ∧ b'.prizes t = [] :=
    fun h hb' => ⟨hb'.guar hheld h, by rw [Books.prizes, hb'.transactions]; exact h⟩
  refine wp_transaction (wp_forUpdate_bind fun b₁ _ => wp_select_bind fun b₂ _ => ?_)
  split
  · exact wp_rollback fun _ _ => ⟨rfl, rfl⟩
  · rename_i hcount
    have hprizes : b₂.prizes t = [] := List.eq_nil_of_length_eq_zero (by simpa using hcount)
    refine wp_script_bind hstable hranking writes_computeRankings hprizes (fun e b _ => herror e _ b) fun _ b₃ hb₃ => ?_
    refine wp_select_bind fun b₄ hb₄ => wp_okOr_bind (herror _ _ _) fun pool hpool => ?_
    split
    · exact herror _ _ _
    · rename_i percentages hpercentages
      refine wp_reject_bind (herror _ _ _) fun _ => wp_select_bind fun b₅ hb₅ => wp_bind ?_
      have hpool₅ : b₅.findPrizePool t = some pool := by
        obtain ⟨new, hgrows⟩ := hb₅
        exact (hgrows.findPrizePool_eq t).trans hpool
      refine wp_payPrizes (fun e _ held b => herror e held b) (fun pending held b hpaying => ?_)
        (Paying.start hheld (hstable (hstable hb₃ hb₄) hb₅) hpool₅)
      exact wp_commit fun b' hb' => ⟨(hpaying.rel hb').guar hpercentages, rfl, rfl⟩

theorem ends_finalizeTournament (t : Uuid) (b : Books) : bookkeeping.Ends Closed [] (finalizeTournament t) id [] b :=
  wp_query_bind fun _ _ => wp_okOr_bind ⟨rfl, rfl⟩ fun _ _ => wp_reject_bind ⟨rfl, rfl⟩ fun _ =>
    ends_settlePrizes t _

/-- Whatever a caller does after it has tried to finalize a tournament. -/
theorem ends_attempt_finalizeTournament {f : Except ApiError Unit → Dialog ApiError Books Row Unit} (t : Uuid)
    (hf : ∀ r b, bookkeeping.Ends Closed [] (f r) id [] b) (b : Books) :
    bookkeeping.Ends Closed [] (attempt (finalizeTournament t) >>= f) id [] b := by
  refine wp_attempt_bind ((ends_finalizeTournament t b).imp ?_)
  rintro r _ _ b ⟨rfl, rfl⟩
  exact hf r b

theorem ends_script {α : Type} {x : Script ApiError Books α} {f : α → Dialog ApiError Books Row Unit}
    (hx : x.Writes Quiet) (hf : ∀ a b, bookkeeping.Ends Closed [] (f a) id [] b) (b : Books) :
    bookkeeping.Ends Closed [] (script x >>= f) id [] b :=
  wp_script_bind (I := fun _ => True) (fun _ _ => trivial) (fun _ hquiet => ⟨fun o held _ _ => hquiet o held, trivial⟩)
    hx trivial (fun _ _ _ => ⟨rfl, rfl⟩) fun a b _ => hf a b

theorem ends_pure (b : Books) :
    bookkeeping.Ends Closed [] (pure () : Dialog ApiError Books Row Unit) id [] b := ⟨rfl, rfl⟩

theorem writes_bracket {α : Type} (x : Sql α) :
    (Books.bracket x).Writes Quiet :=
  Prog.writes_zoom (fun d b => quiet_bracket b d) x

theorem ends_matchCompleted (t roundId : Uuid) (b : Books) :
    bookkeeping.Ends Closed [] (matchCompleted t roundId) id [] b := by
  refine ends_script (writes_bracket _) (fun completed b => ?_) b
  split
  · exact ends_attempt_finalizeTournament t (fun _ => ends_pure) b
  · exact ends_pure b

theorem ends_finalizeAll (ts : List Uuid) (b : Books) : bookkeeping.Ends Closed [] (finalizeAll ts) id [] b := by
  induction ts generalizing b with
  | nil => exact ends_pure b
  | cons t rest ih => exact ends_attempt_finalizeTournament t (fun _ => ih) b

theorem quiet_releaseEscrow {user : Uuid} {amount : ℚ} {a : Unit} (h : b.releaseEscrow user amount = .ok (a, b')) :
    Quiet b b' := by
  unfold Books.releaseEscrow at h
  split at h
  · cases h
    refine Quiet.of_tables rfl ?_ rfl rfl
    simp only [Books.holdings, List.map_map]
    refine List.map_congr_left fun w _ => ?_
    simp only [Function.comp, Books.release]
    split <;> rfl
  · cases h

theorem quiet_addRelease (t user : Uuid) (amount : ℚ) (b : Books) : Quiet b (b.addRelease t user amount) := by
  unfold Books.addRelease
  split
  · exact .refl b
  · refine fun _ _ => ⟨[⟨user, .refund, amount, "NGN", .escrowRelease t user, .escrowRelease t⟩], rfl, ?_, rfl,
      fun _ _ => rfl, fun t' => .inl ?_, ?_, rfl, ?_⟩
    · simp [Books.holdings, Books.addTransaction, winnings]
    · simp [Transaction.IsPrize]
    · intro row hrow t' user' href
      rw [List.mem_singleton.1 hrow] at href
      cases href
    · rintro t' user' (hr | ⟨row, hrow, hprize, -⟩)
      · exact hr
      · rw [List.mem_singleton.1 hrow] at hprize
        cases hprize.2

theorem writes_releaseEscrows (t : Uuid) (rows : List (Uuid × ℚ)) :
    (releaseEscrows t rows).Writes Quiet := by
  induction rows with
  | nil => exact Script.writes_pure _
  | cons row rest ih =>
    obtain ⟨user, amount⟩ := row
    exact Script.writes_bind (Script.writes_change Quiet.refl quiet_releaseEscrow) fun _ =>
      Script.writes_bind (Script.writes_update (quiet_addRelease t user amount)) fun _ => ih

theorem writes_cleanUp (t : Uuid) : (cleanUp t).Writes Quiet :=
  Script.writes_bind (Script.writes_update fun _ => Quiet.of_tables rfl rfl rfl rfl) fun _ =>
    Script.writes_bind (Script.writes_query Quiet.refl _) fun rows =>
      Script.writes_bind (writes_releaseEscrows t rows) fun _ => Script.writes_update fun _ =>
        Quiet.of_tables rfl rfl rfl rfl

theorem ends_cleanUp (t : Uuid) (b : Books) : bookkeeping.Ends Closed [] (script (cleanUp t)) id [] b :=
  wp_session (I := fun _ => True) (fun _ _ => trivial) (fun _ hquiet => ⟨fun o held _ _ => hquiet o held, trivial⟩)
    (fun _ _ _ => ⟨rfl, rfl⟩) (writes_cleanUp t) trivial

theorem quiet_cancelStuck (t : Uuid) (stuck : List Uuid) (b : Books) : Quiet b (b.cancelStuck t stuck) :=
  .of_tables rfl rfl rfl rfl

theorem ends_cleanupTournament (t : Uuid) (stuck : List Uuid) (b : Books) :
    bookkeeping.Ends Closed [] (cleanupTournament t stuck) id [] b := by
  refine wp_query_bind fun b₁ _ => ?_
  split
  · exact ends_pure b₁
  · refine ends_script (Script.writes_update (quiet_cancelStuck t stuck)) (fun _ b₂ => wp_query_bind fun b₃ _ => ?_) b₁
    split
    · exact ends_attempt_finalizeTournament t (fun _ => ends_cleanUp t) b₃
    · exact ends_cleanUp t b₃

theorem ends_caller (c : Caller) (b : Books) : bookkeeping.Ends Closed [] c.session id [] b := by
  cases c with
  | finalize t => exact ends_finalizeTournament t b
  | matchCompleted t roundId => exact ends_matchCompleted t roundId b
  | pollForUnfinalized => exact wp_query_bind fun b₁ _ => ends_finalizeAll _ b₁
  | cleanup t stuck => exact ends_cleanupTournament t stuck b

end Callers

theorem guar_playMatch {b b' : Books} {result : Uuid × Outcome} (h : playMatch b result = some b') :
    bookkeeping.Guar [] [] b b' := by
  obtain ⟨d, -, rfl⟩ := Option.map_eq_some_iff.1 h
  exact fun o held _ _ => quiet_bracket b d o held

theorem safe_settlement (b₀ : Books) :
    bookkeeping.SafeSystem (fun _ _ _ => True) (fun _ => []) Caller.session playMatch (· = b₀) Unrestricted where
  init _ _ := trivial
  safe _ _ _ _ := (ends_caller _ _).imp fun _ _ _ _ _ => ⟨fun _ _ => trivial, fun _ _ => trivial⟩
  other _ _ := guar_playMatch
  disjoint _ _ _ _ := List.disjoint_nil_left _
  stop _ _ _ _ _ _ := trivial

theorem grows_of_reach {b₀ : Books} {p : Pool Books Row Caller (Except ApiError Unit)}
    (h : (settlement b₀).Reach Unrestricted () p) : ∃ new, b₀.Grows [] p.store new := by
  obtain ⟨_, rfl, hrel, -⟩ := (safe_settlement b₀).reach h
  exact hrel

/-- Prizes are credited once. -/
theorem prizes_credited_once {b₀ : Books} {p : Pool Books Row Caller (Except ApiError Unit)}
    (h : (settlement b₀).Reach Unrestricted () p) :
    ∃ new, p.store.transactions = b₀.transactions ++ new ∧
      p.store.holdings = b₀.holdings.map (fun entry => (entry.1, entry.2 + winnings new entry.1)) ∧
      ∀ t, new.filter (·.IsPrize t) = [] ∨ b₀.prizes t = [] ∧ PaidAtOnce t p.store (new.filter (·.IsPrize t)) := by
  obtain ⟨new, hgrows⟩ := grows_of_reach h
  refine ⟨new, hgrows.transactions, hgrows.holdings, fun t => ?_⟩
  rcases hgrows.prizes t with hnil | ⟨hprizes, -, hpaid⟩
  · exact .inl hnil
  · exact .inr ⟨hprizes, hpaid⟩

end Runs

namespace Sample

/-- The first call is stopped when it has written a prize. Of two others, the one from the cleanup waits for the row and
then finds the prizes of the other one. -/
def payoutMoves : List (Unit × Turn Caller (Uuid × Outcome)) :=
  List.flatten [[((), .start (.finalize cup))], List.replicate 14 ((), .next 0), [((), .stop 0)],
    [((), .start (.finalize cup)), ((), .start (.cleanup cup []))], List.replicate 3 ((), .next 1),
    List.replicate 16 ((), .next 0), List.replicate 6 ((), .next 1)]

theorem prizes_credited_once_cup : ∃ p, (settlement (decided 100 [50, 30])).Reach Unrestricted () p ∧
    p.store.holdings = [(alice, 57), (bob, 30)] ∧ p.store.cleanedUp = [cup] ∧
    PaidAtOnce cup p.store (p.store.prizes cup) := by
  have hrun : ((settlement (decided 100 [50, 30])).replay Unrestricted () ⟨decided 100 [50, 30], []⟩
      payoutMoves).map (fun r => (r.2.store.holdings, r.2.store.cleanedUp, (r.2.store.prizes cup).length)) =
        some ([(alice, 57), (bob, 30)], [cup], 2) := by
    decide +kernel
  obtain ⟨⟨_, p⟩, hp, heq⟩ := Option.map_eq_some_iff.1 hrun
  obtain ⟨hholdings, heq⟩ := Prod.mk.inj heq
  obtain ⟨hcleaned, hlength⟩ := Prod.mk.inj heq
  have hreach := Pool.reach_of_replay hp rfl
  obtain ⟨new, hnew, -, hprizes⟩ := prizes_credited_once hreach
  have hall : p.store.prizes cup = new.filter (·.IsPrize cup) := by
    rw [Books.prizes, show p.store.transactions = new from hnew]
  refine ⟨p, hreach, hholdings, hcleaned, ?_⟩
  rw [hall]
  refine ((hprizes cup).resolve_left fun hnil => ?_).2
  rw [hall, hnil] at hlength
  cases hlength

end Sample

end ArenaX.Orchestrator
