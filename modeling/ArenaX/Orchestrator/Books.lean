/-
The tables that payouts work on, besides those of the bracket: the results of participants, wallets, transactions and
prize pools. The columns of `tournament_participants` and `tournaments` that only payouts use are kept in tables of
their own. Ranks are counted in `ℕ`: a tournament has at most as many participants as its `max_participants`, an
`INTEGER`.
-/
import ArenaX.Orchestrator.Database

namespace ArenaX.Orchestrator

open Machine

/-- The columns `final_rank`, `prize_amount` and `prize_currency` of a participant. -/
structure ParticipantResult where
  tournamentId : Uuid
  userId : Uuid
  finalRank : Option ℕ
  prizeAmount : Option ℤ
  prizeCurrency : Option String
deriving DecidableEq

/-- Balances are `NULL` or an amount; the escrow is a decimal. -/
structure Wallet where
  userId : Uuid
  balance : ℚ
  escrowBalance : ℚ
  balanceNgn : Option ℤ
  balanceArenaxTokens : Option ℤ
deriving DecidableEq

inductive TransactionType where
  | deposit
  | withdrawal
  | payment
  | refund
  | prize
  | entryFee
  | fee
deriving DecidableEq

/-- References are unique. -/
inductive Reference where
  /-- `prize-{tournament_id}-{user_id}` -/
  | prize (tournamentId userId : Uuid)
  /-- `escrow-release-{tournament_id}-{user_id}` -/
  | escrowRelease (tournamentId userId : Uuid)
  | other (text : String)
deriving DecidableEq

inductive Description where
  /-- `Tournament prize payout tournament:{tournament_id} rank:{rank}` -/
  | prize (tournamentId : Uuid) (rank : ℕ)
  /-- `Escrow release for tournament:{tournament_id}` -/
  | escrowRelease (tournamentId : Uuid)
  | other (text : String)
deriving DecidableEq

structure Transaction where
  userId : Uuid
  transactionType : TransactionType
  amount : ℚ
  currency : String
  reference : Reference
  description : Description
deriving DecidableEq

/-- The percentages are a JSON text; the parser's complaint, or the numbers. -/
structure PrizePool where
  tournamentId : Uuid
  totalAmount : I64
  currency : String
  distributionPercentages : Except String (List ℚ)
deriving DecidableEq

structure Books extends Database where
  /-- tournaments that have a `cleaned_up_at` -/
  cleanedUp : List Uuid
  results : List ParticipantResult
  wallets : List Wallet
  transactions : List Transaction
  prizePools : List PrizePool
deriving DecidableEq

/-- Rows that a transaction can hold. -/
inductive Row where
  | tournament (id : Uuid)
  | reference (reference : Reference)
deriving DecidableEq

/-- `LIKE '%tournament:{tournament_id}%'`: ids are texts of one length. -/
def Description.Mentions (t : Uuid) : Description → Prop
  | .prize tournamentId _ => tournamentId = t
  | .escrowRelease tournamentId => tournamentId = t
  | .other _ => False

instance (t : Uuid) (description : Description) : Decidable (description.Mentions t) :=
  Description.casesOn (motive := fun description => Decidable (description.Mentions t)) description
    (fun tournamentId _ => inferInstanceAs (Decidable (tournamentId = t)))
    (fun tournamentId => inferInstanceAs (Decidable (tournamentId = t))) fun _ => inferInstanceAs (Decidable False)

/-- A `Prize` transaction of the tournament. -/
def Transaction.IsPrize (t : Uuid) (row : Transaction) : Prop :=
  row.description.Mentions t ∧ row.transactionType = .prize
deriving Decidable

namespace ParticipantResult

variable {t user : Uuid} {row : ParticipantResult}

/-- The row after the rank of a participant has been set. -/
def setRank (t user : Uuid) (rank : ℕ) (row : ParticipantResult) : ParticipantResult :=
  if row.tournamentId = t ∧ row.userId = user then { row with finalRank := some rank } else row

/-- The row after the prize of a participant has been set. -/
def setPrize (t user : Uuid) (amount : ℤ) (currency : String) (row : ParticipantResult) : ParticipantResult :=
  if row.tournamentId = t ∧ row.userId = user then
    { row with prizeAmount := some amount, prizeCurrency := some currency }
  else row

@[simp] theorem setRank_tournamentId (rank : ℕ) : (row.setRank t user rank).tournamentId = row.tournamentId := by
  unfold setRank
  split <;> rfl

@[simp] theorem setRank_userId (rank : ℕ) : (row.setRank t user rank).userId = row.userId := by
  unfold setRank
  split <;> rfl

@[simp] theorem setPrize_tournamentId (amount : ℤ) (currency : String) :
    (row.setPrize t user amount currency).tournamentId = row.tournamentId := by
  unfold setPrize
  split <;> rfl

@[simp] theorem setPrize_userId (amount : ℤ) (currency : String) :
    (row.setPrize t user amount currency).userId = row.userId := by
  unfold setPrize
  split <;> rfl

/-- What makes a row unique. -/
def key (row : ParticipantResult) : Uuid × Uuid := (row.tournamentId, row.userId)

end ParticipantResult

namespace Books

variable {b : Books} {currency : String}

/-- The rounds of a tournament, `ORDER BY round_number DESC`. -/
def roundsDesc (b : Books) (t : Uuid) : List TournamentRound :=
  (b.roundsOf t).insertionSort fun r r' => r'.roundNumber ≤ r.roundNumber

/-- The matches of a round that have been played. -/
def completedMatches (b : Books) (roundId : Uuid) : List TournamentMatch :=
  (b.roundMatches roundId).filter (·.status = .completed)

def setRank (t user : Uuid) (rank : ℕ) (b : Books) : Books :=
  { b with results := b.results.map (·.setRank t user rank) }

/-- Participants with a rank that is not the first are out. -/
def eliminate (t : Uuid) (b : Books) : Books :=
  { b with
    tournamentParticipants := b.tournamentParticipants.map fun row =>
      if row.tournamentId = t ∧ ∃ result ∈ b.results, result.tournamentId = t ∧ result.userId = row.userId ∧
        ∃ rank ∈ result.finalRank, 1 < rank then { row with status := .eliminated } else row }

/-- The participants of a tournament who have a rank, `ORDER BY final_rank ASC`. -/
def ranked (b : Books) (t : Uuid) : List (Uuid × ℕ) :=
  ((b.results.filter (·.tournamentId = t)).filterMap fun row => row.finalRank.map (row.userId, ·)).insertionSort
    fun p q => p.2 ≤ q.2

def findPrizePool (b : Books) (t : Uuid) : Option PrizePool := b.prizePools.find? (·.tournamentId = t)

/-- The transactions that pay a tournament's prizes. -/
def prizes (b : Books) (t : Uuid) : List Transaction := b.transactions.filter (·.IsPrize t)

def setPrize (t user : Uuid) (amount : ℤ) (currency : String) (b : Books) : Books :=
  { b with results := b.results.map (·.setPrize t user amount currency) }

/-- `balance_ngn = COALESCE(balance_ngn, 0) + amount`. -/
def creditNgn (user : Uuid) (amount : ℤ) (b : Books) : Books :=
  { b with
    wallets := b.wallets.map fun row =>
      if row.userId = user then { row with balanceNgn := some (row.balanceNgn.getD 0 + amount) } else row }

def HasReference (reference : Reference) (b : Books) : Prop := ∃ row ∈ b.transactions, row.reference = reference

instance (reference : Reference) : DecidablePred (HasReference reference) :=
  fun b => inferInstanceAs (Decidable (∃ row ∈ b.transactions, row.reference = reference))

def addTransaction (row : Transaction) (b : Books) : Books := { b with transactions := b.transactions ++ [row] }

/-- Rows of the tournament that keep their users and ranks. -/
theorem ranked_map {f : ParticipantResult → ParticipantResult} {t : Uuid}
    (hf : ∀ row, (f row).tournamentId = row.tournamentId)
    (h : ∀ row, row.tournamentId = t → (f row).userId = row.userId ∧ (f row).finalRank = row.finalRank) :
    ({ b with results := b.results.map f } : Books).ranked t = b.ranked t := by
  unfold ranked
  congr 1
  simp only [List.filter_map, List.filterMap_map, Function.comp_def, hf]
  refine List.filterMap_congr fun row hrow => ?_
  obtain ⟨huser, hrank⟩ := h row (of_decide_eq_true (List.mem_filter.1 hrow).2)
  rw [huser, hrank]

theorem ranked_setRank {t t' user : Uuid} {rank : ℕ} (h : t' ≠ t) :
    (b.setRank t user rank).ranked t' = b.ranked t' := by
  refine ranked_map (fun row => row.setRank_tournamentId rank) fun row hrow => ?_
  rw [ParticipantResult.setRank, if_neg fun hboth => h (hrow.symm.trans hboth.1)]
  exact ⟨rfl, rfl⟩

theorem ranked_setPrize {t t' user : Uuid} {amount : ℤ} :
    (b.setPrize t user amount currency).ranked t' = b.ranked t' := by
  refine ranked_map (fun row => ?_) fun row _ => ?_ <;> unfold ParticipantResult.setPrize <;> split <;> simp

/-- The prize of a participant has been recorded. -/
def Recorded (b : Books) (t user : Uuid) : Prop :=
  ∀ row ∈ b.results, row.tournamentId = t → row.userId = user → row.prizeAmount.isSome

/-- Prizes stay recorded when rows keep theirs. -/
theorem Recorded.map {f : ParticipantResult → ParticipantResult} {t user : Uuid} (h : b.Recorded t user)
    (hkey : ∀ row, (f row).tournamentId = row.tournamentId ∧ (f row).userId = row.userId)
    (hf : ∀ row : ParticipantResult, row.prizeAmount.isSome → (f row).prizeAmount.isSome) :
    ({ b with results := b.results.map f } : Books).Recorded t user := by
  intro row' hrow' ht huser
  obtain ⟨row, hrow, rfl⟩ := List.mem_map.1 hrow'
  exact hf row (h row hrow ((hkey row).1 ▸ ht) ((hkey row).2 ▸ huser))

theorem Recorded.setRank {t t' user user' : Uuid} {rank : ℕ} (h : b.Recorded t' user') :
    (b.setRank t user rank).Recorded t' user' := by
  refine h.map (fun row => ⟨row.setRank_tournamentId rank, row.setRank_userId rank⟩) fun row hrow => ?_
  unfold ParticipantResult.setRank
  split <;> exact hrow

theorem Recorded.setPrize {t t' user user' : Uuid} {amount : ℤ} (h : b.Recorded t' user') :
    (b.setPrize t user amount currency).Recorded t' user' := by
  refine h.map (fun row => ⟨row.setPrize_tournamentId amount currency, row.setPrize_userId amount currency⟩)
    fun row hrow => ?_
  unfold ParticipantResult.setPrize
  split
  · rfl
  · exact hrow

theorem recorded_setPrize {t user : Uuid} {amount : ℤ} :
    (b.setPrize t user amount currency).Recorded t user := by
  intro row' hrow' ht huser
  obtain ⟨row, hrow, rfl⟩ := List.mem_map.1 hrow'
  rw [row.setPrize_tournamentId] at ht
  rw [row.setPrize_userId] at huser
  rw [ParticipantResult.setPrize, if_pos ⟨ht, huser⟩]
  rfl

end Books

end ArenaX.Orchestrator
