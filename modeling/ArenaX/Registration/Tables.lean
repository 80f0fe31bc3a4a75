/-
Registration for tournaments: the tables it works on, and the programs `join_tournament` and `cancel_tournament`. A join
reads and checks outside of its transaction, then pays, registers, adds to the prize pool and closes registration when
the tournament is full, inside of it. A cancellation refunds one participant after another, each statement committed at
once, and only then writes the status. Amounts are counted in `ℤ`: they are taken to stay within `BIGINT`. The events
that are published after a join are left out.
-/
import ArenaX.Lib.Sessions
import ArenaX.Orchestrator.Books

namespace ArenaX.Registration

open Machine
open Orchestrator (Uuid ApiError TournamentStatus ParticipantStatus TransactionType UserElo Wallet)

structure Tournament where
  id : Uuid
  name : String
  game : String
  maxParticipants : I32
  entryFee : I64
  entryFeeCurrency : String
  status : TournamentStatus
  registrationDeadline : ℤ
  minSkillLevel : Option I32
  maxSkillLevel : Option I32
deriving DecidableEq

structure Participant where
  tournamentId : Uuid
  userId : Uuid
  entryFeePaid : Bool
  status : ParticipantStatus
deriving DecidableEq

/-- The reference is generated. -/
structure Transaction where
  reference : Uuid
  userId : Uuid
  transactionType : TransactionType
  amount : ℤ
  currency : String
  description : String
deriving DecidableEq

structure PrizePool where
  tournamentId : Uuid
  totalAmount : ℤ
deriving DecidableEq

/-- A change of a tournament's status. -/
structure AuditLog where
  resourceId : Uuid
  oldStatus : TournamentStatus
  newStatus : TournamentStatus
deriving DecidableEq

structure Registry where
  nextId : ℕ
  tournaments : List Tournament
  participants : List Participant
  userElo : List UserElo
  wallets : List Wallet
  transactions : List Transaction
  prizePools : List PrizePool
  auditLogs : List AuditLog
deriving DecidableEq

/-- Rows that a transaction can hold. -/
inductive Row where
  | tournament (id : Uuid)
  | participant (tournamentId userId : Uuid)
  | wallet (userId : Uuid)
  | prizePool (tournamentId : Uuid)
deriving DecidableEq

structure JoinTournamentRequest where
  paymentMethod : String
  paymentReference : Option String
deriving DecidableEq

/-- What is not decided by the code: whether the payment provider says that a reference has been paid with an amount,
and how many characters the column `transactions.currency` has. -/
structure Env where
  verifyPaymentWithProvider : String → I64 → Bool
  currencyWidth : ℕ

/-- The provider that is simulated, which confirms everything, and the column that the migrations declare. -/
def Env.source : Env := ⟨fun _ _ => true, 3⟩

/-! ## Statements -/

namespace Tournament

/-- The column that refunds go to. -/
def InTokens (t : Tournament) : Prop := t.entryFeeCurrency = "ARENAX_TOKEN"
deriving Decidable

end Tournament

/-- `balance_arenax_tokens = balance_arenax_tokens + amount`; `NULL` stays `NULL`. -/
def Wallet.addTokens (amount : ℤ) (w : Wallet) : Wallet :=
  { w with balanceArenaxTokens := w.balanceArenaxTokens.map (· + amount) }

/-- `balance_ngn = balance_ngn + amount`; `NULL` stays `NULL`. -/
def Wallet.addNgn (amount : ℤ) (w : Wallet) : Wallet := { w with balanceNgn := w.balanceNgn.map (· + amount) }

namespace Registry

def findTournament (s : Registry) (t : Uuid) : Option Tournament := s.tournaments.find? (·.id = t)

def participantsOf (s : Registry) (t : Uuid) : List Participant := s.participants.filter (·.tournamentId = t)

/-- `COUNT(*) … as i32`. -/
def participantCount (s : Registry) (t : Uuid) : I32 := i32.wrap (s.participantsOf t).length

theorem participantCount_congr {s s' : Registry} {t : Uuid} (h : s'.participantsOf t = s.participantsOf t) :
    s'.participantCount t = s.participantCount t := by
  rw [participantCount, participantCount, h]

/-- As long as there are not too many of them, participants are counted right. -/
theorem participantCount_eq {s : Registry} {t : Uuid} {n : I32} (h : ((s.participantsOf t).length : ℤ) ≤ n) :
    (s.participantCount t : ℤ) = (s.participantsOf t).length := by
  exact wrap_of_nonneg (Int.natCast_nonneg _) (h.trans n.hi)

def HasParticipant (t user : Uuid) (s : Registry) : Prop := ∃ p ∈ s.participants, p.tournamentId = t ∧ p.userId = user

instance (t user : Uuid) : DecidablePred (HasParticipant t user) :=
  fun s => inferInstanceAs (Decidable (∃ p ∈ s.participants, p.tournamentId = t ∧ p.userId = user))

/-- A user who has not played a game yet has the rating 1200. -/
def getUserElo (s : Registry) (user : Uuid) (game : String) : I32 :=
  ((s.userElo.find? fun row => row.userId = user ∧ row.game = game).map (·.currentRating)).getD 1200

def findWallet (s : Registry) (user : Uuid) : Option Wallet := s.wallets.find? (·.userId = user)

/-- `UPDATE wallets … WHERE user_id = user`. -/
def updateWallet (user : Uuid) (f : Wallet → Wallet) (s : Registry) : Registry :=
  { s with wallets := s.wallets.map fun w => if w.userId = user then f w else w }

def addTransaction (user : Uuid) (transactionType : TransactionType) (amount : ℤ) (currency description : String)
    (s : Registry) : Registry :=
  { s with
    nextId := s.nextId + 1
    transactions := s.transactions ++ [⟨⟨s.nextId⟩, user, transactionType, amount, currency, description⟩] }

def addParticipant (p : Participant) (s : Registry) : Registry := { s with participants := s.participants ++ [p] }

def addToPrizePool (t : Uuid) (amount : ℤ) (s : Registry) : Registry :=
  { s with
    prizePools := s.prizePools.map fun row =>
      if row.tournamentId = t then { row with totalAmount := row.totalAmount + amount } else row }

def setTournamentStatus (t : Uuid) (status : TournamentStatus) (s : Registry) : Registry :=
  { s with tournaments := s.tournaments.map fun row => if row.id = t then { row with status := status } else row }

def addAuditLog (row : AuditLog) (s : Registry) : Registry := { s with auditLogs := s.auditLogs ++ [row] }

end Registry

/-! ## Joining -/

section Join

open Dialog Registration.Registry

def validateTournamentJoin (tournament : Tournament) (user : Uuid) (now : ℤ) : Dialog ApiError Registry Row Unit := do
  reject (tournament.status ≠ .registrationOpen) (.badRequest "Tournament is not accepting registrations")
  reject (tournament.registrationDeadline < now) (.badRequest "Registration deadline has passed")
  let currentCount ← query (·.participantCount tournament.id)
  reject ((tournament.maxParticipants : ℤ) ≤ currentCount) (.badRequest "Tournament is full")
  match tournament.minSkillLevel, tournament.maxSkillLevel with
  | some minSkill, some maxSkill => do
    let userElo ← query (·.getUserElo user tournament.game)
    reject ((userElo : ℤ) < minSkill ∨ (maxSkill : ℤ) < userElo)
      (.badRequest "User skill level does not meet tournament requirements")
  | _, _ => pure ()

/-- Token payments: the balance is looked up before the transaction. -/
def checkBalance (tournament : Tournament) (user : Uuid) (request : JoinTournamentRequest) :
    Dialog ApiError Registry Row Unit :=
  if request.paymentMethod = "arenax_token" then do
    let row ← query (·.findWallet user)
    let wallet ← okOr row .notFound
    reject (wallet.balanceArenaxTokens.getD 0 < tournament.entryFee) (.badRequest "Insufficient ArenaX token balance")
  else pure ()

/-- Fiat payments: the provider is asked before the transaction. -/
def checkProvider (env : Env) (tournament : Tournament) (request : JoinTournamentRequest) :
    Dialog ApiError Registry Row Unit :=
  if request.paymentMethod = "fiat" then do
    let reference ← okOr request.paymentReference (.badRequest "Payment reference is required for fiat payments")
    reject (env.verifyPaymentWithProvider reference tournament.entryFee = false)
      (.badRequest "Payment verification failed")
  else pure ()

def createTransactionInTx (env : Env) (user : Uuid) (transactionType : TransactionType) (amount : ℤ)
    (currency description : String) : Dialog ApiError Registry Row Unit := do
  reject (env.currencyWidth < currency.length) .databaseError
  write (addTransaction user transactionType amount currency description)

def processEntryFeePayment (env : Env) (user : Uuid) (tournament : Tournament) (request : JoinTournamentRequest) :
    Dialog ApiError Registry Row Unit :=
  if request.paymentMethod = "fiat" then do
    modify (.wallet user) (updateWallet user (Wallet.addNgn tournament.entryFee))
    createTransactionInTx env user .entryFee tournament.entryFee tournament.entryFeeCurrency
      ("Entry fee for tournament: " ++ tournament.name)
  else if request.paymentMethod = "arenax_token" then do
    modify (.wallet user) (updateWallet user (Wallet.addTokens (-tournament.entryFee)))
    createTransactionInTx env user .entryFee tournament.entryFee "ARENAX_TOKEN"
      ("Entry fee for tournament: " ++ tournament.name)
  else throw (.badRequest "Invalid payment method")

def updateTournamentStatusIfNeeded (t : Uuid) : Dialog ApiError Registry Row Unit := do
  let row ← select (·.findTournament t)
  let tournament ← okOr row .databaseError
  let participantCount ← select (·.participantCount t)
  if (tournament.maxParticipants : ℤ) ≤ participantCount then
    modify (.tournament t) (setTournamentStatus t .registrationClosed)
  else pure ()

/-- The transaction. -/
def register (env : Env) (user t : Uuid) (tournament : Tournament) (request : JoinTournamentRequest) :
    Dialog ApiError Registry Row Participant := do
  processEntryFeePayment env user tournament request
  insert (.participant t user) (HasParticipant t user) .databaseError (addParticipant ⟨t, user, true, .paid⟩)
  modify (.prizePool t) (addToPrizePool t tournament.entryFee)
  updateTournamentStatusIfNeeded t
  commit
  pure ⟨t, user, true, .paid⟩

def joinTournament (env : Env) (now : ℤ) (user t : Uuid) (request : JoinTournamentRequest) :
    Dialog ApiError Registry Row Participant := do
  let row ← query (·.findTournament t)
  let tournament ← okOr row .notFound
  validateTournamentJoin tournament user now
  let isParticipant ← query fun s => decide (s.HasParticipant t user)
  reject (isParticipant = true) (.badRequest "User is already a participant")
  checkBalance tournament user request
  checkProvider env tournament request
  transaction (register env user t tournament request)

end Join

/-! ## Cancelling -/

section Cancel

open Script Registration.Registry

/-- `entry_fee_paid = true`. -/
def Registry.paidParticipants (s : Registry) (t : Uuid) : List Participant :=
  (s.participantsOf t).filter (·.entryFeePaid)

/-- Refunds go to the column of the tournament's currency. -/
def refundWallet (tournament : Tournament) (w : Wallet) : Wallet :=
  if tournament.InTokens then Wallet.addTokens tournament.entryFee w else Wallet.addNgn tournament.entryFee w

def createTransaction (env : Env) (user : Uuid) (transactionType : TransactionType) (amount : ℤ)
    (currency description : String) : Script ApiError Registry Unit := do
  reject (env.currencyWidth < currency.length) .databaseError
  update (addTransaction user transactionType amount currency description)

def refundAll (env : Env) (tournament : Tournament) : List Participant → Script ApiError Registry Unit
  | [] => pure ()
  | p :: rest => do
    update (updateWallet p.userId (refundWallet tournament))
    createTransaction env p.userId .refund tournament.entryFee tournament.entryFeeCurrency
      ("Refund for cancelled tournament: " ++ tournament.name)
    refundAll env tournament rest

/-- `UPDATE … RETURNING *`. -/
def cancelStatus (t : Uuid) (s : Registry) : Except ApiError (Tournament × Registry) :=
  match (s.setTournamentStatus t .cancelled).findTournament t with
  | some row => .ok (row, s.setTournamentStatus t .cancelled)
  | none => .error .databaseError

def cancelTournament (env : Env) (t : Uuid) : Script ApiError Registry Tournament := do
  let row ← query (·.findTournament t)
  let tournament ← okOr row .notFound
  reject (tournament.status = .inProgress ∨ tournament.status = .completed ∨ tournament.status = .cancelled)
    (.badRequest "Cannot cancel a tournament that is already in progress, completed, or cancelled")
  let participants ← query (·.paidParticipants t)
  refundAll env tournament participants
  let updated ← change (cancelStatus t)
  update (addAuditLog ⟨t, tournament.status, .cancelled⟩)
  pure updated

end Cancel

end ArenaX.Registration
