/-
Entry fees. A join is charged by its payment method, a refund is paid in the currency of the tournament; and a fiat
payment is credited to the wallet when the participant joins, then refunded as if it had been taken from it. What joins
and refunds do to each wallet is computed exactly. The wallets are what they were before, plus external payments, when
nothing is charged or when everybody pays with tokens and the fee is in tokens.
-/
import ArenaX.Registration.Tables

namespace ArenaX.Registration

open Machine Dialog Registration.Registry
open Orchestrator (Uuid ApiError TournamentStatus ParticipantStatus TransactionType UserElo Wallet)

/-! ## What a successful join does -/

/-- What a join does to the wallet of its user. -/
def entryCharge (tournament : Tournament) (request : JoinTournamentRequest) : Wallet → Wallet :=
  if request.paymentMethod = "fiat" then Wallet.addNgn tournament.entryFee else Wallet.addTokens (-tournament.entryFee)

/-- What a join writes before it looks whether the tournament is full. -/
def Registry.enroll (user t : Uuid) (tournament : Tournament) (request : JoinTournamentRequest) (currency : String)
    (s : Registry) : Registry :=
  let paid := (s.updateWallet user (entryCharge tournament request)).addTransaction user .entryFee tournament.entryFee
    currency ("Entry fee for tournament: " ++ tournament.name)
  addToPrizePool t tournament.entryFee
    (if HasParticipant t user paid then paid else paid.addParticipant ⟨t, user, true, .paid⟩)

section Join

variable {env : Env} {now : ℤ} {user t : Uuid} {tournament : Tournament} {request : JoinTournamentRequest}
  {s s' : Registry} {pending p : Registry → Registry} {u : Unit} {participant : Participant}

theorem exec_validateTournamentJoin (h : (validateTournamentJoin tournament user now).exec pending s = (.ok u, p, s')) :
    tournament.status = .registrationOpen ∧ (s.participantCount tournament.id : ℤ) < tournament.maxParticipants ∧
      pending = p ∧ s = s' := by
  obtain ⟨hstatus, h⟩ := exec_reject_bind_eq_ok h
  obtain ⟨-, h⟩ := exec_reject_bind_eq_ok h
  rw [exec_query_bind] at h
  obtain ⟨hfull, h⟩ := exec_reject_bind_eq_ok h
  refine ⟨not_not.1 hstatus, not_le.1 hfull, ?_⟩
  split at h
  · rw [exec_query_bind] at h
    exact (exec_reject_eq_ok h).2
  · cases h
    exact ⟨rfl, rfl⟩

theorem exec_checkBalance (h : (checkBalance tournament user request).exec pending s = (.ok u, p, s')) :
    pending = p ∧ s = s' := by
  unfold checkBalance at h
  split at h
  · rw [exec_query_bind] at h
    obtain ⟨w, -, h⟩ := exec_okOr_bind_eq_ok h
    exact (exec_reject_eq_ok h).2
  · cases h
    exact ⟨rfl, rfl⟩

theorem exec_checkProvider (h : (checkProvider env tournament request).exec pending s = (.ok u, p, s')) :
    pending = p ∧ s = s' := by
  unfold checkProvider at h
  split at h
  · obtain ⟨reference, -, h⟩ := exec_okOr_bind_eq_ok h
    exact (exec_reject_eq_ok h).2
  · cases h
    exact ⟨rfl, rfl⟩

/-- A payment charges the wallet and adds a transaction. -/
theorem exec_processEntryFeePayment (h : (processEntryFeePayment env user tournament request).exec pending s =
    (.ok u, p, s')) : (request.paymentMethod = "fiat" ∨ request.paymentMethod = "arenax_token") ∧ s = s' ∧ ∃ currency,
      p = addTransaction user .entryFee tournament.entryFee currency ("Entry fee for tournament: " ++ tournament.name) ∘
        updateWallet user (entryCharge tournament request) ∘ pending := by
  unfold processEntryFeePayment at h
  split at h
  · rename_i hfiat
    obtain ⟨-, h⟩ := exec_reject_bind_eq_ok h
    obtain ⟨rfl, rfl⟩ := exec_write_eq_ok h
    exact ⟨.inl hfiat, rfl, _, by rw [entryCharge, if_pos hfiat]⟩
  · rename_i hfiat
    split at h
    · rename_i htoken
      obtain ⟨-, h⟩ := exec_reject_bind_eq_ok h
      obtain ⟨rfl, rfl⟩ := exec_write_eq_ok h
      exact ⟨.inr htoken, rfl, _, by rw [entryCharge, if_neg hfiat]⟩
    · cases h

theorem exec_updateTournamentStatusIfNeeded (h : (updateTournamentStatusIfNeeded t).exec pending s = (.ok u, p, s')) :
    s = s' ∧ (p = pending ∨ p = setTournamentStatus t .registrationClosed ∘ pending) := by
  obtain ⟨row, -, h⟩ := exec_okOr_bind_eq_ok h
  rw [exec_select_bind] at h
  split at h
  · cases h
    exact ⟨rfl, .inr rfl⟩
  · cases h
    exact ⟨rfl, .inl rfl⟩

/-- The store after a user has joined a tournament. -/
structure Joined (user t : Uuid) (tournament : Tournament) (request : JoinTournamentRequest) (s s' : Registry) :
    Prop where
  found : s.findTournament t = some tournament
  new : ¬ s.HasParticipant t user
  participants : s'.participants = s.participants ++ [⟨t, user, true, .paid⟩]
  wallets : s'.wallets = s.wallets.map fun w => if w.userId = user then entryCharge tournament request w else w
  tournaments : s'.tournaments = s.tournaments ∨
    s'.tournaments = (s.setTournamentStatus t .registrationClosed).tournaments

theorem tournaments_enroll (currency : String) :
    (s.enroll user t tournament request currency).tournaments = s.tournaments := by
  unfold enroll
  dsimp only
  split <;> rfl

theorem enroll_of_new (currency : String) (hnew : ¬ s.HasParticipant t user) :
    s.enroll user t tournament request currency = addToPrizePool t tournament.entryFee
      (addParticipant ⟨t, user, true, .paid⟩
      (addTransaction user .entryFee tournament.entryFee currency ("Entry fee for tournament: " ++ tournament.name)
        (updateWallet user (entryCharge tournament request) s))) := by
  unfold enroll
  dsimp only
  rw [if_neg (by exact hnew)]

theorem joined_enroll (currency : String) (hfound : s.findTournament t = some tournament)
    (hnew : ¬ s.HasParticipant t user) :
    Joined user t tournament request s (s.enroll user t tournament request currency) := by
  rw [enroll_of_new currency hnew]
  exact ⟨hfound, hnew, rfl, rfl, .inl rfl⟩

theorem run_joinTournament (h : (joinTournament env now user t request).run s = (.ok participant, s')) :
    ∃ tournament, Joined user t tournament request s s' := by
  obtain ⟨_, hexec⟩ := exec_of_run h
  obtain ⟨tournament, hfound, h₁⟩ := exec_okOr_bind_eq_ok hexec
  obtain ⟨_, _, _, hvalid, h₂⟩ := exec_bind_eq_ok h₁
  obtain ⟨-, -, rfl, rfl⟩ := exec_validateTournamentJoin hvalid
  obtain ⟨hnew, h₃⟩ := exec_reject_bind_eq_ok h₂
  obtain ⟨_, _, _, hbalance, h₄⟩ := exec_bind_eq_ok h₃
  obtain ⟨rfl, rfl⟩ := exec_checkBalance hbalance
  obtain ⟨_, _, _, hprovider, h₅⟩ := exec_bind_eq_ok h₄
  obtain ⟨rfl, rfl⟩ := exec_checkProvider hprovider
  have h₆ := exec_transaction_eq_ok h₅
  obtain ⟨_, _, _, hpay, h₇⟩ := exec_bind_eq_ok h₆
  obtain ⟨-, rfl, currency, rfl⟩ := exec_processEntryFeePayment hpay
  obtain ⟨-, h₈⟩ := exec_insert_bind_eq_ok h₇
  rw [exec_modify_bind] at h₈
  obtain ⟨_, _, _, hclose, h₉⟩ := exec_bind_eq_ok h₈
  obtain ⟨rfl, hcases⟩ := exec_updateTournamentStatusIfNeeded hclose
  have hjoined : Joined user t tournament request s _ := joined_enroll currency hfound (by simpa using hnew)
  have hs' : _ = s' := (Prod.mk.inj (Prod.mk.inj h₉).2).2
  refine ⟨tournament, ?_⟩
  rcases hcases with hp | hp
  · rw [← hs', hp]
    exact hjoined
  · rw [← hs', hp]
    refine ⟨hjoined.found, hjoined.new, hjoined.participants, hjoined.wallets, .inr ?_⟩
    exact congrArg (List.map _) (tournaments_enroll currency)

end Join

/-! ## Sequences of joins -/

structure Join where
  user : Uuid
  now : ℤ
  request : JoinTournamentRequest
deriving DecidableEq

/-- Joins one after another; all of them have to succeed. -/
def joinAll (env : Env) (t : Uuid) : List Join → Registry → Option Registry
  | [], s => some s
  | j :: rest, s => match (joinTournament env j.now j.user t j.request).run s with
    | (.ok _, s') => joinAll env t rest s'
    | (.error _, _) => none

/-- What has been paid by a user outside of the platform. -/
def externalPayments (tournament : Tournament) (joins : List Join) (user : Uuid) : ℤ :=
  (joins.countP fun j => j.user = user ∧ j.request.paymentMethod = "fiat") * tournament.entryFee

/-- What joins do to a wallet. -/
def chargeAll (tournament : Tournament) (joins : List Join) (w : Wallet) : Wallet :=
  joins.foldl (fun w j => if w.userId = j.user then entryCharge tournament j.request w else w) w

section Wallets

variable {tournament : Tournament} {amount amount' : ℤ} {w : Wallet} {t : Uuid} {s s' : Registry}

@[simp] theorem Wallet.addTokens_userId : (Wallet.addTokens amount w).userId = w.userId := rfl

@[simp] theorem Wallet.addTokens_addTokens :
    Wallet.addTokens amount (Wallet.addTokens amount' w) = Wallet.addTokens (amount' + amount) w := by
  simp [Wallet.addTokens, Function.comp_def, add_assoc]

@[simp] theorem Wallet.addTokens_zero : Wallet.addTokens 0 w = w := by
  simp [Wallet.addTokens]

@[simp] theorem Wallet.addNgn_zero : Wallet.addNgn 0 w = w := by
  simp [Wallet.addNgn]

/-- Tokens that are added to the wallets of users, one after another. -/
theorem foldl_addTokens (users : List Uuid) (amount : ℤ) (w : Wallet) :
    users.foldl (fun w user => if w.userId = user then Wallet.addTokens amount w else w) w =
      Wallet.addTokens (users.count w.userId * amount) w := by
  induction users generalizing w with
  | nil => simp
  | cons user users ih =>
    rw [List.foldl_cons, ih, List.count_cons]
    by_cases hw : w.userId = user
    · rw [if_pos hw, Wallet.addTokens_userId, Wallet.addTokens_addTokens, if_pos (by simp [hw])]
      push_cast
      ring_nf
    · rw [if_neg hw, if_neg (by simpa using Ne.symm hw), Nat.add_zero]

end Wallets

section Sequences

variable {env : Env} {tournament updated : Tournament} {joins : List Join} {t : Uuid} {s s₀ s' : Registry} {w : Wallet}
  {participants : List Participant}

theorem findTournament_setTournamentStatus (t' : Uuid) (status : TournamentStatus) :
    (s.setTournamentStatus t' status).findTournament t =
      (s.findTournament t).map fun row => if row.id = t' then { row with status := status } else row := by
  rw [findTournament, setTournamentStatus, List.find?_map]
  refine congrArg (Option.map _) (congrArg (s.tournaments.find? ·) (funext fun row => ?_))
  simp only [Function.comp]
  split <;> rfl

/-- Only the status of a tournament changes when somebody joins. -/
theorem Joined.findTournament {user : Uuid} {request : JoinTournamentRequest}
    (h : Joined user t tournament request s s') :
    ∃ status, s'.findTournament t = some { tournament with status := status } := by
  rcases h.tournaments with htournaments | htournaments
  · exact ⟨tournament.status, by rw [Registry.findTournament, htournaments]; exact h.found⟩
  · have hid : tournament.id = t := by simpa using List.find?_some h.found
    refine ⟨.registrationClosed, ?_⟩
    have hfind := findTournament_setTournamentStatus (s := s) (t := t) t .registrationClosed
    rw [h.found, Option.map_some, if_pos hid] at hfind
    rw [Registry.findTournament, htournaments]
    exact hfind

/-- What a sequence of joins has done. -/
theorem joinAll_spec (h : joinAll env t joins s₀ = some s) (hfound : s₀.findTournament t = some tournament) :
    s.wallets = s₀.wallets.map (chargeAll tournament joins) ∧
    s.participantsOf t = s₀.participantsOf t ++ joins.map (fun j => ⟨t, j.user, true, .paid⟩) ∧
    ∃ status, s.findTournament t = some { tournament with status := status } := by
  induction joins generalizing s₀ tournament with
  | nil =>
    cases h
    exact ⟨(List.map_id _).symm, by simp, tournament.status, hfound⟩
  | cons j joins ih =>
    unfold joinAll at h
    split at h
    · rename_i participant s₁ hrun
      obtain ⟨row, hjoined⟩ := run_joinTournament hrun
      obtain rfl : row = tournament := Option.some.inj (hjoined.found.symm.trans hfound)
      obtain ⟨status₁, hfound₁⟩ := hjoined.findTournament
      obtain ⟨hwallets, hparticipants, _, hfound'⟩ := ih h hfound₁
      refine ⟨?_, ?_, _, hfound'⟩
      · rw [hwallets, hjoined.wallets, List.map_map]
        rfl
      · rw [hparticipants, participantsOf, hjoined.participants]
        simp [participantsOf]
    · cases h

/-- What refunds do to a wallet. -/
def creditAll (tournament : Tournament) (participants : List Participant) (w : Wallet) : Wallet :=
  participants.foldl (fun w p => if w.userId = p.userId then refundWallet tournament w else w) w

theorem run_refundAll {u : Unit} (h : (refundAll env tournament participants).run s = (.ok u, s')) :
    s'.wallets = s.wallets.map (creditAll tournament participants) ∧ s'.tournaments = s.tournaments := by
  induction participants generalizing s with
  | nil =>
    cases h
    exact ⟨(List.map_id _).symm, rfl⟩
  | cons p rest ih =>
    unfold refundAll createTransaction at h
    rw [bind_assoc] at h
    obtain ⟨-, h⟩ := Script.run_reject_bind_eq_ok h
    obtain ⟨hwallets, htournaments⟩ := ih h
    refine ⟨?_, htournaments⟩
    rw [hwallets]
    exact List.map_map

/-- A cancellation that succeeds has refunded everybody who had paid. -/
theorem run_cancelTournament (h : (cancelTournament env t).run s = (.ok updated, s')) : ∃ tournament,
    s.findTournament t = some tournament ∧
    s'.wallets = s.wallets.map (creditAll tournament (s.paidParticipants t)) := by
  obtain ⟨_, hfound, h⟩ := Script.run_okOr_bind_eq_ok h
  obtain ⟨-, h⟩ := Script.run_reject_bind_eq_ok h
  rw [Script.run_query_bind] at h
  obtain ⟨_, s₁, hrefunds, h⟩ := Script.run_bind_eq_ok h
  have hwallets := (run_refundAll hrefunds).1
  obtain ⟨row, s₂, hstatus, h⟩ := Script.run_change_bind_eq_ok h
  unfold cancelStatus at hstatus
  split at hstatus
  · cases hstatus
    cases h
    exact ⟨_, hfound, hwallets⟩
  · cases hstatus

/-! ## Neutrality -/

theorem chargeAll_of_free (hfee : (tournament.entryFee : ℤ) = 0) : chargeAll tournament joins w = w := by
  induction joins generalizing w with
  | nil => rfl
  | cons j joins ih =>
    have hcharge : (if w.userId = j.user then entryCharge tournament j.request w else w) = w := by
      unfold entryCharge
      split_ifs <;> simp [hfee]
    exact (congrArg (chargeAll tournament joins) hcharge).trans ih

theorem creditAll_of_free (hfee : (tournament.entryFee : ℤ) = 0) :
    creditAll tournament participants w = w := by
  induction participants generalizing w with
  | nil => rfl
  | cons p rest ih =>
    have hcredit : (if w.userId = p.userId then refundWallet tournament w else w) = w := by
      simp [refundWallet, hfee]
    exact (congrArg (creditAll tournament rest) hcredit).trans ih

/-- Everybody pays with tokens. -/
theorem chargeAll_of_tokens (hmethod : ∀ j ∈ joins, j.request.paymentMethod = "arenax_token") :
    chargeAll tournament joins w = Wallet.addTokens ((joins.map (·.user)).count w.userId * -tournament.entryFee) w := by
  rw [← foldl_addTokens, List.foldl_map]
  refine List.foldl_ext _ _ w fun w j hj => ?_
  have hfiat : j.request.paymentMethod ≠ "fiat" := by
    rw [hmethod j hj]
    decide
  rw [entryCharge, if_neg hfiat]

theorem creditAll_of_tokens (htokens : tournament.InTokens) :
    creditAll tournament participants w =
      Wallet.addTokens ((participants.map (·.userId)).count w.userId * tournament.entryFee) w := by
  rw [← foldl_addTokens, List.foldl_map]
  refine List.foldl_ext _ _ w fun w p _ => ?_
  rw [refundWallet, if_pos htokens]

/-- Wallets end as they were, plus what has been paid from outside, when joining is free or everybody pays with tokens
and the fee is in tokens. -/
theorem entry_fees_neutral (hstart : s₀.participantsOf t = []) (hfound : s₀.findTournament t = some tournament)
    (hjoins : joinAll env t joins s₀ = some s) (hcancel : (cancelTournament env t).run s = (.ok updated, s'))
    (hcharged : (tournament.entryFee : ℤ) = 0 ∨
      tournament.InTokens ∧ ∀ j ∈ joins, j.request.paymentMethod = "arenax_token") :
    s'.wallets = s₀.wallets.map fun w => Wallet.addNgn (externalPayments tournament joins w.userId) w := by
  obtain ⟨hwallets, hparticipants, status, hfound'⟩ := joinAll_spec hjoins hfound
  obtain ⟨row, hrow, hrefunds⟩ := run_cancelTournament hcancel
  obtain rfl : row = { tournament with status := status } := Option.some.inj (hrow.symm.trans hfound')
  rw [hrefunds, hwallets, List.map_map]
  refine List.map_congr_left fun w _ => ?_
  show creditAll tournament (s.paidParticipants t) (chargeAll tournament joins w) = _
  rcases hcharged with hfee | ⟨htokens, hmethod⟩
  · rw [chargeAll_of_free hfee, creditAll_of_free hfee, externalPayments, hfee, mul_zero, Wallet.addNgn_zero]
  · have hpaid : (s.paidParticipants t).map (·.userId) = joins.map (·.user) := by
      rw [paidParticipants, hparticipants, hstart]
      simp [List.filter_map, Function.comp_def]
    have hexternal : externalPayments tournament joins w.userId = 0 := by
      have hcount : joins.countP (fun j => j.user = w.userId ∧ j.request.paymentMethod = "fiat") = 0 :=
        List.countP_eq_zero.2 fun j hj => by simp [hmethod j hj]
      rw [externalPayments, hcount]
      simp
    rw [chargeAll_of_tokens hmethod, creditAll_of_tokens htokens, hpaid, Wallet.addTokens_userId,
      Wallet.addTokens_addTokens, hexternal, Wallet.addNgn_zero, mul_neg, neg_add_cancel, Wallet.addTokens_zero]

end Sequences

namespace Sample

export Orchestrator.Sample (cup alice bob carol)

/-- A tournament for two that costs 500. -/
def cupIn (currency : String) : Tournament :=
  ⟨cup, "Cup", "chess", 2, 500, currency, .registrationOpen, 100, none, none⟩

def opened (currency : String) : Registry where
  nextId := 20
  tournaments := [cupIn currency]
  participants := []
  userElo := []
  wallets := [⟨alice, 0, 0, some 0, some 700⟩, ⟨bob, 0, 0, some 0, some 500⟩]
  transactions := []
  prizePools := [⟨cup, 0⟩]
  auditLogs := []

def withTokens (user : Uuid) : Join := ⟨user, 50, ⟨"arenax_token", none⟩⟩

def withFiat (user : Uuid) (reference : String) : Join := ⟨user, 50, ⟨"fiat", some reference⟩⟩

/-- Users have joined the cup, and it has been cancelled. -/
theorem cancelled (env : Env) (joins : List Join) (start : Registry) (P : Registry → Registry → Prop)
    (h : ∃ s ∈ joinAll env cup joins start, ((cancelTournament env cup).run s).1.isOk ∧
      P s ((cancelTournament env cup).run s).2) :
    ∃ s s' updated, joinAll env cup joins start = some s ∧ (cancelTournament env cup).run s =
      (.ok updated, s') ∧ P s s' := by
  obtain ⟨s, hs, hok, hP⟩ := h
  rcases hcancel : (cancelTournament env cup).run s with ⟨e | updated, s'⟩
  · rw [hcancel] at hok
    cases hok
  · rw [hcancel] at hP
    exact ⟨s, s', updated, hs, hcancel, hP⟩

/-- A tournament that costs nothing. -/
def free : Registry := { opened "NGN" with tournaments := [{ cupIn "NGN" with entryFee := i64.wrap 0 }] }

/-- Tokens are spent and come back, with a column that is wide enough for `ARENAX_TOKEN`; with the declared one no join
with tokens succeeds, and joins are neutral that are free. -/
theorem entry_fees_neutral_cups :
    (∃ s s' updated, joinAll ⟨fun _ _ => true, 20⟩ cup [withTokens alice, withTokens bob] (opened "ARENAX_TOKEN") =
      some s ∧ (cancelTournament ⟨fun _ _ => true, 20⟩ cup).run s = (.ok updated, s') ∧
      s.wallets ≠ (opened "ARENAX_TOKEN").wallets ∧ s'.wallets = (opened "ARENAX_TOKEN").wallets) ∧
    joinAll .source cup [withTokens alice] (opened "ARENAX_TOKEN") = none ∧
    ∃ s s' updated, joinAll .source cup [withFiat alice "REF", withFiat bob "REF"] free = some s ∧
      (cancelTournament .source cup).run s = (.ok updated, s') ∧ s.participants.length = 2 ∧
      s'.wallets = free.wallets := by
  refine ⟨?_, by decide +kernel, ?_⟩
  · obtain ⟨s, s', updated, hs, hcancel, hne⟩ := cancelled ⟨fun _ _ => true, 20⟩ [withTokens alice, withTokens bob]
      (opened "ARENAX_TOKEN") (fun s _ => s.wallets ≠ (opened "ARENAX_TOKEN").wallets) (by decide +kernel)
    have hfound : (opened "ARENAX_TOKEN").findTournament cup = some (cupIn "ARENAX_TOKEN") := by decide
    have hneutral := entry_fees_neutral rfl hfound hs hcancel (.inr (by decide))
    exact ⟨s, s', updated, hs, hcancel, hne, hneutral.trans (by decide)⟩
  · obtain ⟨s, s', updated, hs, hcancel, htwo⟩ := cancelled .source [withFiat alice "REF", withFiat bob "REF"] free
      (fun s _ => s.participants.length = 2) (by decide +kernel)
    have hfound : free.findTournament cup = some { cupIn "NGN" with entryFee := i64.wrap 0 } := by decide
    have hneutral := entry_fees_neutral rfl hfound hs hcancel (.inl rfl)
    exact ⟨s, s', updated, hs, hcancel, htwo, hneutral.trans (by decide)⟩

/-- Alice has paid 500 from outside, and gets them a second time. -/
theorem fiat_refunded_twice : ∃ s s' updated, joinAll .source cup [withFiat alice "REF"] (opened "NGN") = some s ∧
    (cancelTournament .source cup).run s = (.ok updated, s') ∧
    externalPayments (cupIn "NGN") [withFiat alice "REF"] alice = 500 ∧
    (s'.findWallet alice).map (·.balanceNgn) = some (some 1000) :=
  cancelled _ _ _ (fun _ s' => _ ∧ _) (by decide +kernel)

end Sample

end ArenaX.Registration
