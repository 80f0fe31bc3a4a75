/-
Limits of registration while many users join. A join counts the participants and looks up the balance before its
transaction, and does not look again inside of it. As long as two joins for one tournament or of one user do not
overlap, what has been looked up still holds when the transaction is committed: the tournament has room, the tokens are
there, and the prize pool grows by the entry fee of each new participant. Two overlapping joins can both take the last
place.
-/
import ArenaX.Lib.RelyGuarantee
import ArenaX.Registration.EntryFees

namespace ArenaX.Registration

open Machine Dialog Registration.Registry
open TransitionSystem (Unrestricted)
open Orchestrator (Uuid ApiError TournamentStatus ParticipantStatus TransactionType UserElo Wallet)

/-! ## How the registry may change -/

/-- What a join has for itself from its first statement to its last. -/
inductive Own where
  | user (id : Uuid)
  | tournament (id : Uuid)
deriving DecidableEq

namespace Registry

/-- What is settled about a tournament. -/
def terms (s : Registry) (t : Uuid) : Option (I32 × I64) :=
  (s.findTournament t).map fun row => (row.maxParticipants, row.entryFee)

def feeOf (s : Registry) (t : Uuid) : ℤ := ((s.terms t).map fun terms => (terms.2 : ℤ)).getD 0

/-- A tournament has at most as many participants as it may have. -/
def WithinLimit (s : Registry) (t : Uuid) : Prop := ∀ terms ∈ s.terms t, ((s.participantsOf t).length : ℤ) ≤ terms.1

/-- Users have one wallet each, and no debts in tokens. -/
structure Covered (s : Registry) : Prop where
  unique : (s.wallets.map (·.userId)).Nodup
  nonneg : ∀ w ∈ s.wallets, ∀ balance ∈ w.balanceArenaxTokens, 0 ≤ balance

/-- How many of these join a tournament. -/
def newcomers (new : List Participant) (t : Uuid) : ℕ := new.countP (·.tournamentId = t)

/-- The pool after these participants have joined. -/
def grown (s : Registry) (new : List Participant) (pool : PrizePool) : PrizePool :=
  { pool with totalAmount := pool.totalAmount + newcomers new pool.tournamentId * s.feeOf pool.tournamentId }

/-- Participants are added, none to what is owned. Limits are kept, and prize pools grow by the fees. -/
structure Admits (o : List Own) (s s' : Registry) (new : List Participant) : Prop where
  participants : s'.participants = s.participants ++ new
  terms : ∀ t, s'.terms t = s.terms t
  prizePools : s'.prizePools = s.prizePools.map (s.grown new)
  limits : ∀ t, s.WithinLimit t → s'.WithinLimit t
  covered : s.Covered → s'.Covered
  ownTournament : ∀ t, Own.tournament t ∈ o → ∀ p ∈ new, p.tournamentId ≠ t
  ownUser : ∀ user, Own.user user ∈ o → s'.findWallet user = s.findWallet user

namespace Admits

variable {o : List Own} {s s' s'' : Registry} {new new' : List Participant} {t user : Uuid}

theorem map_grown_nil (s : Registry) (pools : List PrizePool) : pools.map (s.grown []) = pools := by
  refine (List.map_congr_left fun pool _ => ?_).trans (List.map_id _)
  simp [grown, newcomers]

theorem refl (o : List Own) (s : Registry) : s.Admits o s [] where
  participants := (List.append_nil _).symm
  terms _ := rfl
  prizePools := (map_grown_nil s _).symm
  limits _ h := h
  covered h := h
  ownTournament _ _ _ h := (List.not_mem_nil h).elim
  ownUser _ _ := rfl

theorem trans (h : s.Admits o s' new) (h' : s'.Admits o s'' new') : s.Admits o s'' (new ++ new') where
  participants := by rw [h'.participants, h.participants, List.append_assoc]
  terms t := (h'.terms t).trans (h.terms t)
  prizePools := by
    rw [h'.prizePools, h.prizePools, List.map_map]
    refine List.map_congr_left fun pool _ => ?_
    have happend : newcomers (new ++ new') pool.tournamentId =
        newcomers new pool.tournamentId + newcomers new' pool.tournamentId := List.countP_append
    simp only [Function.comp, grown, feeOf, h.terms, happend, Nat.cast_add, add_mul, add_assoc]
  limits t hs := h'.limits t (h.limits t hs)
  covered hs := h'.covered (h.covered hs)
  ownTournament t ht p hp := by
    rcases List.mem_append.1 hp with hp | hp
    · exact h.ownTournament t ht p hp
    · exact h'.ownTournament t ht p hp
  ownUser user huser := (h'.ownUser user huser).trans (h.ownUser user huser)

/-- Nobody else joins a tournament that is owned. -/
theorem participantsOf_eq (h : s.Admits o s' new) (ht : Own.tournament t ∈ o) :
    s'.participantsOf t = s.participantsOf t := by
  rw [participantsOf, h.participants, List.filter_append, participantsOf]
  have hnew : new.filter (·.tournamentId = t) = [] :=
    List.filter_eq_nil_iff.2 fun p hp => by simpa using h.ownTournament t ht p hp
  rw [hnew, List.append_nil]

theorem hasParticipant_iff (h : s.Admits o s' new) (ht : Own.tournament t ∈ o) :
    s'.HasParticipant t user ↔ s.HasParticipant t user := by
  have hmem : ∀ s : Registry, s.HasParticipant t user ↔ ∃ p ∈ s.participantsOf t, p.userId = user := by
    intro s
    simp [HasParticipant, participantsOf, and_assoc]
  rw [hmem, hmem, h.participantsOf_eq ht]

end Admits

end Registry

/-- How others may change the registry while a join owns its user and its tournament. -/
def registering : Rely Own Row Registry where
  rel o _ s s' := ∃ new, s.Admits o s' new
  refl o _ s := ⟨[], .refl o s⟩
  trans := fun ⟨_, h⟩ ⟨_, h'⟩ => ⟨_, h.trans h'⟩

/-! ## A join -/

/-- What a join has looked up. -/
structure Checked (user t : Uuid) (tournament : Tournament) (request : JoinTournamentRequest) (s : Registry) :
    Prop where
  terms : s.terms t = some (tournament.maxParticipants, tournament.entryFee)
  room : (s.participantCount t : ℤ) < tournament.maxParticipants
  covered : request.paymentMethod = "arenax_token" →
    ∃ w, s.findWallet user = some w ∧ (tournament.entryFee : ℤ) ≤ w.balanceArenaxTokens.getD 0

section Join

variable {env : Env} {now : ℤ} {user t : Uuid} {tournament : Tournament} {request : JoinTournamentRequest}
  {s s' : Registry} {held : List Row} {o : List Own}

theorem rel_setTournamentStatus (status : TournamentStatus) : s.Admits o (s.setTournamentStatus t status) [] := by
  have hterms : ∀ t', (s.setTournamentStatus t status).terms t' = s.terms t' := by
    intro t'
    rw [terms, findTournament_setTournamentStatus, Option.map_map]
    refine congrArg (Option.map · _) (funext fun row => ?_)
    simp only [Function.comp]
    split <;> rfl
  refine ⟨(List.append_nil _).symm, hterms, (Admits.map_grown_nil s _).symm,
    fun t' h => ?_, fun h => ⟨h.unique, h.nonneg⟩, fun _ _ _ h => (List.not_mem_nil h).elim, fun _ _ => rfl⟩
  intro terms hterms'
  rw [hterms] at hterms'
  exact h terms hterms'

theorem mem_updateWallet {w : Wallet} {f : Wallet → Wallet} (hw : w ∈ (s.updateWallet user f).wallets) :
    ∃ w₀ ∈ s.wallets, w = if w₀.userId = user then f w₀ else w₀ := by
  obtain ⟨_, hw₀, rfl⟩ := List.mem_map.1 hw
  exact ⟨_, hw₀, rfl⟩

theorem userId_entryCharge (w : Wallet) : (entryCharge tournament request w).userId = w.userId := by
  unfold entryCharge
  split <;> rfl

/-- A payment that is covered leaves no debts. -/
theorem covered_updateWallet (h : s.Covered) (hchecked : Checked user t tournament request s)
    (hmethod : request.paymentMethod = "fiat" ∨ request.paymentMethod = "arenax_token") :
    (s.updateWallet user (entryCharge tournament request)).Covered := by
  constructor
  · have hids : (s.updateWallet user (entryCharge tournament request)).wallets.map (·.userId) =
      s.wallets.map (·.userId) := by
      simp only [Registry.updateWallet, List.map_map]
      refine List.map_congr_left fun w _ => ?_
      simp only [Function.comp]
      split
      · exact userId_entryCharge w
      · rfl
    rw [hids]
    exact h.unique
  · intro w hw balance hbalance
    obtain ⟨w₀, hw₀, rfl⟩ := mem_updateWallet hw
    split at hbalance
    · rename_i huser
      unfold entryCharge at hbalance
      split at hbalance
      · exact h.nonneg w₀ hw₀ balance hbalance
      · rename_i hfiat
        obtain ⟨w₁, hfound, hcovered⟩ := hchecked.covered (hmethod.resolve_left hfiat)
        have hsame : w₁ = w₀ := List.inj_on_of_nodup_map h.unique (List.mem_of_find?_eq_some hfound) hw₀
          ((by simpa using List.find?_some hfound : w₁.userId = user).trans huser.symm)
        obtain ⟨before, hbefore, rfl⟩ := Option.map_eq_some_iff.1 hbalance
        rw [hsame, hbefore] at hcovered
        simp only [Option.getD_some] at hcovered
        omega
    · exact h.nonneg w₀ hw₀ balance hbalance

theorem findWallet_updateWallet_of_ne {user' : Uuid} (hne : user' ≠ user) :
    (s.updateWallet user (entryCharge tournament request)).findWallet user' = s.findWallet user' := by
  rw [findWallet, Registry.updateWallet, List.find?_map, findWallet]
  have hids : (fun w : Wallet => decide (w.userId = user')) ∘
      (fun w => if w.userId = user then entryCharge tournament request w else w) =
        fun w => decide (w.userId = user') := by
    funext w
    simp only [Function.comp]
    split
    · rw [userId_entryCharge]
    · rfl
  rw [hids]
  cases hfound : s.wallets.find? (fun w => decide (w.userId = user')) with
  | none => rfl
  | some w =>
    have hid : w.userId = user' := by simpa using List.find?_some hfound
    rw [Option.map_some, if_neg fun heq => hne (hid.symm.trans heq)]

/-- There is room for one more. -/
theorem Checked.length_lt (h : Checked user t tournament request s) (hlimit : s.WithinLimit t) :
    ((s.participantsOf t).length : ℤ) < tournament.maxParticipants := by
  have hle := hlimit _ h.terms
  have hroom := h.room
  rwa [participantCount_eq hle] at hroom

/-- A join that is committed while what it has looked up still holds. -/
theorem admits_enroll (currency : String) (hchecked : Checked user t tournament request s)
    (hnew : ¬ s.HasParticipant t user)
    (hmethod : request.paymentMethod = "fiat" ∨ request.paymentMethod = "arenax_token")
    (ho : o.Disjoint [.user user, .tournament t]) :
    s.Admits o (s.enroll user t tournament request currency) [⟨t, user, true, .paid⟩] := by
  have hterms : ∀ t', (s.enroll user t tournament request currency).terms t' = s.terms t' := by
    intro t'
    rw [terms, findTournament, tournaments_enroll]
    rfl
  rw [enroll_of_new currency hnew] at hterms ⊢
  refine ⟨rfl, hterms, ?_, fun t' hlimit => ?_, fun h => ?_, fun t' ht' p hp => ?_, fun user' huser' => ?_⟩
  · refine List.map_congr_left fun pool _ => ?_
    have hfee : s.feeOf t = tournament.entryFee := by rw [feeOf, hchecked.terms]; rfl
    by_cases hpool : pool.tournamentId = t
    · rw [grown, hpool, hfee]
      simp [newcomers]
    · rw [if_neg hpool, grown]
      simp [newcomers, Ne.symm hpool]
  · intro terms hmem
    rw [participantsOf, show (addToPrizePool _ _ _).participants = s.participants ++ [⟨t, user, true, .paid⟩] from rfl,
      List.filter_append, List.length_append]
    by_cases ht : t' = t
    · subst ht
      obtain rfl := Option.some.inj (hmem.symm.trans hchecked.terms)
      have hlt := hchecked.length_lt hlimit
      have hone : ([⟨t', user, true, .paid⟩] : List Participant).filter (·.tournamentId = t') =
        [⟨t', user, true, .paid⟩] := by simp
      rw [hone]
      exact hlt
    · have hnone : ([⟨t, user, true, .paid⟩] : List Participant).filter (·.tournamentId = t') = [] := by
        simp [Ne.symm ht]
      rw [hnone]
      exact hlimit terms hmem
  · exact ⟨(covered_updateWallet h hchecked hmethod).unique, (covered_updateWallet h hchecked hmethod).nonneg⟩
  · rw [List.mem_singleton.1 hp]
    rintro rfl
    exact ho ht' (by simp)
  · refine findWallet_updateWallet_of_ne ?_
    rintro rfl
    exact ho huser' (by simp)

/-- What has been looked up stays as it is. -/
theorem Checked.rel (h : Checked user t tournament request s)
    (hrel : registering.rel [.user user, .tournament t] held s s') : Checked user t tournament request s' := by
  obtain ⟨new, hadmits⟩ := hrel
  refine ⟨(hadmits.terms t).trans h.terms, ?_, ?_⟩
  · rw [participantCount_congr (hadmits.participantsOf_eq (by simp))]
    exact h.room
  · rw [hadmits.ownUser user (by simp)]
    exact h.covered

/-! ## Joins among others -/

open Rely

/-- Nothing is asked of how a join ends. -/
def anyEnd {α : Type} (_ : Except ApiError α) (_ : Registry → Registry) (_ : List Row) (_ : Registry) : Prop := True

variable {Q : Except ApiError Unit → (Registry → Registry) → List Row → Registry → Prop}

theorem wp_validateTournamentJoin (herror : ∀ e s, Q (.error e) id [] s) (hid : tournament.id = t)
    (hterms : s.terms t = some (tournament.maxParticipants, tournament.entryFee))
    (hok : ∀ s, s.terms t = some (tournament.maxParticipants, tournament.entryFee) →
      (s.participantCount t : ℤ) < tournament.maxParticipants → Q (.ok ()) id [] s) :
    registering.Ends Q [.user user, .tournament t] (validateTournamentJoin tournament user now) id [] s := by
  refine wp_reject_bind (herror _ _) fun _ => ?_
  refine wp_reject_bind (herror _ _) fun _ => ?_
  refine wp_query_bind fun s₁ hs₁ => ?_
  -- the count is given a name: its value is not to be computed
  generalize hcount : s₁.participantCount tournament.id = count
  refine wp_reject_bind (herror _ _) fun hfull => ?_
  rw [not_le, ← hcount, hid] at hfull
  obtain ⟨_, hs₁⟩ := hs₁
  have hterms₁ := (hs₁.terms t).trans hterms
  split
  · refine wp_query_bind fun s₂ hs₂ => wp_reject (herror _ _) fun _ => ?_
    obtain ⟨_, hs₂⟩ := hs₂
    refine hok s₂ ((hs₂.terms t).trans hterms₁) ?_
    rw [participantCount_congr (hs₂.participantsOf_eq (by simp))]
    exact hfull
  · exact hok s₁ hterms₁ hfull

theorem wp_checkBalance (herror : ∀ e s, Q (.error e) id [] s)
    (hterms : s.terms t = some (tournament.maxParticipants, tournament.entryFee))
    (hroom : (s.participantCount t : ℤ) < tournament.maxParticipants)
    (hok : ∀ s, Checked user t tournament request s → Q (.ok ()) id [] s) :
    registering.Ends Q [.user user, .tournament t] (checkBalance tournament user request) id [] s := by
  unfold checkBalance
  split
  · refine wp_query_bind fun s₁ hs₁ => wp_okOr_bind (herror _ _) fun w hw => wp_reject (herror _ _) fun hbalance => ?_
    obtain ⟨_, hs₁⟩ := hs₁
    refine hok s₁ ⟨(hs₁.terms t).trans hterms, ?_, fun _ => ⟨w, hw, not_lt.1 hbalance⟩⟩
    rw [participantCount_congr (hs₁.participantsOf_eq (by simp))]
    exact hroom
  · rename_i hmethod
    exact hok s ⟨hterms, hroom, fun htoken => absurd htoken hmethod⟩

theorem wp_checkProvider (herror : ∀ e, Q (.error e) id [] s) (hok : Q (.ok ()) id [] s) :
    registering.Ends Q [.user user, .tournament t] (checkProvider env tournament request) id [] s := by
  unfold checkProvider
  split
  · exact wp_okOr_bind (herror _) fun _ _ => wp_reject (herror _) fun _ => hok
  · exact hok

theorem wp_processEntryFeePayment (herror : ∀ e pending held s, Q (.error e) pending held s)
    (h : Checked user t tournament request s)
    (hok : ∀ currency held s, Checked user t tournament request s →
      request.paymentMethod = "fiat" ∨ request.paymentMethod = "arenax_token" →
      Q (.ok ()) (addTransaction user .entryFee tournament.entryFee currency
        ("Entry fee for tournament: " ++ tournament.name) ∘
        updateWallet user (entryCharge tournament request)) held s) :
    registering.Ends Q [.user user, .tournament t] (processEntryFeePayment env user tournament request) id [] s := by
  unfold processEntryFeePayment
  split
  · rename_i hfiat
    refine wp_modify_bind fun s₁ hs₁ => wp_reject_bind (herror _ _ _ _) fun _ => fun s₂ hs₂ => ?_
    have := hok tournament.entryFeeCurrency [.wallet user] s₂ ((h.rel hs₁).rel hs₂) (.inl hfiat)
    rwa [entryCharge, if_pos hfiat] at this
  · rename_i hfiat
    split
    · rename_i htoken
      refine wp_modify_bind fun s₁ hs₁ => wp_reject_bind (herror _ _ _ _) fun _ => fun s₂ hs₂ => ?_
      have := hok "ARENAX_TOKEN" [.wallet user] s₂ ((h.rel hs₁).rel hs₂) (.inr htoken)
      rwa [entryCharge, if_neg hfiat] at this
    · exact herror _ _ _ _

/-- What has been written is committed as it is, or with the registration closed. -/
theorem wp_updateTournamentStatusIfNeeded {pending : Registry → Registry}
    (herror : ∀ e pending held s, Q (.error e) pending held s)
    (h : Checked user t tournament request s) (hnew : ¬ s.HasParticipant t user)
    (hok : ∀ pending' held s, Checked user t tournament request s → ¬ s.HasParticipant t user →
      pending' = pending ∨ pending' = setTournamentStatus t .registrationClosed ∘ pending →
      Q (.ok ()) pending' held s) :
    registering.Ends Q [.user user, .tournament t] (updateTournamentStatusIfNeeded t) pending held s := by
  have hstable : ∀ {s s' : Registry} {held : List Row}, ¬ s.HasParticipant t user →
      registering.rel [.user user, .tournament t] held s s' → ¬ s'.HasParticipant t user :=
    fun hnew ⟨_, hadmits⟩ => by rwa [hadmits.hasParticipant_iff (by simp)]
  refine wp_select_bind fun s₁ hs₁ => wp_okOr_bind (herror _ _ _ _) fun row _ => ?_
  refine wp_select_bind ?_
  intro s₂ hs₂
  generalize (pending s₂).participantCount t = count
  have h₂ := (h.rel hs₁).rel hs₂
  have hnew₂ := hstable (hstable hnew hs₁) hs₂
  split
  · exact fun s₃ hs₃ => hok _ _ s₃ (h₂.rel hs₃) (hstable hnew₂ hs₃) (.inr rfl)
  · exact hok _ _ s₂ h₂ hnew₂ (.inl rfl)

theorem ends_register (h : Checked user t tournament request s) :
    registering.Ends anyEnd [.user user, .tournament t]
      (transaction (register env user t tournament request)) id [] s := by
  refine wp_transaction (wp_bind (wp_processEntryFeePayment (fun _ _ _ _ _ _ => trivial)
    h fun currency held s₁ h₁ hmethod => ?_))
  refine wp_insert_bind (fun _ _ _ _ _ => trivial) fun s₂ hs₂ hnew => wp_modify_bind fun s₃ hs₃ => wp_bind ?_
  have hnew₃ : ¬ s₃.HasParticipant t user := by
    obtain ⟨_, hadmits⟩ := hs₃
    rw [hadmits.hasParticipant_iff (by simp)]
    exact hnew
  refine wp_updateTournamentStatusIfNeeded (fun _ _ _ _ _ _ => trivial) ((h₁.rel hs₂).rel hs₃) hnew₃
    fun pending held s₄ h₄ hnew₄ hpending => wp_bind (wp_commit fun s₅ hs₅ => ⟨fun o _ ho _ => ?_, trivial⟩)
  have henroll := admits_enroll currency (h₄.rel hs₅)
    (by obtain ⟨_, hadmits⟩ := hs₅; rwa [hadmits.hasParticipant_iff (by simp)]) hmethod ho
  rcases hpending with rfl | rfl
  · exact ⟨_, henroll⟩
  · exact ⟨_, henroll.trans (rel_setTournamentStatus .registrationClosed)⟩

theorem ends_joinTournament :
    registering.Ends anyEnd [.user user, .tournament t] (joinTournament env now user t request) id [] s := by
  refine wp_query_bind fun s₁ _ => wp_okOr_bind trivial fun tournament hfound => ?_
  have hid : tournament.id = t := by simpa using List.find?_some hfound
  have hterms : s₁.terms t = some (tournament.maxParticipants, tournament.entryFee) := by rw [terms, hfound]; rfl
  refine wp_bind (wp_validateTournamentJoin (fun _ _ => trivial) hid hterms fun s₂ hterms₂ hroom => ?_)
  refine wp_query_bind fun s₃ ⟨_, hs₃⟩ => wp_reject_bind trivial fun _ => ?_
  have hroom₃ : (s₃.participantCount t : ℤ) < tournament.maxParticipants := by
    rwa [participantCount_congr (hs₃.participantsOf_eq (by simp))]
  refine wp_bind (wp_checkBalance (fun _ _ => trivial) ((hs₃.terms t).trans hterms₂) hroom₃ fun s₄ h₄ => ?_)
  exact wp_bind (wp_checkProvider (fun _ => trivial) (ends_register h₄))

end Join

/-! ## Runs -/

/-- A call of `join_tournament`. -/
structure JoinCall where
  tournamentId : Uuid
  join : Join
deriving DecidableEq

/-- Any number of joins at the same time. -/
abbrev joining (env : Env) (s₀ : Registry) :
    TransitionSystem Unit (Pool Registry Row JoinCall (Except ApiError Participant)) (Turn JoinCall Empty) :=
  Pool.system (fun call => joinTournament env call.join.now call.join.user call.tournamentId call.join.request)
    (fun _ x => x.elim) (· = s₀)

/-- A join starts when no other one for its tournament or of its user is under way. -/
def oneAtATime : TransitionSystem.Rule Unit (Pool Registry Row JoinCall (Except ApiError Participant))
    (Turn JoinCall Empty)
  | _, _, p, .start call => ∀ c ∈ p.clients, c.result.isNone →
    c.call.tournamentId ≠ call.tournamentId ∧ c.call.join.user ≠ call.join.user
  | _, _, _, _ => True

instance : ∀ e e' p m, Decidable (oneAtATime e e' p m)
  | _, _, p, .start call => inferInstanceAs (Decidable (∀ c ∈ p.clients, c.result.isNone →
    c.call.tournamentId ≠ call.tournamentId ∧ c.call.join.user ≠ call.join.user))
  | _, _, _, .next _ | _, _, _, .stop _ | _, _, _, .other _ => .isTrue trivial

/-- What a join has for itself. -/
def JoinCall.own (call : JoinCall) : List Own := [.user call.join.user, .tournament call.tournamentId]

theorem disjoint_own {e e' : Unit} {p : Pool Registry Row JoinCall (Except ApiError Participant)} {call : JoinCall}
    (hok : oneAtATime e e' p (.start call)) {c : Client Registry Row JoinCall (Except ApiError Participant)}
      (hc : c ∈ p.clients)
    (hrest : ∀ a, c.rest ≠ .ret a) : c.call.own.Disjoint call.own := by
  obtain ⟨htournament, huser⟩ := hok c hc (by rw [Client.result_of_ne_ret hrest]; rfl)
  simp [JoinCall.own, Ne.symm htournament, Ne.symm huser]

theorem safe_joining (env : Env) (s₀ : Registry) : registering.SafeSystem (fun _ _ _ => True) JoinCall.own
    (fun call => joinTournament env call.join.now call.join.user call.tournamentId call.join.request)
    (fun _ x => Empty.elim x) (· = s₀)
    oneAtATime where
  init _ _ := trivial
  safe _ _ _ _ := ends_joinTournament.imp fun _ _ _ _ _ => ⟨fun _ _ => trivial, fun _ _ => trivial⟩
  other := fun {_ _ x _} _ _ _ => x.elim
  disjoint hok _ hc hrest := disjoint_own hok hc hrest
  stop _ _ _ _ _ _ := trivial

/-- Limits are kept, and prize pools grow by the entry fees of those who have joined. -/
theorem registration_limits {env : Env} {s₀ : Registry} {p : Pool Registry Row JoinCall (Except ApiError Participant)}
    (hcovered : s₀.Covered) (hlimits : ∀ t, s₀.WithinLimit t) (h : (joining env s₀).Reach oneAtATime () p) :
    ∃ new, p.store.participants = s₀.participants ++ new ∧ (∀ t, p.store.terms t = s₀.terms t ∧ p.store.WithinLimit t) ∧
      p.store.Covered ∧ p.store.prizePools = s₀.prizePools.map (s₀.grown new) := by
  obtain ⟨s, rfl, ⟨new, hadmits⟩, -⟩ := (safe_joining env s₀).reach h
  exact ⟨new, hadmits.participants, fun t => ⟨hadmits.terms t, hadmits.limits t (hlimits t)⟩, hadmits.covered hcovered,
    hadmits.prizePools⟩

namespace Sample

def joinCup (user : Uuid) : JoinCall := ⟨cup, withFiat user "REF"⟩

theorem covered_opened : (opened "NGN").Covered := ⟨by decide, by decide⟩

theorem withinLimit_opened (t : Uuid) : (opened "NGN").WithinLimit t :=
  fun terms hterms => by
    obtain ⟨row, hrow, rfl⟩ := Option.map_eq_some_iff.1 hterms
    obtain rfl : row = cupIn "NGN" := List.mem_singleton.1 (List.mem_of_find?_eq_some hrow)
    exact (by decide : (0 : ℤ) ≤ 2)

/-- Alice joins, then Bob. -/
def inTurn : List (Unit × Turn JoinCall Empty) :=
  List.flatten [[((), .start (joinCup alice))], List.replicate 9 ((), .next 0), [((), .start (joinCup bob))],
    List.replicate 10 ((), .next 1)]

theorem registration_limits_two : ∃ p, (joining .source (opened "NGN")).Reach oneAtATime () p ∧
    (p.store.participantsOf cup).length = 2 ∧ p.store.prizePools = [⟨cup, 1000⟩] ∧ ∀ t, p.store.WithinLimit t := by
  have hreach := Pool.reach_of_replay (evaluated
    (o := (joining .source (opened "NGN")).replay oneAtATime () ⟨opened "NGN", []⟩ inTurn)) rfl
  obtain ⟨-, -, hlimits, -⟩ := registration_limits covered_opened withinLimit_opened hreach
  exact ⟨_, hreach, by decide +kernel, by decide +kernel, fun t => (hlimits t).2⟩

/-- Alice has joined. Bob and Carol both see one participant of two; then both transactions are made. -/
def atOnce : List (Unit × Turn JoinCall Empty) :=
  List.flatten [[((), .start (joinCup alice))], List.replicate 9 ((), .next 0),
    [((), .start (joinCup bob)), ((), .start (joinCup carol))],
    List.replicate 2 ((), .next 1), List.replicate 2 ((), .next 2), List.replicate 8 ((), .next 1),
      List.replicate 8 ((), .next 2)]

theorem overbooked : ∃ p, (joining .source (opened "NGN")).Reach Unrestricted () p ∧ (opened "NGN").Covered ∧
    (∀ t, (opened "NGN").WithinLimit t) ∧ (p.store.participantsOf cup).length = 3 ∧ ¬ p.store.WithinLimit cup := by
  have hreach := Pool.reach_of_replay (evaluated
    (o := (joining .source (opened "NGN")).replay Unrestricted () ⟨opened "NGN", []⟩ atOnce)) rfl
  refine ⟨_, hreach, covered_opened, withinLimit_opened, by decide +kernel, fun hlimit => ?_⟩
  exact absurd (hlimit (i32.wrap 2, i64.wrap 500) (by decide +kernel)) (by decide +kernel)

end Sample

end ArenaX.Registration
