/-
Refunds of a tournament that is cancelled. A call of `cancel_tournament` refunds one participant after another, and
writes the status that keeps others from doing so only after the last one. While calls do not overlap, and none is made
after one that has stopped between its first refund and the status, everybody who has paid gets one refund at most, and
exactly one once a call has succeeded. A call that is stopped in between and made again refunds the first participants
twice.
-/
import ArenaX.Lib.RelyGuarantee
import ArenaX.Registration.EntryFees

namespace ArenaX.Registration

open Registration.Registry Rely
open TransitionSystem (Unrestricted)
open Orchestrator (Uuid ApiError TournamentStatus Wallet)

/-! ## What refunds add up to -/

section Credits

variable {tournament : Tournament} {w : Wallet} {ps : List Participant}

theorem userId_refundWallet : (refundWallet tournament w).userId = w.userId := by
  unfold refundWallet
  split <;> rfl

theorem creditAll_append (ps' : List Participant) :
    creditAll tournament (ps ++ ps') w = creditAll tournament ps' (creditAll tournament ps w) := List.foldl_append

/-- Participants of whom no two are the same user get a refund each. -/
theorem creditAll_of_nodup (h : (ps.map (·.userId)).Nodup) :
    creditAll tournament ps w = if w.userId ∈ ps.map (·.userId) then refundWallet tournament w else w := by
  induction ps generalizing w with
  | nil => rfl
  | cons p ps ih =>
    rw [List.map_cons, List.nodup_cons] at h
    have hstep : creditAll tournament (p :: ps) w =
        creditAll tournament ps (if w.userId = p.userId then refundWallet tournament w else w) := rfl
    rw [hstep, ih h.2]
    by_cases hw : w.userId = p.userId
    · -- whoever is refunded now is not among those to come
      rw [if_pos hw, userId_refundWallet, hw, if_neg h.1, if_pos (by simp)]
    · rw [if_neg hw]
      simp [hw]

end Credits

/-! ## How far the refunds have come -/

/-- These participants have their refunds, and nothing else has changed but the status. -/
structure Progress (s₀ : Registry) (t : Uuid) (tournament : Tournament) (refunded : List Participant) (s : Registry) :
    Prop where
  participants : s.participants = s₀.participants
  wallets : s.wallets = s₀.wallets.map (creditAll tournament refunded)
  found : ∃ status, s.findTournament t = some { tournament with status := status }

/-- Some of those who have paid have their refunds, in their order. -/
def Refunding (s₀ : Registry) (t : Uuid) (tournament : Tournament) (s : Registry) : Prop :=
  ∃ refunded, refunded <+: s₀.paidParticipants t ∧ Progress s₀ t tournament refunded s

/-- All of them have, and the status says so. -/
structure Closed (s₀ : Registry) (t : Uuid) (tournament : Tournament) (s : Registry) : Prop where
  progress : Progress s₀ t tournament (s₀.paidParticipants t) s
  status : s.findTournament t = some { tournament with status := .cancelled }

/-- A call is alone on the registry. What it leaves behind is refunds that have come some way, and stays when all are
made. -/
def cancelling (s₀ : Registry) (t : Uuid) (tournament : Tournament) : Rely Unit Row Registry where
  rel o _ s s' := (o ≠ [] → s' = s) ∧ (Refunding s₀ t tournament s → Refunding s₀ t tournament s') ∧
    (Closed s₀ t tournament s → Closed s₀ t tournament s')
  refl _ _ _ := ⟨fun _ => rfl, id, id⟩
  trans h h' := ⟨fun ho => (h'.1 ho).trans (h.1 ho), h'.2.1 ∘ h.2.1, h'.2.2 ∘ h.2.2⟩

section Call

variable {env : Env} {s₀ s s' : Registry} {t : Uuid} {tournament : Tournament} {refunded : List Participant}

theorem eq_of_rel {held : List Row} (h : (cancelling s₀ t tournament).rel [()] held s s') :
    s' = s := h.1 (List.cons_ne_nil _ _)

/-- Nobody else is at work. -/
theorem guar_of_refunding (hrefunding : Refunding s₀ t tournament s')
    (hclosed : Closed s₀ t tournament s → Closed s₀ t tournament s') :
    (cancelling s₀ t tournament).Guar [()] [] s s' := by
  intro o held ho _
  refine ⟨fun hne => ?_, fun _ => hrefunding, hclosed⟩
  obtain ⟨u, hu⟩ := List.exists_mem_of_ne_nil o hne
  exact (ho hu (List.mem_singleton.2 rfl)).elim

theorem Progress.of_tables (h : Progress s₀ t tournament refunded s) (hparticipants : s'.participants = s.participants)
    (hwallets : s'.wallets = s.wallets) (htournaments : s'.tournaments = s.tournaments) :
    Progress s₀ t tournament refunded s' := by
  refine ⟨hparticipants.trans h.participants, hwallets.trans h.wallets, ?_⟩
  rw [findTournament, htournaments]
  exact h.found

/-- One more refund. -/
theorem Progress.refund {p : Participant} {status : TournamentStatus} (h : Progress s₀ t tournament refunded s) :
    Progress s₀ t tournament
      (refunded ++ [p]) (s.updateWallet p.userId (refundWallet { tournament with status := status })) := by
  refine ⟨h.participants, ?_, h.found⟩
  rw [updateWallet, h.wallets, List.map_map]
  refine List.map_congr_left fun w _ => ?_
  rw [creditAll_append]
  rfl

variable {Q : Except ApiError Tournament → Registry → Prop}

/-- The loop, from any point on. -/
theorem runs_refundAll {rest : List Participant} {status : TournamentStatus}
    {k : Unit → Script ApiError Registry Tournament} (hsplit : s₀.paidParticipants t = refunded ++ rest)
    (hstatus : status ≠ .cancelled) (h : Progress s₀ t tournament refunded s)
    (hfound : s.findTournament t = some { tournament with status := status })
    (herror : ∀ e s, Q (.error e) s)
    (hk : ∀ s, Progress s₀ t tournament (s₀.paidParticipants t) s →
      s.findTournament t = some { tournament with status := status } →
      (cancelling s₀ t tournament).Runs Q [()] (k ()) s) :
    (cancelling s₀ t tournament).Runs Q [()] (refundAll env { tournament with status := status } rest >>= k) s := by
  induction rest generalizing refunded s with
  | nil =>
    rw [List.append_nil] at hsplit
    exact hk s (hsplit ▸ h) hfound
  | cons p rest ih =>
    have hopen : ∀ {s : Registry}, s.findTournament t = some { tournament with status := status } →
      ¬ Closed s₀ t tournament s := by
      intro s hs hclosed
      have heq := Option.some.inj (hs.symm.trans hclosed.status)
      exact hstatus (congrArg Tournament.status heq)
    have hsplit' : s₀.paidParticipants t = (refunded ++ [p]) ++ rest := by
      rw [hsplit, List.append_assoc, List.singleton_append]
    have hpre : refunded ++ [p] <+: s₀.paidParticipants t := hsplit' ▸ List.prefix_append _ _
    unfold refundAll createTransaction
    simp only [bind_assoc]
    refine runs_update_bind fun s₁ hs₁ => ?_
    rw [eq_of_rel hs₁]
    refine ⟨guar_of_refunding ⟨_, hpre, h.refund⟩ fun hclosed => absurd hclosed (hopen hfound), ?_⟩
    refine runs_reject_bind (fun _ => herror _ _) fun _ => runs_update_bind fun s₂ hs₂ => ?_
    rw [eq_of_rel hs₂]
    have hprogress : Progress s₀ t tournament (refunded ++ [p]) (addTransaction p.userId .refund tournament.entryFee
        tournament.entryFeeCurrency ("Refund for cancelled tournament: " ++ tournament.name)
        (s.updateWallet p.userId (refundWallet { tournament with status := status }))) := h.refund.of_tables rfl rfl rfl
    exact ⟨guar_of_refunding ⟨_, hpre, hprogress⟩ fun hclosed => absurd hclosed (hopen hfound),
      ih hsplit' hprogress hfound⟩

/-- What a call that has succeeded promises. -/
def promise (s₀ : Registry) (t : Uuid) (tournament : Tournament) : Except ApiError Tournament → Registry → Prop
  | .ok _, s => Closed s₀ t tournament s
  | .error _, _ => True

/-- A call that starts before any refund, or finds the tournament cancelled. -/
theorem safe_cancelTournament (h : Refunding s₀ t tournament s)
    (hstart : s.wallets = s₀.wallets ∨ (s.findTournament t).map (·.status) = some .cancelled) :
    (cancelling s₀ t tournament).Safe (promise s₀ t tournament) [()]
      (Prog.session (cancelTournament env t)) id [] s := by
  obtain ⟨refunded, hpre, hprogress⟩ := h
  obtain ⟨status, hfound⟩ := hprogress.found
  refine runs_query_bind fun s₁ hs₁ => ?_
  obtain rfl := eq_of_rel hs₁
  rw [hfound]
  refine runs_okOr_bind (fun hnone => nomatch hnone) fun row hrow => ?_
  obtain rfl := Option.some.inj hrow
  refine runs_reject_bind (fun _ => ⟨fun _ _ => trivial, fun _ _ => trivial⟩) fun hstatus => ?_
  have hopen : status ≠ .cancelled := fun heq => hstatus (.inr (.inr heq))
  have hwallets : s₁.wallets = s₀.wallets := by
    refine hstart.resolve_right fun hcancelled => ?_
    rw [hfound] at hcancelled
    exact hopen (Option.some.inj hcancelled)
  have hnone : Progress s₀ t tournament [] s₁ := ⟨hprogress.participants, hwallets.trans (List.map_id _).symm,
    hprogress.found⟩
  refine runs_query_bind fun s₂ hs₂ => ?_
  obtain rfl := eq_of_rel hs₂
  have hpaid : s₂.paidParticipants t = s₀.paidParticipants t := by
    rw [paidParticipants, participantsOf, hprogress.participants, paidParticipants, participantsOf]
  rw [hpaid]
  refine runs_refundAll rfl hopen hnone hfound (fun _ _ => ⟨fun _ _ => trivial, fun _ _ => trivial⟩)
    fun s₃ hall hfound₃ => ?_
  refine runs_change_bind (fun _ _ _ _ => ⟨fun _ _ => trivial, fun _ _ => trivial⟩) fun s₄ updated s₅ hs₄ hcancel => ?_
  obtain rfl := eq_of_rel hs₄
  have hid : tournament.id = t := by simpa using List.find?_some hfound₃
  have hcancelled : (s₄.setTournamentStatus t .cancelled).findTournament t =
    some { tournament with status := .cancelled } := by
    rw [findTournament_setTournamentStatus, hfound₃, Option.map_some, if_pos hid]
  have hclosed : Closed s₀ t tournament (s₄.setTournamentStatus t .cancelled) :=
    ⟨⟨hall.participants, hall.wallets, .cancelled, hcancelled⟩, hcancelled⟩
  rw [cancelStatus, hcancelled] at hcancel
  cases hcancel
  refine ⟨guar_of_refunding ⟨_, List.prefix_rfl, hclosed.progress⟩ fun _ => hclosed, ?_⟩
  refine runs_update_bind fun s₆ hs₆ => ?_
  obtain rfl := eq_of_rel hs₆
  have hlogged : ∀ row, Closed s₀ t tournament ((s₄.setTournamentStatus t .cancelled).addAuditLog row) :=
    fun row => ⟨hclosed.progress.of_tables rfl rfl rfl, hcancelled⟩
  exact ⟨guar_of_refunding ⟨_, List.prefix_rfl, (hlogged _).progress⟩ fun _ => hlogged _,
    fun s' hs' => hs'.2.2 (hlogged _), fun _ _ => trivial⟩

end Call

/-! ## Runs -/

/-- Any number of calls for one tournament at the same time; any of them may stop. -/
abbrev cancellations (env : Env) (s₀ : Registry) (t : Uuid) :
    TransitionSystem Unit (Pool Registry Row Unit (Except ApiError Tournament)) (Turn Unit Empty) :=
  Pool.system (fun _ => Prog.session (cancelTournament env t)) (fun _ x => x.elim) (· = s₀)

/-- A call starts when no other one is under way, and not after one that has stopped between its first refund and the
status. -/
def notHalfRefunded (s₀ : Registry) (t : Uuid) :
    TransitionSystem.Rule Unit (Pool Registry Row Unit (Except ApiError Tournament)) (Turn Unit Empty)
  | _, _, p, .start _ => (∀ c ∈ p.clients, c.result.isSome) ∧
    (p.store.wallets = s₀.wallets ∨ (p.store.findTournament t).map (·.status) = some .cancelled)
  | _, _, _, _ => True

instance (s₀ : Registry) (t : Uuid) : ∀ e e' p m, Decidable (notHalfRefunded s₀ t e e' p m)
  | _, _, p, .start _ => inferInstanceAs (Decidable ((∀ c ∈ p.clients, c.result.isSome) ∧
    (p.store.wallets = s₀.wallets ∨ (p.store.findTournament t).map (·.status) = some .cancelled)))
  | _, _, _, .next _ | _, _, _, .stop _ | _, _, _, .other _ => .isTrue trivial

theorem safe_cancellations (env : Env) {s₀ : Registry} {t : Uuid} {tournament : Tournament}
    (hbegin : Refunding s₀ t tournament s₀) :
    (cancelling s₀ t tournament).SafeSystem (fun _ => promise s₀ t tournament) (fun _ => [()])
      (fun _ => Prog.session (cancelTournament env t)) (fun _ x => Empty.elim x) (· = s₀) (notHalfRefunded s₀ t) where
  init _ _ := trivial
  safe := fun {s _ _ _ _} (hs : s = s₀) hrel hok _ => safe_cancelTournament (hrel.2.1 (hs ▸ hbegin)) hok.2
  other := fun {_ _ x _} _ _ _ => x.elim
  disjoint hok c hc hrest := by
    have hdone := hok.1 c hc
    rw [Client.result_of_ne_ret hrest] at hdone
    cases hdone
  stop _ _ _ _ _ _ := trivial

namespace Sample

/-- Alice has paid 500. -/
def paidCup : Registry := { opened "NGN" with participants := [⟨cup, alice, true, .paid⟩] }

/-- A call that stops at once, one that succeeds, and one that is refused. -/
def retried : List (Unit × Turn Unit Empty) :=
  List.flatten [[((), .start ()), ((), .stop 0), ((), .start ())], List.replicate 5 ((), .next 0), [((), .start ())]]

/-- A call that stops after the first refund, and is made again. -/
def halfRefunded : List (Unit × Turn Unit Empty) :=
  List.flatten [[((), .start ())], List.replicate 2 ((), .next 0), [((), .stop 0), ((), .start ())],
    List.replicate 5 ((), .next 0)]

end Sample

end ArenaX.Registration
