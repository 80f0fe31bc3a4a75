/-
Payments from outside. A fiat join asks the provider whether its reference has been paid, and does not write the
reference down: what keeps a payment from being used again is only that its user is registered by then. So a reference
counts once as long as it is presented for one user and one tournament, whatever the provider answers, and an honest
provider does not help otherwise.
-/
import ArenaX.Registration.Limits

namespace ArenaX.Registration

open Dialog Registration.Registry
open TransitionSystem (Unrestricted)
open Orchestrator (Uuid ApiError)

/-- A join that is paid from outside. -/
structure FiatJoin where
  user : Uuid
  tournamentId : Uuid
  now : ℤ
  reference : String
deriving DecidableEq

/-- The registry, and the joins that have been accepted so far. -/
structure Desk where
  registry : Registry
  accepted : List FiatJoin

namespace Desk

/-- The answer to a join is taken down. -/
def serve (env : Env) (d : Desk) (j : FiatJoin) : Desk :=
  match (joinTournament env j.now j.user j.tournamentId ⟨"fiat", some j.reference⟩).run d.registry with
  | (.ok _, s) => ⟨s, d.accepted ++ [j]⟩
  | (.error _, s) => ⟨s, d.accepted⟩

/-- Joins one after another, each with the answers that the provider gives by then. -/
def system (s₀ : Registry) : TransitionSystem Env Desk FiatJoin where
  init _ d := d = ⟨s₀, []⟩
  step env d j := some (d.serve env j)

/-- A reference that has been accepted is not presented for another user or tournament. -/
def ownReference : TransitionSystem.Rule Env Desk FiatJoin
  | _, _, d, j => ∀ a ∈ d.accepted, a.reference = j.reference → a.tournamentId = j.tournamentId ∧ a.user = j.user

instance : ∀ e e' d j, Decidable (ownReference e e' d j) := fun _ _ d j =>
  inferInstanceAs (Decidable (∀ a ∈ d.accepted, a.reference = j.reference → a.tournamentId = j.tournamentId ∧
    a.user = j.user))

/-- Whoever has been accepted is registered, and no reference has been used twice. -/
structure Settled (d : Desk) : Prop where
  registered : ∀ a ∈ d.accepted, d.registry.HasParticipant a.tournamentId a.user
  once : (d.accepted.map (·.reference)).Nodup

/-- A join keeps those who are registered, whether it succeeds or not. -/
theorem hasParticipant_run {env : Env} {now : ℤ} {user t user' t' : Uuid} {request : JoinTournamentRequest}
    {s : Registry} (h : s.HasParticipant t' user') :
    ((joinTournament env now user t request).run s).2.HasParticipant t' user' := by
  have hrel : registering.rel [] [] s ((joinTournament env now user t request).run s).2 :=
    Rely.Wp.rel_exec ends_joinTournament
  obtain ⟨new, hadmits⟩ := hrel
  obtain ⟨_, hp, hids⟩ := h
  refine ⟨_, ?_, hids⟩
  rw [hadmits.participants]
  exact List.mem_append_left new hp

theorem Settled.serve {env e : Env} {d : Desk} {j : FiatJoin} (h : d.Settled) (hok : ownReference e env d j) :
    (d.serve env j).Settled := by
  have hkept : ∀ a ∈ d.accepted,
      ((joinTournament env j.now j.user j.tournamentId ⟨"fiat", some j.reference⟩).run d.registry).2.HasParticipant
        a.tournamentId a.user := fun a ha => hasParticipant_run (h.registered a ha)
  unfold Desk.serve
  rcases hrun : (joinTournament env j.now j.user j.tournamentId ⟨"fiat", some j.reference⟩).run
    d.registry with ⟨e | p, s⟩
  · rw [hrun] at hkept
    exact ⟨hkept, h.once⟩
  · rw [hrun] at hkept
    obtain ⟨tournament, hjoined⟩ := run_joinTournament hrun
    constructor
    · intro a ha
      rcases List.mem_append.1 ha with ha | ha
      · exact hkept a ha
      · rw [List.mem_singleton.1 ha]
        refine ⟨⟨j.tournamentId, j.user, true, .paid⟩, ?_, rfl, rfl⟩
        rw [hjoined.participants]
        simp
    · rw [List.map_append, List.nodup_append]
      refine ⟨h.once, List.nodup_singleton _, ?_⟩
      rintro reference hreference _ hj rfl
      obtain ⟨a, ha, rfl⟩ := List.mem_map.1 hreference
      -- the reference was accepted for this user and tournament, who is registered then
      obtain ⟨ht, huser⟩ := hok a ha (List.mem_singleton.1 hj)
      have hin := h.registered a ha
      rw [ht, huser] at hin
      exact hjoined.new hin

/-- A payment pays once. -/
theorem payment_pays_once {s₀ : Registry} {env : Env} {d : Desk} (h : (system s₀).Reach ownReference env d) :
    (d.accepted.map (·.reference)).Nodup := by
  have hsettled : d.Settled := by
    refine TransitionSystem.Reach.invariant (P := fun _ d => d.Settled) ?_ ?_ h
    · rintro _ d rfl
      exact ⟨fun a ha => (List.not_mem_nil ha).elim, List.nodup_nil⟩
    · intro e env d j d' hd hok hstep
      obtain rfl := Option.some.inj hstep
      exact hd.serve hok
  exact hsettled.once

namespace Sample

open Registration.Sample

/-- The provider has got 500 with the reference `REF`, and nothing else. -/
def honest : Env := ⟨fun reference amount => reference = "REF" ∧ (amount : ℤ) = 500, 3⟩

def withReference (user : Uuid) : FiatJoin := ⟨user, cup, 50, "REF"⟩

/-- Alice presents her reference again. -/
theorem payment_pays_once_alice : ∃ env d, (system (opened "NGN")).Reach ownReference env d ∧
    d.accepted = [withReference alice] ∧ (d.accepted.map (·.reference)).Nodup := by
  have hreach : (system (opened "NGN")).Reach ownReference _ _ := TransitionSystem.Reach.replay (.init rfl) (evaluated
    (o := (system (opened "NGN")).replay ownReference honest ⟨opened "NGN", []⟩ [(honest, withReference alice),
      (honest, withReference alice)]))
  exact ⟨_, _, hreach, by decide +kernel, payment_pays_once hreach⟩

/-- Bob presents the reference that Alice has paid with. -/
theorem payment_pays_twice : ∃ env d, (system (opened "NGN")).Reach Unrestricted env d ∧
    d.accepted = [withReference alice, withReference bob] ∧ d.registry.HasParticipant cup alice ∧
    d.registry.HasParticipant cup bob ∧ ¬ (d.accepted.map (·.reference)).Nodup := by
  have hreach : (system (opened "NGN")).Reach Unrestricted _ _ := TransitionSystem.Reach.replay (.init rfl) (evaluated
    (o := (system (opened "NGN")).replay Unrestricted honest ⟨opened "NGN", []⟩ [(honest, withReference alice),
      (honest, withReference bob)]))
  refine ⟨_, _, hreach, by decide +kernel, ?_, ?_, by decide +kernel⟩
  · exact ⟨⟨cup, alice, true, .paid⟩, by decide +kernel, rfl, rfl⟩
  · exact ⟨⟨cup, bob, true, .paid⟩, by decide +kernel, rfl, rfl⟩

end Sample

end Desk

end ArenaX.Registration
