/-
Whose tokens calls can move, and when: those of owners who have signed, but for the admin's burn, and after the time of
a lockup.
-/
import ArenaX.AxToken.BatchMint
import ArenaX.AxToken.Frame

namespace ArenaX.AxToken

open Machine Exec Sample
open Host (Address)

section Custody

variable {m : Mode} {env e : Env} {s s' s₀ : State} {c : Call} {a : Address}

/-- An owner who has to sign is another address than one that has not. -/
theorem ne_of_signed {α : Type} {owner : Address} {k : Unit → Result α} {r : α} (ha : a ∉ env.signers)
    (h : ((env.requireAuth owner : Result Unit) >>= k).run m = some r) : a ≠ owner := by
  obtain ⟨_, hauth, -⟩ := (run_bind_iff _).1 h
  rintro rfl
  exact ha ((run_requireAuth ..).1 hauth)

/-- A call that an address has not signed takes nothing from it, unless the admin burns its tokens. -/
theorem execute_unsigned (ha : a ∉ env.signers) (h : (execute env s c).run .exact = some s') :
    (s.balance a : ℤ) ≤ s'.balance a ∧ s'.getLockups a = s.getLockups a ∨ env.AdminSigned s.admin ∧
    ∃ x, c = .burn a x := by
  cases c with
  | burn owner x =>
    obtain ⟨_, hadmin, -⟩ := (run_bind_iff _).1 h
    by_cases howner : a = owner
    · exact .inr ⟨(run_requireAdmin ..).1 hadmin, x, howner ▸ rfl⟩
    · obtain ⟨-, -, rfl⟩ := burn_spec h
      exact .inl ⟨by simp [State.balance, balance_set, howner], rfl⟩
  | mint recipient =>
    obtain ⟨-, hx, _, bal, -, -, hbal, rfl⟩ := mint_spec h
    refine .inl ⟨?_, rfl⟩
    simp only [State.balance, balance_set] at hbal ⊢
    grind
  | batchMint =>
    obtain ⟨-, -, -, hpos, b, _, rfl, hledger, -, -⟩ := batchMint_spec h
    have hgrown := DFunLike.congr_fun hledger a
    rw [Finsupp.add_apply, ledger_apply, ledger_apply] at hgrown
    exact .inl ⟨hgrown ▸ le_add_of_nonneg_right (credits_nonneg hpos a), rfl⟩
  | transfer sender recipient =>
    -- what the recipient gets is added without a check, but does not overflow
    simp only [execute, transfer, run_iff, run_unchecked_exact, run_requireAuth, not_le] at h
    obtain ⟨-, hsender, -, -, -, hx, -, -, -, -, -, -, _, -, _, hto, _, -, _, -, rfl⟩ := h
    refine .inl ⟨?_, by simp [State.getLockups]⟩
    simp only [State.balance, balance_set, checkAndSetSequence_token] at hto ⊢
    grind
  | claimVestedTokens owner =>
    obtain ⟨_, h⟩ := run_snd_map h
    have hne := ne_of_signed ha h
    obtain ⟨_, -, -, -, -, rfl⟩ := claimVestedTokens_spec h
    exact .inl ⟨by simp [State.balance, balance_set, hne], rfl⟩
  | lockTokens owner =>
    have hne := ne_of_signed ha h
    obtain ⟨-, -, rfl⟩ := lockTokens_spec h
    exact .inl ⟨by simp [State.balance, balance_set, hne], by simp [State.getLockups, Table.get_set, hne]⟩
  | unlockTokens owner =>
    obtain ⟨_, h⟩ := run_snd_map h
    have hne := ne_of_signed ha h
    obtain ⟨_, -, -, rfl⟩ := unlockTokens_spec h
    exact .inl ⟨by simp [State.balance, balance_set, hne], by simp [State.getLockups, Table.get_set, hne]⟩
  | depositRevenue owner =>
    have hne := ne_of_signed ha h
    obtain ⟨-, -, rfl⟩ := depositRevenue_spec h
    exact .inl ⟨by simp [State.balance, balance_set, hne], rfl⟩
  | executeBuybackAndBurn =>
    obtain ⟨_, h⟩ := run_snd_map h
    obtain ⟨-, -, _, rfl⟩ := executeBuybackAndBurn_spec h
    exact .inl ⟨le_rfl, rfl⟩
  | delegate =>
    obtain ⟨-, -, _, rfl, -⟩ := delegate_spec h
    exact .inl ⟨le_rfl, rfl⟩
  | revokeDelegation =>
    obtain ⟨-, -, _, rfl, -⟩ := revokeDelegation_spec h
    exact .inl ⟨le_rfl, rfl⟩
  | _ =>
    have htoken := ((execute_frame _ h).tokens rfl rfl).1
    rw [State.balance, State.balance, State.getLockups, State.getLockups, htoken]
    exact .inl ⟨le_rfl, rfl⟩

/-- The address signs no call, and none is the admin's to burn its tokens. -/
def Absent (a : Address) : Rule := fun _ e s c => a ∉ e.signers ∧ ¬ (e.AdminSigned s.admin ∧ ∃ x, c = .burn a x)

/-- Nobody's tokens are spent or locked without a signature of theirs, in whatever calls follow. -/
theorem unsigned_tokens_stay (h : ((contract .exact).restart fun _ s => s = s₀).Reach (Absent a) e s) :
    (s₀.balance a : ℤ) ≤ s.balance a ∧ s.getLockups a = s₀.getLockups a := by
  refine h.invariant (P := fun _ s => (s₀.balance a : ℤ) ≤ s.balance a ∧ s.getLockups a = s₀.getLockups a) ?_ ?_
  · rintro _ _ rfl
    exact ⟨le_rfl, rfl⟩
  · rintro _ env s c s' ⟨hle, hsame⟩ ⟨ha, hburn⟩ hstep
    obtain ⟨hle', hsame'⟩ := (execute_unsigned ha hstep).resolve_right hburn
    exact ⟨hle.trans hle', hsame'.trans hsame⟩

/-- Carol has tokens, some of them locked, and signs nothing more, while alice sends her some and the admin burns
alice's. -/
theorem unsigned_tokens_stay_carol : ∃ r s t, (deployment .exact).after Unrestricted [signed 2 2 (.mint carol 9),
      signed 3 3 (.lockTokens carol 4 90), signed 4 4 (.mint alice 5)] = some r ∧
    (execute { signedAt 5 5 with toEnv := .signed [alice] 5 5 } r.2 (.transfer alice carol 2)).run .exact = some s ∧
    (execute { signedAt 6 6 with toEnv := .signed [admin] 6 6 } s (.burn alice 3)).run .exact = some t ∧
    (r.2.balance carol : ℤ) ≤ t.balance carol ∧ t.getLockups carol = r.2.getLockups carol := by
  refine ⟨_, _, _, evaluated, evaluated, evaluated, ?_⟩
  refine unsigned_tokens_stay (e := { signedAt 6 6 with toEnv := .signed [admin] 6 6 })
    (.step (c := .burn alice 3)
      (.step (.init (e := signedAt 4 4) rfl)
        (show Absent carol _ { signedAt 5 5 with toEnv := .signed [alice] 5 5 }
          _ (.transfer alice carol 2) from ⟨?_, ?_⟩)
        (evaluated _)) ⟨?_, ?_⟩ (evaluated _))
  · decide
  · rintro ⟨-, _, ⟨⟩⟩
  · decide
  · rintro ⟨-, _, ⟨⟩⟩

theorem execute_lockups {lock : LockupRecord} (h : (execute env s c).run m = some s') (a : Address)
    (hlock : (env.timestamp : ℤ) < lock.unlockTime) : (s.getLockups a).count lock ≤ (s'.getLockups a).count lock := by
  cases c with
  | unlockTokens owner =>
    obtain ⟨_, h⟩ := run_snd_map h
    obtain ⟨lockups, hget, -, rfl⟩ := unlockTokens_spec h
    by_cases hown : a = owner
    · subst hown
      simp [State.getLockups, hget, List.count_filter, hlock]
    · simp [State.getLockups, Table.get_set, hown]
  | lockTokens owner =>
    obtain ⟨-, -, rfl⟩ := lockTokens_spec h
    by_cases hown : a = owner
    · subst hown
      simp [State.getLockups]
    · simp [State.getLockups, Table.get_set, hown]
  | _ => rw [State.getLockups, State.getLockups, (execute_frame _ h).lockups rfl]

/-- Locked tokens are locked until their time: of the lockups that are still running none is lost, whatever calls
follow. -/
theorem lockups_hold {lock : LockupRecord} (h : ((contract m).restart fun _ s => s = s₀).Reach Ordered e s)
    (a : Address) (hlock : (e.timestamp : ℤ) < lock.unlockTime) :
    (s₀.getLockups a).count lock ≤ (s.getLockups a).count lock := by
  revert hlock
  refine h.invariant (P := fun e s => (e.timestamp : ℤ) < lock.unlockTime → _ ≤ (s.getLockups a).count lock) ?_ ?_
  · rintro _ _ rfl _
    exact le_rfl
  · intro e e' s c s' hs hordered hstep hlock
    -- what is running at a call has been running before
    exact (hs (hordered.2.trans_lt hlock)).trans (execute_lockups hstep a hlock)

theorem lockups_hold_alice : ∃ r s, (deployment .wrapping).after Ordered [signed 2 10 (.mint alice 9),
      signed 3 10 (.lockTokens alice 4 90)] = some r ∧
    (execute (signedAt 4 50) r.2 (.burn alice 5)).run .wrapping = some s ∧
    ∀ lock : LockupRecord, ((signedAt 4 50).timestamp : ℤ) < lock.unlockTime →
      (r.2.getLockups alice).count lock ≤ (s.getLockups alice).count lock := by
  refine ⟨_, _, evaluated, evaluated, fun _ => lockups_hold (m := .wrapping) (e := signedAt 4 50)
    (.step (c := .burn alice 5) (.init (e := signedAt 3 10) rfl) ?_ ?_) alice⟩
  · decide
  · exact evaluated _

end Custody

end ArenaX.AxToken
