/-
Validator penalties and solvency. A slash takes its amount off the summary of a user's stakes and pays it out of the
contract, while every stake stays as it is: what is owed falls with what is held exactly where nothing is paid out.
-/
import ArenaX.StakingManager.Solvency
import ArenaX.StakingManager.Frame

namespace ArenaX.StakingManager

open Machine Exec Sample
open Host (Address Holdings)

section Slashes

variable {m : Mode} {env : Env} {s s' : State} {admin validator : Address} {slashId : BytesN32}
  {config : SlashConfig} {amount requested : I128}

/-- A slash that takes none of the staked token out of the contract: it is paid in another token, it takes nothing,
or it is paid to the contract itself and too small to burn any of it. -/
def SlashConfig.Spares (config : SlashConfig) (env : Env) (s : State) (amount : I128) : Prop :=
  s.axToken ≠ some config.axToken ∨ (amount : ℤ) ≤ 0 ∨
    (config.treasuryAddress = env.currentContract ∧ (amount : ℤ) * config.burnBps < 10000)
deriving Decidable

/-- The burned part of a slash and the rest have the sign of the slash. -/
theorem burn_bounds {bps : U32} {burn : ℤ} (hbps : (bps : ℤ) ≤ 10000)
    (hburn : burn = ((amount : ℤ) * bps).tdiv 10000) :
    (0 < (amount : ℤ) → 0 ≤ burn ∧ burn ≤ amount ∧ (burn = 0 ↔ (amount : ℤ) * bps < 10000)) ∧
      ((amount : ℤ) ≤ 0 → burn ≤ 0 ∧ amount ≤ burn) := by
  have hlo : 0 ≤ (bps : ℤ) := bps.lo
  constructor
  · intro hpos
    have h0 : 0 ≤ (amount : ℤ) * bps := mul_nonneg hpos.le hlo
    have h1 : (amount : ℤ) * bps ≤ amount * 10000 := mul_le_mul_of_nonneg_left hbps hpos.le
    rw [hburn, Int.tdiv_eq_ediv_of_nonneg h0]
    omega
  · intro hneg
    have h0 : (amount : ℤ) * bps ≤ 0 := mul_nonpos_of_nonpos_of_nonneg hneg hlo
    have h1 : (amount : ℤ) * 10000 ≤ amount * bps := mul_le_mul_of_nonpos_left hbps hneg
    rw [hburn, ← neg_neg ((amount : ℤ) * bps), Int.neg_tdiv, Int.tdiv_eq_ediv_of_nonneg (by omega)]
    omega

/-- The admin that signed and the treasury are paid their parts of a slash. -/
theorem held_slash {account token : Address} {burn rest : ℤ} {tokens : Holdings} (htreasury : admin ≠ account) :
    ((tokens.move token account admin burn).move token account config.treasuryAddress rest) token account =
      tokens token account - burn - if config.treasuryAddress = account then 0 else rest := by
  split
  · rename_i hself
    rw [hself, Holdings.move_self, Holdings.move_out htreasury, sub_zero]
  · rename_i hother
    rw [Holdings.move_out hother, Holdings.move_out htreasury]

theorem slashValidator_books {severity reason : U32} {rationale : String} {signers : Option (List Address)}
    (h : (slashValidator env s admin validator severity reason rationale signers).run m = some (slashId, s')) :
    s'.principal = s.principal ∧ s'.reserves = s.reserves ∧ ∀ account, s.Sound account → s'.Sound account := by
  obtain ⟨-, -, -, config, requested, burn, info, -, -, -, -, rfl⟩ := slashValidator_spec h
  exact ⟨rfl, rfl, fun _ hs => { hs with }⟩

/-- What a slash takes from the contract, and when it takes nothing. -/
theorem slashValidator_held {severity reason : U32} {rationale : String} {signers : Option (List Address)}
    (h : (slashValidator env s admin validator severity reason rationale signers).run m = some (slashId, s'))
    (hconfig : s.penalty.config = some config) (hbps : (config.burnBps : ℤ) ≤ 10000)
    (hrequested : config.slashAmounts[(severity : ℤ).toNat]? = some requested)
    (hfits : i128.Fits (slashedAmount s validator requested * config.burnBps)) :
    s'.held env.currentContract = s.held env.currentContract ↔
      config.Spares env s (slashedAmount s validator requested) := by
  obtain ⟨-, hadmin, -, _, _, burn, info, hconfig', hrequested', hburn, -, rfl⟩ := slashValidator_spec h
  cases hconfig.symm.trans hconfig'
  cases hrequested.symm.trans hrequested'
  have hvalue := (bpsOf_spec hburn).2 hfits
  obtain ⟨hpos, hneg⟩ := burn_bounds hbps hvalue
  have hbounds := I128.bounds (slashedAmount s validator requested)
  have hrest : (i128.wrap (slashedAmount s validator requested - burn) : ℤ) =
      slashedAmount s validator requested - burn :=
    wrap_of_fits (i128_fits.2 (by omega))
  unfold SlashConfig.Spares State.held
  by_cases htoken : s.axToken = some config.axToken
  · simp only [htoken, Option.map_some, Option.getD_some, held_slash (ne_currentContract hadmin), hrest,
      ne_eq, not_true_eq_false, false_or]
    by_cases hself : config.treasuryAddress = env.currentContract
    · rw [if_pos hself]
      simp only [hself, true_and]
      omega
    · rw [if_neg hself]
      simp only [hself, false_and, or_false]
      omega
  · simp only [htoken, ne_eq, not_false_eq_true, true_or, iff_true]
    cases haxToken : s.axToken with
    | none => rfl
    | some token =>
      have hne : token ≠ config.axToken := by
        rintro rfl
        exact htoken haxToken
      simp only [Option.map_some, Option.getD_some, Holdings.move_of_ne hne]

/-- A granted appeal brings back at least nothing. -/
theorem resolveAppeal_books {grant : Bool} (h : (resolveAppeal env s admin slashId grant).run m = some s') :
    s'.principal = s.principal ∧ s'.reserves = s.reserves ∧ (∀ account, s.Sound account → s'.Sound account) ∧
      s.held env.currentContract ≤ s'.held env.currentContract := by
  obtain ⟨-, hadmin, _, record, _, -, -, -, -, -, penalty, -, rfl | ⟨config, info, -, rfl⟩⟩ := resolveAppeal_spec h
  · exact ⟨rfl, rfl, fun _ hs => { hs with }, le_rfl⟩
  refine ⟨rfl, rfl, fun _ hs => { hs with }, ?_⟩
  unfold State.held
  cases s.axToken with
  | none => exact le_rfl
  | some token =>
    simp only [Option.map_some, Option.getD_some]
    by_cases htoken : token = config.axToken
    · rw [htoken, Holdings.move_in (ne_currentContract hadmin)]
      by_cases hself : config.treasuryAddress = env.currentContract
      · rw [hself, Holdings.move_self]
        omega
      · rw [Holdings.move_in hself]
        omega
    · rw [Holdings.move_of_ne htoken, Holdings.move_of_ne htoken]

/-- No reachable configuration burns more than the whole of a slash. -/
theorem burnBps_le {ok : Rule} {e : Env} (h : (contract m).Reach ok e s) :
    ∀ config ∈ s.penalty.config, (config.burnBps : ℤ) ≤ 10000 := by
  refine h.invariant (P := fun _ s => ∀ config ∈ s.penalty.config, (config.burnBps : ℤ) ≤ 10000) ?_ ?_
  · intro e s hinit
    obtain ⟨_, _, _, _, -, -, -, rfl⟩ := contract_init hinit
    simp
  · intro e e' s c s' hs _ hstep
    cases hc : c.writesPenalty with
    | false => rwa [execute_keepsPenalty hc s' hstep]
    | true =>
      cases c with
      | configureSlashing config =>
        obtain ⟨-, hle, rfl⟩ := configureSlashing_spec hstep
        simpa using hle
      | slashValidator =>
        obtain ⟨_, hstep⟩ := run_snd_map hstep
        obtain ⟨-, -, -, _, _, _, _, -, -, -, -, rfl⟩ := slashValidator_spec hstep
        exact hs
      | appealSlash =>
        obtain ⟨-, _, _, -, -, -, -, rfl⟩ := appealSlash_spec hstep
        exact hs
      | resolveAppeal =>
        obtain ⟨-, -, _, _, _, -, -, -, -, -, _, rfl, rfl | ⟨_, _, -, rfl⟩⟩ := resolveAppeal_spec hstep
        all_goals exact hs
      | _ => cases hc

end Slashes

/-! ## Runs -/

section Runs

variable {env : Env} {s s' : State} {c : Call}

/-- Every slash spares the tokens of the contract. -/
def Call.SparesTokens (env : Env) (s : State) : Call → Prop
  | .slashValidator _ validator severity .. => ∀ config ∈ s.penalty.config,
    ∀ requested ∈ config.slashAmounts[(severity : ℤ).toNat]?, config.Spares env s (slashedAmount s validator requested)
  | _ => True

instance (env : Env) (s : State) (c : Call) : Decidable (c.SparesTokens env s) := by
  apply Call.casesOn (motive := fun c => Decidable (c.SparesTokens env s)) c <;> intros <;>
    dsimp only [Call.SparesTokens] <;> infer_instance

/-- The calls of one contract, with slashes that spare its tokens. -/
def Sparing : Rule := fun e e' s c =>
  e'.currentContract = e.currentContract ∧ c.Regular s ∧ c.SparesTokens e' s
deriving Decidable

theorem execute_surplus {ok : Rule} {e : Env} (hreach : (contract .exact).Reach ok e s)
    (hs : s.Sound env.currentContract) (hregular : c.Regular s) (hspares : c.SparesTokens env s)
    (h : (execute env s c).run .exact = some s') :
    s'.Sound env.currentContract ∧ s.surplus env.currentContract ≤ s'.surplus env.currentContract := by
  cases hc : c.isPenalty with
  | false =>
    have hkeeps := execute_keeps hs hc hregular h
    exact ⟨hkeeps.sound, hkeeps.surplus.ge⟩
  | true =>
    cases c with
    | slashValidator =>
      obtain ⟨_, h⟩ := run_snd_map h
      obtain ⟨hprincipal, hreserves, hsound⟩ := slashValidator_books h
      obtain ⟨-, -, -, config, requested, _, _, hconfig, hrequested, hburn, -⟩ := slashValidator_spec h
      have hheld := (slashValidator_held h hconfig (burnBps_le hreach config hconfig) hrequested
        ((bpsOf_spec hburn).1 rfl)).2 (hspares config hconfig requested hrequested)
      refine ⟨hsound _ hs, ?_⟩
      unfold State.surplus
      rw [hprincipal, hreserves, hheld]
    | resolveAppeal =>
      obtain ⟨hprincipal, hreserves, hsound, hheld⟩ := resolveAppeal_books h
      refine ⟨hsound _ hs, ?_⟩
      unfold State.surplus
      omega
    | _ => cases hc

theorem State.Sound.reserves_nonneg {account : Address} (hs : s.Sound account) : 0 ≤ s.reserves :=
  add_nonneg (Table.total_nonneg hs.fees) hs.pool

/-- In a run in which every slash spares the tokens of the contract it never owes more than it has. -/
theorem Sparing.surplus_nonneg {e : Env} (h : (contract .exact).Reach Sparing e s) :
    s.Sound e.currentContract ∧ 0 ≤ s.surplus e.currentContract := by
  induction h with
  | init hinit => exact ⟨(sound_deployed hinit).1, (sound_deployed hinit).2.ge⟩
  | step hreach hok hstep ih =>
    obtain ⟨hcontract, hregular, hspares⟩ := hok
    rw [← hcontract] at ih
    obtain ⟨hsound, hle⟩ := execute_surplus hreach ih.1 hregular hspares hstep
    exact ⟨hsound, ih.2.trans hle⟩

/-- In every state reached, a slash takes as much from what users can claim as from what the contract holds, which
is nothing, exactly when it spares the tokens of the contract; and where the state is reached without overflow by
calls of which every slash does, the contract holds at least what it owes. -/
theorem slashing_is_solvent_where_sparing {m : Mode} {e : Env} (hreach : (contract m).Reach Unrestricted e s) :
    (∀ {env : Env} {admin validator : Address} {severity reason : U32} {rationale : String}
        {signers : Option (List Address)} {slashId : BytesN32} {s' : State},
      (slashValidator env s admin validator severity reason rationale signers).run m = some (slashId, s') →
      ∀ config ∈ s.penalty.config, ∀ requested ∈ config.slashAmounts[(severity : ℤ).toNat]?,
      i128.Fits (slashedAmount s validator requested * config.burnBps) →
        (s.principal - s'.principal = s.held env.currentContract - s'.held env.currentContract ↔
          config.Spares env s (slashedAmount s validator requested))) ∧
    ((contract .exact).Reach Sparing e s → s.principal ≤ s.held e.currentContract) := by
  constructor
  · intro env admin validator severity reason rationale signers slashId s' h config hconfig requested hrequested hfits
    obtain ⟨hprincipal, -, -⟩ := slashValidator_books h
    rw [← slashValidator_held h hconfig (burnBps_le hreach config hconfig) hrequested hfits, hprincipal]
    omega
  · intro h
    obtain ⟨hsound, hsurplus⟩ := Sparing.surplus_nonneg h
    have hreserves := hsound.reserves_nonneg
    unfold State.surplus at hsurplus
    omega

/-- Slashes of 500, half of it burned. -/
def halfBurned : SlashConfig :=
  ⟨true, [500], 5000, 3600, axToken, treasury, 0⟩

/-- One user has staked in a tournament, and slashing is configured. -/
def stakedBy (user : Address) : List (Env × Call) :=
  [signed 10 (.createTournament 7 100),
    signed 10 (.updateTournamentState 7 TournamentState.active.code),
    signed 10 (.stake user 7 1000),
    signed 10 (.configureSlashing halfBurned)]

/-- A slash of a validator without a stake takes nothing. -/
theorem slash_without_stake_is_solvent : ∃ r slashId s', (deployment .exact).after Sparing (stakedBy bob) = some r ∧
    (slashValidator (signedAt 20) r.2 admin alice 0 0 "late" none).run .exact = some (slashId, s') ∧
    r.2.principal - s'.principal = r.2.held ⟨0⟩ - s'.held ⟨0⟩ ∧ r.2.principal = 1000 ∧
    r.2.principal ≤ r.2.held r.1.currentContract := by
  have hrun : ((deployment .exact).after Sparing (stakedBy bob)).map (fun r => (r.2.principal, r.2.penalty.config,
      r.2.axToken, slashedAmount r.2 alice 500,
      ((slashValidator (signedAt 20) r.2 admin alice 0 0 "late" none).run .exact).isSome)) =
      some (1000, some halfBurned, some axToken, 0, true) := by
    decide +kernel
  obtain ⟨⟨e, s⟩, hr, hvalues⟩ := Option.map_eq_some_iff.1 hrun
  simp only [Prod.mk.injEq] at hvalues
  obtain ⟨hprincipal, hconfig, -, hamount, hslash⟩ := hvalues
  obtain ⟨⟨slashId, s'⟩, hslash⟩ := Option.isSome_iff_exists.1 hslash
  have hreach := reach_after hr
  obtain ⟨hmatched, hsolvent⟩ := slashing_is_solvent_where_sparing (hreach.mono fun _ => trivial)
  have hspares := hmatched hslash halfBurned hconfig 500 rfl (by rw [hamount]; decide)
  refine ⟨(e, s), slashId, s', hr, hslash, hspares.2 ?_, hprincipal, hsolvent hreach⟩
  rw [hamount]
  exact .inr (.inl le_rfl)

/-- A slash of a validator with a stake of 1000 pays 500 out, and the whole stake is still owed. -/
theorem slash_leaves_stake_owed : ∃ e s slashId s', (contract .wrapping).Reach Unrestricted e s ∧
    (slashValidator (signedAt 20) s admin alice 0 0 "late" none).run .wrapping = some (slashId, s') ∧
    s.held ⟨0⟩ - s'.held ⟨0⟩ = 500 ∧ s.principal - s'.principal = 0 ∧ s'.held ⟨0⟩ < s'.principal := by
  have hreach := reach_after (evaluated (o := (deployment .wrapping).after Unrestricted (stakedBy alice)))
  exact ⟨_, _, _, _, hreach, evaluated, by decide +kernel⟩

end Runs

end ArenaX.StakingManager
