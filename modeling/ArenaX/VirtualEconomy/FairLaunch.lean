/-
The fair-launch sale, from its configuration on: when purchases are accepted, and what the sale has counted.
A time between the two windows counts as public, so a purchase there is accepted before the public sale
has started; everywhere else the counters are those of an honest sale, as long as none of them wraps.
-/
import ArenaX.VirtualEconomy.Frame

namespace ArenaX.VirtualEconomy

open Machine Exec Sample

/-- What a call sells. -/
def Call.sold : Call → ℤ
  | .purchaseFairLaunch _ amount => amount
  | _ => 0

/-- A call that starts the sale over. -/
def Call.restartsSale : Call → Bool
  | .configureFairLaunch _ => true
  | _ => false

/-- The contract, watched from the configuration of a sale on. -/
def sale (config : FairLaunchConfig) : TransitionSystem Env State Call :=
  contract.restart fun env s => ∃ s₀, (configureFairLaunch env s₀ config).run .wrapping = some s

/-- The states of a sale after its configuration, with the amount sold so far, by calls that a rule allows. -/
def Sale (ok : Rule) (config : FairLaunchConfig) : ℤ → Env → State → Prop :=
  (sale config).Tally (fun e e' s c => ok e e' s c ∧ c.restartsSale = false) fun _ _ c => c.sold

/-- A purchase is not made between the two windows, and its amount fits on top of what has been sold. -/
def InWindow : Rule
  | _, env, s, .purchaseFairLaunch _ amount =>
    (∀ config ∈ s.fairLaunch.config,
      (env.timestamp : ℤ) < config.whitelistEnd ∨ (config.publicStart : ℤ) ≤ env.timestamp) ∧
    ∀ a ∈ s.fairLaunch.analytics, (a.totalSold : ℤ) + amount ≤ i128.max
  | _, _, _, _ => True

instance (e env : Env) (s : State) (c : Call) : Decidable (InWindow e env s c) := by
  apply Call.casesOn (motive := fun c => Decidable (InWindow e env s c)) c <;> intros <;>
    dsimp only [InWindow] <;> infer_instance

/-- The four boundaries of a sale in order. -/
structure FairLaunchConfig.Ordered (config : FairLaunchConfig) : Prop where
  whitelist : (config.whitelistStart : ℤ) < config.whitelistEnd
  gap : (config.whitelistEnd : ℤ) ≤ config.publicStart
  sale : (config.publicStart : ℤ) < config.publicEnd

/-- The counters of a sale that has sold `n`. -/
structure FairLaunchAnalytics.Counts (a : FairLaunchAnalytics) (n : ℤ) : Prop where
  total : (a.totalSold : ℤ) = n
  split : (a.totalSold : ℤ) = a.whitelistSold + a.publicSold
  whitelistNonneg : 0 ≤ (a.whitelistSold : ℤ)
  publicNonneg : 0 ≤ (a.publicSold : ℤ)

/-- A sale in progress: its configuration is in force and its counters are right and within the cap. -/
structure Selling (config : FairLaunchConfig) (n : ℤ) (s : State) : Prop where
  ordered : config.Ordered
  capped : n ≤ config.totalSupplyCap
  configured : s.fairLaunch.config = some config
  counts : ∃ a, s.fairLaunch.analytics = some a ∧ a.Counts n

section Steps

variable {m : Mode} {e env : Env} {s s' : State} {c : Call} {buyer : Address} {amount : I128}
  {config : FairLaunchConfig} {n : ℤ}

theorem configureFairLaunch_spec (h : (configureFairLaunch env s config).run m = some s') :
    config.Ordered ∧ 0 < (config.totalSupplyCap : ℤ) ∧ s' = { s with
      fairLaunch.config := some config
      fairLaunch.analytics := some ⟨0, 0, 0, 0, config.basePrice⟩ } := by
  simp only [configureFairLaunch, run_iff, not_or, not_le, not_lt] at h
  obtain ⟨-, -, -, -, -, ⟨h₁, h₂, h₃⟩, -, hcap, rfl⟩ := h
  exact ⟨⟨h₁, h₂, h₃⟩, hcap, rfl⟩

theorem fairLaunchPhase_cases {now : U64} (h : ¬ (fairLaunchPhase config now = .notStarted ∨
    fairLaunchPhase config now = .ended)) :
    fairLaunchPhase config now = .whitelisted ∧ (config.whitelistStart : ℤ) ≤ now ∧ (now : ℤ) < config.whitelistEnd ∨
    fairLaunchPhase config now = .open ∧ (config.whitelistEnd : ℤ) ≤ now ∧ (now : ℤ) < config.publicEnd := by
  unfold fairLaunchPhase at h ⊢
  split_ifs at h ⊢ <;> simp_all

/-- A purchase is accepted in one of the two phases, from a whitelisted buyer in the first, and counted there. -/
theorem purchaseFairLaunch_sale (h : (purchaseFairLaunch env s buyer amount).run m = some s') :
    ∃ config totalSold a c p, s.fairLaunch.config = some config ∧ 0 < (amount : ℤ) ∧
      (fairLaunchPhase config env.timestamp = .whitelisted ∧ (config.whitelistStart : ℤ) ≤ env.timestamp ∧
          (env.timestamp : ℤ) < config.whitelistEnd ∧ (s.fairLaunch.whitelist.get buyer).getD false = true ∨
        fairLaunchPhase config env.timestamp = .open ∧ (config.whitelistEnd : ℤ) ≤ env.timestamp ∧
          (env.timestamp : ℤ) < config.publicEnd) ∧
      (unchecked i128 ((s.fairLaunch.analytics.getD ⟨0, 0, 0, 0, config.basePrice⟩).totalSold + amount) :
        Result I128).run m = some totalSold ∧ (totalSold : ℤ) ≤ config.totalSupplyCap ∧
      ((s.fairLaunch.analytics.getD ⟨0, 0, 0, 0, config.basePrice⟩).record (fairLaunchPhase config env.timestamp)
        (((s.fairLaunch.purchased.get buyer).getD 0 : I128) = (0 : ℤ)) totalSold amount).run m = some a ∧
      s' = { s with currency := c, fairLaunch.purchased := p, fairLaunch.analytics := some a } := by
  unfold purchaseFairLaunch at h
  simp only [run_iff, not_le, gt_iff_lt, not_lt] at h
  obtain ⟨-, -, -, ha, _, hc, -, hphase, -, hwhite, _, -, -, -, _, -, _, -, -, -, _, ht, -, hcap, _, -, _,
    hrec, rfl⟩ := h
  refine ⟨_, _, _, _, _, hc, ha, ?_, ht, hcap, hrec, rfl⟩
  rcases fairLaunchPhase_cases hphase with ⟨hp, h₁, h₂⟩ | hp
  · refine .inl ⟨hp, h₁, h₂, ?_⟩
    simpa [hp] using hwhite
  · exact .inr hp

theorem FairLaunchAnalytics.record_spec {a a' : FairLaunchAnalytics} {phase : FairLaunchPhase} {isNewBuyer : Bool}
    {totalSold : I128} (h : (a.record phase isNewBuyer totalSold amount).run .wrapping = some a') :
    a'.totalSold = totalSold ∧
    (phase = .whitelisted ∧ a'.whitelistSold = i128.wrap (a.whitelistSold + amount) ∧ a'.publicSold = a.publicSold ∨
      phase ≠ .whitelisted ∧ a'.whitelistSold = a.whitelistSold ∧
        a'.publicSold = i128.wrap (a.publicSold + amount)) := by
  by_cases hphase : phase = .whitelisted <;> cases isNewBuyer <;>
    simp only [FairLaunchAnalytics.record, hphase, if_true, if_false, run_iff, run_pure, run_unchecked_wrapping,
      Option.some.injEq, Bool.false_eq_true] at h <;>
    obtain ⟨_, rfl, _, rfl, _, rfl, rfl⟩ := h <;> simp [hphase]

/-- Counting a purchase whose total does not wrap. -/
theorem FairLaunchAnalytics.Counts.record {a a' : FairLaunchAnalytics} {phase : FairLaunchPhase} {isNewBuyer : Bool}
    {totalSold : I128} (h : a.Counts n) (hpos : 0 < (amount : ℤ)) (htotal : (totalSold : ℤ) = n + amount)
    (hrec : (a.record phase isNewBuyer totalSold amount).run .wrapping = some a') : a'.Counts (n + amount) := by
  have hfit := totalSold.fits.2
  have hmin := i128_min
  obtain ⟨hn, hsplit, hw, hp⟩ := h
  obtain ⟨ht, ⟨-, hw', hp'⟩ | ⟨-, hw', hp'⟩⟩ := FairLaunchAnalytics.record_spec hrec
  · have hval : (a'.whitelistSold : ℤ) = a.whitelistSold + amount := by
      rw [hw', wrap_of_fits ⟨by omega, by omega⟩]
    exact ⟨ht ▸ htotal, by rw [ht, hval, hp']; omega, by omega, hp' ▸ hp⟩
  · have hval : (a'.publicSold : ℤ) = a.publicSold + amount := by
      rw [hp', wrap_of_fits ⟨by omega, by omega⟩]
    exact ⟨ht ▸ htotal, by rw [ht, hval, hw']; omega, hw' ▸ hw, by omega⟩

theorem purchaseFairLaunch_selling (hs : Selling config n s) (hok : InWindow e env s (.purchaseFairLaunch buyer amount))
    (h : (purchaseFairLaunch env s buyer amount).run .wrapping = some s') : Selling config (n + amount) s' := by
  obtain ⟨config', totalSold, _, c, p, hc, hpos, -, ht, hcap, hrec, rfl⟩ := purchaseFairLaunch_sale h
  obtain ⟨hord, -, hconfig, a, ha, hcounts⟩ := hs
  cases hconfig.symm.trans hc
  rw [ha, Option.getD_some] at ht hrec
  have htotal : totalSold = n + amount := by
    have hle := hok.2 a ha
    have hge := hcounts.split
    have hw := hcounts.whitelistNonneg
    have hp := hcounts.publicNonneg
    rw [run_unchecked_wrapping] at ht
    rw [ht, wrap_of_fits ⟨by have := i128_min; omega, hle⟩, hcounts.total]
  exact ⟨hord, htotal ▸ hcap, hconfig, _, rfl, hcounts.record hpos htotal hrec⟩

/-- A call that buys nothing and does not reconfigure the sale leaves its configuration and counters. -/
theorem execute_keepsSale (hc : c.restartsSale = false) (hbuy : ∀ buyer amount, c ≠ .purchaseFairLaunch buyer amount) :
    Ensures m (execute env s c) fun s' => s'.fairLaunch.config = s.fairLaunch.config ∧
      s'.fairLaunch.analytics = s.fairLaunch.analytics := by
  intro s' h
  cases c with
  | purchaseFairLaunch => exact absurd rfl (hbuy _ _)
  | configureFairLaunch => cases hc
  | addToWhitelist =>
    simp only [execute, addToWhitelist, run_iff] at h
    obtain ⟨-, -, rfl⟩ := h
    exact ⟨rfl, rfl⟩
  | _ =>
    have hfair := (execute_frame h).fairLaunch rfl
    exact ⟨by rw [hfair], by rw [hfair]⟩

theorem execute_selling (hs : Selling config n s) (hc : c.restartsSale = false) (hok : InWindow e env s c)
    (h : (execute env s c).run .wrapping = some s') : Selling config (n + c.sold) s' := by
  by_cases hbuy : ∃ buyer amount, c = .purchaseFairLaunch buyer amount
  · obtain ⟨buyer, amount, rfl⟩ := hbuy
    exact purchaseFairLaunch_selling hs hok h
  · obtain ⟨hconfig, hanalytics⟩ := execute_keepsSale hc (fun b a hc => hbuy ⟨b, a, hc⟩) s' h
    have hsold : c.sold = 0 := by
      cases c with
      | purchaseFairLaunch b a => exact absurd ⟨b, a, rfl⟩ hbuy
      | _ => rfl
    rw [hsold, add_zero]
    exact ⟨hs.ordered, hs.capped, hconfig.trans hs.configured, hanalytics ▸ hs.counts⟩

end Steps

theorem Sale.selling {config : FairLaunchConfig} {n : ℤ} {env : Env} {s : State} (h : Sale InWindow config n env s) :
    Selling config n s := by
  refine TransitionSystem.Tally.invariant (P := fun n _ s => Selling config n s) ?_ ?_ h
  · rintro e s ⟨_, h⟩
    obtain ⟨hord, hcap, rfl⟩ := configureFairLaunch_spec h
    exact ⟨hord, hcap.le, rfl, _, rfl, rfl, rfl, le_rfl, le_rfl⟩
  · intro n e e' s c s' _ ih hok h
    exact execute_selling ih hok.2 hok.1 h

/-- In a sale without purchases between the windows and without overflow, the counters are those of what has
been sold since the configuration, within the cap. An accepted purchase falls into one of the two windows,
into the first only for a whitelisted buyer, exactly if it is not made between them. -/
theorem fair_launch_windows_and_totals {config : FairLaunchConfig} {n : ℤ} {env : Env} {s : State}
    (h : Sale InWindow config n env s) :
    (∃ a, s.fairLaunch.analytics = some a ∧ (a.totalSold : ℤ) = a.whitelistSold + a.publicSold ∧
      (a.totalSold : ℤ) = n ∧ (a.totalSold : ℤ) ≤ config.totalSupplyCap) ∧
    ∀ env buyer amount s', (purchaseFairLaunch env s buyer amount).run .wrapping = some s' →
      ((config.whitelistStart : ℤ) ≤ env.timestamp ∧ (env.timestamp : ℤ) < config.whitelistEnd ∧
          (s.fairLaunch.whitelist.get buyer).getD false = true ∨
        (config.publicStart : ℤ) ≤ env.timestamp ∧ (env.timestamp : ℤ) < config.publicEnd ↔
      (env.timestamp : ℤ) < config.whitelistEnd ∨ (config.publicStart : ℤ) ≤ env.timestamp) := by
  obtain ⟨hord, hcap, hconfig, a, ha, hcounts⟩ := h.selling
  refine ⟨⟨a, ha, hcounts.split, hcounts.total, hcounts.total ▸ hcap⟩, fun env buyer amount s' hbuy => ?_⟩
  obtain ⟨config', _, _, _, _, hc, -, hphase, -⟩ := purchaseFairLaunch_sale hbuy
  cases hconfig.symm.trans hc
  have hgap := hord.gap
  rcases hphase with ⟨-, hstart, hend, hwhite⟩ | ⟨-, hstart, hend⟩
  · exact ⟨fun _ => .inl hend, fun _ => .inl ⟨hstart, hend, hwhite⟩⟩
  · constructor
    · rintro (⟨-, hlt, -⟩ | ⟨hge, -⟩)
      · exact .inl hlt
      · exact .inr hge
    · rintro (hlt | hge)
      · omega
      · exact .inr ⟨hge, hend⟩

/-- A whitelist window from 10 to 20 and a public one from 30 to 40. -/
def gappedLaunch : FairLaunchConfig :=
  { whitelistStart := u64.wrap 10
    whitelistEnd := u64.wrap 20
    publicStart := u64.wrap 30
    publicEnd := u64.wrap 40
    basePrice := i128.wrap 1
    maxWhitelistPerWallet := i128.wrap 100
    maxPublicPerWallet := i128.wrap 100
    antiWhaleBps := 0
    totalSupplyCap := i128.wrap 1000 }

/-- A purchase in each window. -/
def launchDay : List (Env × Call) :=
  [signed 5 (.addToWhitelist alice), signed 10 (.purchaseFairLaunch alice 60),
    signed 30 (.purchaseFairLaunch bob 70)]

/-- The sale after its configuration. -/
def launched : (sale gappedLaunch).Deployment :=
  ⟨signedAt 1, _, _, evaluated (o := (configureFairLaunch (signedAt 1) (deployed 1000000 250)
    gappedLaunch).run .wrapping)⟩

theorem totals_after_launchDay : ∃ env s a, Sale InWindow gappedLaunch 130 env s ∧ s.fairLaunch.analytics = some a ∧
    (a.totalSold : ℤ) = a.whitelistSold + a.publicSold ∧ (a.totalSold : ℤ) = 130 := by
  have hrun := evaluated (o := launched.after (fun e e' s c => InWindow e e' s c ∧ c.restartsSale = false) launchDay)
  have hsale : Sale InWindow gappedLaunch 130 _ _ := launched.tally_after (fun _ _ c => c.sold) hrun
  obtain ⟨a, ha, hsplit, htotal, -⟩ := (fair_launch_windows_and_totals hsale).1
  exact ⟨_, _, a, hsale, ha, hsplit, htotal⟩

/-- Between the windows anyone can buy: at time 25 a buyer who is not on the whitelist is served. -/
theorem purchase_between_windows_accepted : ∃ env s s', Sale Unrestricted gappedLaunch 0 env s ∧
    (s.fairLaunch.whitelist.get bob).getD false = false ∧
    (purchaseFairLaunch (signedAt 25) s bob 70).run .wrapping = some s' ∧
    (gappedLaunch.whitelistEnd : ℤ) ≤ 25 ∧ (25 : ℤ) < gappedLaunch.publicStart :=
  ⟨_, _, _, .init launched.starts, by decide +kernel, evaluated, by decide, by decide⟩

end ArenaX.VirtualEconomy
