/-
Rewards: direct distribution, referral bonuses and trading rebates.
-/
import ArenaX.VirtualEconomy.Currency
import ArenaX.VirtualEconomy.Nft

namespace ArenaX.VirtualEconomy

open Machine Exec

/-! ## Distribution -/

section

variable (env : Env) (s : State)

/-- One reward: currency or an NFT with a generated id. -/
def grantReward (reward : RewardDistribution) : Result State :=
  match reward.rewardType with
  | .currency amount => mintCurrency env s reward.recipient amount
  | .nft metadata => Prod.snd <$> mintNft env s reward.recipient metadata none

def distributeRewards (rewards : List RewardDistribution) : Result State := do
  requireAuthorizedMinter env s
  rewards.foldlM (grantReward env) s

/-! ## Referrals -/

/-- Configure the tiers: volumes nonnegative and increasing, combined rates at most 100%. -/
def configureReferrals (config : ReferralConfig) : Result State := do
  requireAdmin env s
  reject (config.tiers = [] ∨ (config.maxRewardPerActivity : Int) ≤ 0 ∨ (config.activityCooldown : Int) = 0)
    .invalidConfig
  let _ ← config.tiers.foldlM (fun (previous : Int) tier => do
    reject ((tier.minVolume : Int) < 0 ∨ (tier.minVolume : Int) ≤ previous ∨
      (tier.referrerBps : Int) + tier.refereeBps > 10000) .invalidConfig
    pure (tier.minVolume : Int)) (-1)
  pure { s with referral.config := some config }

/-- Register a referee, once, under a referrer who is not flagged and was not referred by the referee. -/
def registerReferral (referee referrer : Address) : Result State := do
  env.requireAuth referee
  reject s.referral.config.isNone .referralNotConfigured
  reject (referee = referrer) .invalidReferral
  reject (∃ account ∈ s.referral.account.get referrer, account.flagged = true) .unauthorized
  reject (∃ account ∈ s.referral.account.get referrer, account.referrer = some referee) .unauthorized
  reject (s.referral.account.get referee).isSome .referralAlreadyRegistered
  let accounts := s.referral.account.set referee { referrer := some referrer }
  let account := (accounts.get referrer).getD {}
  let referredCount ← unchecked u32 (account.referredCount + 1)
  pure { s with referral.account := accounts.set referrer { account with referredCount } }

end

/-- The last tier whose threshold a volume reaches. -/
def referralTier (tiers : List ReferralTier) (volume : I128) : Option ReferralTier :=
  tiers.foldl (fun tier candidate => if (volume : Int) ≥ candidate.minVolume then some candidate else tier) none

/-- The two bonuses on an activity, scaled down to the cap. -/
def referralRewards (config : ReferralConfig) (tier : ReferralTier) (amount : I128) : Result (I128 × I128) := do
  let referrerGross ← unchecked i128 (amount * tier.referrerBps)
  let referrerReward ← quot i128 referrerGross 10000
  let refereeGross ← unchecked i128 (amount * tier.refereeBps)
  let refereeReward ← quot i128 refereeGross 10000
  let total ← unchecked i128 (referrerReward + refereeReward)
  if (total : Int) > config.maxRewardPerActivity then
    let scaled ← unchecked i128 (referrerReward * config.maxRewardPerActivity)
    let referrerReward ← quot i128 scaled total
    let refereeReward ← unchecked i128 (config.maxRewardPerActivity - referrerReward)
    pure (referrerReward, refereeReward)
  else pure (referrerReward, refereeReward)

/-- Add a bonus to an account. -/
def ReferralAccount.accrue (account : ReferralAccount) (reward : I128) : Result ReferralAccount := do
  let pendingRewards ← unchecked i128 (account.pendingRewards + reward)
  let totalRewards ← unchecked i128 (account.totalRewards + reward)
  pure { account with pendingRewards, totalRewards }

section

variable (env : Env) (s : State)

def recordReferralActivity (referee : Address) (amount : I128) :
    Result ((I128 × I128) × State) := do
  env.requireAuth referee
  reject ((amount : Int) ≤ 0) .invalidAmount
  let config ← okOr s.referral.config .referralNotConfigured
  let refereeAccount ← okOr (s.referral.account.get referee) .referralNotFound
  let referrer ← okOr refereeAccount.referrer .referralNotFound
  let referrerAccount ← okOr (s.referral.account.get referrer) .referralNotFound
  reject (refereeAccount.flagged = true ∨ referrerAccount.flagged = true) .unauthorized
  let nextActivity ← unchecked u64 (refereeAccount.lastActivity + config.activityCooldown)
  reject ((refereeAccount.lastActivity : Int) > 0 ∧ (env.timestamp : Int) < nextActivity) .referralCooldown
  let qualifyingVolume ← unchecked i128 (refereeAccount.qualifyingVolume + amount)
  let tier ← okOr (referralTier config.tiers qualifyingVolume) .invalidConfig
  let (referrerReward, refereeReward) ← referralRewards config tier amount
  let refereeAccount ← refereeAccount.accrue refereeReward
  let referrerAccount ← referrerAccount.accrue referrerReward
  let refereeAccount := { refereeAccount with qualifyingVolume, lastActivity := env.timestamp }
  pure ((referrerReward, refereeReward), { s with
    referral.account := (s.referral.account.set referee refereeAccount).set referrer referrerAccount })

/-- Claim the pending rewards of an account. -/
def claimReferralRewards (account : Address) : Result (I128 × State) := do
  env.requireAuth account
  let referral ← okOr (s.referral.account.get account) .referralNotFound
  reject (referral.flagged = true) .unauthorized
  reject ((referral.pendingRewards : Int) ≤ 0) .nothingToClaim
  let amount := referral.pendingRewards
  let supply ← unchecked i128 (getTotalCurrencySupply s + amount)
  reject ((supply : Int) > (getCurrencyConfig s).maxSupply) .supplyLimitExceeded
  let currency ← s.currency.add account amount
  let minted ← unchecked i128 (s.analytics.totalCurrencyMinted + amount)
  pure (amount, { s with
    currency := { currency with totalSupply := supply }
    analytics.totalCurrencyMinted := minted
    referral.account := s.referral.account.set account { referral with pendingRewards := 0 } })

def setReferralFraudFlag (account : Address) (flagged : Bool) : Result State := do
  requireAdmin env s
  let referral ← okOr (s.referral.account.get account) .referralNotFound
  pure { s with referral.account := s.referral.account.set account { referral with flagged } }

/-! ## Trading rebates -/

/-- Configure the volume thresholds; the rates are fixed. -/
def configureRebates (tier1MinVolume tier2MinVolume tier3MinVolume : I128)
    (periodSeconds : U64) : Result State := do
  requireAdmin env s
  reject ((tier1MinVolume : Int) ≤ 0 ∨ (tier2MinVolume : Int) ≤ tier1MinVolume ∨
    (tier3MinVolume : Int) ≤ tier2MinVolume ∨ (periodSeconds : Int) = 0) .invalidConfig
  pure { s with rebate.config := some {
    tier1MinVolume, tier2MinVolume, tier3MinVolume
    tier1Bps := ⟨100, by decide, by decide⟩
    tier2Bps := ⟨200, by decide, by decide⟩
    tier3Bps := ⟨500, by decide, by decide⟩
    periodSeconds } }

end

/-- The rate of the highest tier a volume reaches. -/
def rebateTierBps (config : RebateConfig) (volume : I128) : U32 :=
  if (volume : Int) ≥ config.tier3MinVolume then config.tier3Bps
  else if (volume : Int) ≥ config.tier2MinVolume then config.tier2Bps
  else if (volume : Int) ≥ config.tier1MinVolume then config.tier1Bps
  else 0

/-- The loop of a settlement: the supply and the number of payouts are kept in local variables. -/
structure RebateRun where
  currency : CurrencyStore
  rebate : RebateStore
  supply : I128
  paidCount : U32

/-- Pay a trader the rebate on the volume of the period at a rate, unless it would exceed the supply limit. -/
def payRebate (now : U64) (maxSupply : I128) (run : RebateRun) (trader : Address) (volume : I128) (bps : U32) :
    Result RebateRun :=
  if (bps : Int) > 0 then do
    let product ← unchecked i128 (volume * bps)
    let amount ← quot i128 product 10000
    if (amount : Int) > 0 then
      let supply ← unchecked i128 (run.supply + amount)
      if (supply : Int) ≤ maxSupply then
        let currency ← run.currency.add trader amount
        let history := (run.rebate.history.get trader).getD [] ++ [⟨volume, bps, amount, now⟩]
        let paidCount ← unchecked u32 (run.paidCount + 1)
        pure { run with currency, supply, paidCount, rebate.history := run.rebate.history.set trader history }
      else pure run
    else pure run
  else pure run

/-- One trader's turn: a payout where the volume reaches a tier, and the volume is reset. -/
def settleTrader (now : U64) (maxSupply : I128) (config : RebateConfig) (run : RebateRun) (trader : Address) :
    Result RebateRun := do
  let volume := (run.rebate.traderVolume.get trader).getD 0
  let run ← payRebate now maxSupply run trader volume (rebateTierBps config volume)
  pure { run with rebate.traderVolume := run.rebate.traderVolume.remove trader }

/-- The earliest time of the next settlement. -/
def nextRebateRun (rebate : RebateStore) (config : RebateConfig) : Result U64 :=
  match rebate.lastRun with
  | some lastRun => unchecked u64 (lastRun + config.periodSeconds)
  | none => pure 0

/-- The minted total after a settlement. -/
def countRebates (totalCurrencyMinted totalRebated : I128) : Result I128 :=
  if (totalRebated : Int) > 0 then unchecked i128 (totalCurrencyMinted + totalRebated) else pure totalCurrencyMinted

/-- Pay every tracked trader, at most once per period. -/
def calculateMonthlyRebates (env : Env) (s : State) : Result (U32 × State) := do
  let config ← okOr s.rebate.config .invalidConfig
  let due ← nextRebateRun s.rebate config
  reject ((env.timestamp : Int) < due) .referralCooldown
  let run ← s.rebate.trackedTraders.foldlM (settleTrader env.timestamp (getCurrencyConfig s).maxSupply config)
    ⟨s.currency, s.rebate, getTotalCurrencySupply s, 0⟩
  let totalRebated ← unchecked i128 (run.supply - getTotalCurrencySupply s)
  let minted ← countRebates s.analytics.totalCurrencyMinted totalRebated
  pure (run.paidCount, { s with
    currency := { run.currency with totalSupply := run.supply }
    rebate := { run.rebate with trackedTraders := [], lastRun := some env.timestamp }
    analytics.totalCurrencyMinted := minted })

/-! ## What the calls do -/

section Spec

variable {m : Mode} {env : Env} {s s' : State}

theorem claimReferralRewards_spec {account : Address} {amount : I128}
    (h : (claimReferralRewards env s account).run m = some (amount, s')) :
    ∃ supply c x accounts, 0 < (amount : Int) ∧
      (unchecked i128 (getTotalCurrencySupply s + amount) : Result I128).run m = some supply ∧
      (supply : Int) ≤ (getCurrencyConfig s).maxSupply ∧ (s.currency.add account amount).run m = some c ∧
      s' = { s with
        currency := { c with totalSupply := supply }
        analytics.totalCurrencyMinted := x
        referral.account := accounts } := by
  unfold claimReferralRewards at h
  simp only [run_iff, Prod.mk.injEq, not_le, not_lt, gt_iff_lt] at h
  obtain ⟨-, -, referral, -, -, -, -, ha, _, hs, -, hle, _, hc, _, -, rfl, rfl⟩ := h
  exact ⟨_, _, _, _, ha, hs, hle, hc, rfl⟩

theorem calculateMonthlyRebates_spec {paid : U32} (h : (calculateMonthlyRebates env s).run m = some (paid, s')) :
    ∃ config run reb x, s.rebate.config = some config ∧
      (s.rebate.trackedTraders.foldlM (settleTrader env.timestamp (getCurrencyConfig s).maxSupply config)
        ⟨s.currency, s.rebate, getTotalCurrencySupply s, 0⟩).run m = some run ∧
      s' = { s with
        currency := { run.currency with totalSupply := run.supply }
        rebate := reb
        analytics.totalCurrencyMinted := x } := by
  unfold calculateMonthlyRebates at h
  simp only [run_iff, Prod.mk.injEq] at h
  obtain ⟨_, hc, _, -, -, -, _, hr, _, -, _, -, rfl, rfl⟩ := h
  exact ⟨_, _, _, _, hc, hr, rfl⟩

end Spec

end ArenaX.VirtualEconomy
