/-
Issuance without a minter: the fair-launch sale and NFT staking.
-/
import ArenaX.VirtualEconomy.Currency
import ArenaX.VirtualEconomy.Nft

namespace ArenaX.VirtualEconomy

open Machine Exec

/-- Issue currency to an address: balance and supply grow by unchecked additions, with no supply limit. -/
def issue (c : CurrencyStore) (owner : Address) (amount : I128) : Result CurrencyStore := do
  let c ← c.add owner amount
  let supply ← unchecked i128 (c.totalSupply + amount)
  pure { c with totalSupply := supply }

/-! ## Fair launch -/

def configureFairLaunch (env : Env) (s : State) (config : FairLaunchConfig) : Result State := do
  requireAdmin env s
  reject ((config.basePrice : Int) ≤ 0) .invalidConfig
  reject ((config.whitelistEnd : Int) ≤ config.whitelistStart ∨ (config.publicStart : Int) < config.whitelistEnd ∨
    (config.publicEnd : Int) ≤ config.publicStart) .invalidConfig
  reject ((config.totalSupplyCap : Int) ≤ 0) .invalidConfig
  pure { s with
    fairLaunch.config := some config
    fairLaunch.analytics := some ⟨0, 0, 0, 0, config.basePrice⟩ }

def addToWhitelist (env : Env) (s : State) (address : Address) : Result State := do
  requireAdmin env s
  pure { s with fairLaunch.whitelist := s.fairLaunch.whitelist.set address true }

/-- The phases of a sale, 0 to 3 in the contract. -/
inductive FairLaunchPhase where
  | notStarted | whitelisted | open | ended
deriving DecidableEq

/-- The phase a time falls in; the gap between the whitelist and the public window counts as public. -/
def fairLaunchPhase (config : FairLaunchConfig) (now : U64) : FairLaunchPhase :=
  if (now : Int) < config.whitelistStart then .notStarted
  else if (now : Int) < config.whitelistEnd then .whitelisted
  else if (now : Int) < config.publicEnd then .open
  else .ended

/-- Count a purchase of a new or returning buyer in its phase. -/
def FairLaunchAnalytics.record (a : FairLaunchAnalytics) (phase : FairLaunchPhase) (isNewBuyer : Bool)
    (totalSold amount : I128) : Result FairLaunchAnalytics := do
  let whitelistSold ← if phase = .whitelisted then unchecked i128 (a.whitelistSold + amount) else pure a.whitelistSold
  let publicSold ← if phase = .whitelisted then pure a.publicSold else unchecked i128 (a.publicSold + amount)
  let uniqueBuyers ← if isNewBuyer then unchecked u32 (a.uniqueBuyers + 1) else pure a.uniqueBuyers
  pure { a with totalSold, whitelistSold, publicSold, uniqueBuyers }

/-- Buy in the current phase: the currency is issued to the buyer. -/
def purchaseFairLaunch (env : Env) (s : State) (buyer : Address) (amount : I128) : Result State := do
  env.requireAuth buyer
  reject ((amount : Int) ≤ 0) .invalidAmount
  let config ← okOr s.fairLaunch.config .invalidConfig
  let phase := fairLaunchPhase config env.timestamp
  reject (phase = .notStarted ∨ phase = .ended) .invalidConfig
  reject (phase = .whitelisted ∧ (s.fairLaunch.whitelist.get buyer).getD false = false) .unauthorized
  let alreadyPurchased := (s.fairLaunch.purchased.get buyer).getD 0
  let perWalletCap := if phase = .whitelisted then config.maxWhitelistPerWallet else config.maxPublicPerWallet
  let totalAfter ← unchecked i128 (alreadyPurchased + amount)
  reject ((totalAfter : Int) > perWalletCap) .invalidAmount
  let whaleGross ← unchecked i128 (config.totalSupplyCap * config.antiWhaleBps)
  let maxPerWhale ← quot i128 whaleGross 10000
  reject ((config.antiWhaleBps : Int) > 0 ∧ (totalAfter : Int) > maxPerWhale) .invalidAmount
  let analytics := s.fairLaunch.analytics.getD ⟨0, 0, 0, 0, config.basePrice⟩
  let totalSold ← unchecked i128 (analytics.totalSold + amount)
  reject ((totalSold : Int) > config.totalSupplyCap) .supplyLimitExceeded
  let currency ← issue s.currency buyer amount
  let analytics ← analytics.record phase ((alreadyPurchased : Int) = 0) totalSold amount
  pure { s with
    currency := currency
    fairLaunch.purchased := s.fairLaunch.purchased.set buyer totalAfter
    fairLaunch.analytics := some analytics }

/-! ## NFT staking -/

namespace NftStakingManager

/-- Rewards since the last payout: `rarity * reward_rate_bps * intervals / 10000`. -/
def calcRewards (position : NftStakedPosition) (config : NftStakeConfig) (rarity : U32) (now : U64) : Result I128 :=
  let elapsed := u64.saturate (now - position.lastRewardTs)
  if (elapsed : Int) = 0 ∨ (config.rewardInterval : Int) = 0 then pure 0
  else
    let intervals : Int := elapsed / config.rewardInterval
    if intervals = 0 then pure 0
    else do
      let rate ← unchecked i128 (rarity * config.rewardRateBps)
      let product ← unchecked i128 (rate * intervals)
      quot i128 product 10000

end NftStakingManager

open NftStakingManager

section

variable (env : Env) (s : State)

def configureNftStaking (config : NftStakeConfig) : Result State := do
  requireAdmin env s
  reject ((config.rewardInterval : Int) = 0) .invalidConfig
  pure { s with staking.config := some config }

/-- Stake an NFT; ownership does not change. -/
def stakeNft (owner : Address) (tokenId : BytesN32) : Result State := do
  env.requireAuth owner
  let config ← okOr s.staking.config .nftStakingNotConfigured
  reject (config.paused = true) .nftStakingPaused
  requireNftOwner s tokenId owner
  reject (s.staking.position.get tokenId).isSome .nftCurrentlyStaked
  let position : NftStakedPosition := ⟨tokenId, owner, env.timestamp, 0, env.timestamp⟩
  let stakedList := (s.staking.stakedByOwner.get owner).getD [] ++ [tokenId]
  let totalStaked ← unchecked u64 (s.staking.analytics.totalStaked + 1)
  pure { s with
    staking.position := s.staking.position.set tokenId position
    staking.stakedByOwner := s.staking.stakedByOwner.set owner stakedList
    staking.analytics.totalStaked := totalStaked }

/-- The rewards due on a position. -/
def rewardsDue (config : NftStakeConfig) (position : NftStakedPosition) (tokenId : BytesN32) :
    Result I128 := do
  let metadata ← okOr (s.nft.metadata.get tokenId) .tokenNotFound
  let accrued ← calcRewards position config metadata.rarity env.timestamp
  unchecked i128 (position.pendingRewards + accrued)

/-- Issue rewards, if there are any. -/
def payRewards (c : CurrencyStore) (owner : Address) (rewards : I128) : Result CurrencyStore :=
  if (rewards : Int) > 0 then issue c owner rewards else pure c

/-- Unstake an NFT and collect its rewards. -/
def unstakeNft (owner : Address) (tokenId : BytesN32) : Result (I128 × State) := do
  env.requireAuth owner
  let config ← okOr s.staking.config .nftStakingNotConfigured
  reject (config.paused = true) .nftStakingPaused
  let position ← okOr (s.staking.position.get tokenId) .nftNotStaked
  reject (position.owner ≠ owner) .unauthorized
  let unlockedAt ← unchecked u64 (position.stakedAt + config.minLockPeriod)
  reject ((config.minLockPeriod : Int) > 0 ∧ (env.timestamp : Int) < unlockedAt) .nftLockPeriodNotMet
  let totalRewards ← rewardsDue env s config position tokenId
  let currency ← payRewards s.currency owner totalRewards
  let stakedList := ((s.staking.stakedByOwner.get owner).getD []).filter (· ≠ tokenId)
  let totalRewardsDistributed ← unchecked i128 (s.staking.analytics.totalRewardsDistributed + totalRewards)
  pure (totalRewards, { s with
    currency := currency
    staking.position := s.staking.position.remove tokenId
    staking.stakedByOwner := s.staking.stakedByOwner.set owner stakedList
    staking.analytics := ⟨u64.saturate (s.staking.analytics.totalStaked - 1), totalRewardsDistributed⟩ })

/-- Collect the rewards of a staked NFT. -/
def claimNftStakingRewards (owner : Address) (tokenId : BytesN32) : Result (I128 × State) := do
  env.requireAuth owner
  let config ← okOr s.staking.config .nftStakingNotConfigured
  let position ← okOr (s.staking.position.get tokenId) .nftNotStaked
  reject (position.owner ≠ owner) .unauthorized
  let totalRewards ← rewardsDue env s config position tokenId
  if (totalRewards : Int) ≤ 0 then pure (0, s)
  else
    let currency ← issue s.currency owner totalRewards
    let position := { position with pendingRewards := 0, lastRewardTs := env.timestamp }
    let totalRewardsDistributed ← unchecked i128 (s.staking.analytics.totalRewardsDistributed + totalRewards)
    pure (totalRewards, { s with
      currency := currency
      staking.position := s.staking.position.set tokenId position
      staking.analytics.totalRewardsDistributed := totalRewardsDistributed })

end

/-! ## What the calls do -/

section Spec

variable {m : Mode} {env : Env} {s s' : State} {owner : Address} {tokenId : BytesN32}

theorem purchaseFairLaunch_spec {amount : I128} (h : (purchaseFairLaunch env s owner amount).run m = some s') :
    0 < (amount : Int) ∧ ∃ c fl, (issue s.currency owner amount).run m = some c ∧
      s' = { s with currency := c, fairLaunch := fl } := by
  unfold purchaseFairLaunch at h
  simp only [run_iff, not_le] at h
  obtain ⟨-, -, -, ha, _, -, -, -, -, -, _, -, -, -, _, -, _, -, -, -, _, -, -, -, _, hc, _, -, rfl⟩ := h
  exact ⟨ha, _, _, hc, rfl⟩

theorem stakeNft_spec (h : (stakeNft env s owner tokenId).run m = some s') :
    s.nft.owner.get tokenId = some owner ∧ ∃ position list x, position.owner = owner ∧
      s' = { s with
        staking.position := s.staking.position.set tokenId position
        staking.stakedByOwner := list
        staking.analytics := x } := by
  unfold stakeNft at h
  simp only [run_iff, run_requireNftOwner] at h
  obtain ⟨-, -, _, -, -, -, -, ho, -, -, x, -, rfl⟩ := h
  exact ⟨ho, _, _, _, rfl, rfl⟩

theorem unstakeNft_spec {rewards : I128} (h : (unstakeNft env s owner tokenId).run m = some (rewards, s')) :
    ∃ config position c list x, s.staking.config = some config ∧ s.staking.position.get tokenId = some position ∧
      (rewardsDue env s config position tokenId).run m = some rewards ∧
      (payRewards s.currency owner rewards).run m = some c ∧
      s' = { s with
        currency := c
        staking.position := s.staking.position.remove tokenId
        staking.stakedByOwner := list
        staking.analytics := x } := by
  unfold unstakeNft at h
  simp only [run_iff, Prod.mk.injEq, not_not] at h
  obtain ⟨-, -, _, hc, -, -, _, hp, -, -, _, -, -, -, r, hr, _, hpay, _, -, rfl, rfl⟩ := h
  exact ⟨_, _, _, _, _, hc, hp, hr, hpay, rfl⟩

/-- A claim pays the rewards due, and writes the position back only if there are any. -/
theorem claimNftStakingRewards_spec {paid : I128}
    (h : (claimNftStakingRewards env s owner tokenId).run m = some (paid, s')) :
    ∃ config position rewards c positions x, s.staking.config = some config ∧
      s.staking.position.get tokenId = some position ∧
      (rewardsDue env s config position tokenId).run m = some rewards ∧
      (payRewards s.currency owner rewards).run m = some c ∧
      (positions = s.staking.position ∨ ∃ position', position'.owner = position.owner ∧
        positions = s.staking.position.set tokenId position') ∧
      s' = { s with currency := c, staking.position := positions, staking.analytics := x } := by
  unfold claimNftStakingRewards at h
  simp only [run_bind, Option.bind_eq_some_iff, run_iff, run_ite, run_pure, not_not] at h
  obtain ⟨-, -, config, hc, position, hp, -, -, r, hr, h⟩ := h
  refine ⟨config, position, r, ?_⟩
  split at h
  · rename_i hr0
    cases h
    refine ⟨s.currency, _, _, hc, hp, hr, ?_, .inl rfl, rfl⟩
    rw [payRewards, if_neg (not_lt.2 hr0), run_pure]
  · rename_i hr0
    simp only [Option.bind_eq_some_iff, Option.some.injEq, Prod.mk.injEq] at h
    obtain ⟨_, hpay, _, -, -, rfl⟩ := h
    refine ⟨_, _, _, hc, hp, hr, ?_,
      .inr ⟨{ position with pendingRewards := 0, lastRewardTs := env.timestamp }, rfl, rfl⟩, rfl⟩
    rw [payRewards, if_pos (not_le.1 hr0)]
    exact hpay

end Spec

end ArenaX.VirtualEconomy
