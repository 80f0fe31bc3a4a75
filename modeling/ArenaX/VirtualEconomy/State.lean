/-
The storage of the virtual-economy contract, grouped by subsystem, and the checks its entry points
share: who signed, who is the admin, which addresses are accepted.
-/
import ArenaX.VirtualEconomy.Storage

namespace ArenaX.VirtualEconomy

open Machine Exec

/-- `CurrencyBalance` and `TotalCurrencySupply`. -/
structure CurrencyStore where
  balance : Table Address I128 := ∅
  totalSupply : I128 := 0

/-- `TokenCounter`, `NFTOwner`, `NFTMetadata` and `OwnedNFTs`. -/
structure NftStore where
  tokenCounter : U64 := 0
  owner : Table BytesN32 Address := ∅
  metadata : Table BytesN32 NFTMetadata := ∅
  owned : Table Address (List BytesN32) := ∅

/-- `OrderCounter`, `MarketplaceOrder` and `NftActiveOrder`. -/
structure OrderStore where
  orderCounter : U64 := 0
  order : Table BytesN32 MarketplaceOrder := ∅
  activeOrder : Table BytesN32 BytesN32 := ∅

/-- `RoyaltyAnalytics` and `RoyaltyExempt`. -/
structure RoyaltyStore where
  analytics : RoyaltyAnalytics := {}
  exempt : Table Address Bool := ∅

/-- Dutch auctions and bonding-curve drops. -/
structure PricingStore where
  auctionCounter : U64 := 0
  auction : Table BytesN32 DutchAuctionListing := ∅
  dropCounter : U64 := 0
  drop : Table BytesN32 BondingCurveDrop := ∅
  analytics : PricingAnalytics := {}

structure FairLaunchStore where
  config : Option FairLaunchConfig := none
  whitelist : Table Address Bool := ∅
  purchased : Table Address I128 := ∅
  analytics : Option FairLaunchAnalytics := none

/-- `NftStakeConfig`, `NftStakedPosition`, `NftStakedByOwner` and `NftStakingAnalytics`. -/
structure StakingStore where
  config : Option NftStakeConfig := none
  position : Table BytesN32 NftStakedPosition := ∅
  stakedByOwner : Table Address (List BytesN32) := ∅
  analytics : NftStakingAnalytics := {}

structure ReferralStore where
  config : Option ReferralConfig := none
  account : Table Address ReferralAccount := ∅

/-- `RebateConfig`, `TraderVolume`, `TrackedTraders`, `LastRebateRun` and `RebateHistory`. -/
structure RebateStore where
  config : Option RebateConfig := none
  traderVolume : Table Address I128 := ∅
  trackedTraders : List Address := []
  lastRun : Option U64 := none
  history : Table Address (List RebatePayout) := ∅

/-- The contract's storage; the defaults are those of a contract nobody has called yet. -/
structure State where
  admin : Option Address := none
  currencyConfig : Option CurrencyConfig := none
  marketplaceConfig : Option MarketplaceConfig := none
  emergencyPaused : Bool := false
  reentrancyGuard : Bool := false
  analytics : EconomyAnalytics := {}
  currency : CurrencyStore := {}
  nft : NftStore := {}
  collection : Table String NFTCollection := ∅
  orders : OrderStore := {}
  royalty : RoyaltyStore := {}
  pricing : PricingStore := {}
  fairLaunch : FairLaunchStore := {}
  staking : StakingStore := {}
  referral : ReferralStore := {}
  rebate : RebateStore := {}

/-! ## Shared checks -/

/-- An address is accepted when it is not the contract's own. -/
def validateAddress (env : Env) (address : Address) : Result Unit :=
  reject (address = env.currentContract) .invalidAddress

def requireAdmin (env : Env) (s : State) : Result Unit := do
  let admin ← okOr s.admin .notInitialized
  env.requireAuth admin

def requireAuthorizedMinter (env : Env) (s : State) : Result Unit := do
  reject s.emergencyPaused .emergencyPaused
  requireAdmin env s

def getCurrencyConfig (s : State) : CurrencyConfig :=
  s.currencyConfig.getD ⟨⟨1000000000000, by decide, by decide⟩⟩

/-- The marketplace configuration; its default names the admin, who must exist either way. -/
def getMarketplaceConfig (s : State) : Result MarketplaceConfig := do
  let admin ← unwrap s.admin
  pure (s.marketplaceConfig.getD ⟨⟨250, by decide, by decide⟩, admin⟩)

/-- The caller may mint: the contract is not paused and the admin signed. -/
def MinterSigned (env : Env) (s : State) : Prop :=
  s.emergencyPaused = false ∧ env.AdminSigned s.admin

@[simp] theorem run_validateAddress (m : Mode) (env : Env) (address : Address) (u : Unit) :
    (validateAddress env address).run m = some u ↔ address ≠ env.currentContract := run_reject m _ _ u

@[simp] theorem run_requireAdmin (m : Mode) (env : Env) (s : State) (u : Unit) :
    (requireAdmin env s).run m = some u ↔ env.AdminSigned s.admin := Host.Env.run_requireAdmin (run_okOr m _ _) u

@[simp] theorem run_requireAuthorizedMinter (m : Mode) (env : Env) (s : State) (u : Unit) :
    (requireAuthorizedMinter env s).run m = some u ↔ MinterSigned env s := by
  unfold requireAuthorizedMinter MinterSigned
  simp only [run_iff, run_requireAdmin, exists_const, Bool.not_eq_true]

end ArenaX.VirtualEconomy
