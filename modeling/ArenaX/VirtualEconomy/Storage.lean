/-
The records the virtual-economy contract stores, its errors, and the host environment of a call.
Signed amounts are `i128`, times and counters `u64`, sizes and rates in basis points `u32`, as in
the contract; an identifier of 32 bytes is the 256-bit number it spells in big-endian order.
-/
import ArenaX.Lib.Host
import ArenaX.Lib.Runs
import ArenaX.Lib.Table

namespace ArenaX.VirtualEconomy

open Machine

export Host (Address)

/-- A 32-byte identifier. -/
abbrev BytesN32 := BitVec 256

/-- The identifier whose bytes 0–7 are the big-endian bytes of a counter and the others zero. -/
def idOfCounter (counter : U64) : BytesN32 := BitVec.ofInt 256 (counter * 2 ^ 192)

/-- The identifier whose bytes 8–15 are the big-endian bytes of a counter and the others zero. -/
def dropIdOfCounter (counter : U64) : BytesN32 := BitVec.ofInt 256 (counter * 2 ^ 128)

theorem idOfCounter_inj {a b : U64} (h : idOfCounter a = idOfCounter b) : a = b := by
  have ha := U64.bounds a; have hb := U64.bounds b
  have h' := congrArg BitVec.toNat h
  simp only [idOfCounter, BitVec.toNat_ofInt] at h'
  exact IntType.Val.ext (by omega)

/-- The contract's declared errors. -/
inductive VirtualEconomyError where
  | alreadyInitialized | notInitialized | unauthorized | emergencyPaused | overflow | invalidAddress
  | invalidAmount | insufficientBalance | supplyLimitExceeded
  | tokenNotFound | tokenAlreadyExists | notOwner
  | invalidPrice | orderNotFound | orderNotActive | orderExpired
  | invalidMetadata | invalidConfig
  | royaltyTooHigh
  | auctionNotFound | auctionNotActive | auctionEnded | invalidAuctionParams
  | dropNotFound | dropInactive | dropSupplyExceeded | invalidCurveParams
  | nftStakingNotConfigured | nftCurrentlyStaked | nftNotStaked | nftLockPeriodNotMet | nftStakingPaused
  | poolNotFound | poolAlreadyExists | insufficientLiquidity | slippageExceeded | invariantViolation
  | referralNotConfigured | referralNotFound | referralAlreadyRegistered | invalidReferral
  | referralCooldown | nothingToClaim
deriving DecidableEq

/-- A re-entrant marketplace call: an alias, the error enumeration being full. -/
def VirtualEconomyError.reentrancy : VirtualEconomyError := .invalidMetadata

/-- What a function of the contract returns. -/
abbrev Result (α : Type) := Exec VirtualEconomyError α

structure CurrencyConfig where
  maxSupply : I128

structure MarketplaceConfig where
  feePercentage : U32
  feeCollector : Address

structure NFTMetadata where
  rarity : U32
  category : String
  creator : Address
  royaltyBps : U32

/-- A named group of NFTs; an NFT belongs to it when its category is the collection's name. -/
structure NFTCollection where
  name : String
  creator : Address
  defaultRoyaltyBps : U32
  itemCount : U32
  floorPrice : I128
  lastSalePrice : I128
  totalVolume : I128
  saleCount : U64
  lastSaleAt : U64

inductive OrderStatus where
  | active | completed | cancelled | expired
deriving DecidableEq

inductive MarketplaceAsset where
  | nft (tokenId : BytesN32)
  | currency (amount : I128)
deriving DecidableEq

structure MarketplaceOrder where
  orderId : BytesN32
  seller : Address
  asset : MarketplaceAsset
  price : I128
  createdAt : U64
  expiry : Option U64
  status : OrderStatus

inductive RewardType where
  | currency (amount : I128)
  | nft (metadata : NFTMetadata)

structure RewardDistribution where
  recipient : Address
  rewardType : RewardType

structure EconomyAnalytics where
  totalCurrencyMinted : I128 := 0
  totalCurrencyBurned : I128 := 0
  totalNftsMinted : U64 := 0
  totalNftsBurned : U64 := 0
  totalTradesExecuted : U64 := 0
  totalTradeVolume : I128 := 0
  totalFeesCollected : I128 := 0
  activeOrders : U32 := 0

structure RoyaltyAnalytics where
  totalRoyaltiesPaid : I128 := 0
  totalRoyaltyTransactions : U64 := 0
  totalExemptionsApplied : U32 := 0

structure ReferralTier where
  minVolume : I128
  referrerBps : U32
  refereeBps : U32

structure ReferralConfig where
  tiers : List ReferralTier
  maxRewardPerActivity : I128
  activityCooldown : U64

structure ReferralAccount where
  referrer : Option Address := none
  qualifyingVolume : I128 := 0
  pendingRewards : I128 := 0
  totalRewards : I128 := 0
  referredCount : U32 := 0
  lastActivity : U64 := 0
  flagged : Bool := false

/-- The shape of an auction's price decay. -/
inductive PriceCurve where
  | linear | exponential

structure DutchAuctionListing where
  listingId : BytesN32
  seller : Address
  tokenId : BytesN32
  startPrice : I128
  floorPrice : I128
  startTime : U64
  endTime : U64
  curve : PriceCurve
  status : OrderStatus

structure BondingCurveDrop where
  dropId : BytesN32
  creator : Address
  basePrice : I128
  slopeBps : U32
  maxSupply : Option U32
  minted : U32
  metadataTemplate : NFTMetadata
  active : Bool

structure PricingAnalytics where
  totalAuctionsCreated : U64 := 0
  totalAuctionsSettled : U64 := 0
  totalAuctionVolume : I128 := 0
  totalDropsCreated : U64 := 0
  totalDropMints : U64 := 0
  totalDropVolume : I128 := 0

structure FairLaunchConfig where
  whitelistStart : U64
  whitelistEnd : U64
  publicStart : U64
  publicEnd : U64
  basePrice : I128
  maxWhitelistPerWallet : I128
  maxPublicPerWallet : I128
  totalSupplyCap : I128
  antiWhaleBps : U32

structure FairLaunchAnalytics where
  totalSold : I128
  whitelistSold : I128
  publicSold : I128
  uniqueBuyers : U32
  currentPrice : I128

structure NftStakeConfig where
  rewardRateBps : U32
  rewardInterval : U64
  minLockPeriod : U64
  paused : Bool

structure NftStakedPosition where
  tokenId : BytesN32
  owner : Address
  stakedAt : U64
  pendingRewards : I128
  lastRewardTs : U64

structure NftStakingAnalytics where
  totalStaked : U64 := 0
  totalRewardsDistributed : I128 := 0

structure RebateConfig where
  tier1MinVolume : I128
  tier2MinVolume : I128
  tier3MinVolume : I128
  tier1Bps : U32
  tier2Bps : U32
  tier3Bps : U32
  periodSeconds : U64

structure RebatePayout where
  volume : I128
  bps : U32
  amount : I128
  paidAt : U64

/-- The host environment of a call, with the sales hook `update_collection_on_sale`, which the contract calls and does
not define: it rewrites the collection records, from a category and a sale price. -/
structure Env extends Host.Env where
  updateCollectionOnSale : Table String NFTCollection → String → I128 → Table String NFTCollection

end ArenaX.VirtualEconomy
