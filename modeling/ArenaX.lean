import ArenaX.VirtualEconomy.Amm.Quotes
import ArenaX.VirtualEconomy.Conservation
import ArenaX.VirtualEconomy.Batch
import ArenaX.VirtualEconomy.Ownership
import ArenaX.VirtualEconomy.SupplyCap
import ArenaX.VirtualEconomy.OrderBook
import ArenaX.VirtualEconomy.Referral
import ArenaX.VirtualEconomy.FairLaunch
import ArenaX.AxToken.Lifecycle
import ArenaX.AxToken.Vesting
import ArenaX.AxToken.Custody
import ArenaX.StakingManager.Authorization
import ArenaX.StakingManager.Totals
import ArenaX.StakingManager.Reserve
import ArenaX.StakingManager.Appeals
import ArenaX.Treasury.Multisig
import ArenaX.Treasury.Backing
import ArenaX.Treasury.Budgets
import ArenaX.Airdrop.Claims
import ArenaX.StakingRewards.Accounting
import ArenaX.StakingRewards.Locks
import ArenaX.StakingRewards.Accrual
import ArenaX.TimeLock.Acceleration
import ArenaX.TimeLock.Bookkeeping
import ArenaX.BatchOperations.Conservation
import ArenaX.Orchestrator.Tournament
import ArenaX.Orchestrator.Fairness
import ArenaX.Lib.RelyGuarantee
import ArenaX.Orchestrator.Books
import ArenaX.Orchestrator.Rankings
import ArenaX.Orchestrator.Payout
import ArenaX.Orchestrator.Settlement
import ArenaX.Registration.Payments
import ArenaX.Registration.Refunds
import ArenaX.MatchService.Agreement
import ArenaX.MatchService.Ratings
import ArenaX.Audit.Concurrency
import ArenaX.ServerWallet.Isolation
import ArenaX.ServerWallet.Escrow
import ArenaX.Orchestrator.Recovery
import ArenaX.TournamentService
import ArenaX.ContractRegistry.Authorization
import ArenaX.ContractRegistry.Indexes
import ArenaX.ContractRegistry.Lookups
import ArenaX.UpgradeSystem
import ArenaX.ZkProof
import ArenaX.AccessControl
import ArenaX.WalletRecovery
