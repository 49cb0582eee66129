import Beth.Foundation.Bytes
import Beth.Contracts.World
import Beth.Foundation.BlockTree
import Beth.Foundation.Runs
import Beth.Contracts.RequestWithdrawal
import Beth.Contracts.SystemCall
import Beth.Contracts.DepositVault
import Beth.Contracts.ReportBundleLifecycle
import Beth.Node.EnforcerClient
import Beth.Foundation.Grouping
import Beth.Node.WithdrawalBundle.Selection
import Beth.Chain
import Beth.Contracts.Escrow
import Beth.Contracts.Gas
import Beth.Node.Mainchain
import Beth.Properties.BmmCommitment
import Beth.Properties.BundleHistory
import Beth.Properties.BundledOnce
import Beth.Properties.PayeeIsolation
import Beth.Properties.PegEvents
import Beth.Properties.PegSolvency
import Beth.Properties.SupplyCap
import Beth.Properties.SystemCallResults
import Beth.Properties.BundleWeight
import Beth.Properties.DepositDestinations
import Beth.Properties.FeeMonotonicity
import Beth.Properties.OversizedDestinations
import Beth.Properties.BuilderAgreement
import Beth.Properties.BroadcastBundles
import Beth.Properties.DepositReserve
import Beth.Contracts.MachineRuns
import Beth.Properties.EscrowSolvency
import Beth.Properties.StorageReading
import Beth.Properties.ChainStorage
import Beth.Properties.ReplicaAgreement
import Beth.Properties.QueueDraining
import Beth.Properties.RequestHistory
import Beth.Properties.ContractCalls
import Beth.Properties.BundleIdentity
import Beth.Properties.NodeChains
import Beth.Properties.BuiltBlocks
import Beth.Properties.EventReplay
import Beth.Properties.Payouts
