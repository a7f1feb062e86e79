import DashCore.Lib.OwnerIndex
import DashCore.Lib.Rollback
import DashCore.Lib.MaxRegister
import DashCore.Lib.Selection
import DashCore.Evo.Types
import DashCore.Evo.StateDiff
import DashCore.Evo.MNList
import DashCore.Evo.ListDiff
import DashCore.Evo.UniqueIndex
import DashCore.Evo.DiffRoundTrip
import DashCore.Llmq.Commitment
import DashCore.Evo.ProTx
import DashCore.Evo.BuildList
import DashCore.Evo.BlockRoundTrip
import DashCore.Serialize.ByteReader
import DashCore.Serialize.Ints
import DashCore.Serialize.BitSet
import DashCore.Llmq.CommitmentFormat
import DashCore.Bls.LazyWrapper
import DashCore.Evo.StateDiffFormat
import DashCore.Llmq.MineableCommitments
import DashCore.Llmq.Signing
import DashCore.Llmq.DKGSession
import DashCore.CoinJoin.Collateral
import DashCore.CoinJoin.Server
import DashCore.Llmq.InstantSend
import DashCore.Llmq.ChainLocks
import DashCore.Llmq.RecoveredSigs
import DashCore.Evo.SimplifiedMNs
import DashCore.Llmq.Snapshot
import DashCore.Pow.DarkGravityWave
import DashCore.Llmq.QuarterRotation
import DashCore.Evo.MNSelection
import DashCore.Governance.Superblock
import DashCore.Spork.Manager
import DashCore.Governance.Vote
import DashCore.Governance.RateCheck
import DashCore.Util.UnorderedLruCache
import DashCore.Lib.NodeMap
import DashCore.Util.CacheMap
import DashCore.Util.CacheMultiMap
import DashCore.Llmq.QuorumConnections
import DashCore.Lib.OrderedMap
import DashCore.DbWrapper.Transaction
import DashCore.Evo.EvoDB
import DashCore.Llmq.CommitmentVerify
import DashCore.Evo.Manager
import DashCore.Evo.Chain
