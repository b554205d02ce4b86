import InternationalDollar.Admission
import InternationalDollar.AdmissionFrame
import InternationalDollar.AdmissionUpdates
import InternationalDollar.AppendValidation
import InternationalDollar.ArchiveSegment
import InternationalDollar.BatchSpend
import InternationalDollar.BillState
import InternationalDollar.BillV3
import InternationalDollar.BinaryReader
import InternationalDollar.BinaryV3
import InternationalDollar.CachedBill
import InternationalDollar.CancelledSend
import InternationalDollar.CanonicalBytes
import InternationalDollar.Checkpoint
import InternationalDollar.CheckpointIndex
import InternationalDollar.Compaction
import InternationalDollar.CompressedProofs
import InternationalDollar.ConcurrentIngest
import InternationalDollar.ConflictDetection
import InternationalDollar.ConflictEvidence
import InternationalDollar.ConflictKey
import InternationalDollar.ConflictPrevalidation
import InternationalDollar.ConflictProofV3
import InternationalDollar.CreateSegment
import InternationalDollar.CreateTransfer
import InternationalDollar.CurrentSpendMap
import InternationalDollar.EvidenceRebroadcast
import InternationalDollar.EvidenceStore
import InternationalDollar.GenesisBinding
import InternationalDollar.GenesisManifest
import InternationalDollar.GossipIngest
import InternationalDollar.GossipMessages
import InternationalDollar.GossipPool
import InternationalDollar.HashLogArchive
import InternationalDollar.HashLogAudit
import InternationalDollar.HashLogExport
import InternationalDollar.HashLogFiles
import InternationalDollar.HashLogManifest
import InternationalDollar.HonestLog
import InternationalDollar.InMemoryRoots
import InternationalDollar.InclusionProof
import InternationalDollar.KeyRecords
import InternationalDollar.KeyTrust
import InternationalDollar.Keys
import InternationalDollar.KnownRanges
import InternationalDollar.LeafNumbering
import InternationalDollar.Lib.Aead
import InternationalDollar.Lib.AssocList
import InternationalDollar.Lib.Base58
import InternationalDollar.Lib.Base85
import InternationalDollar.Lib.ByteReader
import InternationalDollar.Lib.Check
import InternationalDollar.Lib.Codec
import InternationalDollar.Lib.Dict
import InternationalDollar.Lib.Effect
import InternationalDollar.Lib.Json
import InternationalDollar.Lib.JsonAccess
import InternationalDollar.Lib.JsonLines
import InternationalDollar.Lib.JsonReader
import InternationalDollar.Lib.JsonRoundTrip
import InternationalDollar.Lib.JsonValues
import InternationalDollar.Lib.Lines
import InternationalDollar.Lib.Loops
import InternationalDollar.Lib.OrderedCommit
import InternationalDollar.Lib.PaddedNames
import InternationalDollar.Lib.Paging
import InternationalDollar.Lib.Runs
import InternationalDollar.Lib.Select
import InternationalDollar.Lib.Spans
import InternationalDollar.Lib.SparseMerkle
import InternationalDollar.Lib.StableSort
import InternationalDollar.Lib.Text
import InternationalDollar.Lib.Threads
import InternationalDollar.Lib.Tiling
import InternationalDollar.Lib.TokenBucket
import InternationalDollar.Lib.Transaction
import InternationalDollar.Lib.TriedSearch
import InternationalDollar.LocalBlacklist
import InternationalDollar.LocalStore
import InternationalDollar.MirrorDisagreement
import InternationalDollar.MirrorQuorum
import InternationalDollar.MirrorWalk
import InternationalDollar.MirroredBundles
import InternationalDollar.ObjectDecoders
import InternationalDollar.ObservedRoots
import InternationalDollar.OfflineAddress
import InternationalDollar.OperatorAdmission
import InternationalDollar.OperatorCalls
import InternationalDollar.OperatorClients
import InternationalDollar.OperatorCommitments
import InternationalDollar.OperatorLog
import InternationalDollar.OperatorProgress
import InternationalDollar.OperatorProofs
import InternationalDollar.OperatorQuorum
import InternationalDollar.OperatorRecords
import InternationalDollar.OperatorRoots
import InternationalDollar.OperatorRuns
import InternationalDollar.OperatorSet
import InternationalDollar.OperatorStorage
import InternationalDollar.OutgoingQueue
import InternationalDollar.PeerRateLimiter
import InternationalDollar.ProofBundle
import InternationalDollar.Protocol
import InternationalDollar.ProtocolLimits
import InternationalDollar.RecoveryCatchUp
import InternationalDollar.RecoveryFeeds
import InternationalDollar.RecoveryWitness
import InternationalDollar.RejectedEvidence
import InternationalDollar.RootMirror
import InternationalDollar.RootVerifier
import InternationalDollar.SeenSet
import InternationalDollar.SegmentChain
import InternationalDollar.SettledBranch
import InternationalDollar.SettledOnce
import InternationalDollar.SettlementDecision
import InternationalDollar.SettlementQuery
import InternationalDollar.SignedRoot
import InternationalDollar.SignedRootJson
import InternationalDollar.SpendClaim
import InternationalDollar.SpendHistory
import InternationalDollar.SpendKey
import InternationalDollar.SpendMap
import InternationalDollar.SpendMapLevels
import InternationalDollar.SpendMapProofs
import InternationalDollar.SpendMapTables
import InternationalDollar.SpendViews
import InternationalDollar.StatusLines
import InternationalDollar.StoreAgreement
import InternationalDollar.StoreIngest
import InternationalDollar.StoreWrites
import InternationalDollar.SubmittedBranch
import InternationalDollar.Submitter
import InternationalDollar.SupplyAccounting
import InternationalDollar.TipCache
import InternationalDollar.Transfer
import InternationalDollar.TransferProof
import InternationalDollar.TransparencyVerifier
import InternationalDollar.TransportRuns
import InternationalDollar.TransportSession
import InternationalDollar.Uvarint
import InternationalDollar.VerifierClient
import InternationalDollar.WalletBalance
import InternationalDollar.WalletCrypto
import InternationalDollar.WalletSpend
import InternationalDollar.WalletSync
import InternationalDollar.WireJson
import InternationalDollar.WirePacking
import InternationalDollar.WireRoundTrip
import InternationalDollar.GossipInterleavings
