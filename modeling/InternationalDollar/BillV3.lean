import InternationalDollar.ArchiveSegment

set_option autoImplicit false

/-! # Bills and their envelopes (`protocol_v3`, `proof_bundle_v3`)

A bill carries the reference to its genesis, the last checkpoint core, the reference to the bundle that
proves the core and the transfers since. The single objects also have envelopes of their own. -/

/-- A proof bundle reference. -/
structure ProofBundleRef where
  type : String
  version : Int
  networkId : Int
  logId : String
  signedRootHash : String
  treeSize : Int
  proofBundleAlgorithm : Int
  proofBundleHash : String
deriving DecidableEq

/-- `PROOF_BUNDLE_REF_TYPE`. -/
def proofBundleRefType : String := "ind.proof_bundle_ref.v3"

/-- `encode_proof_bundle_ref_body`. -/
def ProofBundleRef.encodeProofBundleRefBody (ref : ProofBundleRef) : Except String Bytes := do
  let logId ← BinaryV3.encodeAscii ref.logId 128
  let signedRootHash ← BinaryV3.encodeHashHex ref.signedRootHash
  let treeSize ← BinaryV3.encodeUvarint ref.treeSize
  let algorithm ← BinaryV3.encodeUvarint ref.proofBundleAlgorithm
  let bundleHash ← BinaryV3.encodeHashHex ref.proofBundleHash
  pure (logId ++ (signedRootHash ++ (treeSize ++ (algorithm ++ bundleHash))))

/-- A BillV3. -/
structure BillV3 where
  type : String
  version : Int
  networkId : Int
  tokenId : String
  value : Int
  genesisRef : GenesisRef
  checkpointCore : CheckpointCore
  proofBundleRef : ProofBundleRef
  recentTransfers : List Transfer
deriving DecidableEq

/-- `BILL_TYPE`. -/
def billType : String := "ind.bill.v3"

/-- `encode_genesis_ref`. -/
def GenesisRef.encodeGenesisRef (policy : NodePolicy) (ref : GenesisRef) : Except String Bytes := do
  requireMin ref.networkId 0 "GenesisRefV3 network id"
  let body ← encodeGenesisRefBody policy ref
  BinaryV3.encodeEnvelope "IND3GENR" ref.networkId body

/-- `encode_checkpoint_core`. -/
def CheckpointCore.encodeCheckpointCore (crypto : Crypto) (core : CheckpointCore) :
    Except String Bytes := do
  requireMin core.networkId 0 "CheckpointCoreV3 network id"
  let body ← encodeCheckpointCoreBody crypto core
  BinaryV3.encodeEnvelope "IND3CPNT" core.networkId body

/-- `encode_archive_segment`. -/
def ArchiveSegment.encodeArchiveSegment (node : Node) (segment : ArchiveSegment) (clock : Int) :
    Except String Bytes := do
  requireMin segment.networkId 0 "archive segment network id"
  let body ← encodeArchiveSegmentBody node segment clock
  BinaryV3.encodeEnvelope "IND3ARCH" segment.networkId body

namespace BillV3

/-- The body that `encode_bill` puts in the envelope. -/
def encodeBillBody (node : Node) (bill : BillV3) (clock : Int) : Except String Bytes := do
  let count ← BinaryV3.encodeUvarint bill.recentTransfers.length
  let transfers ← ArchiveSegment.encodeTransfers node.crypto clock bill.recentTransfers
  let tokenId ← BinaryV3.encodeHashHex bill.tokenId
  let value ← BinaryV3.encodeUvarint bill.value
  let genesisRef ← bill.genesisRef.encodeGenesisRefBody node.toNodePolicy
  let core ← bill.checkpointCore.encodeCheckpointCoreBody node.crypto
  let bundleRef ← bill.proofBundleRef.encodeProofBundleRefBody
  pure (tokenId ++ (value ++ (genesisRef ++ (core ++ (bundleRef ++ (count ++ transfers))))))

/-- `encode_bill`. -/
def encodeBill (node : Node) (bill : BillV3) (clock : Int) : Except String Bytes := do
  requireMin bill.networkId 0 "BillV3 network id"
  Check.require (bill.type = billType ∧ bill.version = 3) "malformed BillV3"
  let body ← encodeBillBody node bill clock
  BinaryV3.encodeEnvelope "IND3BILL" bill.networkId body

end BillV3
