import InternationalDollar.BillV3
import InternationalDollar.SegmentChain
import InternationalDollar.SignedRoot

set_option autoImplicit false

/-! # Proof bundles (`proof_bundle_v3`)

A proof bundle names a checkpoint core by its hash. It carries the evidence that the core is in a
signed root and is spent only once there, and names the archive segment from which the core is derived.
A bundle on a later core also names the bundle on the core before, and its verification verifies that
bundle too. -/

/-- The source evidence of a proof bundle: an archive segment, embedded or by its hash. -/
structure SourceEvidence where
  type : String
  version : Int
  networkId : Int
  sourceFormat : String
  archiveSegmentHash : String
  sourceCheckpointHash : String
  previousProofBundleHash : Option String
  archiveSegment : Option ArchiveSegment

/-- A ProofBundleV3. The inclusion proof, the spend-map proof and whatever else the object holds are its
    `Proofs`. -/
structure ProofBundle (Proofs : Type) where
  type : String
  version : Int
  networkId : Int
  algorithm : Int
  logId : String
  checkpointHash : String
  signedRoot : SignedRoot
  proofs : Proofs
  sourceEvidence : SourceEvidence
  createdAt : Int
  proofBundleHash : String

/-- `PROOF_BUNDLE_TYPE`. -/
def proofBundleType : String := "ind.proof_bundle.v3"

/-- `PROOF_ARCHIVE_SEGMENT_TYPE`. -/
def proofArchiveSegmentType : String := "ind.proof_bundle_archive_segment.v3"

/-- `SOURCE_FORMAT_V3_ARCHIVE_SEGMENT`. -/
def sourceFormatV3ArchiveSegment : String := "ind.archive_segment.v3"

/-- `PROOF_BUNDLE_VERSION`. -/
def proofBundleVersion : Int := 3

/-- `PROOF_BUNDLE_ALGORITHM`. -/
def proofBundleAlgorithm : Int := 1

/-- `DEFAULT_NETWORK_ID`. -/
def defaultNetworkId : Int := 1

/-- The bytes of proof bundles: `encode_proof_bundle` and `decode_proof_bundle`. -/
structure BundleCodec (Proofs : Type) where
  encodeProofBundle : ProofBundle Proofs → Except String Bytes
  decodeProofBundle : Bytes → Except String (ProofBundle Proofs)

/-- What a caller checks the proofs of a bundle with: `requireFields` is about the fields of the object,
    `verifyRoot` is `_operator_key_for_policy` with `verify_inclusion_proof` and `_verify_mirrored_root`,
    and `verifySpendProof` is `_verify_v3_checkpoint_spend_proof`. -/
structure BundlePolicy (Proofs : Type) where
  requireFields : ProofBundle Proofs → Except String Unit
  verifyRoot : ProofBundle Proofs → Except String Unit
  verifySpendProof : CheckpointCore → ProofBundle Proofs → Except String Unit

/-- What a caller finds archive segments and proof bundles with. -/
structure EvidenceResolvers (Proofs : Type) where
  archiveSegment : String → Option ArchiveSegment
  proofBundle : String → Option (ProofBundle Proofs)

/-- A verifier of proof bundles. -/
structure BundleVerifier (Proofs : Type) where
  node : Node
  codec : BundleCodec Proofs
  policy : BundlePolicy Proofs
  resolvers : EvidenceResolvers Proofs
  now : Int
  recursionLimit : Nat

namespace ProofBundle

variable {Proofs : Type}

/-- `proof_bundle_hash_hex`: the hash of the bundle with its hash field zeroed. -/
def proofBundleHashHex (crypto : Crypto) (codec : BundleCodec Proofs) (bundle : ProofBundle Proofs) :
    Except String String := do
  let encoded ← codec.encodeProofBundle { bundle with proofBundleHash := zeroHash }
  let digest ← BinaryV3.objectHash crypto proofBundleType encoded
  pure (Text.hex digest)

/-- `verify_self_hash`. -/
def verifySelfHash (crypto : Crypto) (codec : BundleCodec Proofs) (bundle : ProofBundle Proofs) :
    Except String Unit := do
  let expected ← proofBundleHashHex crypto codec bundle
  Check.require (bundle.proofBundleHash = expected) "proof bundle hash mismatch"

/-- The segment that the source evidence embeds, or else names. -/
def sourceSegment (resolve : String → Option ArchiveSegment) (source : SourceEvidence) :
    Option ArchiveSegment :=
  source.archiveSegment.or (resolve (Text.lower source.archiveSegmentHash))

/-- The checks of `_verify_archive_segment_source` on the bundle before, which is verified by
    `verify`. -/
def verifyPrevious (v : BundleVerifier Proofs) (source : SourceEvidence) (seen : List String)
    (verify : ProofBundle Proofs → String → Except String CheckpointCore) :
    Option String → Except String Unit
  | none => Check.require (source.previousProofBundleHash = none)
      "previous proof bundle supplied without previous checkpoint"
  | some previousCheckpointHash => do
      let given ← Check.ofOption source.previousProofBundleHash "previous proof bundle hash is required"
      let previousHash ← hex32 given "previous proof bundle hash"
      Check.require (previousHash ∉ seen) "proof bundle recursion cycle"
      let previous ← Check.ofOption (v.resolvers.proofBundle previousHash)
        "previous proof bundle is required"
      Check.require (previous.proofBundleHash = previousHash) "previous proof bundle hash mismatch"
      let _ ← verify previous previousCheckpointHash

/-- `_verify_archive_segment_source`. -/
def verifyArchiveSegmentSource (v : BundleVerifier Proofs) (source : SourceEvidence)
    (expectedNetworkId : Int) (seen : List String)
    (verify : ProofBundle Proofs → String → Except String CheckpointCore) :
    Except String CheckpointCore := do
  Check.require (source.type = proofArchiveSegmentType) "unsupported proof bundle source evidence"
  Check.require (source.version = proofBundleVersion) "unsupported source evidence version"
  requireMin source.networkId 0 "source evidence network id"
  Check.require (source.networkId = expectedNetworkId) "source evidence network id mismatch"
  Check.require (source.sourceFormat = sourceFormatV3ArchiveSegment)
    "unsupported source evidence format"
  let segmentHash ← hex32 source.archiveSegmentHash "archive segment hash"
  let segment ← Check.ofOption (sourceSegment v.resolvers.archiveSegment source)
    "archive segment must be a dict"
  let hash ← ArchiveSegment.archiveSegmentHashHex v.node segment v.now
  Check.require (hash = segmentHash) "archive segment hash mismatch"
  let checkpoint ← ArchiveSegment.verifyArchiveSegment v.node v.now v.now
    ⟨some v.resolvers.archiveSegment, none⟩ v.recursionLimit segment (some source.networkId) none
  Check.require (source.sourceCheckpointHash = checkpoint.checkpointHash)
    "archive segment checkpoint hash mismatch"
  verifyPrevious v source seen verify checkpoint.previousCheckpointHash
  pure checkpoint

/-- The check of a bundle's checkpoint hash against the one that is expected. -/
def checkExpected (checkpointHash : String) : Option String → Except String Unit
  | none => pure ()
  | some expected => do
      let expected ← hex32 expected "expected checkpoint hash"
      Check.require (checkpointHash = expected) "proof bundle checkpoint hash mismatch"

/-- `verify_proof_bundle`, with the depth of recursion that is left and the hashes of the bundles that
    are being verified. -/
def verifyProofBundle (v : BundleVerifier Proofs) : Nat → ProofBundle Proofs → Option String →
    Option Int → List String → Except String CheckpointCore
  | 0, _, _, _, _ => .error "maximum recursion depth exceeded"
  | fuel + 1, bundle, expectedCheckpointHash, expectedNetworkId, seen => do
      v.policy.requireFields bundle
      Check.require (bundle.type = proofBundleType) "malformed proof bundle"
      Check.require (bundle.version = proofBundleVersion) "unsupported proof bundle version"
      requireMin bundle.networkId 0 "proof bundle network id"
      Check.require (∀ expected ∈ expectedNetworkId, bundle.networkId = expected)
        "proof bundle network id mismatch"
      Check.require (bundle.algorithm = proofBundleAlgorithm) "unsupported proof bundle algorithm"
      verifySelfHash v.node.crypto v.codec bundle
      Check.require (bundle.proofBundleHash ∉ seen) "proof bundle recursion cycle"
      let checkpointHash ← hex32 bundle.checkpointHash "checkpoint hash"
      checkExpected checkpointHash expectedCheckpointHash
      Check.require (bundle.logId = bundle.signedRoot.logId) "proof bundle log id mismatch"
      v.policy.verifyRoot bundle
      let checkpoint ← verifyArchiveSegmentSource v bundle.sourceEvidence bundle.networkId
        (bundle.proofBundleHash :: seen) fun previous previousCheckpointHash =>
          verifyProofBundle v fuel previous (some previousCheckpointHash) (some bundle.networkId)
            (bundle.proofBundleHash :: seen)
      Check.require (checkpoint.checkpointHash = checkpointHash)
        "source chain does not produce proof bundle checkpoint"
      v.policy.verifySpendProof checkpoint bundle
      pure checkpoint

/-- `verify_proof_bundle_ref`. -/
def verifyProofBundleRef (crypto : Crypto) (codec : BundleCodec Proofs) (ref : ProofBundleRef)
    (bundle : ProofBundle Proofs) (expectedNetworkId : Int) : Except String Unit := do
  Check.require (ref.type = proofBundleRefType) "malformed proof bundle reference"
  Check.require (ref.version = proofBundleVersion) "unsupported proof bundle reference version"
  requireMin ref.networkId 0 "proof bundle reference network id"
  Check.require (ref.networkId = expectedNetworkId) "proof bundle reference network id mismatch"
  Check.require (ref.proofBundleHash = bundle.proofBundleHash) "proof bundle reference hash mismatch"
  let hash ← proofBundleHashHex crypto codec bundle
  Check.require (ref.proofBundleHash = hash) "proof bundle hash mismatch"
  Check.require (ref.logId = bundle.logId ∧ ref.logId = bundle.signedRoot.logId)
    "proof bundle reference log id mismatch"
  let rootId ← bundle.signedRoot.signedRootId crypto
  Check.require (ref.signedRootHash = rootId) "proof bundle reference root hash mismatch"
  requireMin ref.treeSize 0 "proof bundle reference tree size"
  Check.require (ref.treeSize = bundle.signedRoot.treeSize)
    "proof bundle reference tree size mismatch"
  Check.require (ref.proofBundleAlgorithm = proofBundleAlgorithm)
    "unsupported proof bundle reference algorithm"

/-! ## What a verified bundle establishes -/

/-- A bundle that carries its own hash, with the segment from which its core is derived. -/
structure Proves (v : BundleVerifier Proofs) (bundle : ProofBundle Proofs) (core : CheckpointCore) :
    Prop where
  hash_eq : proofBundleHashHex v.node.crypto v.codec bundle = .ok bundle.proofBundleHash
  checkpointHash_eq : core.checkpointHash = Text.lower bundle.checkpointHash
  derived : ∃ segment, sourceSegment v.resolvers.archiveSegment bundle.sourceEvidence = some segment ∧
    ArchiveSegment.Derives v.node segment (some bundle.sourceEvidence.networkId) v.now v.now core

theorem derived_of_verifyArchiveSegmentSource {v : BundleVerifier Proofs} {source : SourceEvidence}
    {expectedNetworkId : Int} {seen : List String}
    {verify : ProofBundle Proofs → String → Except String CheckpointCore} {core : CheckpointCore}
    (h : verifyArchiveSegmentSource v source expectedNetworkId seen verify = .ok core) :
    ∃ segment, sourceSegment v.resolvers.archiveSegment source = some segment ∧
      ArchiveSegment.Derives v.node segment (some source.networkId) v.now v.now core := by
  simp only [verifyArchiveSegmentSource, Check.bind_eq_ok, Check.ofOption_eq_ok, Check.pure_eq_ok] at h
  obtain ⟨_, -, _, -, _, -, _, -, _, -, _, -, segment, hsegment, _, -, _, -, core', hverify, _, -, _, -,
    rfl⟩ := h
  exact ⟨segment, hsegment, .of_verify hverify⟩

/-- Every bundle that is verified proves the core that its verification returns. -/
theorem Proves.of_verify {v : BundleVerifier Proofs} {fuel : Nat} {bundle : ProofBundle Proofs}
    {expectedCheckpointHash : Option String} {expectedNetworkId : Option Int} {seen : List String}
    {core : CheckpointCore}
    (h : verifyProofBundle v fuel bundle expectedCheckpointHash expectedNetworkId seen = .ok core) :
    Proves v bundle core := by
  cases fuel with
  | zero => exact nomatch h
  | succ fuel =>
    simp only [verifyProofBundle, verifySelfHash, Check.bind_eq_ok, Check.require_eq_ok, hex32_eq_ok,
      Check.pure_eq_ok] at h
    obtain ⟨_, -, _, -, _, -, _, -, _, -, _, -, _, ⟨hash, hhash, hself⟩, _, -, _, ⟨-, rfl⟩, _, -, _, -,
      _, -, _, hsource, _, hcheckpoint, _, -, rfl⟩ := h
    exact ⟨hself ▸ hhash, hcheckpoint, derived_of_verifyArchiveSegmentSource hsource⟩

end ProofBundle
