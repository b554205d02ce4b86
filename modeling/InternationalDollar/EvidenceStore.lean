import InternationalDollar.Lib.AssocList
import InternationalDollar.Lib.Effect
import InternationalDollar.Lib.Runs
import InternationalDollar.ProofBundle
import InternationalDollar.WireRoundTrip

set_option autoImplicit false

/-! # The evidence store (`store.store_archive_segment_v3`, `store_proof_bundle_v3`)

A store keeps archive segments and proof bundles by their hashes, and for each token one row about the
checkpoint issued last. Both kinds of evidence write that row: a bundle with the hash of the bundle, a
segment without one. The status of a row only goes up, everything else is replaced. A bundle that embeds
its segment stores the segment first, in a transaction of its own. -/

/-- The `status` of an issued checkpoint. -/
inductive CheckpointStatus where
  | archiveSegment
  | verifiedCheckpoint
deriving DecidableEq

/-- A row of `archive_segments_v3`, without its key. -/
structure ArchiveSegmentRow where
  tokenId : String
  startSequence : Int
  endSequence : Int
  previousSegmentHash : Option String
  checkpointHash : String
  segmentBlob : Bytes
  firstSeen : Int
deriving DecidableEq

/-- A row of `proof_bundles_v3`, without its key. -/
structure ProofBundleRow where
  logId : String
  signedRootHash : String
  treeSize : Int
  algorithm : Int
  bundleBlob : Bytes
  firstSeen : Int
  lastVerified : Int
deriving DecidableEq

/-- A row of `issued_checkpoints_v3`, without its key. -/
structure IssuedCheckpointRow where
  displayId : String
  ownerAddress : String
  sequence : Int
  checkpointHash : String
  proofBundleHash : Option String
  logId : Option String
  operatorPublicKey : Option String
  status : CheckpointStatus
  firstSeen : Int
  updatedAt : Int
deriving DecidableEq

/-- The tables of evidence, by their primary keys. -/
structure EvidenceTables where
  archiveSegmentsV3 : List (String × ArchiveSegmentRow)
  proofBundlesV3 : List (String × ProofBundleRow)
  issuedCheckpointsV3 : List (String × IssuedCheckpointRow)
deriving DecidableEq

namespace EvidenceTables

/-- The row of a token in `issued_checkpoints_v3`. -/
abbrev issued (tables : EvidenceTables) (tokenId : String) : Option IssuedCheckpointRow :=
  AssocList.get? tokenId tables.issuedCheckpointsV3

/-- The row of a bundle in `proof_bundles_v3`. -/
abbrev bundle (tables : EvidenceTables) (proofBundleHash : String) : Option ProofBundleRow :=
  AssocList.get? proofBundleHash tables.proofBundlesV3

end EvidenceTables

/-- What a store computes with. -/
structure EvidenceStore (Proofs : Type) where
  node : Node
  inflate : Bytes → Option Bytes
  codec : BundleCodec Proofs
  recursionLimit : Nat

namespace EvidenceStore

variable {Proofs : Type}

/-- `get_archive_segment_v3`, the resolver of the store. -/
def getArchiveSegmentV3 (store : EvidenceStore Proofs) (tables : EvidenceTables) (segmentHash : String) :
    Option ArchiveSegment :=
  (AssocList.get? (Text.lower segmentHash) tables.archiveSegmentsV3).bind fun row =>
    (ArchiveSegment.decodeArchiveSegment store.inflate row.segmentBlob).toOption

/-- `get_proof_bundle_v3`, the resolver of the store. -/
def getProofBundleV3 (store : EvidenceStore Proofs) (tables : EvidenceTables)
    (proofBundleHash : String) : Option (ProofBundle Proofs) :=
  (AssocList.get? (Text.lower proofBundleHash) tables.proofBundlesV3).bind fun row =>
    (store.codec.decodeProofBundle row.bundleBlob).toOption

/-- The verifier with which the store checks a bundle. -/
def verifier (store : EvidenceStore Proofs) (policy : BundlePolicy Proofs) (tables : EvidenceTables)
    (now : Int) : BundleVerifier Proofs where
  node := store.node
  codec := store.codec
  policy := policy
  resolvers := ⟨store.getArchiveSegmentV3 tables, store.getProofBundleV3 tables⟩
  now := now
  recursionLimit := store.recursionLimit

/-- `value or None`. -/
def textOrNone (value : String) : Option String :=
  if value = "" then none else some value

/-- The row that `_store_issued_checkpoint_v3_conn` writes, over an existing one. -/
def issuedCheckpointRow (existing : Option IssuedCheckpointRow) (checkpoint : CheckpointCore)
    (proofBundle : Option (ProofBundle Proofs)) (status : CheckpointStatus) (now : Int) :
    IssuedCheckpointRow where
  displayId := checkpoint.displayId
  ownerAddress := checkpoint.ownerAddress
  sequence := checkpoint.sequence
  checkpointHash := checkpoint.checkpointHash
  proofBundleHash := proofBundle.map fun bundle => Text.lower (Text.strip bundle.proofBundleHash)
  logId := proofBundle.map fun bundle => bundle.logId
  operatorPublicKey := proofBundle.bind fun bundle =>
    textOrNone (Text.strip bundle.signedRoot.operatorPublicKey)
  status := if existing.map (fun row => row.status) = some .verifiedCheckpoint then .verifiedCheckpoint
    else status
  firstSeen := (existing.map fun row => row.firstSeen).getD now
  updatedAt := now

/-- `_store_issued_checkpoint_v3_conn`. -/
def storeIssuedCheckpointV3Conn (checkpoint : CheckpointCore)
    (proofBundle : Option (ProofBundle Proofs)) (status : CheckpointStatus) (now : Int)
    (tables : EvidenceTables) : EvidenceTables :=
  { tables with
    issuedCheckpointsV3 := AssocList.put checkpoint.tokenId
      (issuedCheckpointRow (tables.issued checkpoint.tokenId) checkpoint proofBundle status now)
      tables.issuedCheckpointsV3 }

/-- `INSERT OR IGNORE INTO archive_segments_v3`. -/
def insertArchiveSegment (segmentHash : String) (row : ArchiveSegmentRow) (tables : EvidenceTables) :
    EvidenceTables :=
  match AssocList.get? segmentHash tables.archiveSegmentsV3 with
  | some _ => tables
  | none =>
    { tables with archiveSegmentsV3 := AssocList.put segmentHash row tables.archiveSegmentsV3 }

/-- The transaction of `store_archive_segment_v3`. -/
def writeArchiveSegment (segment : ArchiveSegment) (checkpoint : CheckpointCore) (segmentHash : String)
    (blob : Bytes) (now : Int) (tables : EvidenceTables) : EvidenceTables :=
  storeIssuedCheckpointV3Conn checkpoint (none : Option (ProofBundle Unit)) .archiveSegment now
    (insertArchiveSegment segmentHash
      ⟨segment.tokenId, segment.startSequence, segment.endSequence, segment.previousSegmentHash,
        checkpoint.checkpointHash, blob, now⟩ tables)

/-- `verify_archive_segment` with the resolver of the store. -/
def verifySegment (store : EvidenceStore Proofs) (tables : EvidenceTables) (segment : ArchiveSegment)
    (now : Int) : Except String CheckpointCore :=
  ArchiveSegment.verifyArchiveSegment store.node now now ⟨some (store.getArchiveSegmentV3 tables), none⟩
    store.recursionLimit segment (some defaultNetworkId) none

/-- `store_archive_segment_v3`. -/
def storeArchiveSegmentV3 (store : EvidenceStore Proofs) (segment : ArchiveSegment) (now : Int) :
    Effect EvidenceTables String String := do
  let verified ← Effect.read fun tables => store.verifySegment tables segment now
  let checkpoint ← Effect.lift verified
  let segmentHash ← Effect.lift (ArchiveSegment.archiveSegmentHashHex store.node segment now)
  let blob ← Effect.lift (segment.encodeArchiveSegment store.node now)
  Effect.write (writeArchiveSegment segment checkpoint segmentHash blob now)
  pure segmentHash

/-- `INSERT OR REPLACE INTO proof_bundles_v3`. -/
def putProofBundle (bundle : ProofBundle Proofs) (signedRootHash : String) (blob : Bytes) (now : Int)
    (tables : EvidenceTables) : EvidenceTables :=
  { tables with
    proofBundlesV3 := AssocList.put bundle.proofBundleHash
      ⟨bundle.logId, signedRootHash, bundle.signedRoot.treeSize, bundle.algorithm, blob,
        ((tables.bundle bundle.proofBundleHash).map fun row => row.firstSeen).getD now, now⟩
      tables.proofBundlesV3 }

/-- The transaction of `store_proof_bundle_v3`. -/
def writeProofBundle (bundle : ProofBundle Proofs) (checkpoint : CheckpointCore)
    (signedRootHash : String) (blob : Bytes) (now : Int) (tables : EvidenceTables) : EvidenceTables :=
  storeIssuedCheckpointV3Conn checkpoint (some bundle) .verifiedCheckpoint now
    (putProofBundle bundle signedRootHash blob now tables)

/-- The embedded segment of a bundle is stored before the bundle is verified. -/
def storeEmbeddedSegment (store : EvidenceStore Proofs) (source : SourceEvidence) (now : Int) :
    Effect EvidenceTables String Unit :=
  match source.archiveSegment with
  | none => pure ()
  | some segment => do
      let embeddedHash ← storeArchiveSegmentV3 store segment now
      Effect.lift (Check.require (source.archiveSegmentHash = embeddedHash)
        "embedded archive segment hash mismatch")

/-- `store_proof_bundle_v3`. -/
def storeProofBundleV3 (store : EvidenceStore Proofs) (policy : BundlePolicy Proofs)
    (bundle : ProofBundle Proofs) (now : Int) : Effect EvidenceTables String CheckpointCore := do
  storeEmbeddedSegment store bundle.sourceEvidence now
  let v ← Effect.read fun tables => store.verifier policy tables now
  let checkpoint ← Effect.lift (ProofBundle.verifyProofBundle v store.recursionLimit bundle none
    (some defaultNetworkId) [])
  let signedRootHash ← Effect.lift (bundle.signedRoot.signedRootId store.node.crypto)
  let blob ← Effect.lift (store.codec.encodeProofBundle bundle)
  Effect.write (writeProofBundle bundle checkpoint signedRootHash blob now)
  pure checkpoint

/-! ## What the calls write -/

section Calls

variable {store : EvidenceStore Proofs} {policy : BundlePolicy Proofs} {bundle : ProofBundle Proofs}
  {segment : ArchiveSegment} {tables : EvidenceTables} {now : Int}

/-- The digest of an object is 32 bytes. -/
theorem length_of_objectHash {crypto : Crypto} {domain : String} {canonical digest : Bytes}
    (h : BinaryV3.objectHash crypto domain canonical = .ok digest) : digest.length = 32 := by
  simp only [BinaryV3.objectHash, Check.bind_eq_ok, Check.pure_eq_ok] at h
  obtain ⟨_, -, _, -, rfl⟩ := h
  exact crypto.length_sha3_256 _

/-- Whether an envelope can be written does not depend on what it holds. -/
theorem exists_encodeEnvelope {magic : String} {networkId : Int} {body raw : Bytes}
    (h : BinaryV3.encodeEnvelope magic networkId body = .ok raw) (other : Bytes) :
    ∃ raw', BinaryV3.encodeEnvelope magic networkId other = .ok raw' := by
  obtain ⟨version, hversion, h⟩ := Check.bind_eq_ok.1 h
  obtain ⟨network, hnetwork, -⟩ := Check.bind_eq_ok.1 h
  exact ⟨_, Check.bind_eq_ok.2 ⟨version, hversion, Check.bind_eq_ok.2 ⟨network, hnetwork, rfl⟩⟩⟩

/-- A segment with a valid header has an encoding. -/
theorem exists_encodeArchiveSegment {node : Node} {expectedNetworkId : Option Int} {clock : Int}
    (h : ArchiveSegment.HeaderValid node segment expectedNetworkId clock) :
    ∃ blob, segment.encodeArchiveSegment node clock = .ok blob := by
  have hhash := h.hash_eq
  simp only [ArchiveSegment.archiveSegmentHashHex, Check.bind_eq_ok, Check.pure_eq_ok] at hhash
  obtain ⟨_, hbody, _, hencoded, digest, hdigest, htext⟩ := hhash
  obtain ⟨hnetwork, hcount, hgenesis, hbase, head, ts, _, hhead, hts, -, -⟩ :=
    ArchiveSegment.encodeArchiveSegmentBody_eq_ok.1 hbody
  have hdigest32 : IsHex32 segment.segmentHash := by
    rw [← htext]
    exact isHex32_hex (length_of_objectHash hdigest)
  obtain ⟨hash, hhash, -⟩ := BinaryV3.fits_encodeHashHex hdigest32
  have hreal : segment.encodeArchiveSegmentBody node clock = .ok (head ++ (ts ++ hash)) :=
    ArchiveSegment.encodeArchiveSegmentBody_eq_ok.2
      ⟨hnetwork, hcount, hgenesis, hbase, head, ts, hash, hhead, hts, hhash, rfl⟩
  obtain ⟨blob, hblob⟩ := exists_encodeEnvelope hencoded (head ++ (ts ++ hash))
  exact ⟨blob, Check.bind_eq_ok.2 ⟨(), requireMin_eq_ok.2 hnetwork, Check.bind_eq_ok.2 ⟨_, hreal, hblob⟩⟩⟩

theorem storeArchiveSegmentV3_of_error {e : String}
    (h : store.verifySegment tables segment now = .error e) :
    store.storeArchiveSegmentV3 segment now tables = (.error e, tables) := by
  rw [storeArchiveSegmentV3, Effect.read_bind, h, Effect.lift_error_bind]

theorem issued_insertArchiveSegment {segmentHash : String} {row : ArchiveSegmentRow} (tokenId : String) :
    (insertArchiveSegment segmentHash row tables).issued tokenId = tables.issued tokenId := by
  unfold insertArchiveSegment
  split <;> rfl

theorem bundle_insertArchiveSegment {segmentHash : String} {row : ArchiveSegmentRow} (hash : String) :
    (insertArchiveSegment segmentHash row tables).bundle hash = tables.bundle hash := by
  unfold insertArchiveSegment
  split <;> rfl

theorem issued_storeIssuedCheckpointV3Conn {core : CheckpointCore}
    {proofBundle : Option (ProofBundle Proofs)} {status : CheckpointStatus} (tokenId : String) :
    (storeIssuedCheckpointV3Conn core proofBundle status now tables).issued tokenId
      = if tokenId = core.tokenId then
          some (issuedCheckpointRow (tables.issued core.tokenId) core proofBundle status now)
        else tables.issued tokenId :=
  AssocList.get?_put

theorem bundle_putProofBundle {signedRootHash : String} {blob : Bytes} (hash : String) :
    ((putProofBundle bundle signedRootHash blob now tables).bundle hash).map (fun row => row.bundleBlob)
      = if hash = bundle.proofBundleHash then some blob
        else (tables.bundle hash).map fun row => row.bundleBlob := by
  rw [putProofBundle, EvidenceTables.bundle, AssocList.get?_put]
  split <;> rfl

/-- A segment is stored as soon as it is verified. -/
theorem storeArchiveSegmentV3_of_ok {core : CheckpointCore}
    (h : store.verifySegment tables segment now = .ok core) :
    ∃ blob, segment.encodeArchiveSegment store.node now = .ok blob ∧
      store.storeArchiveSegmentV3 segment now tables
        = (.ok segment.segmentHash, writeArchiveSegment segment core segment.segmentHash blob now tables) := by
  have hheader := ArchiveSegment.HeaderValid.of_validate (ArchiveSegment.Derives.of_verify h).header
  obtain ⟨blob, hblob⟩ := exists_encodeArchiveSegment hheader
  refine ⟨blob, hblob, ?_⟩
  rw [storeArchiveSegmentV3, Effect.read_bind, h, Effect.lift_ok_bind, hheader.hash_eq,
    Effect.lift_ok_bind, hblob, Effect.lift_ok_bind, Effect.write_bind]
  rfl

/-- A call that returns has stored a verified segment. -/
theorem storeArchiveSegmentV3_eq_ok {hash : String} {tables' : EvidenceTables}
    (h : store.storeArchiveSegmentV3 segment now tables = (.ok hash, tables')) :
    hash = segment.segmentHash ∧ ∃ core blob, store.verifySegment tables segment now = .ok core ∧
      tables' = writeArchiveSegment segment core segment.segmentHash blob now tables := by
  cases hverify : store.verifySegment tables segment now with
  | error e =>
    rw [storeArchiveSegmentV3_of_error hverify] at h
    exact nomatch h
  | ok core =>
    obtain ⟨blob, -, hstore⟩ := storeArchiveSegmentV3_of_ok hverify
    rw [hstore] at h
    cases h
    exact ⟨rfl, core, blob, rfl, rfl⟩

theorem storeEmbeddedSegment_eq_ok {source : SourceEvidence} {tables' : EvidenceTables}
    (h : store.storeEmbeddedSegment source now tables = (.ok (), tables')) :
    (source.archiveSegment = none ∧ tables' = tables) ∨
      ∃ segment core blob, source.archiveSegment = some segment ∧
        store.verifySegment tables segment now = .ok core ∧
        tables' = writeArchiveSegment segment core segment.segmentHash blob now tables := by
  unfold storeEmbeddedSegment at h
  cases hsource : source.archiveSegment with
  | none =>
    rw [hsource] at h
    cases h
    exact .inl ⟨rfl, rfl⟩
  | some segment =>
    rw [hsource] at h
    obtain ⟨hash, mid, hstore, hrest⟩ := Effect.bind_eq_ok.1 h
    obtain ⟨-, rfl⟩ := Effect.lift_eq_ok.1 hrest
    obtain ⟨-, core, blob, hverify, rfl⟩ := storeArchiveSegmentV3_eq_ok hstore
    exact .inr ⟨segment, core, blob, rfl, hverify, rfl⟩

/-- A call that returns has stored the embedded segment, and then the verified bundle. -/
theorem storeProofBundleV3_eq_ok {core : CheckpointCore} {tables' : EvidenceTables}
    (h : store.storeProofBundleV3 policy bundle now tables = (.ok core, tables')) :
    ∃ mid signedRootHash blob,
      store.storeEmbeddedSegment bundle.sourceEvidence now tables = (.ok (), mid) ∧
      ProofBundle.verifyProofBundle (store.verifier policy mid now) store.recursionLimit bundle none
        (some defaultNetworkId) [] = .ok core ∧
      bundle.signedRoot.signedRootId store.node.crypto = .ok signedRootHash ∧
      store.codec.encodeProofBundle bundle = .ok blob ∧
      tables' = writeProofBundle bundle core signedRootHash blob now mid := by
  unfold storeProofBundleV3 at h
  obtain ⟨⟨⟩, mid, hembedded, h⟩ := Effect.bind_eq_ok.1 h
  rw [Effect.read_bind] at h
  obtain ⟨checkpoint, s1, hverify, h⟩ := Effect.bind_eq_ok.1 h
  obtain ⟨signedRootHash, s2, hroot, h⟩ := Effect.bind_eq_ok.1 h
  obtain ⟨blob, s3, hblob, h⟩ := Effect.bind_eq_ok.1 h
  rw [Effect.write_bind] at h
  obtain ⟨hproved, rfl⟩ := Effect.lift_eq_ok.1 hverify
  obtain ⟨hid, rfl⟩ := Effect.lift_eq_ok.1 hroot
  obtain ⟨hencoded, rfl⟩ := Effect.lift_eq_ok.1 hblob
  obtain ⟨rfl, rfl⟩ := Effect.pure_eq_ok.1 h
  exact ⟨mid, signedRootHash, blob, hembedded, hproved, hid, hencoded, rfl⟩

/-- A bundle is stored as soon as its segment is stored and it is verified. -/
theorem storeProofBundleV3_of_ok {mid : EvidenceTables} {core : CheckpointCore} {signedRootHash : String}
    {blob : Bytes} (hembedded : store.storeEmbeddedSegment bundle.sourceEvidence now tables = (.ok (), mid))
    (hverify : ProofBundle.verifyProofBundle (store.verifier policy mid now) store.recursionLimit bundle
      none (some defaultNetworkId) [] = .ok core)
    (hroot : bundle.signedRoot.signedRootId store.node.crypto = .ok signedRootHash)
    (hblob : store.codec.encodeProofBundle bundle = .ok blob) :
    store.storeProofBundleV3 policy bundle now tables
      = (.ok core, writeProofBundle bundle core signedRootHash blob now mid) := by
  rw [storeProofBundleV3, Effect.bind_of_ok hembedded, Effect.read_bind, hverify, Effect.lift_ok_bind,
    hroot, Effect.lift_ok_bind, hblob, Effect.lift_ok_bind, Effect.write_bind]
  rfl

end Calls

end EvidenceStore
