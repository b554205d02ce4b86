import InternationalDollar.EvidenceStore

set_option autoImplicit false

/-! # The index of issued checkpoints

The store has one row for each token. `indexForward_of_reaches` says that the rows stay proven, and that
their sequences do not fall, in every run in which no evidence is older than the row it replaces and no
bare segment meets a verified row. `not_indexForward` is a run in which one does: the row keeps its status
and loses its bundle. -/

namespace EvidenceStore

variable {Proofs : Type}

/-! ## Runs of the store -/

/-- The tables, with the bundles that calls have returned for and the checkpoints they returned. -/
structure IndexRun (Proofs : Type) where
  tables : EvidenceTables
  proven : List (ProofBundle Proofs × CheckpointCore)

/-- The run that starts with empty tables. -/
def IndexRun.empty : IndexRun Proofs where
  tables := ⟨[], [], []⟩
  proven := []

/-- A call of the store, with the time at which it is made. -/
inductive EvidenceCall (Proofs : Type) where
  | storeArchiveSegment (segment : ArchiveSegment) (now : Int)
  | storeProofBundle (policy : BundlePolicy Proofs) (bundle : ProofBundle Proofs) (now : Int)

/-- A call that returns. -/
def step (store : EvidenceStore Proofs) (run : IndexRun Proofs) :
    EvidenceCall Proofs → Option (IndexRun Proofs)
  | .storeArchiveSegment segment now =>
    match store.storeArchiveSegmentV3 segment now run.tables with
    | (.ok _, tables) => some ⟨tables, run.proven⟩
    | (.error _, _) => none
  | .storeProofBundle policy bundle now =>
    match store.storeProofBundleV3 policy bundle now run.tables with
    | (.ok checkpoint, tables) => some ⟨tables, (bundle, checkpoint) :: run.proven⟩
    | (.error _, _) => none

/-- The row is about a checkpoint of the token that a stored bundle proves, and names that bundle. -/
structure Proven (store : EvidenceStore Proofs) (run : IndexRun Proofs) (tokenId : String)
    (row : IssuedCheckpointRow) (bundle : ProofBundle Proofs) (checkpoint : CheckpointCore) : Prop where
  mem_proven : (bundle, checkpoint) ∈ run.proven
  hash_eq : row.proofBundleHash = some bundle.proofBundleHash
  stored : ∃ stored, run.tables.bundle bundle.proofBundleHash = some stored ∧
    store.codec.encodeProofBundle bundle = .ok stored.bundleBlob
  tokenId_eq : checkpoint.tokenId = tokenId
  checkpointHash_eq : row.checkpointHash = checkpoint.checkpointHash
  ownerAddress_eq : row.ownerAddress = checkpoint.ownerAddress
  sequence_eq : row.sequence = checkpoint.sequence

/-- Every verified row is proven. -/
def Safe (store : EvidenceStore Proofs) (run : IndexRun Proofs) : Prop :=
  ∀ tokenId row, run.tables.issued tokenId = some row → row.status = .verifiedCheckpoint →
    ∃ bundle checkpoint, store.Proven run tokenId row bundle checkpoint

/-- Every row is still there, with the same sequence or a later one. -/
def Forward (run later : IndexRun Proofs) : Prop :=
  ∀ tokenId row, run.tables.issued tokenId = some row →
    ∃ row', later.tables.issued tokenId = some row' ∧ row.sequence ≤ row'.sequence

/-- The segment is not older than the row of its token. -/
def NotOlder (tables : EvidenceTables) (segment : ArchiveSegment) : Prop :=
  ∀ row ∈ tables.issued segment.tokenId, row.sequence ≤ segment.endSequence

/-- The condition on a call: its segment is not older than the row of the token. A bare segment is for a
    token without a verified row; a bundle does not take the place of a different one with its hash. -/
def Advances (store : EvidenceStore Proofs) (run : IndexRun Proofs) : EvidenceCall Proofs → Prop
  | .storeArchiveSegment segment _ => NotOlder run.tables segment ∧
      ∀ row ∈ run.tables.issued segment.tokenId, row.status ≠ .verifiedCheckpoint
  | .storeProofBundle _ bundle _ =>
      (∀ segment ∈ ProofBundle.sourceSegment (store.getArchiveSegmentV3 run.tables) bundle.sourceEvidence,
        NotOlder run.tables segment) ∧
      ∀ row ∈ run.tables.bundle bundle.proofBundleHash,
        store.codec.encodeProofBundle bundle = .ok row.bundleBlob

/-! ## What a call does to the index -/

section Steps

variable {store : EvidenceStore Proofs} {run next : IndexRun Proofs} {segment : ArchiveSegment}
  {bundle : ProofBundle Proofs} {tables mid : EvidenceTables} {core : CheckpointCore} {now : Int}

/-- The core of a segment is for its token, at its end. -/
theorem core_of_derives {node : Node} {expectedNetworkId : Option Int} {clock : Int}
    (h : ArchiveSegment.Derives node segment expectedNetworkId now clock core) :
    core.tokenId = segment.tokenId ∧ core.sequence = segment.endSequence := by
  have hderived := h.derived
  simp only [ArchiveSegment.deriveCheckpoint, CheckpointCore.checkpointCoreFromState,
    Check.bind_eq_ok, Check.require_eq_ok, Check.pure_eq_ok] at hderived
  obtain ⟨_, -, _, -, _, hend, _, -, _, -, _, ⟨_, -, _, -, _, -, _, -, rfl⟩, _, -, rfl⟩ := hderived
  exact ⟨rfl, hend⟩

/-- The core of a segment has its checkpoint hashes. -/
theorem hashes_of_derives {node : Node} {expectedNetworkId : Option Int} {clock : Int}
    (h : ArchiveSegment.Derives node segment expectedNetworkId now clock core) :
    core.checkpointHash = segment.checkpointHash ∧
      core.previousCheckpointHash = segment.previousCheckpointHash := by
  have hderived := h.derived
  simp only [ArchiveSegment.deriveCheckpoint, CheckpointCore.checkpointCoreFromState,
    Check.bind_eq_ok, Check.require_eq_ok, Check.pure_eq_ok] at hderived
  obtain ⟨_, -, _, -, _, -, _, -, _, -, _, ⟨_, -, _, -, _, -, _, -, rfl⟩, _, hcheckpoint, rfl⟩ := hderived
  exact ⟨hcheckpoint, rfl⟩

theorem step_storeArchiveSegment (h : store.step run (.storeArchiveSegment segment now) = some next) :
    ∃ core blob, store.verifySegment run.tables segment now = .ok core ∧
      next = ⟨writeArchiveSegment segment core segment.segmentHash blob now run.tables, run.proven⟩ := by
  rw [step] at h
  cases hstore : store.storeArchiveSegmentV3 segment now run.tables with
  | mk result tables =>
    rw [hstore] at h
    cases result with
    | error e => exact nomatch h
    | ok hash =>
      cases h
      obtain ⟨-, core, blob, hverify, rfl⟩ := storeArchiveSegmentV3_eq_ok hstore
      exact ⟨core, blob, hverify, rfl⟩

theorem step_storeProofBundle {policy : BundlePolicy Proofs}
    (h : store.step run (.storeProofBundle policy bundle now) = some next) :
    ∃ core mid signedRootHash blob,
      store.storeEmbeddedSegment bundle.sourceEvidence now run.tables = (.ok (), mid) ∧
      ProofBundle.Proves (store.verifier policy mid now) bundle core ∧
      store.codec.encodeProofBundle bundle = .ok blob ∧
      next = ⟨writeProofBundle bundle core signedRootHash blob now mid, (bundle, core) :: run.proven⟩ := by
  rw [step] at h
  cases hstore : store.storeProofBundleV3 policy bundle now run.tables with
  | mk result tables =>
    rw [hstore] at h
    cases result with
    | error e => exact nomatch h
    | ok core =>
      cases h
      obtain ⟨mid, signedRootHash, blob, hembedded, hverify, -, hblob, rfl⟩ :=
        storeProofBundleV3_eq_ok hstore
      exact ⟨core, mid, signedRootHash, blob, hembedded, .of_verify hverify, hblob, rfl⟩

/-- Storing the embedded segment changes the row of its own token at most, and no bundle; the segment of
    the bundle is the same before and after. -/
theorem frame_of_embedded (h : store.storeEmbeddedSegment bundle.sourceEvidence now tables = (.ok (), mid))
    (hsource : ProofBundle.sourceSegment (store.getArchiveSegmentV3 mid) bundle.sourceEvidence
      = some segment) :
    ProofBundle.sourceSegment (store.getArchiveSegmentV3 tables) bundle.sourceEvidence = some segment ∧
      (∀ tokenId, tokenId ≠ segment.tokenId → mid.issued tokenId = tables.issued tokenId) ∧
      ∀ hash, mid.bundle hash = tables.bundle hash := by
  rcases storeEmbeddedSegment_eq_ok h with ⟨-, rfl⟩ | ⟨embedded, core, blob, hembedded, hverify, rfl⟩
  · exact ⟨hsource, fun _ _ => rfl, fun _ => rfl⟩
  · rw [ProofBundle.sourceSegment, hembedded, Option.some_or] at hsource
    cases hsource
    refine ⟨by rw [ProofBundle.sourceSegment, hembedded, Option.some_or], ?_, ?_⟩
    · intro tokenId hne
      obtain ⟨htoken, -⟩ := core_of_derives (ArchiveSegment.Derives.of_verify hverify)
      rw [writeArchiveSegment, issued_storeIssuedCheckpointV3Conn, htoken, if_neg hne,
        issued_insertArchiveSegment]
    · intro hash
      exact bundle_insertArchiveSegment hash

theorem forward_storeArchiveSegment
    (h : store.step run (.storeArchiveSegment segment now) = some next)
    (hnotOlder : NotOlder run.tables segment) : Forward run next := by
  obtain ⟨core, blob, hverify, rfl⟩ := step_storeArchiveSegment h
  obtain ⟨htoken, hsequence⟩ := core_of_derives (ArchiveSegment.Derives.of_verify hverify)
  intro tokenId row hrow
  show ∃ row', (writeArchiveSegment _ _ _ _ _ _).issued tokenId = some row' ∧ _
  rw [writeArchiveSegment, issued_storeIssuedCheckpointV3Conn, issued_insertArchiveSegment,
    issued_insertArchiveSegment]
  split
  · next heq =>
    refine ⟨_, rfl, ?_⟩
    rw [heq, htoken] at hrow
    show row.sequence ≤ core.sequence
    rw [hsequence]
    exact hnotOlder row hrow
  · exact ⟨row, hrow, le_rfl⟩

theorem forward_storeProofBundle {policy : BundlePolicy Proofs}
    (h : store.step run (.storeProofBundle policy bundle now) = some next)
    (hnotOlder : ∀ segment ∈ ProofBundle.sourceSegment (store.getArchiveSegmentV3 run.tables)
      bundle.sourceEvidence, NotOlder run.tables segment) : Forward run next := by
  obtain ⟨core, mid, signedRootHash, blob, hembedded, hproves, -, rfl⟩ := step_storeProofBundle h
  obtain ⟨segment, hsource, hderives⟩ := hproves.derived
  obtain ⟨htoken, hsequence⟩ := core_of_derives hderives
  obtain ⟨hbefore, hissued, -⟩ := frame_of_embedded hembedded hsource
  intro tokenId row hrow
  show ∃ row', (writeProofBundle _ _ _ _ _ _).issued tokenId = some row' ∧ _
  rw [writeProofBundle, issued_storeIssuedCheckpointV3Conn]
  split
  · next heq =>
    refine ⟨_, rfl, ?_⟩
    rw [heq, htoken] at hrow
    show row.sequence ≤ core.sequence
    rw [hsequence]
    exact hnotOlder segment hbefore row hrow
  · next hne =>
    rw [htoken] at hne
    exact ⟨row, (hissued tokenId hne).trans hrow, le_rfl⟩

/-- A bare segment leaves the verified rows of other tokens, and makes no new one. -/
theorem safe_storeArchiveSegment (hsafe : store.Safe run)
    (h : store.step run (.storeArchiveSegment segment now) = some next)
    (hbare : ∀ row ∈ run.tables.issued segment.tokenId, row.status ≠ .verifiedCheckpoint) :
    store.Safe next := by
  obtain ⟨core, blob, hverify, rfl⟩ := step_storeArchiveSegment h
  obtain ⟨htoken, -⟩ := core_of_derives (ArchiveSegment.Derives.of_verify hverify)
  intro tokenId row hrow hstatus
  have hissued : (writeArchiveSegment segment core segment.segmentHash blob now run.tables).issued tokenId
      = some row := hrow
  rw [writeArchiveSegment, issued_storeIssuedCheckpointV3Conn, issued_insertArchiveSegment,
    issued_insertArchiveSegment] at hissued
  split at hissued
  · cases hissued
    have hnot : (run.tables.issued core.tokenId).map (fun row => row.status)
        ≠ some .verifiedCheckpoint := by
      intro hmap
      obtain ⟨old, hold, hverified⟩ := Option.map_eq_some_iff.1 hmap
      rw [htoken] at hold
      exact hbare old hold hverified
    rw [issuedCheckpointRow, if_neg hnot] at hstatus
    exact nomatch hstatus
  · obtain ⟨bundle, checkpoint, hproven⟩ := hsafe tokenId row hissued hstatus
    obtain ⟨stored, hstored, hblob⟩ := hproven.stored
    refine ⟨bundle, checkpoint, { hproven with stored := ⟨stored, ?_, hblob⟩ }⟩
    exact (bundle_insertArchiveSegment _).trans hstored

/-- A proven row stays proven when a bundle is stored, unless it takes the place of a different one. -/
theorem Proven.of_storeProofBundle {tokenId signedRootHash : String} {row : IssuedCheckpointRow}
    {old : ProofBundle Proofs} {checkpoint : CheckpointCore} {blob : Bytes}
    (h : store.Proven run tokenId row old checkpoint)
    (hbundles : ∀ hash, mid.bundle hash = run.tables.bundle hash)
    (hblob : store.codec.encodeProofBundle bundle = .ok blob)
    (hsame : ∀ row ∈ run.tables.bundle bundle.proofBundleHash,
      store.codec.encodeProofBundle bundle = .ok row.bundleBlob) :
    store.Proven ⟨writeProofBundle bundle core signedRootHash blob now mid, (bundle, core) :: run.proven⟩
      tokenId row old checkpoint := by
  obtain ⟨stored, hstored, hencoded⟩ := h.stored
  refine { h with mem_proven := List.mem_cons_of_mem _ h.mem_proven, stored := ?_ }
  have hput := @bundle_putProofBundle _ bundle mid now signedRootHash blob old.proofBundleHash
  rw [hbundles, hstored] at hput
  have hkept : ((putProofBundle bundle signedRootHash blob now mid).bundle old.proofBundleHash).map
      (fun row => row.bundleBlob) = some stored.bundleBlob := by
    rw [hput]
    split
    · next heq =>
      rw [heq] at hstored
      rw [Except.ok.inj (hblob.symm.trans (hsame stored hstored))]
    · rfl
  obtain ⟨found, hfound, heq⟩ := Option.map_eq_some_iff.1 hkept
  exact ⟨found, hfound, heq ▸ hencoded⟩

theorem safe_storeProofBundle {policy : BundlePolicy Proofs} (hsafe : store.Safe run)
    (h : store.step run (.storeProofBundle policy bundle now) = some next)
    (hsame : ∀ row ∈ run.tables.bundle bundle.proofBundleHash,
      store.codec.encodeProofBundle bundle = .ok row.bundleBlob) : store.Safe next := by
  obtain ⟨core, mid, signedRootHash, blob, hembedded, hproves, hblob, rfl⟩ := step_storeProofBundle h
  obtain ⟨segment, hsource, hderives⟩ := hproves.derived
  obtain ⟨htoken, -⟩ := core_of_derives hderives
  obtain ⟨-, hissuedBefore, hbundles⟩ := frame_of_embedded hembedded hsource
  intro tokenId row hrow hstatus
  have hissued : (writeProofBundle bundle core signedRootHash blob now mid).issued tokenId
      = some row := hrow
  rw [writeProofBundle, issued_storeIssuedCheckpointV3Conn] at hissued
  split at hissued
  · next heq =>
    cases hissued
    have hhash : Text.lower (Text.strip bundle.proofBundleHash) = bundle.proofBundleHash := by
      obtain ⟨_, -, hrest⟩ := Check.bind_eq_ok.1 hproves.hash_eq
      obtain ⟨digest, -, hdigest⟩ := Check.bind_eq_ok.1 hrest
      rw [← Check.pure_eq_ok.1 hdigest, Text.strip_hex, Text.lower_hex]
    have hput := @bundle_putProofBundle _ bundle mid now signedRootHash blob bundle.proofBundleHash
    rw [if_pos rfl] at hput
    obtain ⟨stored, hstored, hstoredBlob⟩ := Option.map_eq_some_iff.1 hput
    refine ⟨bundle, core, List.mem_cons_self, ?_, ⟨stored, hstored, hstoredBlob ▸ hblob⟩, heq.symm,
      rfl, rfl, rfl⟩
    exact congrArg some hhash
  · next hne =>
    rw [htoken] at hne
    obtain ⟨old, checkpoint, hproven⟩ := hsafe tokenId row ((hissuedBefore tokenId hne).symm.trans hissued)
      hstatus
    exact ⟨old, checkpoint, hproven.of_storeProofBundle hbundles hblob hsame⟩

end Steps

/-! ## Runs -/

theorem Forward.trans {run next last : IndexRun Proofs} (h : Forward run next) (k : Forward next last) :
    Forward run last := by
  intro tokenId row hrow
  obtain ⟨row', hrow', hle⟩ := h tokenId row hrow
  obtain ⟨row'', hrow'', hle'⟩ := k tokenId row' hrow'
  exact ⟨row'', hrow'', le_trans hle hle'⟩

/-- **The index only moves forward.** In a run whose calls all advance the index, every verified row is
    about a checkpoint that a stored bundle proves, and no sequence ever falls. -/
theorem indexForward_of_reaches (store : EvidenceStore Proofs) {run : IndexRun Proofs}
    (h : Runs.Reaches store.step store.Advances IndexRun.empty run) :
    store.Safe run ∧
      ∀ later, Runs.Reaches store.step store.Advances run later → Forward run later := by
  constructor
  · refine Runs.Reaches.invariant ?_ h fun _ _ hrow => nomatch hrow
    intro run call next hsafe hadvances hstep
    cases call with
    | storeArchiveSegment segment now => exact safe_storeArchiveSegment hsafe hstep hadvances.2
    | storeProofBundle policy bundle now => exact safe_storeProofBundle hsafe hstep hadvances.2
  · intro later hlater
    induction hlater with
    | refl => exact fun _ row hrow => ⟨row, hrow, le_rfl⟩
    | tail _ hlast ih =>
      obtain ⟨call, hadvances, hstep⟩ := hlast
      refine ih.trans ?_
      cases call with
      | storeArchiveSegment segment now => exact forward_storeArchiveSegment hstep hadvances.1
      | storeProofBundle policy bundle now => exact forward_storeProofBundle hstep hadvances.1

end EvidenceStore

/-! ## A bundle on the sample segment -/

/-- Bundles by their checkpoint hash and their own hash. -/
def sampleBundleCodec : BundleCodec Unit where
  encodeProofBundle bundle := do
    let checkpointHash ← BinaryV3.encodeHashHex bundle.checkpointHash
    let proofBundleHash ← BinaryV3.encodeHashHex bundle.proofBundleHash
    pure (checkpointHash ++ proofBundleHash)
  decodeProofBundle _ := .error "invalid proof bundle magic"

/-- A policy to which all proofs are good. -/
def samplePolicy : BundlePolicy Unit where
  requireFields _ := .ok ()
  verifyRoot _ := .ok ()
  verifySpendProof _ _ := .ok ()

/-- A store of the sample node. -/
def sampleEvidenceStore : EvidenceStore Unit where
  node := sampleNode
  inflate _ := none
  codec := sampleBundleCodec
  recursionLimit := 2

namespace EvidenceStore

/-- The store verifies the sample segment, whatever it holds. -/
theorem exists_verifySegment_sampleSegment : ∃ core, ∀ tables,
    sampleEvidenceStore.verifySegment tables sampleSegment 5000 = .ok core := by
  obtain ⟨core, hcore⟩ := verify_sampleSegment
  refine ⟨core, fun tables => ?_⟩
  exact ArchiveSegment.verify_of_derives (ArchiveSegment.Derives.of_verify hcore) ⟨⟨by decide, by decide⟩, by decide, by decide⟩ rfl
    (ArchiveSegment.checkGenesisBase_of_verify hcore rfl) _ _ _

/-- The source evidence of a bundle that embeds the sample segment. -/
def sampleSource : SourceEvidence where
  type := proofArchiveSegmentType
  version := proofBundleVersion
  networkId := 1
  sourceFormat := sourceFormatV3ArchiveSegment
  archiveSegmentHash := sampleSegment.segmentHash
  sourceCheckpointHash := sampleSegment.checkpointHash
  previousProofBundleHash := none
  archiveSegment := some sampleSegment

/-- A bundle on the sample segment, with a given root and hash. -/
def sampleBundle (signedRoot : SignedRoot) (proofBundleHash : String) : ProofBundle Unit where
  type := proofBundleType
  version := proofBundleVersion
  networkId := 1
  algorithm := proofBundleAlgorithm
  logId := signedRoot.logId
  checkpointHash := sampleSegment.checkpointHash
  signedRoot := signedRoot
  proofs := ()
  sourceEvidence := sampleSource
  createdAt := 5000
  proofBundleHash := proofBundleHash

theorem isHex32_sampleSegment :
    (IsHex32 sampleSegment.segmentHash ∧ Text.lower sampleSegment.segmentHash = sampleSegment.segmentHash) ∧
      IsHex32 sampleSegment.checkpointHash ∧
        Text.lower sampleSegment.checkpointHash = sampleSegment.checkpointHash := by
  have hlower : ∀ {text : String}, BinaryV3.IsHashText text → IsHex32 text ∧ Text.lower text = text := by
    rintro _ ⟨raw, hraw, rfl⟩
    exact ⟨isHex32_hex hraw, Text.lower_hex raw⟩
  obtain ⟨core, hcore⟩ := verify_sampleSegment
  have hhash := (ArchiveSegment.HeaderValid.of_validate
    (ArchiveSegment.Derives.of_verify hcore).header).hash_eq
  obtain ⟨_, -, hrest⟩ := Check.bind_eq_ok.1 hhash
  obtain ⟨_, -, hrest⟩ := Check.bind_eq_ok.1 hrest
  obtain ⟨digest, hdigest, htext⟩ := Check.bind_eq_ok.1 hrest
  exact ⟨hlower ⟨digest, length_of_objectHash hdigest, Check.pure_eq_ok.1 htext⟩,
    hlower canonical_sampleCore.checkpointHash⟩

/-- Bundles with two hashes have a short encoding. -/
theorem exists_encodeProofBundle {bundle : ProofBundle Unit} (hcheckpoint : IsHex32 bundle.checkpointHash)
    (hhash : IsHex32 bundle.proofBundleHash) :
    ∃ blob, sampleBundleCodec.encodeProofBundle bundle = .ok blob ∧ blob.length ≤ 64 := by
  obtain ⟨a, ha, hlengthA⟩ := BinaryV3.fits_encodeHashHex hcheckpoint
  obtain ⟨b, hb, hlengthB⟩ := BinaryV3.fits_encodeHashHex hhash
  refine ⟨a ++ b, Check.bind_eq_ok.2 ⟨a, ha, Check.bind_eq_ok.2 ⟨b, hb, rfl⟩⟩, ?_⟩
  rw [List.length_append]
  omega

/-- Some root record has an id. -/
theorem exists_signedRootId_sampleNode : ∃ root : SignedRoot, ∃ id,
    root.signedRootId sampleNode.crypto = .ok id := by
  obtain ⟨keys⟩ := exists_keyPair sampleNode.crypto
  have hhex : IsHex32 (Text.hex (List.replicate 32 0)) := isHex32_hex List.length_replicate
  obtain ⟨_, hmade⟩ := @SignedRoot.exists_makeSignedRoot _ keys 1 5000 _ _ 1 (by decide) hhex.1 hhex.1
  obtain ⟨_, hpayload, -⟩ := Check.bind_eq_ok.1 hmade
  exact ⟨_, SignedRoot.exists_signedRootId hpayload (Nat.zero_le _)⟩

/-- The store verifies a bundle on the sample segment, whatever it holds. -/
theorem exists_sampleBundle : ∃ bundle core, bundle.sourceEvidence = sampleSource ∧
    (∃ id, bundle.signedRoot.signedRootId sampleNode.crypto = .ok id) ∧
    (∃ blob, sampleBundleCodec.encodeProofBundle bundle = .ok blob) ∧
    ∀ tables, ProofBundle.verifyProofBundle (sampleEvidenceStore.verifier samplePolicy tables 5000)
      sampleEvidenceStore.recursionLimit bundle none (some defaultNetworkId) [] = .ok core := by
  obtain ⟨root, hroot⟩ := exists_signedRootId_sampleNode
  obtain ⟨core, hcore⟩ := exists_verifySegment_sampleSegment
  have hderives := ArchiveSegment.Derives.of_verify (hcore ⟨[], [], []⟩)
  obtain ⟨hcheckpoint, hprevious⟩ := hashes_of_derives hderives
  have hsegmentHash := (ArchiveSegment.HeaderValid.of_validate hderives.header).hash_eq
  obtain ⟨hhex, hcheckpointHex⟩ := isHex32_sampleSegment
  obtain ⟨hash, hhash, hhashHex⟩ : ∃ hash, ProofBundle.proofBundleHashHex sampleNode.crypto sampleBundleCodec
      (sampleBundle root "") = .ok hash ∧ IsHex32 hash := by
    obtain ⟨blob, hblob, hlength⟩ := @exists_encodeProofBundle (sampleBundle root zeroHash)
      hcheckpointHex.1 isHex32_zeroHash
    obtain ⟨digest, hdigest, hlengthDigest⟩ := BinaryV3.exists_objectHash sampleNode.crypto
      proofBundleType blob (by decide) (by decide) (le_trans hlength (by decide))
    exact ⟨_, Check.bind_eq_ok.2 ⟨blob, hblob, Check.bind_eq_ok.2 ⟨digest, hdigest, rfl⟩⟩,
      isHex32_hex hlengthDigest⟩
  obtain ⟨blob, hblob, -⟩ := @exists_encodeProofBundle (sampleBundle root hash) hcheckpointHex.1 hhashHex
  refine ⟨sampleBundle root hash, core, rfl, hroot, ⟨blob, hblob⟩, fun tables => ?_⟩
  have hsource : ∀ seen verify, ProofBundle.verifyArchiveSegmentSource
      (sampleEvidenceStore.verifier samplePolicy tables 5000) sampleSource 1 seen verify = .ok core := by
    intro seen verify
    simp only [ProofBundle.verifyArchiveSegmentSource, Check.bind_eq_ok, Check.require_eq_ok,
      requireMin_eq_ok, hex32_eq_ok, Check.ofOption_eq_ok, Check.pure_eq_ok]
    refine ⟨(), rfl, (), rfl, (), Int.one_nonneg, (), rfl, (), rfl, _, hhex, sampleSegment, rfl, _,
      hsegmentHash, (), rfl, core, hcore tables, (), hcheckpoint.symm, (), ?_, rfl⟩
    rw [hprevious]
    exact Check.require_of rfl _
  simp only [sampleEvidenceStore, ProofBundle.verifyProofBundle, ProofBundle.verifySelfHash,
    Check.bind_eq_ok, Check.require_eq_ok, requireMin_eq_ok, hex32_eq_ok, Check.pure_eq_ok]
  exact ⟨(), rfl, (), rfl, (), rfl, (), Int.one_nonneg, (), fun _ h => (Option.mem_some_iff.1 h),
    (), rfl, (), ⟨hash, hhash, rfl⟩, (), List.not_mem_nil, _, hcheckpointHex, (), rfl, (), rfl, (), rfl,
    core, hsource _ _, (), hcheckpoint, (), rfl, rfl⟩

/-! ## The sample segment and the sample bundle, in either order -/

/-- Every store of the sample node stores the sample segment. -/
theorem step_sampleSegment (run : IndexRun Unit) : ∃ core blob,
    core.tokenId = sampleSegment.tokenId ∧ core.sequence = sampleSegment.endSequence ∧
      sampleEvidenceStore.step run (.storeArchiveSegment sampleSegment 5000)
        = some ⟨writeArchiveSegment sampleSegment core sampleSegment.segmentHash blob 5000 run.tables,
            run.proven⟩ := by
  obtain ⟨core, hcore⟩ := exists_verifySegment_sampleSegment
  obtain ⟨blob, -, hstore⟩ := storeArchiveSegmentV3_of_ok (hcore run.tables)
  obtain ⟨htoken, hsequence⟩ := core_of_derives (ArchiveSegment.Derives.of_verify (hcore run.tables))
  refine ⟨core, blob, htoken, hsequence, ?_⟩
  rw [step, hstore]

/-- Every store of the sample node stores some bundle on the sample segment; then the row is verified. -/
theorem step_sampleBundle : ∃ bundle, bundle.sourceEvidence = sampleSource ∧ ∀ run, ∃ next row,
    sampleEvidenceStore.step run (.storeProofBundle samplePolicy bundle 5000) = some next ∧
      next.tables.issued sampleSegment.tokenId = some row ∧ row.status = .verifiedCheckpoint := by
  obtain ⟨bundle, core, hsource, ⟨id, hid⟩, ⟨blob, hblob⟩, hverify⟩ := exists_sampleBundle
  refine ⟨bundle, hsource, fun run => ?_⟩
  obtain ⟨segmentCore, hsegment⟩ := exists_verifySegment_sampleSegment
  obtain ⟨segmentBlob, -, hstore⟩ := storeArchiveSegmentV3_of_ok (hsegment run.tables)
  obtain ⟨mid, hembedded⟩ : ∃ mid,
      sampleEvidenceStore.storeEmbeddedSegment bundle.sourceEvidence 5000 run.tables = (.ok (), mid) := by
    rw [hsource]
    exact ⟨_, (Effect.bind_of_ok hstore).trans (by rw [sampleSource, Check.require_of rfl]; rfl)⟩
  have hbundle := storeProofBundleV3_of_ok hembedded (hverify mid) hid hblob
  obtain ⟨segment, hfound, hderives⟩ := (ProofBundle.Proves.of_verify (hverify mid)).derived
  rw [hsource] at hfound
  cases hfound
  obtain ⟨htoken, -⟩ := core_of_derives hderives
  refine ⟨⟨writeProofBundle bundle core id blob 5000 mid, (bundle, core) :: run.proven⟩, _, ?_,
    (issued_storeIssuedCheckpointV3Conn _).trans (if_pos htoken.symm), ite_self _⟩
  rw [step, hbundle]

/-- The sample segment may be stored first, and the bundle on it after it. -/
theorem indexForward_sampleSegment : ∃ run row,
    run.tables.issued sampleSegment.tokenId = some row ∧ row.status = .verifiedCheckpoint ∧
      sampleEvidenceStore.Safe run ∧ ∀ later,
        Runs.Reaches sampleEvidenceStore.step sampleEvidenceStore.Advances run later →
          Forward run later := by
  obtain ⟨bundle, hsource, hbundle⟩ := step_sampleBundle
  let start : IndexRun Unit := IndexRun.empty
  obtain ⟨core, blob, htoken, hsequence, hfirst⟩ := step_sampleSegment start
  obtain ⟨next, row, hnext, hrow, hstatus⟩ := hbundle
    ⟨writeArchiveSegment sampleSegment core sampleSegment.segmentHash blob 5000 start.tables, []⟩
  have hempty : sampleEvidenceStore.Advances start (.storeArchiveSegment sampleSegment 5000) :=
    ⟨fun _ h => (nomatch h), fun _ h => (nomatch h)⟩
  have hadvances : sampleEvidenceStore.Advances
      ⟨writeArchiveSegment sampleSegment core sampleSegment.segmentHash blob 5000 start.tables, []⟩
      (.storeProofBundle samplePolicy bundle 5000) := by
    refine ⟨?_, fun _ h => (nomatch h)⟩
    intro segment hsegment old hold
    rw [hsource] at hsegment
    cases hsegment
    have hissued : (writeArchiveSegment sampleSegment core sampleSegment.segmentHash blob 5000
        start.tables).issued sampleSegment.tokenId = some old := hold
    rw [writeArchiveSegment, issued_storeIssuedCheckpointV3Conn, if_pos htoken.symm] at hissued
    cases hissued
    exact le_of_eq hsequence
  have hreach := (Runs.Reaches.refl.next hempty hfirst).next hadvances hnext
  exact ⟨next, row, hrow, hstatus, indexForward_of_reaches sampleEvidenceStore hreach⟩

/-- After the bundle the segment is stored again: the row is still verified, and names no bundle. -/
theorem not_indexForward : ¬ ∀ (Proofs : Type) (store : EvidenceStore Proofs) (run : IndexRun Proofs),
    Runs.Reaches store.step (fun _ _ => True) IndexRun.empty run →
      store.Safe run ∧ ∀ later, Runs.Reaches store.step (fun _ _ => True) run later →
        Forward run later := by
  intro hall
  obtain ⟨bundle, -, hbundle⟩ := step_sampleBundle
  obtain ⟨proven, old, hfirst, hold, hstatus⟩ := hbundle IndexRun.empty
  obtain ⟨core, blob, htoken, -, hsecond⟩ := step_sampleSegment proven
  obtain ⟨hsafe, -⟩ := hall Unit sampleEvidenceStore _
    ((Runs.Reaches.refl.next trivial hfirst).next trivial hsecond)
  have hissued : (writeArchiveSegment sampleSegment core sampleSegment.segmentHash blob 5000
      proven.tables).issued sampleSegment.tokenId
      = some (issuedCheckpointRow (some old) core (none : Option (ProofBundle Unit)) .archiveSegment
          5000) := by
    rw [writeArchiveSegment, issued_storeIssuedCheckpointV3Conn, if_pos htoken.symm,
      issued_insertArchiveSegment, htoken, hold]
  obtain ⟨_, _, hproven⟩ := hsafe _ _ hissued (if_pos (congrArg some hstatus))
  exact nomatch hproven.hash_eq

end EvidenceStore
