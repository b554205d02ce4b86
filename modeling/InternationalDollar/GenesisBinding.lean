import InternationalDollar.CreateSegment
import InternationalDollar.GenesisManifest

set_option autoImplicit false

/-! # What a verified genesis segment is bound to

Verifying a genesis segment checks its genesis reference against the trusted manifest hashes, its
display id against the issue index and its base state against the genesis hash. Nothing compares
the reference or the base state with the manifest itself, and nothing ties the token id to either.

`exists_selfIssued` makes this precise: over the genesis reference of any accepted segment, every
holder of a key can issue a genesis segment that names him as the first owner, under any token id.
From it follow which fields of a genesis segment the manifest determines, and that the token id of
an issued bill is not unique. -/

namespace ArchiveSegment

/-- Some call of `verify_archive_segment` by the node accepts the segment. -/
def Accepted (node : Node) (segment : ArchiveSegment) : Prop :=
  ∃ now clock resolvers fuel expectedNetworkId previous core,
    verifyArchiveSegment node now clock resolvers fuel segment expectedNetworkId previous = .ok core

/-- What an accepted segment shows about the node that accepted it. -/
structure Evidence (node : Node) (segment : ArchiveSegment) (now clock : Int) : Prop where
  genesisRef_valid :
    GenesisRef.validateGenesisRef node.toNodePolicy segment.genesisRef segment.networkId = .ok ()
  issuedAt_le : segment.genesisRef.issuedAt ≤ maxProtocolTimestamp
  networkId_nonneg : 0 ≤ segment.networkId
  networkId_le : segment.networkId ≤ maxProtocolTimestamp
  displayId_eq : parseDisplayId node.crypto segment.displayId "archive segment display id"
    = .ok (segment.value, segment.genesisRef.issueIndex)
  now_valid : 0 ≤ now ∧ now ≤ maxProtocolTimestamp
  clock_valid : 0 ≤ clock ∧ clock ≤ maxProtocolTimestamp

/-- The transfers of a derived segment were replayed from its base state. -/
theorem Derives.replay {node : Node} {segment : ArchiveSegment} {expectedNetworkId : Option Int}
    {now clock : Int} {core : CheckpointCore}
    (h : Derives node segment expectedNetworkId now clock core) :
    segment.baseState.Valid node.crypto ∧ segment.transfers ≠ [] ∧ ∃ final,
      BaseState.replayTransfers node.crypto segment.tokenId segment.networkId now clock true
        segment.baseState segment.transfers = .ok final ∧ segment.value = final.value ∧
        segment.displayId = final.displayId := by
  have hderived := h.derived
  simp only [deriveCheckpoint, BaseState.verifyTransferSequenceFromState,
    BaseState.replayTransferSequenceFromState, Check.bind_eq_ok, Check.require_eq_ok,
    currentTime_eq_ok, BaseState.validateBaseState_eq_ok] at hderived
  obtain ⟨_, -, final, ⟨_, hbase, _, ⟨-, rfl⟩, hreplay⟩, _, -, _, hvalue, _, hdisplay, -⟩ := hderived
  have hheader := HeaderValid.of_validate h.header
  refine ⟨hbase, ?_, final, hreplay, hvalue.symm, hdisplay.symm⟩
  intro hnil
  have hpos := hheader.transferCount_pos
  rw [hheader.transferCount_eq, hnil] at hpos
  exact absurd hpos (by decide)

theorem Derives.evidence {node : Node} {segment : ArchiveSegment} {expectedNetworkId : Option Int}
    {now clock : Int} {core : CheckpointCore}
    (h : Derives node segment expectedNetworkId now clock core) : Evidence node segment now clock := by
  obtain ⟨-, hne, final, hreplay, -⟩ := h.replay
  obtain ⟨t, ht⟩ := List.exists_mem_of_ne_nil _ hne
  obtain ⟨_, hash, hspends⟩ := BaseState.exists_spends_of_mem_replay hreplay t ht
  have hheader := HeaderValid.of_validate h.header
  obtain ⟨body, hbody, hrest⟩ := Check.bind_eq_ok.1 hheader.hash_eq
  obtain ⟨_, henvelope, -⟩ := Check.bind_eq_ok.1 hrest
  have hissued : segment.genesisRef.issuedAt ≤ maxProtocolTimestamp := by
    unfold encodeArchiveSegmentBody at hbody
    iterate 5 obtain ⟨_, -, hbody⟩ := Check.bind_eq_ok.1 hbody
    obtain ⟨_, href, -⟩ := Check.bind_eq_ok.1 hbody
    exact GenesisRef.issuedAt_le_of_encode href
  exact ⟨h.genesisRef_valid, hissued, hheader.networkId_nonneg,
    BinaryV3.networkId_le_of_encodeEnvelope henvelope, h.displayId_eq, hspends.shape.now_valid,
    (Transfer.hashed_of_transferHash hspends.hash_eq).shape.now_valid⟩

end ArchiveSegment

/-! ## Self-issued segments -/

/-- The state a self-issued segment starts from. Its day counter is already at one. -/
def selfIssuedBase (ref : GenesisRef) (owner displayId : String) (value : Int) : BaseState where
  sequence := 0
  ownerAddress := owner
  lastTransferHash := ref.genesisHash
  lastTransferTimestamp := 0
  lastTransferDay := 1
  transfersInLastDay := 1
  displayId := displayId
  value := value

theorem requireMetadata_empty :
    requireMetadata (.obj []) maxTransferMetadataBytes "TransferV3" = .ok () := by
  decide +kernel

namespace ArchiveSegment

/-- The genesis hash of a reference that passes. -/
theorem isHex32_genesisHash {policy : NodePolicy} {ref : GenesisRef} {networkId : Int}
    (h : GenesisRef.validateGenesisRef policy ref networkId = .ok ()) : IsHex32 ref.genesisHash := by
  simp only [GenesisRef.validateGenesisRef, Check.bind_eq_ok, hex32_eq_ok, ↓existsAndEq, and_true] at h
  obtain ⟨_, -, _, -, _, -, _, -, hgenesis, -⟩ := h
  exact hgenesis

/-- The state that a key holder starts a bill from is well formed. -/
theorem Evidence.base_valid {node : Node} {segment : ArchiveSegment} {now clock : Int}
    (h : Evidence node segment now clock) (keys : KeyPair node.crypto) :
    (selfIssuedBase segment.genesisRef keys.address segment.displayId segment.value).Valid
      node.crypto :=
  ⟨le_rfl, keys.isAddress_address, isHex32_genesisHash h.genesisRef_valid, le_rfl, Int.one_nonneg,
    Int.one_nonneg, (isBillSerial_of_parse h.displayId_eq).1, ⟨_, parseDisplayId_label h.displayId_eq _⟩⟩

/-- **Any key holder can issue any bill again.** Over the genesis reference of an accepted segment,
    every key pair and every token id give another segment that the same node accepts at the same
    time, whose first owner is the key holder. -/
theorem exists_selfIssued {node : Node} {segment : ArchiveSegment} {now clock : Int}
    (h : Evidence node segment now clock) (keys : KeyPair node.crypto) (tokenId : String)
    (htoken : IsHex32 tokenId) :
    ∃ issued core, (∀ resolvers fuel previous, verifyArchiveSegment node now clock resolvers
        (fuel + 1) issued (some segment.networkId) previous = .ok core) ∧
      issued.genesisRef = segment.genesisRef ∧ issued.tokenId = tokenId ∧
      issued.baseState
        = selfIssuedBase segment.genesisRef keys.address segment.displayId segment.value ∧
      issued.previousSegmentHash = none := by
  let base := selfIssuedBase segment.genesisRef keys.address segment.displayId segment.value
  have hbase : base.Valid node.crypto := h.base_valid keys
  have hzero : (0 : Int) < maxProtocolTimestamp := by decide
  have hone : (1 : Int) ≤ maxProtocolTimestamp := by decide
  have hrange : CheckpointCore.InRange base := ⟨hzero.le, hzero.le, hone, hone⟩
  have hskew : ∀ time : Int, 0 ≤ time → (1 : Int) ≤ time + maxTransferFutureSkewSeconds := by
    intro time htime
    have : (300 : Int) ≤ maxTransferFutureSkewSeconds := by decide
    omega
  obtain ⟨t, hash, -, hspends, -⟩ := exists_spends keys 1 hbase rfl htoken
    keys.isAddress_address requireMetadata_empty ⟨h.networkId_nonneg, h.networkId_le⟩ hzero
    h.now_valid h.clock_valid Int.one_pos hone (hskew now h.now_valid.1)
    (hskew clock h.clock_valid.1)
    (show (if (1 : Int) / 86400 = 1 then (1 : Int) + 1 else 1) ≤ _ by decide)
  have hreplay : BaseState.replayTransfers node.crypto tokenId segment.networkId now clock true base
      [t] = .ok (base.advance t hash) :=
    Check.bind_eq_ok.2 ⟨_, BaseState.replayTransfer_eq_ok.2 ⟨hash, hspends, rfl⟩, rfl⟩
  obtain ⟨issued, core, -, hverify, href, hstate, htok, -, hfirst⟩ :=
    exists_genesisSegment h.genesisRef_valid h.issuedAt_le h.networkId_le htoken hbase hrange rfl rfl
      h.displayId_eq hreplay (by simp) (by simp)
  exact ⟨issued, core, hverify, href, htok, hstate, hfirst⟩

/-- The empty set of resolvers. -/
def Resolvers.none : Resolvers where
  previousSegment := .none
  previousCheckpoint := .none

/-! ## Token ids -/

/-- All accepted segments of one issued bill carry one token id. -/
def OneTokenId (node : Node) (genesisHash : String) : Prop :=
  ∀ a b, Accepted node a → Accepted node b → a.genesisRef.genesisHash = genesisHash →
    b.genesisRef.genesisHash = genesisHash → a.tokenId = b.tokenId

/-- A token id of 64 equal digits. -/
def repeatedDigit (c : Char) : String :=
  String.ofList (List.replicate 64 c)

end ArchiveSegment

/-- Every crypto has a key pair. -/
theorem exists_keyPair (crypto : Crypto) : Nonempty (KeyPair crypto) := by
  obtain ⟨keys, -⟩ := KeyPair.exists_of_seed crypto (List.replicate 32 0) (by simp)
  exact ⟨keys⟩

/-- Two token ids for the bill of any acceptable genesis reference. -/
theorem not_oneTokenId_of_evidence {node : Node} {segment : ArchiveSegment} {now clock : Int}
    (h : ArchiveSegment.Evidence node segment now clock) :
    ¬ ArchiveSegment.OneTokenId node segment.genesisRef.genesisHash := by
  intro hone
  obtain ⟨keys⟩ := exists_keyPair node.crypto
  have hissue : ∀ tokenId, IsHex32 tokenId → ∃ issued, ArchiveSegment.Accepted node issued ∧
      issued.genesisRef.genesisHash = segment.genesisRef.genesisHash ∧ issued.tokenId = tokenId := by
    intro tokenId htoken
    obtain ⟨issued, core, hissued, href, htok, -⟩ :=
      ArchiveSegment.exists_selfIssued h keys _ htoken
    exact ⟨issued, ⟨now, clock, .none, 1, _, none, core, hissued .none 0 none⟩, by rw [href], htok⟩
  obtain ⟨a, ha, hga, hta⟩ := hissue (ArchiveSegment.repeatedDigit '1')
    (isHex32_of_chars rfl rfl)
  obtain ⟨b, hb, hgb, htb⟩ := hissue (ArchiveSegment.repeatedDigit '2')
    (isHex32_of_chars rfl rfl)
  have htoken := hone a b ha hb hga hgb
  rw [hta, htb] at htoken
  exact absurd htoken (by decide +kernel)

/-- **A genesis hash determines the token id only if no segment carries it.** As soon as one
    segment of a bill is accepted, others are accepted under other token ids. -/
theorem oneTokenId_iff (node : Node) (genesisHash : String) :
    ArchiveSegment.OneTokenId node genesisHash ↔
      ¬ ∃ segment, ArchiveSegment.Accepted node segment ∧
        segment.genesisRef.genesisHash = genesisHash := by
  constructor
  · rintro hone ⟨segment, ⟨now, clock, resolvers, fuel, expected, previous, core, hverify⟩, rfl⟩
    exact not_oneTokenId_of_evidence (ArchiveSegment.Derives.of_verify hverify).evidence hone
  · intro hnone a b ha _ hga _
    exact absurd ⟨a, ha, hga⟩ hnone

/-- A manifest that issues five bills of 100 to one owner. -/
def sampleManifest : GenesisManifest where
  type := "ind.genesis_manifest.v3"
  version := 3
  network := "mainnet"
  networkId := 1
  genesisAlgorithm := "IND_GENESIS_REF_SHA3_256_V3"
  signatureAlgorithm := 1
  issuerPublicKey := "indpk3:0s;a80s;a80s;a80s;a80s;a80s;a80s;a80s;a8"
  issuerKeyId := "11f20e954061a25eee6f4a1066f0a350e0855f2fe2d8d156f262055e1a3501f7"
  issuedAt := 1000
  totalTokenCount := 5
  totalValue := 500
  ranges :=
    [{ value := 100, startSerial := 1, count := 5,
       ownerAddress := "x345U8rJ9gG4gxXigpgJ6J4QX16Ureagx",
       nonceSeed := "5555555555555555555555555555555555555555555555555555555555555555" }]
  metadata := .obj []
  signature := "7f41954d2d0ce96b13b22ff2e8ae5f3c55c6facc3d3649ddc2fc56d706353459" ++
    "037519fb582de5a869e50577f7dae450ae9cc828ef30508bc734b9b795e5e7d9"
  manifestHash := "1b3912832cfc200de1ae9d8cd3c1da87d7f17a0ebd927fdec0b00106c07c16cf"

/-- A node that trusts the sample manifest only. -/
def sampleNode : Node where
  crypto := sampleCrypto
  allowUntrustedGenesis := false
  trustedGenesisManifestHashes := [sampleManifest.manifestHash]

/-- The owner of the third bill of the sample manifest passes it on. -/
def sampleSegment : ArchiveSegment where
  type := "ind.archive_segment.v3"
  version := 3
  networkId := 1
  tokenId := "7777777777777777777777777777777777777777777777777777777777777777"
  value := 100
  displayId := "100x3"
  genesisRef :=
    { type := "ind.genesis_ref.v3", version := 3, networkId := 1,
      genesisHash := "fd8faf8bd3ec2431d0c8cd2655cfb102f7ab3c3e01a9a86d881206200c67a414",
      manifestHash := some "1b3912832cfc200de1ae9d8cd3c1da87d7f17a0ebd927fdec0b00106c07c16cf",
      issuerKeyId := some "11f20e954061a25eee6f4a1066f0a350e0855f2fe2d8d156f262055e1a3501f7",
      issueIndex := 3, issuedAt := 1000 }
  baseState :=
    { sequence := 0, ownerAddress := "x345U8rJ9gG4gxXigpgJ6J4QX16Ureagx",
      lastTransferHash := "fd8faf8bd3ec2431d0c8cd2655cfb102f7ab3c3e01a9a86d881206200c67a414",
      lastTransferTimestamp := 1000, lastTransferDay := 0, transfersInLastDay := 0,
      displayId := "100x3", value := 100 }
  startSequence := 1
  endSequence := 1
  previousSegmentHash := none
  previousCheckpointHash := none
  checkpointHash := "179a89bd7b3564bb81273a4ddbbd0fe4654f4ca1a76be7fe8bfef5b9b7e6278e"
  transferCount := 1
  transfers :=
    [{ type := "ind.transfer.v3", version := 3, networkId := 1, signatureAlgorithm := 1,
       tokenId := "7777777777777777777777777777777777777777777777777777777777777777", sequence := 1,
       previousHash := "fd8faf8bd3ec2431d0c8cd2655cfb102f7ab3c3e01a9a86d881206200c67a414",
       senderAddress := "x345U8rJ9gG4gxXigpgJ6J4QX16Ureagx",
       senderPublicKey := "indpk3:0RaI40RaI40RaI40RaI40RaI40RaI40RaI40RaI4",
       recipientAddress := "x36QeHmmQoeHfGMW7jgh3KgNLb2cKdR4x", timestamp := 2000,
       metadata := .obj [],
       signature := "b082f0ab6acd0a0084a16fd87b8bff1a3fabbc5d51f4070081f9fb558fe51b8b" ++
         "8468602c1462aab48ac16bbb204d85d4fa0b3ccee819b25334f601b37ca7bb8b" }]
  segmentHash := "815939a78d02c431b62b1d0ddb75fc01be8a902be224da564cd11781abf866b2"

theorem verify_sampleSegment : ∃ core, ArchiveSegment.verifyArchiveSegment sampleNode 5000 5000 .none 1
    sampleSegment (some 1) none = .ok core := by
  have hreturns : Check.returns (ArchiveSegment.verifyArchiveSegment sampleNode 5000 5000 .none 1
      sampleSegment (some 1) none) = true := by decide +kernel
  exact Check.returns_iff.1 hreturns

theorem accepted_sampleSegment : ArchiveSegment.Accepted sampleNode sampleSegment := by
  obtain ⟨core, hcore⟩ := verify_sampleSegment
  exact ⟨5000, 5000, .none, 1, some 1, none, core, hcore⟩

/-- The third bill of the sample manifest has more than one token id. -/
theorem sampleNode_not_oneTokenId :
    ¬ ArchiveSegment.OneTokenId sampleNode
      "fd8faf8bd3ec2431d0c8cd2655cfb102f7ab3c3e01a9a86d881206200c67a414" := by
  obtain ⟨now, clock, resolvers, fuel, expected, previous, core, hverify⟩ := accepted_sampleSegment
  exact not_oneTokenId_of_evidence (ArchiveSegment.Derives.of_verify hverify).evidence

/-! ## The manifest -/

/-- A genesis segment is the one the manifest assigns: reference and base state are the derived
    ones, the first transfer is made by the owner of the range, and no transfer is dated at or before
    the issue. -/
structure GenesisBound (node : Node) (manifest : GenesisManifest) (segment : ArchiveSegment) :
    Prop where
  ref_eq : manifest.deriveGenesisRef node.crypto segment.value segment.genesisRef.issueIndex
    = .ok segment.genesisRef
  base_eq : manifest.deriveBaseState node.crypto segment.value segment.genesisRef.issueIndex
    = .ok segment.baseState
  sender_eq : ∀ t ∈ segment.transfers.head?, t.senderAddress = segment.baseState.ownerAddress
  issuedAt_lt : ∀ t ∈ segment.transfers, manifest.issuedAt < t.timestamp

/-- The fields of a genesis segment that no check compares with the manifest agree with it. -/
structure UncheckedFieldsAgree (node : Node) (manifest : GenesisManifest)
    (verified : VerifiedManifest) (segment : ArchiveSegment) : Prop where
  genesisHash_eq : manifest.deriveGenesisHash node.crypto segment.value segment.genesisRef.issueIndex
    = .ok segment.genesisRef.genesisHash
  networkId_eq : segment.networkId = manifest.networkId
  issuerKeyId_eq : segment.genesisRef.issuerKeyId = some manifest.issuerKeyId
  issuedAt_eq : segment.genesisRef.issuedAt = manifest.issuedAt
  owner_eq : ∀ range, GenesisManifest.rangeForSerial verified.ranges segment.value
    segment.genesisRef.issueIndex = .ok range → segment.baseState.ownerAddress = range.ownerAddress
  timestamp_eq : segment.baseState.lastTransferTimestamp = manifest.issuedAt
  day_eq : segment.baseState.lastTransferDay = manifest.issuedAt / 86400
  dayCount_eq : segment.baseState.transfersInLastDay = 0

/-- The node trusts one manifest only, and every genesis segment it accepts under that manifest is
    the one the manifest assigns. -/
def GenesisBinding (node : Node) (manifest : GenesisManifest) : Prop :=
  ∀ verified, manifest.verifyManifest node.crypto .none = .ok verified →
    node.allowUntrustedGenesis = false → node.trustedHashes = [verified.manifestHash] →
    ∀ segment, ArchiveSegment.Accepted node segment → segment.previousSegmentHash = none →
      segment.genesisRef.manifestHash = some verified.manifestHash →
      GenesisBound node manifest segment

theorem deriveBaseState_dayCount {crypto : Crypto} {manifest : GenesisManifest} {value serial : Int}
    {state : BaseState} (h : manifest.deriveBaseState crypto value serial = .ok state) :
    state.transfersInLastDay = 0 := by
  simp only [GenesisManifest.deriveBaseState, Check.bind_eq_ok, Check.pure_eq_ok] at h
  obtain ⟨_, -, _, -, _, -, rfl⟩ := h
  rfl

/-- A self-issued segment is not bound to any manifest. -/
theorem not_genesisBound_selfIssued {node : Node} {manifest : GenesisManifest}
    {segment : ArchiveSegment} {ref : GenesisRef} {owner displayId : String} {value : Int}
    (hbase : segment.baseState = selfIssuedBase ref owner displayId value) :
    ¬ GenesisBound node manifest segment := by
  intro h
  have hcount := deriveBaseState_dayCount h.base_eq
  rw [hbase] at hcount
  exact Int.one_ne_zero hcount

namespace BaseState

/-- The first transfer of a replay is sent by the owner, and every transfer is later than the
    state. -/
theorem sender_and_timestamps_of_replay {crypto : Crypto} {tokenId : String}
    {networkId now clock : Int} {transfers : List Transfer} {state final : BaseState}
    (h : replayTransfers crypto tokenId networkId now clock true state transfers = .ok final) :
    (∀ t ∈ transfers.head?, t.senderAddress = state.ownerAddress) ∧
      ∀ t ∈ transfers, state.lastTransferTimestamp < t.timestamp := by
  induction transfers generalizing state with
  | nil => simp
  | cons t rest ih =>
    obtain ⟨next, hnext, hrest⟩ := Check.bind_eq_ok.1 h
    obtain ⟨hash, hspends, rfl⟩ := replayTransfer_eq_ok.1 hnext
    refine ⟨by rintro _ ⟨⟩; exact hspends.sender_eq, fun u hu => ?_⟩
    rcases List.mem_cons.1 hu with rfl | hu
    · exact hspends.timestamp_gt
    · exact lt_trans hspends.timestamp_gt ((ih hrest).2 u hu)

end BaseState

namespace GenesisManifest

theorem issuerKeyId_of_verify {crypto : Crypto} {manifest : GenesisManifest}
    {req : ManifestRequirements} {verified : VerifiedManifest}
    (h : manifest.verifyManifest crypto req = .ok verified) :
    verified.issuerKeyId = manifest.issuerKeyId := by
  unfold verifyManifest at h
  iterate 13 obtain ⟨_, -, h⟩ := Check.bind_eq_ok.1 h
  obtain ⟨⟨normalized, totalCount, totalValue⟩, -, h⟩ := Check.bind_eq_ok.1 h
  iterate 13 obtain ⟨_, -, h⟩ := Check.bind_eq_ok.1 h
  rw [← Check.pure_eq_ok.1 h]

/-- A derived genesis hash comes with the range that covers the serial. -/
theorem exists_range_of_deriveGenesisHash {crypto : Crypto} {manifest : GenesisManifest}
    {verified : VerifiedManifest} {value serial : Int} {hash : String}
    (hverified : manifest.verifyManifest crypto .none = .ok verified)
    (h : manifest.deriveGenesisHash crypto value serial = .ok hash) :
    ∃ range, rangeForSerial verified.ranges value serial = .ok range := by
  unfold deriveGenesisHash at h
  obtain ⟨verified', hverified', h⟩ := Check.bind_eq_ok.1 h
  obtain ⟨range, hrange, -⟩ := Check.bind_eq_ok.1 h
  obtain rfl : verified = verified' := Except.ok.inj (hverified.symm.trans hverified')
  exact ⟨range, hrange⟩

/-- `derive_genesis_ref` of a verified manifest. -/
theorem deriveGenesisRef_eq_ok {crypto : Crypto} {manifest : GenesisManifest}
    {verified : VerifiedManifest} {value serial : Int} {ref : GenesisRef}
    (hverified : manifest.verifyManifest crypto .none = .ok verified) :
    manifest.deriveGenesisRef crypto value serial = .ok ref ↔ IsBillSerial value serial ∧
      ref.type = genesisRefType ∧ ref.version = 3 ∧ ref.networkId = manifest.networkId ∧
      manifest.deriveGenesisHash crypto value serial = .ok ref.genesisHash ∧
      ref.manifestHash = some verified.manifestHash ∧
      ref.issuerKeyId = some manifest.issuerKeyId ∧ ref.issueIndex = serial ∧
      ref.issuedAt = manifest.issuedAt := by
  have hkey := issuerKeyId_of_verify hverified
  simp only [deriveGenesisRef, hverified, Check.ok_bind, Check.bind_eq_ok, validateBillSerial_eq_ok,
    Check.pure_eq_ok, ↓existsAndEq, and_true, hkey]
  constructor
  · rintro ⟨hserial, hash, hhash, rfl⟩
    exact ⟨hserial, rfl, rfl, rfl, hhash, rfl, rfl, rfl, rfl⟩
  · rintro ⟨hserial, h1, h2, h3, h4, h5, h6, h7, h8⟩
    refine ⟨hserial, ref.genesisHash, h4, ?_⟩
    cases ref
    simp_all

/-- `derive_base_state` of a verified manifest. -/
theorem deriveBaseState_eq_ok {crypto : Crypto} {manifest : GenesisManifest}
    {verified : VerifiedManifest} {value serial : Int} {state : BaseState}
    (hverified : manifest.verifyManifest crypto .none = .ok verified) :
    manifest.deriveBaseState crypto value serial = .ok state ↔
      ∃ range, rangeForSerial verified.ranges value serial = .ok range ∧
        manifest.deriveGenesisHash crypto value serial = .ok state.lastTransferHash ∧
        state.sequence = 0 ∧ state.ownerAddress = range.ownerAddress ∧
        state.lastTransferTimestamp = manifest.issuedAt ∧
        state.lastTransferDay = manifest.issuedAt / 86400 ∧ state.transfersInLastDay = 0 ∧
        state.displayId = formatDisplayId value serial ∧ state.value = value := by
  simp only [deriveBaseState, hverified, Check.ok_bind, Check.bind_eq_ok, Check.pure_eq_ok]
  constructor
  · rintro ⟨range, hrange, hash, hhash, rfl⟩
    exact ⟨range, hrange, hhash, rfl, rfl, rfl, rfl, rfl, rfl, rfl⟩
  · rintro ⟨range, hrange, hhash, h1, h2, h3, h4, h5, h6, h7⟩
    refine ⟨range, hrange, _, hhash, ?_⟩
    cases state
    simp_all

end GenesisManifest

/-- **The manifest binds a genesis segment exactly as far as its unchecked fields agree**: the
    checks force the type, the version, the issue index, the sequence, the display id, the value and
    that the base state starts from the genesis hash, and nothing else. So over every accepted
    segment of the manifest any key holder can issue one that is not bound. -/
theorem genesisBound_iff {node : Node} {manifest : GenesisManifest} {verified : VerifiedManifest}
    {segment : ArchiveSegment}
    (hmanifest : manifest.verifyManifest node.crypto .none = .ok verified)
    (haccepted : ArchiveSegment.Accepted node segment)
    (hfirst : segment.previousSegmentHash = none)
    (hhash : segment.genesisRef.manifestHash = some verified.manifestHash) :
    (GenesisBound node manifest segment ↔ UncheckedFieldsAgree node manifest verified segment) ∧
      ∀ keys : KeyPair node.crypto, ∃ issued, ArchiveSegment.Accepted node issued ∧
        issued.previousSegmentHash = none ∧ issued.genesisRef = segment.genesisRef ∧
        issued.baseState.ownerAddress = keys.address ∧ ¬ GenesisBound node manifest issued := by
  obtain ⟨now, clock, resolvers, fuel, expected, previous, core, hverify⟩ := haccepted
  have hderives := ArchiveSegment.Derives.of_verify hverify
  have hevidence := hderives.evidence
  have hbase := ArchiveSegment.checkGenesisBase_of_verify hverify hfirst
  simp only [ArchiveSegment.checkGenesisBase, Check.bind_eq_ok, Check.require_eq_ok,
    exists_const] at hbase
  obtain ⟨-, hsequence, hlast⟩ := hbase
  have href := hderives.genesisRef_valid
  simp only [GenesisRef.validateGenesisRef, Check.bind_eq_ok, Check.require_eq_ok,
    exists_const] at href
  obtain ⟨htype, hversion, _, -, hnetwork, -⟩ := href
  refine ⟨⟨fun hbound => ?_, fun hagree => ?_⟩, fun keys => ?_⟩
  · obtain ⟨-, -, -, hnet, hgenesis, -, hkey, -, hissued⟩ :=
      (GenesisManifest.deriveGenesisRef_eq_ok hmanifest).1 hbound.ref_eq
    obtain ⟨range, hrange, -, -, howner, htime, hday, hcount, -⟩ :=
      (GenesisManifest.deriveBaseState_eq_ok hmanifest).1 hbound.base_eq
    refine ⟨hgenesis, by rw [← hnetwork, hnet], hkey, hissued, fun range' hrange' => ?_, htime, hday,
      hcount⟩
    rw [howner, Except.ok.inj (hrange.symm.trans hrange')]
  · obtain ⟨hvalid, -, final, hreplay, hvalue, hdisplay⟩ := hderives.replay
    have hend := BaseState.replayed_of_replayTransfers hvalid hreplay
    obtain ⟨hsender, htimes⟩ := BaseState.sender_and_timestamps_of_replay hreplay
    obtain ⟨range, hrange⟩ :=
      GenesisManifest.exists_range_of_deriveGenesisHash hmanifest hagree.genesisHash_eq
    have hformat := eq_formatDisplayId_of_parse hderives.displayId_eq
    refine ⟨(GenesisManifest.deriveGenesisRef_eq_ok hmanifest).2
        ⟨isBillSerial_of_parse hderives.displayId_eq, htype, hversion,
          by rw [hnetwork, hagree.networkId_eq], hagree.genesisHash_eq, hhash,
          hagree.issuerKeyId_eq, rfl, hagree.issuedAt_eq⟩,
      (GenesisManifest.deriveBaseState_eq_ok hmanifest).2
        ⟨range, hrange, by rw [hlast]; exact hagree.genesisHash_eq, hsequence,
          hagree.owner_eq range hrange, hagree.timestamp_eq, hagree.day_eq, hagree.dayCount_eq,
          by rw [← hend.displayId_eq, ← hdisplay, hformat], by rw [← hend.value_eq, ← hvalue]⟩,
      hsender, fun t ht => ?_⟩
    rw [← hagree.timestamp_eq]
    exact htimes t ht
  · obtain ⟨issued, core', hissued, href, -, hbase, hnone⟩ :=
      ArchiveSegment.exists_selfIssued hevidence keys
        (ArchiveSegment.repeatedDigit '1') (isHex32_of_chars rfl rfl)
    exact ⟨issued, ⟨now, clock, .none, 1, _, none, core', hissued .none 0 none⟩, hnone, href,
      by rw [hbase]; rfl, not_genesisBound_selfIssued hbase⟩

/-- What the sample manifest verifies to. -/
def sampleVerified : VerifiedManifest where
  manifestHash := "1b3912832cfc200de1ae9d8cd3c1da87d7f17a0ebd927fdec0b00106c07c16cf"
  issuerKeyId := "11f20e954061a25eee6f4a1066f0a350e0855f2fe2d8d156f262055e1a3501f7"
  ranges :=
    [{ value := 100, startSerial := 1, endSerial := 5, count := 5,
       ownerAddress := "x345U8rJ9gG4gxXigpgJ6J4QX16Ureagx",
       nonceSeed := "5555555555555555555555555555555555555555555555555555555555555555" }]
  totalTokenCount := 5
  totalValue := 500

theorem verifyManifest_sampleManifest :
    sampleManifest.verifyManifest sampleNode.crypto .none = .ok sampleVerified := by
  decide +kernel

/-- The equivalence at the sample segment. -/
theorem sampleSegment_genesisBound_iff :
    (GenesisBound sampleNode sampleManifest sampleSegment ↔
        UncheckedFieldsAgree sampleNode sampleManifest sampleVerified sampleSegment) ∧
      ∀ keys : KeyPair sampleNode.crypto, ∃ issued, ArchiveSegment.Accepted sampleNode issued ∧
        issued.previousSegmentHash = none ∧ issued.genesisRef = sampleSegment.genesisRef ∧
        issued.baseState.ownerAddress = keys.address ∧
        ¬ GenesisBound sampleNode sampleManifest issued :=
  genesisBound_iff verifyManifest_sampleManifest accepted_sampleSegment rfl rfl

/-- The node that trusts only the sample manifest accepts a segment that the manifest does not
    assign. -/
theorem sampleNode_not_genesisBinding : ¬ GenesisBinding sampleNode sampleManifest := by
  intro hbinding
  obtain ⟨now, clock, resolvers, fuel, expected, previous, core, hverify⟩ := accepted_sampleSegment
  obtain ⟨keys⟩ := exists_keyPair sampleNode.crypto
  obtain ⟨issued, core', hissued, href, -, hbase, hnone⟩ :=
    ArchiveSegment.exists_selfIssued (ArchiveSegment.Derives.of_verify hverify).evidence keys
      (ArchiveSegment.repeatedDigit '1') (isHex32_of_chars rfl rfl)
  refine not_genesisBound_selfIssued hbase (hbinding sampleVerified verifyManifest_sampleManifest rfl
    (by decide +kernel) issued ⟨now, clock, .none, 1, _, none, core', hissued .none 0 none⟩ hnone ?_)
  rw [href]
  rfl
