import InternationalDollar.ObjectDecoders
import InternationalDollar.SpendKey

set_option autoImplicit false

/-! # Encoding and decoding again

Decoding what an encoder wrote gives the object back, provided that the texts in it are spelt as the
decoder spells them: hashes and signatures in lower-case digits, public keys as derived from their
bytes, metadata that the JSON reader returns from its canonical text. The encoders accept other
spellings of a hash and of a signature; the decoder cannot know them. -/

open BinaryV3

/-- A transfer inside an object of a network that the decoder gives back. -/
def Transfer.RoundTrips (inflate : Bytes → Option Bytes) (networkId : Int) (t : Transfer) : Prop :=
  t.Canonical networkId ∧ WireJson.ReadsBack inflate t.metadata

section RoundTrip

variable {inflate : Bytes → Option Bytes} {node : Node} {crypto : Crypto} {clock networkId : Int}

theorem Transfer.RoundTrips.wire {t : Transfer} (h : t.RoundTrips inflate networkId) {raw : Bytes}
    (hraw : t.encodeTransferBody crypto true clock = .ok raw) : t.Wire inflate networkId raw := by
  obtain ⟨-, text, htext, hwrite⟩ := Transfer.encodeTransferBody_eq_ok.1 hraw
  obtain rfl := (canonicalBytes_eq_ok.1 htext).2
  exact ⟨h.1, _, h.2 _, hwrite⟩

theorem writtenAll_wire {ts : List Transfer} (h : ∀ t ∈ ts, t.RoundTrips inflate networkId)
    {raw : Bytes} (hraw : ArchiveSegment.encodeTransfers crypto clock ts = .ok raw) :
    ByteReader.WrittenAll (Transfer.Wire inflate networkId) ts raw :=
  (ArchiveSegment.encodeTransfers_eq_ok.1 hraw).mono fun t ht _ ht' => (h t ht).wire ht'

theorem decodeTransfer_encodeTransfer {t : Transfer} {raw : Bytes}
    (hraw : t.encodeTransfer crypto true clock = .ok raw) (h : t.RoundTrips inflate t.networkId) :
    Transfer.decodeTransfer inflate raw = .ok t := by
  obtain ⟨body, hbody, henvelope⟩ := Check.bind_eq_ok.1 hraw
  exact Transfer.decodeTransfer_eq_ok.2 ⟨_, body, h.wire hbody, henvelope⟩

theorem decodeCheckpointCore_encodeCheckpointCore {core : CheckpointCore} {raw : Bytes}
    (hraw : core.encodeCheckpointCore crypto = .ok raw) (h : core.Canonical core.networkId) :
    CheckpointCore.decodeCheckpointCore raw = .ok core := by
  obtain ⟨_, -, hraw⟩ := Check.bind_eq_ok.1 hraw
  obtain ⟨body, hbody, henvelope⟩ := Check.bind_eq_ok.1 hraw
  obtain ⟨-, hwrite⟩ := CheckpointCore.encodeCheckpointCoreBody_eq_ok.1 hbody
  exact CheckpointCore.decodeCheckpointCore_eq_ok.2 ⟨_, body, ⟨h, hwrite⟩, henvelope⟩

theorem decodeGenesisRef_encodeGenesisRef {policy : NodePolicy} {ref : GenesisRef} {raw : Bytes}
    (hraw : ref.encodeGenesisRef policy = .ok raw) (h : ref.Canonical ref.networkId) :
    GenesisRef.decodeGenesisRef raw = .ok ref := by
  obtain ⟨_, -, hraw⟩ := Check.bind_eq_ok.1 hraw
  obtain ⟨body, hbody, henvelope⟩ := Check.bind_eq_ok.1 hraw
  obtain ⟨-, hwrite⟩ := GenesisRef.encodeGenesisRefBody_eq_ok.1 hbody
  exact GenesisRef.decodeGenesisRef_eq_ok.2 ⟨_, body, ⟨h, hwrite⟩, henvelope⟩

theorem decodeBill_encodeBill {bill : BillV3} {raw : Bytes}
    (hraw : bill.encodeBill node clock = .ok raw) (h : bill.Canonical bill.networkId)
    (hts : ∀ t ∈ bill.recentTransfers, t.RoundTrips inflate bill.networkId) :
    BillV3.decodeBill inflate raw = .ok bill := by
  obtain ⟨_, -, hraw⟩ := Check.bind_eq_ok.1 hraw
  obtain ⟨_, -, hraw⟩ := Check.bind_eq_ok.1 hraw
  obtain ⟨body, hbody, henvelope⟩ := Check.bind_eq_ok.1 hraw
  obtain ⟨-, -, head, transfers, hhead, htransfers, rfl⟩ := BillV3.encodeBillBody_eq_ok.1 hbody
  exact BillV3.decodeBill_eq_ok.2 ⟨_, _, ⟨h, head, transfers, hhead, writtenAll_wire hts htransfers,
    rfl⟩, henvelope⟩

theorem decodeArchiveSegment_encodeArchiveSegment {segment : ArchiveSegment} {raw : Bytes}
    (hraw : segment.encodeArchiveSegment node clock = .ok raw) (h : segment.Canonical segment.networkId)
    (hts : ∀ t ∈ segment.transfers, t.RoundTrips inflate segment.networkId) :
    ArchiveSegment.decodeArchiveSegment inflate raw = .ok segment := by
  obtain ⟨_, -, hraw⟩ := Check.bind_eq_ok.1 hraw
  obtain ⟨body, hbody, henvelope⟩ := Check.bind_eq_ok.1 hraw
  obtain ⟨-, hcount, -, -, head, transfers, hash, hhead, htransfers, hhash, rfl⟩ :=
    ArchiveSegment.encodeArchiveSegmentBody_eq_ok.1 hbody
  exact ArchiveSegment.decodeArchiveSegment_eq_ok.2 ⟨_, _, ⟨h, hcount, head, transfers, hash, hhead,
    writtenAll_wire hts htransfers, hhash, rfl⟩, henvelope⟩

theorem decodeConflictProof_encodeConflictProof {proof : ConflictProofV3} {raw : Bytes}
    (hraw : proof.encodeConflictProof crypto true clock = .ok raw) (h : proof.Canonical proof.networkId)
    (ha : proof.transferA.RoundTrips inflate proof.networkId)
    (hb : proof.transferB.RoundTrips inflate proof.networkId) :
    ConflictProofV3.decodeConflictProof inflate raw = .ok proof := by
  obtain ⟨_, -, hraw⟩ := Check.bind_eq_ok.1 hraw
  obtain ⟨body, hbody, henvelope⟩ := Check.bind_eq_ok.1 hraw
  obtain ⟨-, -, head, transferA, transferB, tail, hhead, htransferA, htransferB, htail, rfl⟩ :=
    ConflictProofV3.encodeConflictProofBody_eq_ok.1 hbody
  exact ConflictProofV3.decodeConflictProof_eq_ok.2 ⟨_, _, ⟨h, head, transferA, transferB, tail, hhead,
    ha.wire htransferA, hb.wire htransferB, htail, rfl⟩, henvelope⟩

end RoundTrip

theorem readsBack_emptyObject (inflate : Bytes → Option Bytes) :
    WireJson.ReadsBack inflate (.obj []) := by
  have hbytes : (Json.obj []).bytes = Text.utf8 "{}" := rfl
  intro label
  rw [WireJson.decodeJsonField, hbytes, Text.utf8Decode_utf8]
  rfl

/-- A core of the sample bill. -/
def sampleCore : CheckpointCore where
  type := "ind.checkpoint_core.v3"
  version := 3
  networkId := 1
  tokenId := sampleSegment.tokenId
  genesisHash := sampleSegment.genesisRef.genesisHash
  sequence := 1
  ownerAddress := "x36QeHmmQoeHfGMW7jgh3KgNLb2cKdR4x"
  value := 100
  displayId := "100x3"
  displayIdHash := "d7e2b637904f98484fdd9af3476c92f0c4a22fb010078a856319bccd5bef730e"
  lastTransferHash := zeroHash
  lastTransferTimestamp := 2000
  lastTransferDay := 0
  transfersInLastDay := 1
  previousCheckpointHash := none
  checkpointHash := sampleSegment.checkpointHash

/-- A bill with the sample transfer. -/
def sampleBillV3 : BillV3 where
  type := "ind.bill.v3"
  version := 3
  networkId := 1
  tokenId := sampleSegment.tokenId
  value := 100
  genesisRef := sampleSegment.genesisRef
  checkpointCore := sampleCore
  proofBundleRef :=
    { type := "ind.proof_bundle_ref.v3", version := 3, networkId := 1, logId := "log",
      signedRootHash := zeroHash, treeSize := 1, proofBundleAlgorithm := 1,
      proofBundleHash := zeroHash }
  recentTransfers := [Transfer.sampleSpend]

/-- A proof that holds the sample transfer twice, which its encoder does not look at. -/
def sampleProof : ConflictProofV3 where
  type := "ind.conflict_proof.v3"
  version := 3
  networkId := 1
  tokenId := sampleSegment.tokenId
  previousHash := zeroHash
  sequence := 1
  senderAddress := "x345U8rJ9gG4gxXigpgJ6J4QX16Ureagx"
  spendKey := zeroHash
  transferHashA := zeroHash
  transferHashB := zeroHash
  transferA := Transfer.sampleSpend
  transferB := Transfer.sampleSpend
  detectedAt := 3000
  proofHash := zeroHash

theorem isHashText_zeroHash : IsHashText zeroHash :=
  ⟨List.replicate 32 0, rfl, rfl⟩

theorem isHashText_sampleToken : IsHashText sampleSegment.tokenId :=
  Text.exists_hex_of_chars rfl rfl

theorem canonical_sampleGenesisRef : sampleSegment.genesisRef.Canonical 1 := by
  refine ⟨rfl, rfl, rfl, Text.exists_hex_of_chars rfl rfl, ?_, ?_⟩
  · rintro _ ⟨⟩
    exact Text.exists_hex_of_chars rfl rfl
  · rintro _ ⟨⟩
    exact Text.exists_hex_of_chars rfl rfl

set_option maxRecDepth 2000 in
theorem canonical_sampleSpend : Transfer.sampleSpend.Canonical 1 := by
  refine ⟨rfl, rfl, rfl, isHashText_sampleToken, canonical_sampleGenesisRef.genesisHash, ?_, ?_⟩
  · exact ⟨List.replicate 32 1, rfl, rfl⟩
  · exact Text.exists_hex_of_chars String.ofList_append.symm rfl

theorem canonical_sampleCore : sampleCore.Canonical 1 := by
  refine ⟨rfl, rfl, rfl, isHashText_sampleToken, canonical_sampleGenesisRef.genesisHash, ?_,
    isHashText_zeroHash, fun text h => (nomatch h), ?_⟩
  · exact Text.exists_hex_of_chars rfl rfl
  · exact Text.exists_hex_of_chars rfl rfl

theorem roundTrips_sampleSpend (inflate : Bytes → Option Bytes) :
    Transfer.sampleSpend.RoundTrips inflate 1 :=
  ⟨canonical_sampleSpend, readsBack_emptyObject inflate⟩

theorem exists_envelope (magic : String) (body : Bytes) :
    ∃ raw, encodeEnvelope magic 1 body = .ok raw := ⟨_, rfl⟩

/-- The sample objects are encoded. -/
theorem exists_encode_samples : ∃ clock,
    (∃ raw, Transfer.sampleSpend.encodeTransfer sampleCrypto true clock = .ok raw) ∧
    (∃ raw, sampleCore.encodeCheckpointCore sampleCrypto = .ok raw) ∧
    (∃ raw, sampleSegment.genesisRef.encodeGenesisRef sampleNode.toNodePolicy = .ok raw) ∧
    (∃ raw, sampleBillV3.encodeBill sampleNode clock = .ok raw) ∧
    (∃ raw, sampleSegment.encodeArchiveSegment sampleNode clock = .ok raw) ∧
    ∃ raw, sampleProof.encodeConflictProof sampleCrypto true clock = .ok raw := by
  -- The accepted segment was encoded, with its hash zeroed, and with it the transfer.
  obtain ⟨_, clock, _, _, _, _, _, hverify⟩ := accepted_sampleSegment
  have hhash := (ArchiveSegment.HeaderValid.of_validate
    (ArchiveSegment.Derives.of_verify hverify).header).hash_eq
  obtain ⟨zeroed, hzeroed, -⟩ := Check.bind_eq_ok.1 hhash
  obtain ⟨-, -, hgenesisValid, hbase, segmentHead, ts, _, hsegment, hts, -⟩ :=
    ArchiveSegment.encodeArchiveSegmentBody_eq_ok.1 hzeroed
  obtain ⟨body, _, hbody, rfl, hconcat⟩ := ArchiveSegment.encodeTransfers_eq_ok.1 hts
  obtain ⟨hash, hhash⟩ : ∃ raw, encodeHashHex sampleSegment.segmentHash = .ok raw := by
    have hhex : IsHex32 sampleSegment.segmentHash := isHex32_of_chars rfl rfl
    obtain ⟨raw, hraw, -⟩ := fits_encodeHashHex hhex
    exact ⟨raw, hraw⟩
  have hcore : Check.returns (sampleCore.encodeCheckpointCoreBody sampleCrypto) = true := by
    decide +kernel
  have hbundle : Check.returns sampleBillV3.proofBundleRef.encodeProofBundleRefBody = true := by
    decide +kernel
  have hproof : Check.returns sampleProof.writeHead = true := by decide +kernel
  have htail : Check.returns sampleProof.writeTail = true := by decide +kernel
  have hgenesis : Check.returns sampleSegment.genesisRef.write = true := by decide +kernel
  rw [Check.returns_iff] at hcore hbundle hproof htail hgenesis
  obtain ⟨core, hcore⟩ := hcore
  obtain ⟨bundleRef, hbundle⟩ := hbundle
  obtain ⟨proofHead, hproof⟩ := hproof
  obtain ⟨tail, htail⟩ := htail
  obtain ⟨ref, hgenesis⟩ := hgenesis
  obtain ⟨hcoreValid, hcoreFields⟩ := CheckpointCore.encodeCheckpointCoreBody_eq_ok.1 hcore
  have htoken : IsHex32 sampleBillV3.tokenId := isHex32_of_chars rfl rfl
  obtain ⟨token, htoken, -⟩ := fits_encodeHashHex htoken
  obtain ⟨billHead, hbill⟩ : ∃ raw, sampleBillV3.writeHead = .ok raw :=
    ⟨_, Check.bind_eq_ok.2 ⟨token, htoken, Check.bind_eq_ok.2 ⟨_, rfl, Check.bind_eq_ok.2 ⟨ref, hgenesis,
      Check.bind_eq_ok.2 ⟨core, hcoreFields, Check.bind_eq_ok.2 ⟨bundleRef, hbundle,
        Check.bind_eq_ok.2 ⟨_, rfl, rfl⟩⟩⟩⟩⟩⟩⟩
  refine ⟨clock, ?_, ?_, ?_, ?_, ?_, ?_⟩
  · obtain ⟨raw, hraw⟩ := exists_envelope "IND3XFER" body
    exact ⟨raw, Check.bind_eq_ok.2 ⟨body, hbody, hraw⟩⟩
  · obtain ⟨raw, hraw⟩ := exists_envelope "IND3CPNT" core
    exact ⟨raw, Check.bind_eq_ok.2 ⟨(), rfl, Check.bind_eq_ok.2 ⟨core, hcore, hraw⟩⟩⟩
  · obtain ⟨raw, hraw⟩ := exists_envelope "IND3GENR" ref
    have href : sampleSegment.genesisRef.encodeGenesisRefBody sampleNode.toNodePolicy = .ok ref :=
      GenesisRef.encodeGenesisRefBody_eq_ok.2 ⟨hgenesisValid, hgenesis⟩
    exact ⟨raw, Check.bind_eq_ok.2 ⟨(), rfl, Check.bind_eq_ok.2 ⟨ref, href, hraw⟩⟩⟩
  · obtain ⟨raw, hraw⟩ := exists_envelope "IND3BILL" (billHead ++ ts)
    have hbody : sampleBillV3.encodeBillBody sampleNode clock = .ok (billHead ++ ts) :=
      BillV3.encodeBillBody_eq_ok.2 ⟨hgenesisValid, hcoreValid, billHead, ts, hbill, hts, rfl⟩
    exact ⟨raw, Check.bind_eq_ok.2 ⟨(), rfl, Check.bind_eq_ok.2 ⟨(), Check.require_eq_ok.2 ⟨rfl, rfl⟩,
      Check.bind_eq_ok.2 ⟨_, hbody, hraw⟩⟩⟩⟩
  · obtain ⟨raw, hraw⟩ := exists_envelope "IND3ARCH" (segmentHead ++ (ts ++ hash))
    have hbody : sampleSegment.encodeArchiveSegmentBody sampleNode clock
        = .ok (segmentHead ++ (ts ++ hash)) :=
      ArchiveSegment.encodeArchiveSegmentBody_eq_ok.2 ⟨by decide, rfl, hgenesisValid, hbase, segmentHead,
        ts, hash, hsegment, hts, hhash, rfl⟩
    exact ⟨raw, Check.bind_eq_ok.2 ⟨(), rfl, Check.bind_eq_ok.2 ⟨_, hbody, hraw⟩⟩⟩
  · obtain ⟨raw, hraw⟩ := exists_envelope "IND3CFLP" (proofHead ++ (body ++ (body ++ tail)))
    have hbody : sampleProof.encodeConflictProofBody sampleCrypto true clock
        = .ok (proofHead ++ (body ++ (body ++ tail))) :=
      ConflictProofV3.encodeConflictProofBody_eq_ok.2 ⟨by decide, isHex32_zeroHash, proofHead, body, body,
        tail, hproof, hbody, hbody, htail, rfl⟩
    exact ⟨raw, Check.bind_eq_ok.2 ⟨(), rfl, Check.bind_eq_ok.2 ⟨_, hbody, hraw⟩⟩⟩

/-- The encoder takes any signature text that reads as 64 bytes. -/
theorem Transfer.exists_body_of_signature {crypto : Crypto} {t : Transfer} {clock : Int}
    {body signature : Bytes} {text : String} (h : t.encodeTransferBody crypto true clock = .ok body)
    (hsignature : signatureBytes text = .ok signature) :
    ∃ body', { t with signature := text }.encodeTransferBody crypto true clock = .ok body' := by
  obtain ⟨hshape, metadata, hmetadata, hwrite⟩ := encodeTransferBody_eq_ok.1 h
  have hshape' : { t with signature := text }.WellShaped crypto t.networkId true clock :=
    { hshape with signature_valid := fun _ => ⟨signature, hsignature⟩ }
  simp only [write, Check.bind_eq_ok] at hwrite
  obtain ⟨f1, h1, f2, h2, f3, h3, f4, h4, f5, h5, f6, h6, f7, h7, f8, h8, f9, h9, -⟩ := hwrite
  obtain ⟨raw, hraw⟩ : ∃ raw, { t with signature := text }.write metadata = .ok raw := by
    simp only [write, Check.bind_eq_ok]
    exact ⟨_, f1, h1, f2, h2, f3, h3, f4, h4, f5, h5, f6, h6, f7, h7, f8, h8, f9, h9, signature,
      hsignature, rfl⟩
  exact ⟨raw, encodeTransferBody_eq_ok.2 ⟨hshape', metadata, hmetadata, hraw⟩⟩

/-- The sample transfer with a signature in upper case. -/
def shoutedSpend : Transfer :=
  { Transfer.sampleSpend with signature := String.ofList (List.replicate 128 'A') }
