import InternationalDollar.WireRoundTrip

set_option autoImplicit false

/-! # When accepted bytes are canonical

An accepted byte string is what the encoder writes for the decoded object, but for the metadata of the
transfers: every other field reader takes one spelling only. The readers here pick the metadata texts
out of an object without looking at them, so that the condition is one on the bytes. -/

open BinaryV3

/-- Whatever value the JSON reader finds in the texts, they are its canonical texts. -/
def CanonicalTexts (inflate : Bytes → Option Bytes) (texts : List Bytes) : Prop :=
  ∀ text ∈ texts, WireJson.IsCanonicalText inflate text

/-! ## The metadata texts of an object -/

/-- The metadata text of a transfer. -/
def Transfer.readMetadataText : Reader Bytes := do
  let _ ← Reader.readHashHex "TransferV3 token id"
  let _ ← Reader.readUvarint "TransferV3 sequence"
  let _ ← Reader.readHashHex "TransferV3 previous hash"
  let _ ← Reader.readAscii "TransferV3 sender address" 128
  let _ ← readPublicKey "TransferV3 sender public key"
  let _ ← Reader.readAscii "TransferV3 recipient address" 128
  let _ ← Reader.readUvarint "TransferV3 timestamp"
  let text ← Reader.readBytes "TransferV3 metadata" maxTransferMetadataBytes
  let _ ← Reader.readUvarint "TransferV3 signature algorithm"
  let _ ← readSignatureHex "TransferV3 signature"
  pure text

/-- The metadata texts of an encoded transfer. -/
def Transfer.metadataTexts (data : Bytes) : Except String (List Bytes) :=
  decodeEnvelope "IND3XFER" "TransferV3" (fun _ => do
    let text ← Transfer.readMetadataText
    pure [text]) data

/-- The metadata texts of an encoded bill. -/
def BillV3.metadataTexts (data : Bytes) : Except String (List Bytes) :=
  decodeEnvelope "IND3BILL" "BillV3" (fun networkId => do
    let _ ← Reader.readHashHex "BillV3 token id"
    let _ ← Reader.readUvarint "BillV3 value"
    let _ ← GenesisRef.decodeGenesisRefBody networkId
    let _ ← CheckpointCore.decodeCheckpointCoreBody networkId
    let _ ← ProofBundleRef.decodeProofBundleRefBody networkId
    let count ← Reader.readUvarint "BillV3 recent transfer count"
    ByteReader.times Transfer.readMetadataText count.toNat) data

/-- The metadata texts of an encoded segment. -/
def ArchiveSegment.metadataTexts (data : Bytes) : Except String (List Bytes) :=
  decodeEnvelope "IND3ARCH" "archive segment" (fun networkId => do
    let _ ← Reader.readHashHex "archive segment token id"
    let _ ← Reader.readUvarint "archive segment value"
    let _ ← Reader.readAscii "archive segment display id" 64
    let _ ← GenesisRef.decodeGenesisRefBody networkId
    let _ ← BaseState.decodeBaseStateBody
    let _ ← Reader.readUvarint "archive segment start sequence"
    let _ ← Reader.readUvarint "archive segment end sequence"
    let _ ← Reader.readNullableHashHex "previous archive segment hash"
    let _ ← Reader.readNullableHashHex "previous checkpoint hash"
    let _ ← Reader.readHashHex "archive segment checkpoint hash"
    let count ← Reader.readUvarint "archive segment transfer count"
    let texts ← ByteReader.times Transfer.readMetadataText count.toNat
    let _ ← Reader.readHashHex "archive segment hash"
    pure texts) data

/-- The metadata texts of an encoded conflict proof. -/
def ConflictProofV3.metadataTexts (data : Bytes) : Except String (List Bytes) :=
  decodeEnvelope "IND3CFLP" "ConflictProofV3" (fun _ => do
    let _ ← Reader.readHashHex "ConflictProofV3 token id"
    let _ ← Reader.readHashHex "ConflictProofV3 previous hash"
    let _ ← Reader.readUvarint "ConflictProofV3 sequence"
    let _ ← Reader.readAscii "ConflictProofV3 sender address" 128
    let _ ← Reader.readHashHex "ConflictProofV3 spend key"
    let _ ← Reader.readHashHex "ConflictProofV3 transfer hash a"
    let _ ← Reader.readHashHex "ConflictProofV3 transfer hash b"
    let textA ← Transfer.readMetadataText
    let textB ← Transfer.readMetadataText
    let _ ← Reader.readUvarint "ConflictProofV3 detected_at"
    let _ ← Reader.readHashHex "ConflictProofV3 proof hash"
    pure [textA, textB]) data

/-! ## Two spellings of one body

`raw` is what was decoded and `raw'` what is encoded again; they differ in the metadata texts only. -/

/-- The encoder gives other bytes exactly if one of the texts is not canonical, and wherever the two byte
    strings are compared in a longer one, the comparison goes on behind them. -/
structure Respelled (inflate : Bytes → Option Bytes) (texts : List Bytes) (raw raw' : Bytes) : Prop where
  eq_of_canonical : CanonicalTexts inflate texts → raw' = raw
  canonical_of_append_eq : ∀ s s', raw' ++ s = raw ++ s' → CanonicalTexts inflate texts ∧ s = s'

namespace Respelled

variable {inflate : Bytes → Option Bytes} {texts texts₂ : List Bytes} {raw raw' raw₂ raw₂' : Bytes}

theorem refl (raw : Bytes) : Respelled inflate [] raw raw where
  eq_of_canonical := fun _ => rfl
  canonical_of_append_eq := fun _ _ h => ⟨fun _ ht => (nomatch ht), List.append_cancel_left h⟩

theorem append (h : Respelled inflate texts raw raw') (h₂ : Respelled inflate texts₂ raw₂ raw₂') :
    Respelled inflate (texts ++ texts₂) (raw ++ raw₂) (raw' ++ raw₂') where
  eq_of_canonical := by
    intro hall
    rw [h.eq_of_canonical fun t ht => hall t (List.mem_append_left _ ht),
      h₂.eq_of_canonical fun t ht => hall t (List.mem_append_right _ ht)]
  canonical_of_append_eq := by
    intro s s' heq
    rw [List.append_assoc, List.append_assoc] at heq
    obtain ⟨hfirst, heq⟩ := h.canonical_of_append_eq _ _ heq
    obtain ⟨hsecond, heq⟩ := h₂.canonical_of_append_eq _ _ heq
    refine ⟨?_, heq⟩
    intro t ht
    rcases List.mem_append.1 ht with ht | ht
    · exact hfirst t ht
    · exact hsecond t ht

theorem eq_iff (h : Respelled inflate texts raw raw') : raw' = raw ↔ CanonicalTexts inflate texts := by
  constructor
  · intro heq
    exact (h.canonical_of_append_eq [] [] (by rw [heq])).1
  · intro hall
    exact h.eq_of_canonical hall

/-- Inside an envelope. -/
theorem envelope_eq_iff (h : Respelled inflate texts raw raw') {magic : String} {networkId : Int}
    {data data' : Bytes} (hdata : encodeEnvelope magic networkId raw = .ok data)
    (hdata' : encodeEnvelope magic networkId raw' = .ok data') :
    data' = data ↔ CanonicalTexts inflate texts := by
  rw [← h.eq_iff]
  constructor
  · rintro rfl
    exact (encodeEnvelope_inj hdata' hdata).2
  · rintro rfl
    exact Except.ok.inj (hdata'.symm.trans hdata)

end Respelled

/-- Reading an object whose body is read to its end. -/
theorem decodeEnvelope_of_body {α : Type} {magic label : String} {body : Int → Reader α}
    (hmagic : (Text.utf8 magic).length = 8) {networkId : Int} {raw data : Bytes} {a : α}
    (hdata : encodeEnvelope magic networkId raw = .ok data) (hbody : body networkId raw = .ok (a, [])) :
    decodeEnvelope magic label body data = .ok a := by
  have hread : readObject magic label body data = .ok (a, []) := by
    simp only [readObject, ByteReader.bind_eq_ok, readEnvelope_eq_ok hmagic,
      ByteReader.requireEof_eq_ok, ByteReader.pure_eq_ok]
    exact ⟨networkId, raw, hdata, a, [], hbody, (), [], ⟨rfl, rfl⟩, rfl, rfl⟩
  rw [decodeEnvelope, hread]

namespace Transfer

variable {inflate : Bytes → Option Bytes} {crypto : Crypto} {clock networkId : Int} {t : Transfer}
  {text raw raw' rest : Bytes}

/-- The text that a transfer was written with stands in its bytes. -/
theorem readMetadataText_write (h : t.Canonical networkId) (hwrite : t.write text = .ok raw) :
    readMetadataText (raw ++ rest) = .ok (text, rest) := by
  simp only [readMetadataText, ByteReader.bind_eq_ok, ByteReader.pure_eq_ok, Reader.readHashHex_eq_ok,
    Reader.readAscii_eq_ok (by decide : 128 ≤ maxBoundedBytes),
    Reader.readBytes_eq_ok (by decide : maxTransferMetadataBytes ≤ maxBoundedBytes),
    Reader.readUvarint_eq_ok, readPublicKey_eq_ok, readSignatureHex_eq_ok]
  simp only [write, Check.bind_eq_ok, Check.pure_eq_ok] at hwrite
  obtain ⟨f1, h1, f2, h2, f3, h3, f4, h4, f5, h5, f6, h6, f7, h7, f8, h8, f9, h9, f10, h10, rfl⟩ := hwrite
  exact ⟨_, _, ⟨h.tokenId, f1, h1, List.append_assoc ..⟩, _, _, ⟨f2, h2, List.append_assoc ..⟩, _, _,
    ⟨h.previousHash, f3, h3, List.append_assoc ..⟩, _, _, ⟨f4, h4, List.append_assoc ..⟩, _, _,
    ⟨h.senderPublicKey, f5, h5, List.append_assoc ..⟩, _, _, ⟨f6, h6, List.append_assoc ..⟩, _, _,
    ⟨f7, h7, List.append_assoc ..⟩, _, _, ⟨f8, h8, List.append_assoc ..⟩, _, _,
    ⟨f9, h9, List.append_assoc ..⟩, _, _, ⟨h.signature, f10, h10, rfl⟩, rfl, rfl⟩

/-- The bytes of a transfer determine the text in them. -/
theorem write_append_inj {text' s s' : Bytes} (h : t.write text = .ok raw)
    (h' : t.write text' = .ok raw') (heq : raw' ++ s = raw ++ s') : text' = text ∧ s = s' := by
  simp only [write, Check.bind_eq_ok, Check.pure_eq_ok] at h h'
  obtain ⟨f1, h1, f2, h2, f3, h3, f4, h4, f5, h5, f6, h6, f7, h7, f8, h8, f9, h9, f10, h10, rfl⟩ := h
  obtain ⟨g1, k1, g2, k2, g3, k3, g4, k4, g5, k5, g6, k6, g7, k7, g8, k8, g9, k9, g10, k10, rfl⟩ := h'
  obtain rfl := Except.ok.inj (h1.symm.trans k1)
  obtain rfl := Except.ok.inj (h2.symm.trans k2)
  obtain rfl := Except.ok.inj (h3.symm.trans k3)
  obtain rfl := Except.ok.inj (h4.symm.trans k4)
  obtain rfl := Except.ok.inj (h5.symm.trans k5)
  obtain rfl := Except.ok.inj (h6.symm.trans k6)
  obtain rfl := Except.ok.inj (h7.symm.trans k7)
  obtain rfl := Except.ok.inj (h9.symm.trans k9)
  obtain rfl := Except.ok.inj (h10.symm.trans k10)
  simp only [List.append_assoc, List.append_cancel_left_eq] at heq
  obtain ⟨htext, heq⟩ := encodeBytes_append_inj k8 h8 heq
  exact ⟨htext, List.append_cancel_left (List.append_cancel_left heq)⟩

/-- A transfer that was decoded is encoded again with the canonical text of its metadata. -/
theorem respelled_of_wire (h : t.Wire inflate networkId raw)
    (henc : t.encodeTransferBody crypto true clock = .ok raw') :
    ∃ text, (∀ rest, readMetadataText (raw ++ rest) = .ok (text, rest)) ∧
      Respelled inflate [text] raw raw' := by
  obtain ⟨hcanonical, text, hread, hwrite⟩ := h
  obtain ⟨-, text', htext', hwrite'⟩ := encodeTransferBody_eq_ok.1 henc
  obtain rfl := (canonicalBytes_eq_ok.1 htext').2
  refine ⟨text, fun rest => readMetadataText_write hcanonical hwrite, ?_, ?_⟩
  · intro hall
    obtain ⟨value, hvalue, rfl⟩ := hall text List.mem_cons_self
    obtain rfl := Except.ok.inj ((WireJson.decodeJsonField_label hvalue).symm.trans hread)
    exact Except.ok.inj (hwrite'.symm.trans hwrite)
  · intro s s' heq
    obtain ⟨rfl, heq⟩ := write_append_inj hwrite hwrite' heq
    refine ⟨?_, heq⟩
    intro text ht
    rw [List.mem_singleton.1 ht]
    exact ⟨t.metadata, WireJson.decodeJsonField_label hread, rfl⟩

/-- The same for the transfers of an object. -/
theorem respelled_of_writtenAll {ts : List Transfer}
    (h : ByteReader.WrittenAll (Wire inflate networkId) ts raw)
    (henc : ArchiveSegment.encodeTransfers crypto clock ts = .ok raw') :
    ∃ texts, (∀ rest, ByteReader.times readMetadataText ts.length (raw ++ rest) = .ok (texts, rest)) ∧
      Respelled inflate texts raw raw' := by
  rw [ArchiveSegment.encodeTransfers_eq_ok] at henc
  induction ts generalizing raw raw' with
  | nil =>
    obtain rfl : raw = [] := h
    obtain rfl : raw' = [] := henc
    exact ⟨[], fun rest => rfl, .refl []⟩
  | cons t ts ih =>
    obtain ⟨head, tail, hhead, htail, rfl⟩ := h
    obtain ⟨head', tail', hhead', htail', rfl⟩ := henc
    obtain ⟨text, hreadHead, hspelledHead⟩ := respelled_of_wire hhead hhead'
    obtain ⟨texts, hreadTail, hspelledTail⟩ := ih htail htail'
    refine ⟨text :: texts, ?_, hspelledHead.append hspelledTail⟩
    intro rest
    simp only [List.length_cons, ByteReader.times, ByteReader.bind_eq_ok, ByteReader.pure_eq_ok]
    exact ⟨text, tail ++ rest, by rw [List.append_assoc]; exact hreadHead _, texts, rest,
      hreadTail rest, rfl, rfl⟩

end Transfer

/-! ## The four objects -/

section Objects

variable {inflate : Bytes → Option Bytes} {node : Node} {crypto : Crypto} {clock : Int}
  {data data' : Bytes}

theorem Transfer.reencode_iff {t : Transfer} (hdecode : decodeTransfer inflate data = .ok t)
    (hencode : t.encodeTransfer crypto true clock = .ok data') :
    ∃ texts, metadataTexts data = .ok texts ∧ (data' = data ↔ CanonicalTexts inflate texts) := by
  obtain ⟨networkId, raw, hwire, hdata⟩ := decodeTransfer_eq_ok.1 hdecode
  obtain ⟨raw', hraw', hdata'⟩ := Check.bind_eq_ok.1 hencode
  rw [hwire.1.networkId_eq] at hdata'
  obtain ⟨text, hread, hspelled⟩ := respelled_of_wire hwire hraw'
  refine ⟨[text], decodeEnvelope_of_body (by decide) hdata ?_,
    hspelled.envelope_eq_iff hdata hdata'⟩
  have hread := hread []
  rw [List.append_nil] at hread
  exact ByteReader.bind_eq_ok.2 ⟨text, [], hread, ByteReader.pure_eq_ok.2 ⟨rfl, rfl⟩⟩

theorem BillV3.reencode_iff {bill : BillV3} (hdecode : decodeBill inflate data = .ok bill)
    (hencode : bill.encodeBill node clock = .ok data') :
    ∃ texts, metadataTexts data = .ok texts ∧ (data' = data ↔ CanonicalTexts inflate texts) := by
  obtain ⟨networkId, raw, ⟨hcanonical, head, ts, hhead, hts, rfl⟩, hdata⟩ := decodeBill_eq_ok.1 hdecode
  obtain ⟨_, -, hencode⟩ := Check.bind_eq_ok.1 hencode
  obtain ⟨_, -, hencode⟩ := Check.bind_eq_ok.1 hencode
  obtain ⟨_, hbody, hdata'⟩ := Check.bind_eq_ok.1 hencode
  rw [hcanonical.networkId_eq] at hdata'
  obtain ⟨-, -, head', ts', hhead', hts', rfl⟩ := encodeBillBody_eq_ok.1 hbody
  obtain rfl := Except.ok.inj (hhead.symm.trans hhead')
  obtain ⟨texts, hread, hspelled⟩ := Transfer.respelled_of_writtenAll hts hts'
  have hspelled := (Respelled.refl head).append hspelled
  refine ⟨texts, decodeEnvelope_of_body (by decide) hdata ?_,
    hspelled.envelope_eq_iff hdata hdata'⟩
  simp only [writeHead, Check.bind_eq_ok, Check.pure_eq_ok] at hhead
  obtain ⟨f1, h1, f2, h2, f3, h3, f4, h4, f5, h5, f6, h6, rfl⟩ := hhead
  simp only [ByteReader.bind_eq_ok, Reader.readHashHex_eq_ok, Reader.readUvarint_eq_ok,
    GenesisRef.decodeGenesisRefBody_eq_ok, CheckpointCore.decodeCheckpointCoreBody_eq_ok,
    ProofBundleRef.decodeProofBundleRefBody_eq_ok]
  have hread := hread []
  rw [List.append_nil] at hread
  exact ⟨_, _, ⟨hcanonical.tokenId, f1, h1, by simp only [List.append_assoc]⟩, _, _, ⟨f2, h2, rfl⟩, _, _,
    ⟨f3, ⟨hcanonical.genesisRef, h3⟩, rfl⟩, _, _, ⟨f4, ⟨hcanonical.checkpointCore, h4⟩, rfl⟩, _, _,
    ⟨f5, ⟨hcanonical.proofBundleRef, h5⟩, rfl⟩, _, _, ⟨f6, h6, rfl⟩, hread⟩

theorem ArchiveSegment.reencode_iff {segment : ArchiveSegment}
    (hdecode : decodeArchiveSegment inflate data = .ok segment)
    (hencode : segment.encodeArchiveSegment node clock = .ok data') :
    ∃ texts, metadataTexts data = .ok texts ∧ (data' = data ↔ CanonicalTexts inflate texts) := by
  obtain ⟨networkId, raw, ⟨hcanonical, hcount, head, ts, hash, hhead, hts, hhash, rfl⟩, hdata⟩ :=
    decodeArchiveSegment_eq_ok.1 hdecode
  obtain ⟨_, -, hencode⟩ := Check.bind_eq_ok.1 hencode
  obtain ⟨_, hbody, hdata'⟩ := Check.bind_eq_ok.1 hencode
  rw [hcanonical.networkId_eq] at hdata'
  obtain ⟨-, -, -, -, head', ts', hash', hhead', hts', hhash', rfl⟩ :=
    encodeArchiveSegmentBody_eq_ok.1 hbody
  obtain rfl := Except.ok.inj (hhead.symm.trans hhead')
  obtain rfl := Except.ok.inj (hhash.symm.trans hhash')
  obtain ⟨texts, hread, hspelled⟩ := Transfer.respelled_of_writtenAll hts hts'
  have hspelled := (Respelled.refl head).append (hspelled.append (.refl hash))
  rw [List.append_nil, List.nil_append] at hspelled
  refine ⟨texts, decodeEnvelope_of_body (by decide) hdata ?_,
    hspelled.envelope_eq_iff hdata hdata'⟩
  simp only [writeHead, Check.bind_eq_ok, Check.pure_eq_ok] at hhead
  obtain ⟨f1, h1, f2, h2, f3, h3, f4, h4, f5, h5, f6, h6, f7, h7, f8, h8, f9, h9, f10, h10, f11, h11,
    rfl⟩ := hhead
  simp only [ByteReader.bind_eq_ok, ByteReader.pure_eq_ok, Reader.readHashHex_eq_ok,
    Reader.readNullableHashHex_eq_ok, Reader.readUvarint_eq_ok,
    Reader.readAscii_eq_ok (by decide : 64 ≤ maxBoundedBytes), GenesisRef.decodeGenesisRefBody_eq_ok,
    BaseState.decodeBaseStateBody_eq_ok]
  rw [hcount] at h11
  exact ⟨_, _, ⟨hcanonical.tokenId, f1, h1, by simp only [List.append_assoc]⟩, _, _, ⟨f2, h2, rfl⟩, _, _,
    ⟨f3, h3, rfl⟩, _, _, ⟨f4, ⟨hcanonical.genesisRef, h4⟩, rfl⟩, _, _,
    ⟨f5, ⟨hcanonical.lastTransferHash, h5⟩, rfl⟩, _, _, ⟨f6, h6, rfl⟩, _, _, ⟨f7, h7, rfl⟩, _, _,
    ⟨hcanonical.previousSegmentHash, f8, h8, rfl⟩, _, _, ⟨hcanonical.previousCheckpointHash, f9, h9, rfl⟩,
    _, _, ⟨hcanonical.checkpointHash, f10, h10, rfl⟩, _, _, ⟨f11, h11, rfl⟩, texts, hash, hread hash, _,
    [], ⟨hcanonical.segmentHash, hash, hhash, (List.append_nil hash).symm⟩, rfl, rfl⟩

theorem ConflictProofV3.reencode_iff {proof : ConflictProofV3}
    (hdecode : decodeConflictProof inflate data = .ok proof)
    (hencode : proof.encodeConflictProof crypto true clock = .ok data') :
    ∃ texts, metadataTexts data = .ok texts ∧ (data' = data ↔ CanonicalTexts inflate texts) := by
  obtain ⟨networkId, raw, ⟨hcanonical, head, rawA, rawB, tail, hhead, hA, hB, htail, rfl⟩, hdata⟩ :=
    decodeConflictProof_eq_ok.1 hdecode
  obtain ⟨_, -, hencode⟩ := Check.bind_eq_ok.1 hencode
  obtain ⟨_, hbody, hdata'⟩ := Check.bind_eq_ok.1 hencode
  rw [hcanonical.networkId_eq] at hdata'
  obtain ⟨-, -, head', rawA', rawB', tail', hhead', hA', hB', htail', rfl⟩ :=
    encodeConflictProofBody_eq_ok.1 hbody
  obtain rfl := Except.ok.inj (hhead.symm.trans hhead')
  obtain rfl := Except.ok.inj (htail.symm.trans htail')
  obtain ⟨textA, hreadA, hspelledA⟩ := Transfer.respelled_of_wire hA hA'
  obtain ⟨textB, hreadB, hspelledB⟩ := Transfer.respelled_of_wire hB hB'
  have hspelled := (Respelled.refl head).append (hspelledA.append (hspelledB.append (.refl tail)))
  refine ⟨[textA, textB], decodeEnvelope_of_body (by decide) hdata ?_,
    hspelled.envelope_eq_iff hdata hdata'⟩
  simp only [writeHead, writeTail, Check.bind_eq_ok, Check.pure_eq_ok] at hhead htail
  obtain ⟨f1, h1, f2, h2, f3, h3, f4, h4, f5, h5, f6, h6, f7, h7, rfl⟩ := hhead
  obtain ⟨f8, h8, f9, h9, rfl⟩ := htail
  simp only [ByteReader.bind_eq_ok, ByteReader.pure_eq_ok, Reader.readHashHex_eq_ok,
    Reader.readUvarint_eq_ok, Reader.readAscii_eq_ok (by decide : 128 ≤ maxBoundedBytes)]
  exact ⟨_, _, ⟨hcanonical.tokenId, f1, h1, by simp only [List.append_assoc]⟩, _, _,
    ⟨hcanonical.previousHash, f2, h2, rfl⟩, _, _, ⟨f3, h3, rfl⟩, _, _, ⟨f4, h4, rfl⟩, _, _,
    ⟨hcanonical.spendKey, f5, h5, rfl⟩, _, _, ⟨hcanonical.transferHashA, f6, h6, rfl⟩, _, _,
    ⟨hcanonical.transferHashB, f7, h7, rfl⟩, textA, _, hreadA _, textB, _, hreadB _, _, _,
    ⟨f8, h8, rfl⟩, _, [], ⟨hcanonical.proofHash, f9, h9, (List.append_nil f9).symm⟩, rfl, rfl⟩

end Objects

/-- **Accepted bytes are canonical exactly if the metadata texts in them are.** For each of the four
    objects: where the bytes are accepted and the decoded object can be encoded, encoding it gives the
    same bytes if and only if every metadata text in them is the canonical text of its value. -/
theorem reencode_iff_canonicalTexts (inflate : Bytes → Option Bytes) (node : Node) (clock : Int)
    (data data' : Bytes) :
    (∀ t, Transfer.decodeTransfer inflate data = .ok t →
      t.encodeTransfer node.crypto true clock = .ok data' →
      ∃ texts, Transfer.metadataTexts data = .ok texts ∧
        (data' = data ↔ CanonicalTexts inflate texts)) ∧
    (∀ bill, BillV3.decodeBill inflate data = .ok bill → bill.encodeBill node clock = .ok data' →
      ∃ texts, BillV3.metadataTexts data = .ok texts ∧
        (data' = data ↔ CanonicalTexts inflate texts)) ∧
    (∀ segment, ArchiveSegment.decodeArchiveSegment inflate data = .ok segment →
      segment.encodeArchiveSegment node clock = .ok data' →
      ∃ texts, ArchiveSegment.metadataTexts data = .ok texts ∧
        (data' = data ↔ CanonicalTexts inflate texts)) ∧
    (∀ proof, ConflictProofV3.decodeConflictProof inflate data = .ok proof →
      proof.encodeConflictProof node.crypto true clock = .ok data' →
      ∃ texts, ConflictProofV3.metadataTexts data = .ok texts ∧
        (data' = data ↔ CanonicalTexts inflate texts)) := by
  refine ⟨?_, ?_, ?_, ?_⟩
  · intro t hdecode hencode
    exact Transfer.reencode_iff hdecode hencode
  · intro bill hdecode hencode
    exact BillV3.reencode_iff hdecode hencode
  · intro segment hdecode hencode
    exact ArchiveSegment.reencode_iff hdecode hencode
  · intro proof hdecode hencode
    exact ConflictProofV3.reencode_iff hdecode hencode

/-- The canonical bytes of the sample transfer hold canonical texts. -/
theorem reencode_iff_canonicalTexts_sampleSpend : ∃ clock data texts,
    Transfer.sampleSpend.encodeTransfer sampleCrypto true clock = .ok data ∧
      Transfer.metadataTexts data = .ok texts ∧ CanonicalTexts (fun _ => none) texts := by
  obtain ⟨clock, ⟨data, hdata⟩, -⟩ := exists_encode_samples
  have hdecode := decodeTransfer_encodeTransfer hdata (roundTrips_sampleSpend fun _ => none)
  obtain ⟨texts, htexts, hiff⟩ :=
    (reencode_iff_canonicalTexts (fun _ => none) sampleNode clock data data).1 _ hdecode hdata
  exact ⟨clock, data, texts, hdata, htexts, hiff.1 rfl⟩

/-- The empty object with a blank after it. -/
def blankedText : Bytes := [0x7b, 0x7d, 0x20]

theorem decodeJsonField_blankedText (inflate : Bytes → Option Bytes) (label : String) :
    WireJson.decodeJsonField inflate blankedText label = .ok (.obj []) := by
  have hbytes : blankedText = Text.utf8 "{} " := by decide
  rw [WireJson.decodeJsonField, hbytes, Text.utf8Decode_utf8]
  rfl

/-- **Two accepted byte strings for one transfer.** A blank after the metadata is accepted, and encoding
    the transfer again drops it. -/
theorem not_reencode : ∃ clock data data',
    Transfer.decodeTransfer (fun _ => none) data = .ok Transfer.sampleSpend ∧
      Transfer.sampleSpend.validateTransferShape sampleCrypto 1 true clock = .ok () ∧
      Transfer.sampleSpend.encodeTransfer sampleCrypto true clock = .ok data' ∧
      Transfer.decodeTransfer (fun _ => none) data' = .ok Transfer.sampleSpend ∧ data' ≠ data := by
  obtain ⟨clock, ⟨data', hdata'⟩, -⟩ := exists_encode_samples
  have hdecode' := decodeTransfer_encodeTransfer hdata' (roundTrips_sampleSpend fun _ => none)
  obtain ⟨raw', hraw', henvelope'⟩ := Check.bind_eq_ok.1 hdata'
  obtain ⟨hshape, text, htext, hwrite'⟩ := Transfer.encodeTransferBody_eq_ok.1 hraw'
  -- The same fields, with the blanked text in the place of the canonical one.
  obtain ⟨raw, hwrite⟩ : ∃ raw, Transfer.sampleSpend.write blankedText = .ok raw := by
    simp only [Transfer.write, Check.bind_eq_ok] at hwrite' ⊢
    obtain ⟨f1, h1, f2, h2, f3, h3, f4, h4, f5, h5, f6, h6, f7, h7, -, -, f9, h9, f10, h10, -⟩ := hwrite'
    exact ⟨_, f1, h1, f2, h2, f3, h3, f4, h4, f5, h5, f6, h6, f7, h7, _, rfl, f9, h9, f10, h10, rfl⟩
  obtain ⟨data, hdata⟩ := exists_envelope "IND3XFER" raw
  have hwire : Transfer.sampleSpend.Wire (fun _ => none) 1 raw :=
    ⟨canonical_sampleSpend, blankedText, decodeJsonField_blankedText _ _, hwrite⟩
  refine ⟨clock, data, data', Transfer.decodeTransfer_eq_ok.2 ⟨1, raw, hwire, hdata⟩,
    Transfer.validateTransferShape_eq_ok.2 hshape, hdata', hdecode', ?_⟩
  rintro rfl
  obtain ⟨-, rfl⟩ := encodeEnvelope_inj hdata henvelope'
  obtain ⟨rfl, -⟩ := Transfer.write_append_inj hwrite hwrite' (rfl : raw ++ [] = raw ++ [])
  have hblank : (Json.obj []).bytes = blankedText := (canonicalBytes_eq_ok.1 htext).2
  exact absurd hblank (by decide)
