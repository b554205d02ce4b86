import InternationalDollar.BinaryReader
import InternationalDollar.BillV3
import InternationalDollar.ConflictProofV3
import InternationalDollar.WireJson

set_option autoImplicit false

/-! # Decoding wire objects (`protocol_v3`, `archive_segment_v3`, `proof_bundle_v3`)

The decoder of each object, beside what its encoder writes once the checks have passed (`write`). The
spec lemma of a decoder says that it returns an object and a rest exactly if the object has the values
that are not on the wire (`Canonical`) and the input is what `write` gives, followed by the rest.

The one field that is not read back so is the metadata of a transfer: its bytes are any JSON text, and
`write` takes this text as an argument. -/

open BinaryV3

section Envelope

variable {α : Type}

/-- `_read_envelope`. -/
def readEnvelope (magic label : String) : Reader Int := do
  let actual ← Reader.read (Text.utf8 magic).length (labelled label "magic")
  ByteReader.require (actual = Text.utf8 magic) (.object ("invalid " ++ labelled label "magic"))
  let version ← Reader.readUvarint (labelled label "version")
  ByteReader.require (version = 3) (.object ("unsupported " ++ labelled label "version"))
  Reader.readUvarint (labelled label "network id")

/-- The reader of a whole object: the envelope, the body and no byte after it. -/
def readObject (magic label : String) (body : Int → Reader α) : Reader α := do
  let networkId ← readEnvelope magic label
  let value ← body networkId
  ByteReader.requireEof (.binary "trailing bytes")
  pure value

/-- `_decode_envelope`: an exception of the reader is raised again under the label. -/
def decodeEnvelope (magic label : String) (body : Int → Reader α) (data : Bytes) : Except String α :=
  match readObject magic label body data with
  | .ok value => .ok value.1
  | .error (.binary _) => .error ("malformed " ++ label)
  | .error (.object message) => .error message

/-- The body of an object after its envelope. -/
theorem readEnvelope_eq_ok {magic label : String} (hmagic : (Text.utf8 magic).length = 8)
    {networkId : Int} {input rest : Bytes} :
    readEnvelope magic label input = .ok (networkId, rest) ↔
      encodeEnvelope magic networkId rest = .ok input := by
  have hle : (Text.utf8 magic).length ≤ maxBoundedBytes := by
    rw [hmagic]
    decide
  simp only [readEnvelope, ByteReader.bind_eq_ok, ByteReader.require_eq_ok,
    Reader.read_eq_ok hle, Reader.readUvarint_eq_ok, encodeEnvelope, Check.bind_eq_ok,
    Check.pure_eq_ok]
  constructor
  · rintro ⟨_, _, ⟨-, rfl⟩, _, _, ⟨rfl, rfl⟩, _, _, ⟨version, hversion, rfl⟩, _, _, ⟨rfl, rfl⟩, network,
      hnetwork, rfl⟩
    exact ⟨version, hversion, network, hnetwork, by simp only [List.append_assoc]⟩
  · rintro ⟨version, hversion, network, hnetwork, rfl⟩
    exact ⟨_, _, ⟨rfl, by simp only [List.append_assoc]⟩, (), _, ⟨rfl, rfl⟩, 3, _,
      ⟨version, hversion, rfl⟩, (), _, ⟨rfl, rfl⟩, network, hnetwork, rfl⟩

variable (magic label : String) (body : Int → Reader α) (W : Int → α → Bytes → Prop)

/-- An object is read exactly from its body in an envelope, with nothing after it. -/
theorem readObject_eq_ok (hmagic : (Text.utf8 magic).length = 8)
    (hbody : ∀ networkId input a rest, body networkId input = .ok (a, rest) ↔
      ∃ raw, W networkId a raw ∧ input = raw ++ rest)
    {data rest : Bytes} {a : α} :
    readObject magic label body data = .ok (a, rest) ↔
      rest = [] ∧ ∃ networkId raw, W networkId a raw ∧ encodeEnvelope magic networkId raw = .ok data := by
  simp only [readObject, ByteReader.bind_eq_ok, readEnvelope_eq_ok hmagic, hbody,
    ByteReader.requireEof_eq_ok, ByteReader.pure_eq_ok]
  constructor
  · rintro ⟨networkId, _, henvelope, value, _, ⟨raw, hraw, rfl⟩, _, _, ⟨rfl, rfl⟩, rfl, rfl⟩
    rw [List.append_nil] at henvelope
    exact ⟨rfl, networkId, raw, hraw, henvelope⟩
  · rintro ⟨rfl, networkId, raw, hraw, henvelope⟩
    exact ⟨networkId, raw, henvelope, a, [], ⟨raw, hraw, (List.append_nil raw).symm⟩, (), [],
      ⟨rfl, rfl⟩, rfl, rfl⟩

theorem decodeEnvelope_eq_ok (hmagic : (Text.utf8 magic).length = 8)
    (hbody : ∀ networkId input a rest, body networkId input = .ok (a, rest) ↔
      ∃ raw, W networkId a raw ∧ input = raw ++ rest)
    {data : Bytes} {a : α} :
    decodeEnvelope magic label body data = .ok a ↔
      ∃ networkId raw, W networkId a raw ∧ encodeEnvelope magic networkId raw = .ok data := by
  unfold decodeEnvelope
  constructor
  · intro h
    split at h
    · next value hvalue =>
      obtain rfl := Except.ok.inj h
      exact ((readObject_eq_ok magic label body W hmagic hbody).1 hvalue).2
    · exact nomatch h
    · exact nomatch h
  · intro h
    rw [(readObject_eq_ok magic label body W hmagic hbody).2 ⟨rfl, h⟩]

end Envelope

/-! ## Genesis references -/

namespace GenesisRef

/-- The fields that `encode_genesis_ref_body` writes. -/
def write (ref : GenesisRef) : Except String Bytes := do
  let genesisHash ← encodeHashHex ref.genesisHash
  let manifestHash ← encodeHashHexNullable ref.manifestHash
  let issuerKeyId ← encodeHashHexNullable ref.issuerKeyId
  let issueIndex ← encodeUvarint ref.issueIndex
  let issuedAt ← encodeUvarint ref.issuedAt
  pure (genesisHash ++ (manifestHash ++ (issuerKeyId ++ (issueIndex ++ issuedAt))))

/-- A reference as it is decoded inside an envelope of a network. -/
structure Canonical (ref : GenesisRef) (networkId : Int) : Prop where
  type_eq : ref.type = genesisRefType
  version_eq : ref.version = 3
  networkId_eq : ref.networkId = networkId
  genesisHash : IsHashText ref.genesisHash
  manifestHash : ∀ text ∈ ref.manifestHash, IsHashText text
  issuerKeyId : ∀ text ∈ ref.issuerKeyId, IsHashText text

/-- `decode_genesis_ref_body`. -/
def decodeGenesisRefBody (networkId : Int) : Reader GenesisRef := do
  let genesisHash ← Reader.readHashHex "GenesisRefV3 genesis hash"
  let manifestHash ← Reader.readNullableHashHex "GenesisRefV3 manifest hash"
  let issuerKeyId ← Reader.readNullableHashHex "GenesisRefV3 issuer key id"
  let issueIndex ← Reader.readUvarint "GenesisRefV3 issue index"
  let issuedAt ← Reader.readUvarint "GenesisRefV3 issued_at"
  pure { type := genesisRefType, version := 3, networkId, genesisHash, manifestHash, issuerKeyId,
         issueIndex, issuedAt }

/-- `decode_genesis_ref`. -/
def decodeGenesisRef (data : Bytes) : Except String GenesisRef :=
  decodeEnvelope "IND3GENR" "GenesisRefV3" decodeGenesisRefBody data

theorem encodeGenesisRefBody_eq_ok {policy : NodePolicy} {ref : GenesisRef} {raw : Bytes} :
    encodeGenesisRefBody policy ref = .ok raw ↔
      validateGenesisRef policy ref ref.networkId = .ok () ∧ ref.write = .ok raw :=
  Check.check_bind_eq_ok

theorem decodeGenesisRefBody_eq_ok {networkId : Int} {ref : GenesisRef} {input rest : Bytes} :
    decodeGenesisRefBody networkId input = .ok (ref, rest) ↔
      ∃ raw, (ref.Canonical networkId ∧ ref.write = .ok raw) ∧ input = raw ++ rest := by
  simp only [decodeGenesisRefBody, write, ByteReader.bind_eq_ok, ByteReader.pure_eq_ok,
    Reader.readHashHex_eq_ok, Reader.readNullableHashHex_eq_ok, Reader.readUvarint_eq_ok,
    Check.bind_eq_ok, Check.pure_eq_ok]
  constructor
  · rintro ⟨_, _, ⟨htext, f1, h1, rfl⟩, _, _, ⟨hmanifest, f2, h2, rfl⟩, _, _, ⟨hissuer, f3, h3, rfl⟩,
      _, _, ⟨f4, h4, rfl⟩, _, _, ⟨f5, h5, rfl⟩, rfl, rfl⟩
    exact ⟨_, ⟨⟨rfl, rfl, rfl, htext, hmanifest, hissuer⟩, f1, h1, f2, h2, f3, h3, f4, h4, f5, h5,
      rfl⟩, by simp only [List.append_assoc]⟩
  · rintro ⟨_, ⟨⟨htype, hversion, hnetwork, htext, hmanifest, hissuer⟩, f1, h1, f2, h2, f3, h3, f4, h4,
      f5, h5, rfl⟩, rfl⟩
    refine ⟨_, _, ⟨htext, f1, h1, List.append_assoc ..⟩, _, _, ⟨hmanifest, f2, h2,
      List.append_assoc ..⟩, _, _, ⟨hissuer, f3, h3, List.append_assoc ..⟩, _, _,
      ⟨f4, h4, List.append_assoc ..⟩, _, _, ⟨f5, h5, rfl⟩, ?_, rfl⟩
    rw [← htype, ← hversion, ← hnetwork]

theorem decodeGenesisRef_eq_ok {data : Bytes} {ref : GenesisRef} :
    decodeGenesisRef data = .ok ref ↔ ∃ networkId raw,
      (ref.Canonical networkId ∧ ref.write = .ok raw) ∧
        encodeEnvelope "IND3GENR" networkId raw = .ok data :=
  decodeEnvelope_eq_ok "IND3GENR" "GenesisRefV3" decodeGenesisRefBody
    (fun networkId ref raw => ref.Canonical networkId ∧ ref.write = .ok raw) (by decide)
    (fun _ _ _ _ => decodeGenesisRefBody_eq_ok)

end GenesisRef

/-! ## Base states -/

namespace BaseState

/-- The fields that `encode_base_state_body` writes. -/
def write (state : BaseState) : Except String Bytes := do
  let sequence ← encodeUvarint state.sequence
  let owner ← encodeAscii state.ownerAddress 128
  let lastTransferHash ← encodeHashHex state.lastTransferHash
  let timestamp ← encodeUvarint state.lastTransferTimestamp
  let day ← encodeUvarint state.lastTransferDay
  let dayCount ← encodeUvarint state.transfersInLastDay
  let displayId ← encodeAscii state.displayId 64
  let value ← encodeUvarint state.value
  pure (sequence ++ (owner ++ (lastTransferHash ++ (timestamp ++ (day ++ (dayCount ++
    (displayId ++ value)))))))

/-- `decode_base_state_body`. -/
def decodeBaseStateBody : Reader BaseState := do
  let sequence ← Reader.readUvarint "V3 base sequence"
  let ownerAddress ← Reader.readAscii "V3 base owner address" 128
  let lastTransferHash ← Reader.readHashHex "V3 base last transfer hash"
  let lastTransferTimestamp ← Reader.readUvarint "V3 base timestamp"
  let lastTransferDay ← Reader.readUvarint "V3 base day"
  let transfersInLastDay ← Reader.readUvarint "V3 base day count"
  let displayId ← Reader.readAscii "V3 base display id" 64
  let value ← Reader.readUvarint "V3 base value"
  pure { sequence, ownerAddress, lastTransferHash, lastTransferTimestamp, lastTransferDay,
         transfersInLastDay, displayId, value }

theorem encodeBaseStateBody_eq_ok {crypto : Crypto} {state : BaseState} {raw : Bytes} :
    encodeBaseStateBody crypto state = .ok raw ↔
      validateBaseState crypto state = .ok () ∧ state.write = .ok raw :=
  Check.check_bind_eq_ok

theorem decodeBaseStateBody_eq_ok {state : BaseState} {input rest : Bytes} :
    decodeBaseStateBody input = .ok (state, rest) ↔
      ∃ raw, (IsHashText state.lastTransferHash ∧ state.write = .ok raw) ∧ input = raw ++ rest := by
  simp only [decodeBaseStateBody, write, ByteReader.bind_eq_ok, ByteReader.pure_eq_ok,
    Reader.readHashHex_eq_ok, Reader.readAscii_eq_ok (by decide : 128 ≤ maxBoundedBytes),
    Reader.readAscii_eq_ok (by decide : 64 ≤ maxBoundedBytes), Reader.readUvarint_eq_ok,
    Check.bind_eq_ok, Check.pure_eq_ok]
  constructor
  · rintro ⟨_, _, ⟨f1, h1, rfl⟩, _, _, ⟨f2, h2, rfl⟩, _, _, ⟨htext, f3, h3, rfl⟩, _, _, ⟨f4, h4, rfl⟩, _,
      _, ⟨f5, h5, rfl⟩, _, _, ⟨f6, h6, rfl⟩, _, _, ⟨f7, h7, rfl⟩, _, _, ⟨f8, h8, rfl⟩, rfl, rfl⟩
    exact ⟨_, ⟨htext, f1, h1, f2, h2, f3, h3, f4, h4, f5, h5, f6, h6, f7, h7, f8, h8, rfl⟩,
      by simp only [List.append_assoc]⟩
  · rintro ⟨_, ⟨htext, f1, h1, f2, h2, f3, h3, f4, h4, f5, h5, f6, h6, f7, h7, f8, h8, rfl⟩, rfl⟩
    exact ⟨_, _, ⟨f1, h1, List.append_assoc ..⟩, _, _, ⟨f2, h2, List.append_assoc ..⟩, _, _,
      ⟨htext, f3, h3, List.append_assoc ..⟩, _, _, ⟨f4, h4, List.append_assoc ..⟩, _, _,
      ⟨f5, h5, List.append_assoc ..⟩, _, _, ⟨f6, h6, List.append_assoc ..⟩, _, _,
      ⟨f7, h7, List.append_assoc ..⟩, _, _, ⟨f8, h8, rfl⟩, rfl, rfl⟩

end BaseState

/-! ## Checkpoint cores -/

namespace CheckpointCore

/-- The fields that `encode_checkpoint_core_body` writes. -/
def write (core : CheckpointCore) : Except String Bytes := do
  let tokenId ← encodeHashHex core.tokenId
  let genesisHash ← encodeHashHex core.genesisHash
  let sequence ← encodeUvarint core.sequence
  let owner ← encodeAscii core.ownerAddress 128
  let value ← encodeUvarint core.value
  let displayId ← encodeAscii core.displayId 64
  let displayIdHash ← encodeHashHex core.displayIdHash
  let lastTransferHash ← encodeHashHex core.lastTransferHash
  let timestamp ← encodeUvarint core.lastTransferTimestamp
  let day ← encodeUvarint core.lastTransferDay
  let dayCount ← encodeUvarint core.transfersInLastDay
  let previous ← encodeHashHexNullable core.previousCheckpointHash
  let checkpointHash ← encodeHashHex core.checkpointHash
  pure (tokenId ++ (genesisHash ++ (sequence ++ (owner ++ (value ++ (displayId ++
    (displayIdHash ++ (lastTransferHash ++ (timestamp ++ (day ++ (dayCount ++ (previous ++
      checkpointHash))))))))))))

/-- A core as it is decoded inside an envelope of a network. -/
structure Canonical (core : CheckpointCore) (networkId : Int) : Prop where
  type_eq : core.type = checkpointCoreType
  version_eq : core.version = 3
  networkId_eq : core.networkId = networkId
  tokenId : IsHashText core.tokenId
  genesisHash : IsHashText core.genesisHash
  displayIdHash : IsHashText core.displayIdHash
  lastTransferHash : IsHashText core.lastTransferHash
  previousCheckpointHash : ∀ text ∈ core.previousCheckpointHash, IsHashText text
  checkpointHash : IsHashText core.checkpointHash

/-- `decode_checkpoint_core_body`. -/
def decodeCheckpointCoreBody (networkId : Int) : Reader CheckpointCore := do
  let tokenId ← Reader.readHashHex "CheckpointCoreV3 token id"
  let genesisHash ← Reader.readHashHex "CheckpointCoreV3 genesis hash"
  let sequence ← Reader.readUvarint "CheckpointCoreV3 sequence"
  let ownerAddress ← Reader.readAscii "CheckpointCoreV3 owner address" 128
  let value ← Reader.readUvarint "CheckpointCoreV3 value"
  let displayId ← Reader.readAscii "CheckpointCoreV3 display id" 64
  let displayIdHash ← Reader.readHashHex "CheckpointCoreV3 display id hash"
  let lastTransferHash ← Reader.readHashHex "CheckpointCoreV3 last transfer hash"
  let lastTransferTimestamp ← Reader.readUvarint "CheckpointCoreV3 timestamp"
  let lastTransferDay ← Reader.readUvarint "CheckpointCoreV3 day"
  let transfersInLastDay ← Reader.readUvarint "CheckpointCoreV3 day count"
  let previousCheckpointHash ←
    Reader.readNullableHashHex "CheckpointCoreV3 previous checkpoint hash"
  let checkpointHash ← Reader.readHashHex "CheckpointCoreV3 checkpoint hash"
  pure { type := checkpointCoreType, version := 3, networkId, tokenId, genesisHash, sequence,
         ownerAddress, value, displayId, displayIdHash, lastTransferHash, lastTransferTimestamp,
         lastTransferDay, transfersInLastDay, previousCheckpointHash, checkpointHash }

/-- `decode_checkpoint_core`. -/
def decodeCheckpointCore (data : Bytes) : Except String CheckpointCore :=
  decodeEnvelope "IND3CPNT" "CheckpointCoreV3" decodeCheckpointCoreBody data

theorem encodeCheckpointCoreBody_eq_ok {crypto : Crypto} {core : CheckpointCore} {raw : Bytes} :
    encodeCheckpointCoreBody crypto core = .ok raw ↔
      validateCheckpointCore crypto core core.networkId = .ok () ∧ core.write = .ok raw :=
  Check.check_bind_eq_ok

theorem decodeCheckpointCoreBody_eq_ok {networkId : Int} {core : CheckpointCore} {input rest : Bytes} :
    decodeCheckpointCoreBody networkId input = .ok (core, rest) ↔
      ∃ raw, (core.Canonical networkId ∧ core.write = .ok raw) ∧ input = raw ++ rest := by
  simp only [decodeCheckpointCoreBody, write, ByteReader.bind_eq_ok, ByteReader.pure_eq_ok,
    Reader.readHashHex_eq_ok, Reader.readNullableHashHex_eq_ok,
    Reader.readAscii_eq_ok (by decide : 128 ≤ maxBoundedBytes),
    Reader.readAscii_eq_ok (by decide : 64 ≤ maxBoundedBytes), Reader.readUvarint_eq_ok,
    Check.bind_eq_ok, Check.pure_eq_ok]
  constructor
  · rintro ⟨_, _, ⟨t1, f1, h1, rfl⟩, _, _, ⟨t2, f2, h2, rfl⟩, _, _, ⟨f3, h3, rfl⟩, _, _, ⟨f4, h4, rfl⟩, _,
      _, ⟨f5, h5, rfl⟩, _, _, ⟨f6, h6, rfl⟩, _, _, ⟨t7, f7, h7, rfl⟩, _, _, ⟨t8, f8, h8, rfl⟩, _, _,
      ⟨f9, h9, rfl⟩, _, _, ⟨f10, h10, rfl⟩, _, _, ⟨f11, h11, rfl⟩, _, _, ⟨t12, f12, h12, rfl⟩, _, _,
      ⟨t13, f13, h13, rfl⟩, rfl, rfl⟩
    exact ⟨_, ⟨⟨rfl, rfl, rfl, t1, t2, t7, t8, t12, t13⟩, f1, h1, f2, h2, f3, h3, f4, h4, f5, h5, f6, h6,
      f7, h7, f8, h8, f9, h9, f10, h10, f11, h11, f12, h12, f13, h13, rfl⟩,
      by simp only [List.append_assoc]⟩
  · rintro ⟨_, ⟨⟨htype, hversion, hnetwork, t1, t2, t7, t8, t12, t13⟩, f1, h1, f2, h2, f3, h3, f4, h4, f5,
      h5, f6, h6, f7, h7, f8, h8, f9, h9, f10, h10, f11, h11, f12, h12, f13, h13, rfl⟩, rfl⟩
    refine ⟨_, _, ⟨t1, f1, h1, List.append_assoc ..⟩, _, _, ⟨t2, f2, h2, List.append_assoc ..⟩, _, _,
      ⟨f3, h3, List.append_assoc ..⟩, _, _, ⟨f4, h4, List.append_assoc ..⟩, _, _,
      ⟨f5, h5, List.append_assoc ..⟩, _, _, ⟨f6, h6, List.append_assoc ..⟩, _, _,
      ⟨t7, f7, h7, List.append_assoc ..⟩, _, _, ⟨t8, f8, h8, List.append_assoc ..⟩, _, _,
      ⟨f9, h9, List.append_assoc ..⟩, _, _, ⟨f10, h10, List.append_assoc ..⟩, _, _,
      ⟨f11, h11, List.append_assoc ..⟩, _, _, ⟨t12, f12, h12, List.append_assoc ..⟩, _, _,
      ⟨t13, f13, h13, rfl⟩, ?_, rfl⟩
    rw [← htype, ← hversion, ← hnetwork]

theorem decodeCheckpointCore_eq_ok {data : Bytes} {core : CheckpointCore} :
    decodeCheckpointCore data = .ok core ↔ ∃ networkId raw,
      (core.Canonical networkId ∧ core.write = .ok raw) ∧
        encodeEnvelope "IND3CPNT" networkId raw = .ok data :=
  decodeEnvelope_eq_ok "IND3CPNT" "CheckpointCoreV3" decodeCheckpointCoreBody
    (fun networkId core raw => core.Canonical networkId ∧ core.write = .ok raw) (by decide)
    (fun _ _ _ _ => decodeCheckpointCoreBody_eq_ok)

end CheckpointCore

/-! ## Transfers -/

/-- `_decode_public_key`. -/
def readPublicKey (label : String) : Reader String := do
  let raw ← Reader.read 32 label
  pure (encodePublicKey raw)

/-- `_decode_signature_hex`. -/
def readSignatureHex (label : String) : Reader String := do
  let raw ← Reader.read 64 label
  pure (Text.hex raw)

/-- The text of a public key as the decoder returns it. -/
def IsKeyText (text : String) : Prop :=
  ∃ raw : Bytes, raw.length = 32 ∧ encodePublicKey raw = text

/-- The text of a signature as the decoder returns it: 128 lower-case digits. -/
def IsSignatureText (text : String) : Prop :=
  ∃ raw : Bytes, raw.length = 64 ∧ Text.hex raw = text

instance (text : String) : Decidable (IsKeyText text) :=
  decidable_of_iff (∃ raw ∈ (decodePublicKey text).toOption, encodePublicKey raw = text) <| by
    constructor
    · rintro ⟨raw, hraw, htext⟩
      cases hkey : decodePublicKey text with
      | error e =>
        rw [hkey] at hraw
        exact nomatch hraw
      | ok key => 
        rw [hkey] at hraw
        obtain rfl : key = raw := Option.some.inj hraw
        exact ⟨key, length_of_decodePublicKey hkey, htext⟩
    · rintro ⟨raw, hlen, rfl⟩
      exact ⟨raw, by rw [decodePublicKey_encodePublicKey hlen]; rfl, rfl⟩

instance (text : String) : Decidable (IsSignatureText text) :=
  decidable_of_iff (∃ raw ∈ Text.fromhex text, raw.length = 64 ∧ Text.hex raw = text) <| by
    constructor
    · rintro ⟨raw, -, h⟩
      exact ⟨raw, h⟩
    · rintro ⟨raw, hlen, rfl⟩
      exact ⟨raw, Text.fromhex_hex raw, hlen, rfl⟩

theorem readPublicKey_eq_ok {label text : String} {input rest : Bytes} :
    readPublicKey label input = .ok (text, rest) ↔
      IsKeyText text ∧ ∃ raw, decodePublicKey text = .ok raw ∧ input = raw ++ rest := by
  simp only [readPublicKey, ByteReader.bind_eq_ok, ByteReader.pure_eq_ok,
    Reader.read_eq_ok (by decide : 32 ≤ maxBoundedBytes)]
  constructor
  · rintro ⟨raw, _, ⟨hlen, rfl⟩, rfl, rfl⟩
    exact ⟨⟨raw, hlen, rfl⟩, raw, decodePublicKey_encodePublicKey hlen, rfl⟩
  · rintro ⟨⟨raw, hlen, rfl⟩, key, hkey, rfl⟩
    obtain rfl := Except.ok.inj (hkey.symm.trans (decodePublicKey_encodePublicKey hlen))
    exact ⟨key, rest, ⟨hlen, rfl⟩, rfl, rfl⟩

theorem signatureBytes_eq_ok {signature : String} {raw : Bytes} :
    Transfer.signatureBytes signature = .ok raw ↔ Text.fromhex signature = some raw ∧ raw.length = 64 := by
  simp only [Transfer.signatureBytes, Check.bind_eq_ok, Check.ofOption_eq_ok, Check.require_eq_ok,
    Check.pure_eq_ok]
  constructor
  · rintro ⟨_, hraw, _, hlen, rfl⟩
    exact ⟨hraw, hlen⟩
  · rintro ⟨hraw, hlen⟩
    exact ⟨raw, hraw, (), hlen, rfl⟩

theorem readSignatureHex_eq_ok {label text : String} {input rest : Bytes} :
    readSignatureHex label input = .ok (text, rest) ↔
      IsSignatureText text ∧
        ∃ raw, Transfer.signatureBytes text = .ok raw ∧ input = raw ++ rest := by
  simp only [readSignatureHex, ByteReader.bind_eq_ok, ByteReader.pure_eq_ok, signatureBytes_eq_ok,
    Reader.read_eq_ok (by decide : 64 ≤ maxBoundedBytes)]
  constructor
  · rintro ⟨raw, _, ⟨hlen, rfl⟩, rfl, rfl⟩
    exact ⟨⟨raw, hlen, rfl⟩, raw, ⟨Text.fromhex_hex raw, hlen⟩, rfl⟩
  · rintro ⟨⟨raw, hlen, rfl⟩, signature, ⟨hsignature, -⟩, rfl⟩
    obtain rfl := Option.some.inj (hsignature.symm.trans (Text.fromhex_hex raw))
    exact ⟨signature, rest, ⟨hlen, rfl⟩, rfl, rfl⟩

namespace Transfer

/-- The fields that `encode_transfer_body` writes, with a text of the metadata. -/
def write (t : Transfer) (metadataText : Bytes) : Except String Bytes := do
  let tokenId ← encodeHashHex t.tokenId
  let sequence ← encodeUvarint t.sequence
  let previousHash ← encodeHashHex t.previousHash
  let sender ← encodeAscii t.senderAddress 128
  let publicKey ← decodePublicKey t.senderPublicKey
  let recipient ← encodeAscii t.recipientAddress 128
  let timestamp ← encodeUvarint t.timestamp
  let metadata ← encodeBytes metadataText maxTransferMetadataBytes
  let algorithm ← encodeUvarint t.signatureAlgorithm
  let signature ← signatureBytes t.signature
  pure (tokenId ++ (sequence ++ (previousHash ++ (sender ++ (publicKey ++ (recipient ++
    (timestamp ++ (metadata ++ (algorithm ++ signature)))))))))

/-- A transfer as it is decoded inside an envelope of a network. -/
structure Canonical (t : Transfer) (networkId : Int) : Prop where
  type_eq : t.type = transferType
  version_eq : t.version = 3
  networkId_eq : t.networkId = networkId
  tokenId : IsHashText t.tokenId
  previousHash : IsHashText t.previousHash
  senderPublicKey : IsKeyText t.senderPublicKey
  signature : IsSignatureText t.signature

/-- `decode_transfer_body` with a signature. -/
def decodeTransferBody (inflate : Bytes → Option Bytes) (networkId : Int) : Reader Transfer := do
  let tokenId ← Reader.readHashHex "TransferV3 token id"
  let sequence ← Reader.readUvarint "TransferV3 sequence"
  let previousHash ← Reader.readHashHex "TransferV3 previous hash"
  let senderAddress ← Reader.readAscii "TransferV3 sender address" 128
  let senderPublicKey ← readPublicKey "TransferV3 sender public key"
  let recipientAddress ← Reader.readAscii "TransferV3 recipient address" 128
  let timestamp ← Reader.readUvarint "TransferV3 timestamp"
  let metadataText ← Reader.readBytes "TransferV3 metadata" maxTransferMetadataBytes
  let metadata ← ByteReader.lift
    ((WireJson.decodeJsonField inflate metadataText "TransferV3 metadata").mapError WireError.object)
  let signatureAlgorithm ← Reader.readUvarint "TransferV3 signature algorithm"
  let signature ← readSignatureHex "TransferV3 signature"
  pure { type := transferType, version := 3, networkId, signatureAlgorithm, tokenId, sequence,
         previousHash, senderAddress, senderPublicKey, recipientAddress, timestamp, metadata,
         signature }

/-- `decode_transfer`. -/
def decodeTransfer (inflate : Bytes → Option Bytes) (data : Bytes) : Except String Transfer :=
  decodeEnvelope "IND3XFER" "TransferV3" (decodeTransferBody inflate) data

/-- A written form of a transfer: its metadata is in it as some text that is read as this metadata. -/
def Wire (inflate : Bytes → Option Bytes) (networkId : Int) (t : Transfer) (raw : Bytes) : Prop :=
  t.Canonical networkId ∧ ∃ metadataText,
    WireJson.decodeJsonField inflate metadataText "TransferV3 metadata" = .ok t.metadata ∧
      t.write metadataText = .ok raw

theorem mapError_eq_ok {ε ε' α : Type} {x : Except ε α} {f : ε → ε'} {a : α} :
    x.mapError f = .ok a ↔ x = .ok a := by
  cases x with
  | error e => exact iff_of_false (fun h => nomatch h) (fun h => nomatch h)
  | ok b => exact ⟨fun h => congrArg _ (Except.ok.inj h), fun h => congrArg _ (Except.ok.inj h)⟩

theorem encodeTransferBody_eq_ok {crypto : Crypto} {t : Transfer} {clock : Int} {raw : Bytes} :
    encodeTransferBody crypto t true clock = .ok raw ↔
      t.WellShaped crypto t.networkId true clock ∧
        ∃ metadataText, canonicalBytes t.metadata = .ok metadataText ∧
          t.write metadataText = .ok raw := by
  simp only [encodeTransferBody, encodeUnsignedFields, write, Check.bind_eq_ok, requireMin_eq_ok,
    validateTransferShape_eq_ok, if_true, Check.orRaise_eq_ok, Check.pure_eq_ok]
  constructor
  · rintro ⟨_, -, _, hshape, _, ⟨f1, h1, f2, h2, f3, h3, f4, h4, f5, h5, f6, h6, f7, h7, text, htext, f8,
      h8, f9, h9, rfl⟩, f10, h10, rfl⟩
    exact ⟨hshape, text, htext, f1, h1, f2, h2, f3, h3, f4, h4, f5, h5, f6, h6, f7, h7, f8, h8, f9, h9,
      f10, h10, by simp only [List.append_assoc]⟩
  · rintro ⟨hshape, text, htext, f1, h1, f2, h2, f3, h3, f4, h4, f5, h5, f6, h6, f7, h7, f8, h8, f9, h9,
      f10, h10, rfl⟩
    exact ⟨(), hshape.networkId_nonneg, (), hshape, _, ⟨f1, h1, f2, h2, f3, h3, f4, h4, f5, h5, f6, h6,
      f7, h7, text, htext, f8, h8, f9, h9, rfl⟩, f10, h10, by simp only [List.append_assoc]⟩

theorem decodeTransferBody_eq_ok {inflate : Bytes → Option Bytes} {networkId : Int} {t : Transfer}
    {input rest : Bytes} :
    decodeTransferBody inflate networkId input = .ok (t, rest) ↔
      ∃ raw, t.Wire inflate networkId raw ∧ input = raw ++ rest := by
  simp only [decodeTransferBody, Wire, write, ByteReader.bind_eq_ok, ByteReader.pure_eq_ok,
    Reader.readHashHex_eq_ok, Reader.readAscii_eq_ok (by decide : 128 ≤ maxBoundedBytes),
    Reader.readBytes_eq_ok (by decide : maxTransferMetadataBytes ≤ maxBoundedBytes),
    Reader.readUvarint_eq_ok, readPublicKey_eq_ok, readSignatureHex_eq_ok, ByteReader.lift_eq_ok,
    mapError_eq_ok, Check.bind_eq_ok, Check.pure_eq_ok]
  constructor
  · rintro ⟨_, _, ⟨t1, f1, h1, rfl⟩, _, _, ⟨f2, h2, rfl⟩, _, _, ⟨t3, f3, h3, rfl⟩, _, _, ⟨f4, h4, rfl⟩, _,
      _, ⟨t5, f5, h5, rfl⟩, _, _, ⟨f6, h6, rfl⟩, _, _, ⟨f7, h7, rfl⟩, text, _, ⟨f8, h8, rfl⟩, _, _,
      ⟨hmetadata, rfl⟩, _, _, ⟨f9, h9, rfl⟩, _, _, ⟨t10, f10, h10, rfl⟩, rfl, rfl⟩
    exact ⟨_, ⟨⟨rfl, rfl, rfl, t1, t3, t5, t10⟩, text, hmetadata, f1, h1, f2, h2, f3, h3, f4, h4, f5, h5,
      f6, h6, f7, h7, f8, h8, f9, h9, f10, h10, rfl⟩, by simp only [List.append_assoc]⟩
  · rintro ⟨_, ⟨⟨htype, hversion, hnetwork, t1, t3, t5, t10⟩, text, hmetadata, f1, h1, f2, h2, f3, h3, f4,
      h4, f5, h5, f6, h6, f7, h7, f8, h8, f9, h9, f10, h10, rfl⟩, rfl⟩
    refine ⟨_, _, ⟨t1, f1, h1, List.append_assoc ..⟩, _, _, ⟨f2, h2, List.append_assoc ..⟩, _, _,
      ⟨t3, f3, h3, List.append_assoc ..⟩, _, _, ⟨f4, h4, List.append_assoc ..⟩, _, _,
      ⟨t5, f5, h5, List.append_assoc ..⟩, _, _, ⟨f6, h6, List.append_assoc ..⟩, _, _,
      ⟨f7, h7, List.append_assoc ..⟩, text, _, ⟨f8, h8, List.append_assoc ..⟩, _, _,
      ⟨hmetadata, rfl⟩, _, _, ⟨f9, h9, List.append_assoc ..⟩, _, _, ⟨t10, f10, h10, rfl⟩, ?_, rfl⟩
    rw [← htype, ← hversion, ← hnetwork]

theorem decodeTransfer_eq_ok {inflate : Bytes → Option Bytes} {data : Bytes} {t : Transfer} :
    decodeTransfer inflate data = .ok t ↔ ∃ networkId raw,
      t.Wire inflate networkId raw ∧ encodeEnvelope "IND3XFER" networkId raw = .ok data :=
  decodeEnvelope_eq_ok "IND3XFER" "TransferV3" (decodeTransferBody inflate)
    (Wire inflate) (by decide)
    (fun _ _ _ _ => decodeTransferBody_eq_ok)

end Transfer

theorem ArchiveSegment.encodeTransfers_eq_ok {crypto : Crypto} {clock : Int} {ts : List Transfer}
    {raw : Bytes} :
    encodeTransfers crypto clock ts = .ok raw ↔
      ByteReader.WrittenAll (fun t raw => Transfer.encodeTransferBody crypto t true clock = .ok raw)
        ts raw := by
  induction ts generalizing raw with
  | nil => exact ⟨fun h => (Except.ok.inj h).symm, fun h => congrArg _ (Eq.symm h)⟩
  | cons t ts ih =>
    simp only [encodeTransfers, ByteReader.WrittenAll, Check.bind_eq_ok, Check.pure_eq_ok, ih]
    constructor
    · rintro ⟨head, hhead, tail, htail, rfl⟩
      exact ⟨head, tail, hhead, htail, rfl⟩
    · rintro ⟨head, tail, hhead, htail, rfl⟩
      exact ⟨head, hhead, tail, htail, rfl⟩

/-! ## Bills -/

namespace ProofBundleRef

/-- A reference as it is decoded inside an envelope of a network. -/
structure Canonical (ref : ProofBundleRef) (networkId : Int) : Prop where
  type_eq : ref.type = proofBundleRefType
  version_eq : ref.version = 3
  networkId_eq : ref.networkId = networkId
  signedRootHash : IsHashText ref.signedRootHash
  proofBundleHash : IsHashText ref.proofBundleHash

/-- `decode_proof_bundle_ref_body`. -/
def decodeProofBundleRefBody (networkId : Int) : Reader ProofBundleRef := do
  let logId ← Reader.readAscii "proof bundle reference log id" 128
  let signedRootHash ← Reader.readHashHex "proof bundle reference root hash"
  let treeSize ← Reader.readUvarint "proof bundle reference tree size"
  let proofBundleAlgorithm ← Reader.readUvarint "proof bundle reference algorithm"
  let proofBundleHash ← Reader.readHashHex "proof bundle reference hash"
  pure { type := proofBundleRefType, version := 3, networkId, logId, signedRootHash, treeSize,
         proofBundleAlgorithm, proofBundleHash }

theorem decodeProofBundleRefBody_eq_ok {networkId : Int} {ref : ProofBundleRef} {input rest : Bytes} :
    decodeProofBundleRefBody networkId input = .ok (ref, rest) ↔
      ∃ raw, (ref.Canonical networkId ∧ ref.encodeProofBundleRefBody = .ok raw) ∧
        input = raw ++ rest := by
  simp only [decodeProofBundleRefBody, encodeProofBundleRefBody, ByteReader.bind_eq_ok,
    ByteReader.pure_eq_ok, Reader.readHashHex_eq_ok, Reader.readUvarint_eq_ok,
    Reader.readAscii_eq_ok (by decide : 128 ≤ maxBoundedBytes), Check.bind_eq_ok, Check.pure_eq_ok]
  constructor
  · rintro ⟨_, _, ⟨f1, h1, rfl⟩, _, _, ⟨t2, f2, h2, rfl⟩, _, _, ⟨f3, h3, rfl⟩, _, _, ⟨f4, h4, rfl⟩, _, _,
      ⟨t5, f5, h5, rfl⟩, rfl, rfl⟩
    exact ⟨_, ⟨⟨rfl, rfl, rfl, t2, t5⟩, f1, h1, f2, h2, f3, h3, f4, h4, f5, h5, rfl⟩,
      by simp only [List.append_assoc]⟩
  · rintro ⟨_, ⟨⟨htype, hversion, hnetwork, t2, t5⟩, f1, h1, f2, h2, f3, h3, f4, h4, f5, h5, rfl⟩, rfl⟩
    refine ⟨_, _, ⟨f1, h1, List.append_assoc ..⟩, _, _, ⟨t2, f2, h2, List.append_assoc ..⟩, _, _,
      ⟨f3, h3, List.append_assoc ..⟩, _, _, ⟨f4, h4, List.append_assoc ..⟩, _, _, ⟨t5, f5, h5, rfl⟩, ?_,
      rfl⟩
    rw [← htype, ← hversion, ← hnetwork]

end ProofBundleRef

namespace BillV3

/-- What `encode_bill` writes before the transfers. -/
def writeHead (bill : BillV3) : Except String Bytes := do
  let tokenId ← encodeHashHex bill.tokenId
  let value ← encodeUvarint bill.value
  let genesisRef ← bill.genesisRef.write
  let core ← bill.checkpointCore.write
  let bundleRef ← bill.proofBundleRef.encodeProofBundleRefBody
  let count ← encodeUvarint bill.recentTransfers.length
  pure (tokenId ++ (value ++ (genesisRef ++ (core ++ (bundleRef ++ count)))))

/-- A bill as it is decoded from an envelope of a network, but for its transfers. -/
structure Canonical (bill : BillV3) (networkId : Int) : Prop where
  type_eq : bill.type = billType
  version_eq : bill.version = 3
  networkId_eq : bill.networkId = networkId
  tokenId : IsHashText bill.tokenId
  genesisRef : bill.genesisRef.Canonical networkId
  checkpointCore : bill.checkpointCore.Canonical networkId
  proofBundleRef : bill.proofBundleRef.Canonical networkId

/-- The body of `decode_bill`. -/
def decodeBillBody (inflate : Bytes → Option Bytes) (networkId : Int) : Reader BillV3 := do
  let tokenId ← Reader.readHashHex "BillV3 token id"
  let value ← Reader.readUvarint "BillV3 value"
  let genesisRef ← GenesisRef.decodeGenesisRefBody networkId
  let checkpointCore ← CheckpointCore.decodeCheckpointCoreBody networkId
  let proofBundleRef ← ProofBundleRef.decodeProofBundleRefBody networkId
  let count ← Reader.readUvarint "BillV3 recent transfer count"
  let recentTransfers ← ByteReader.times (Transfer.decodeTransferBody inflate networkId) count.toNat
  pure { type := billType, version := 3, networkId, tokenId, value, genesisRef, checkpointCore,
         proofBundleRef, recentTransfers }

/-- `decode_bill`. -/
def decodeBill (inflate : Bytes → Option Bytes) (data : Bytes) : Except String BillV3 :=
  decodeEnvelope "IND3BILL" "BillV3" (decodeBillBody inflate) data

/-- A written form of a bill. -/
def Wire (inflate : Bytes → Option Bytes) (networkId : Int) (bill : BillV3) (raw : Bytes) : Prop :=
  bill.Canonical networkId ∧ ∃ head transfers, bill.writeHead = .ok head ∧
    ByteReader.WrittenAll (Transfer.Wire inflate networkId) bill.recentTransfers transfers ∧
      raw = head ++ transfers

theorem encodeBillBody_eq_ok {node : Node} {bill : BillV3} {clock : Int} {raw : Bytes} :
    encodeBillBody node bill clock = .ok raw ↔
      bill.genesisRef.validateGenesisRef node.toNodePolicy bill.genesisRef.networkId = .ok () ∧
      bill.checkpointCore.validateCheckpointCore node.crypto bill.checkpointCore.networkId = .ok () ∧
      ∃ head transfers, bill.writeHead = .ok head ∧
        ArchiveSegment.encodeTransfers node.crypto clock bill.recentTransfers = .ok transfers ∧
          raw = head ++ transfers := by
  simp only [encodeBillBody, writeHead, Check.bind_eq_ok, GenesisRef.encodeGenesisRefBody_eq_ok,
    CheckpointCore.encodeCheckpointCoreBody_eq_ok, Check.pure_eq_ok]
  constructor
  · rintro ⟨count, hcount, ts, hts, f1, h1, f2, h2, f3, ⟨hgenesis, h3⟩, f4, ⟨hcore, h4⟩, f5, h5, rfl⟩
    exact ⟨hgenesis, hcore, _, ts, ⟨f1, h1, f2, h2, f3, h3, f4, h4, f5, h5, count, hcount, rfl⟩, hts,
      by simp only [List.append_assoc]⟩
  · rintro ⟨hgenesis, hcore, _, ts, ⟨f1, h1, f2, h2, f3, h3, f4, h4, f5, h5, count, hcount, rfl⟩, hts,
      rfl⟩
    exact ⟨count, hcount, ts, hts, f1, h1, f2, h2, f3, ⟨hgenesis, h3⟩, f4, ⟨hcore, h4⟩, f5, h5,
      by simp only [List.append_assoc]⟩

theorem decodeBillBody_eq_ok {inflate : Bytes → Option Bytes} {networkId : Int} {bill : BillV3}
    {input rest : Bytes} :
    decodeBillBody inflate networkId input = .ok (bill, rest) ↔
      ∃ raw, bill.Wire inflate networkId raw ∧ input = raw ++ rest := by
  simp only [decodeBillBody, Wire, writeHead, ByteReader.bind_eq_ok, ByteReader.pure_eq_ok,
    Reader.readHashHex_eq_ok, Reader.readUvarint_eq_ok, GenesisRef.decodeGenesisRefBody_eq_ok,
    CheckpointCore.decodeCheckpointCoreBody_eq_ok, ProofBundleRef.decodeProofBundleRefBody_eq_ok,
    ByteReader.times_eq_ok (fun _ _ _ => Transfer.decodeTransferBody_eq_ok), Check.bind_eq_ok,
    Check.pure_eq_ok]
  constructor
  · rintro ⟨_, _, ⟨t1, f1, h1, rfl⟩, _, _, ⟨f2, h2, rfl⟩, _, _, ⟨f3, ⟨t3, h3⟩, rfl⟩, _, _,
      ⟨f4, ⟨t4, h4⟩, rfl⟩, _, _, ⟨f5, ⟨t5, h5⟩, rfl⟩, count, _, ⟨f6, h6, rfl⟩, ts, _,
      ⟨hlen, raw, hts, rfl⟩, rfl, rfl⟩
    have hcount : (ts.length : Int) = count := by
      rw [hlen]
      exact Int.toNat_of_nonneg (encodeUvarint_eq_ok.1 h6).1.1
    exact ⟨_, ⟨⟨rfl, rfl, rfl, t1, t3, t4, t5⟩, _, raw,
      ⟨f1, h1, f2, h2, f3, h3, f4, h4, f5, h5, f6, by rw [hcount]; exact h6, rfl⟩, hts, rfl⟩,
      by simp only [List.append_assoc]⟩
  · rintro ⟨_, ⟨⟨htype, hversion, hnetwork, t1, t3, t4, t5⟩, _, raw,
      ⟨f1, h1, f2, h2, f3, h3, f4, h4, f5, h5, f6, h6, rfl⟩, hts, rfl⟩, rfl⟩
    refine ⟨_, _, ⟨t1, f1, h1, by simp only [List.append_assoc]⟩, _, _, ⟨f2, h2, rfl⟩, _, _,
      ⟨f3, ⟨t3, h3⟩, rfl⟩, _, _, ⟨f4, ⟨t4, h4⟩, rfl⟩, _, _, ⟨f5, ⟨t5, h5⟩, rfl⟩, _, _, ⟨f6, h6, rfl⟩, _,
      _, ⟨(Int.toNat_natCast _).symm, raw, hts, rfl⟩, ?_, rfl⟩
    rw [← htype, ← hversion, ← hnetwork]

theorem decodeBill_eq_ok {inflate : Bytes → Option Bytes} {data : Bytes} {bill : BillV3} :
    decodeBill inflate data = .ok bill ↔ ∃ networkId raw,
      bill.Wire inflate networkId raw ∧ encodeEnvelope "IND3BILL" networkId raw = .ok data :=
  decodeEnvelope_eq_ok "IND3BILL" "BillV3" (decodeBillBody inflate)
    (Wire inflate) (by decide)
    (fun _ _ _ _ => decodeBillBody_eq_ok)

end BillV3

/-! ## Archive segments -/

namespace ArchiveSegment

/-- What `encode_archive_segment_body` writes before the transfers. -/
def writeHead (segment : ArchiveSegment) : Except String Bytes := do
  let tokenId ← encodeHashHex segment.tokenId
  let value ← encodeUvarint segment.value
  let displayId ← encodeAscii segment.displayId 64
  let genesisRef ← segment.genesisRef.write
  let baseState ← segment.baseState.write
  let startSequence ← encodeUvarint segment.startSequence
  let endSequence ← encodeUvarint segment.endSequence
  let previousSegment ← encodeHashHexNullable segment.previousSegmentHash
  let previousCheckpoint ← encodeHashHexNullable segment.previousCheckpointHash
  let checkpointHash ← encodeHashHex segment.checkpointHash
  let count ← encodeUvarint segment.transferCount
  pure (tokenId ++ (value ++ (displayId ++ (genesisRef ++ (baseState ++ (startSequence ++
    (endSequence ++ (previousSegment ++ (previousCheckpoint ++ (checkpointHash ++ count))))))))))

/-- A segment as it is decoded from an envelope of a network, but for its transfers. -/
structure Canonical (segment : ArchiveSegment) (networkId : Int) : Prop where
  type_eq : segment.type = archiveSegmentType
  version_eq : segment.version = 3
  networkId_eq : segment.networkId = networkId
  tokenId : IsHashText segment.tokenId
  genesisRef : segment.genesisRef.Canonical networkId
  lastTransferHash : IsHashText segment.baseState.lastTransferHash
  previousSegmentHash : ∀ text ∈ segment.previousSegmentHash, IsHashText text
  previousCheckpointHash : ∀ text ∈ segment.previousCheckpointHash, IsHashText text
  checkpointHash : IsHashText segment.checkpointHash
  segmentHash : IsHashText segment.segmentHash

/-- `decode_archive_segment_body`. -/
def decodeArchiveSegmentBody (inflate : Bytes → Option Bytes) (networkId : Int) :
    Reader ArchiveSegment := do
  let tokenId ← Reader.readHashHex "archive segment token id"
  let value ← Reader.readUvarint "archive segment value"
  let displayId ← Reader.readAscii "archive segment display id" 64
  let genesisRef ← GenesisRef.decodeGenesisRefBody networkId
  let baseState ← BaseState.decodeBaseStateBody
  let startSequence ← Reader.readUvarint "archive segment start sequence"
  let endSequence ← Reader.readUvarint "archive segment end sequence"
  let previousSegmentHash ← Reader.readNullableHashHex "previous archive segment hash"
  let previousCheckpointHash ← Reader.readNullableHashHex "previous checkpoint hash"
  let checkpointHash ← Reader.readHashHex "archive segment checkpoint hash"
  let count ← Reader.readUvarint "archive segment transfer count"
  let transfers ← ByteReader.times (Transfer.decodeTransferBody inflate networkId) count.toNat
  let segmentHash ← Reader.readHashHex "archive segment hash"
  pure { type := archiveSegmentType, version := 3, networkId, tokenId, value, displayId, genesisRef,
         baseState, startSequence, endSequence, previousSegmentHash, previousCheckpointHash,
         checkpointHash, transferCount := transfers.length, transfers, segmentHash }

/-- `decode_archive_segment`, which raises the exceptions of the reader as they are. -/
def decodeArchiveSegment (inflate : Bytes → Option Bytes) (data : Bytes) :
    Except String ArchiveSegment :=
  match readObject "IND3ARCH" "archive segment" (decodeArchiveSegmentBody inflate) data with
  | .ok segment => .ok segment.1
  | .error (.binary message) => .error message
  | .error (.object message) => .error message

/-- A written form of a segment. -/
def Wire (inflate : Bytes → Option Bytes) (networkId : Int) (segment : ArchiveSegment) (raw : Bytes) :
    Prop :=
  segment.Canonical networkId ∧ segment.transferCount = segment.transfers.length ∧
    ∃ head transfers hash, segment.writeHead = .ok head ∧
      ByteReader.WrittenAll (Transfer.Wire inflate networkId) segment.transfers transfers ∧
        encodeHashHex segment.segmentHash = .ok hash ∧ raw = head ++ (transfers ++ hash)

theorem encodeArchiveSegmentBody_eq_ok {node : Node} {segment : ArchiveSegment} {clock : Int}
    {raw : Bytes} :
    encodeArchiveSegmentBody node segment clock = .ok raw ↔
      0 ≤ segment.networkId ∧ segment.transferCount = segment.transfers.length ∧
      segment.genesisRef.validateGenesisRef node.toNodePolicy segment.genesisRef.networkId = .ok () ∧
      segment.baseState.validateBaseState node.crypto = .ok () ∧
      ∃ head transfers hash, segment.writeHead = .ok head ∧
        encodeTransfers node.crypto clock segment.transfers = .ok transfers ∧
          encodeHashHex segment.segmentHash = .ok hash ∧ raw = head ++ (transfers ++ hash) := by
  simp only [encodeArchiveSegmentBody, writeHead, Check.bind_eq_ok, requireMin_eq_ok,
    Check.require_eq_ok, GenesisRef.encodeGenesisRefBody_eq_ok, BaseState.encodeBaseStateBody_eq_ok,
    Check.pure_eq_ok]
  constructor
  · rintro ⟨_, hnetwork, _, hcount, f1, h1, f2, h2, f3, h3, f4, ⟨hgenesis, h4⟩, f5, ⟨hbase, h5⟩, f6, h6,
      f7, h7, f8, h8, f9, h9, f10, h10, f11, h11, ts, hts, hash, hhash, rfl⟩
    exact ⟨hnetwork, hcount, hgenesis, hbase, _, ts, hash, ⟨f1, h1, f2, h2, f3, h3, f4, h4, f5, h5, f6, h6,
      f7, h7, f8, h8, f9, h9, f10, h10, f11, h11, rfl⟩, hts, hhash, by simp only [List.append_assoc]⟩
  · rintro ⟨hnetwork, hcount, hgenesis, hbase, _, ts, hash, ⟨f1, h1, f2, h2, f3, h3, f4, h4, f5, h5, f6,
      h6, f7, h7, f8, h8, f9, h9, f10, h10, f11, h11, rfl⟩, hts, hhash, rfl⟩
    exact ⟨(), hnetwork, (), hcount, f1, h1, f2, h2, f3, h3, f4, ⟨hgenesis, h4⟩, f5, ⟨hbase, h5⟩, f6, h6,
      f7, h7, f8, h8, f9, h9, f10, h10, f11, h11, ts, hts, hash, hhash,
      by simp only [List.append_assoc]⟩

theorem decodeArchiveSegmentBody_eq_ok {inflate : Bytes → Option Bytes} {networkId : Int}
    {segment : ArchiveSegment} {input rest : Bytes} :
    decodeArchiveSegmentBody inflate networkId input = .ok (segment, rest) ↔
      ∃ raw, segment.Wire inflate networkId raw ∧ input = raw ++ rest := by
  simp only [decodeArchiveSegmentBody, Wire, writeHead, ByteReader.bind_eq_ok, ByteReader.pure_eq_ok,
    Reader.readHashHex_eq_ok, Reader.readNullableHashHex_eq_ok, Reader.readUvarint_eq_ok,
    Reader.readAscii_eq_ok (by decide : 64 ≤ maxBoundedBytes), GenesisRef.decodeGenesisRefBody_eq_ok,
    BaseState.decodeBaseStateBody_eq_ok,
    ByteReader.times_eq_ok (fun _ _ _ => Transfer.decodeTransferBody_eq_ok), Check.bind_eq_ok,
    Check.pure_eq_ok]
  constructor
  · rintro ⟨_, _, ⟨t1, f1, h1, rfl⟩, _, _, ⟨f2, h2, rfl⟩, _, _, ⟨f3, h3, rfl⟩, _, _, ⟨f4, ⟨t4, h4⟩, rfl⟩,
      _, _, ⟨f5, ⟨t5, h5⟩, rfl⟩, _, _, ⟨f6, h6, rfl⟩, _, _, ⟨f7, h7, rfl⟩, _, _, ⟨t8, f8, h8, rfl⟩, _, _,
      ⟨t9, f9, h9, rfl⟩, _, _, ⟨t10, f10, h10, rfl⟩, count, _, ⟨f11, h11, rfl⟩, ts, _,
      ⟨hlen, raw, hts, rfl⟩, _, _, ⟨t12, hash, hhash, rfl⟩, rfl, rfl⟩
    have hcount : (ts.length : Int) = count := by
      rw [hlen]
      exact Int.toNat_of_nonneg (encodeUvarint_eq_ok.1 h11).1.1
    exact ⟨_, ⟨⟨rfl, rfl, rfl, t1, t4, t5, t8, t9, t10, t12⟩, rfl, _, raw, hash,
      ⟨f1, h1, f2, h2, f3, h3, f4, h4, f5, h5, f6, h6, f7, h7, f8, h8, f9, h9, f10, h10, f11,
        by rw [hcount]; exact h11, rfl⟩, hts, hhash, rfl⟩, by simp only [List.append_assoc]⟩
  · rintro ⟨_, ⟨⟨htype, hversion, hnetwork, t1, t4, t5, t8, t9, t10, t12⟩, hcount, _, raw, hash,
      ⟨f1, h1, f2, h2, f3, h3, f4, h4, f5, h5, f6, h6, f7, h7, f8, h8, f9, h9, f10, h10, f11, h11, rfl⟩,
      hts, hhash, rfl⟩, rfl⟩
    refine ⟨_, _, ⟨t1, f1, h1, by simp only [List.append_assoc]⟩, _, _, ⟨f2, h2, rfl⟩, _, _,
      ⟨f3, h3, rfl⟩, _, _, ⟨f4, ⟨t4, h4⟩, rfl⟩, _, _, ⟨f5, ⟨t5, h5⟩, rfl⟩, _, _, ⟨f6, h6, rfl⟩, _, _,
      ⟨f7, h7, rfl⟩, _, _, ⟨t8, f8, h8, rfl⟩, _, _, ⟨t9, f9, h9, rfl⟩, _, _, ⟨t10, f10, h10, rfl⟩, _, _,
      ⟨f11, h11, rfl⟩, segment.transfers, _, ⟨?_, raw, hts, rfl⟩, _, _, ⟨t12, hash, hhash, rfl⟩, ?_, rfl⟩
    · rw [hcount]
      exact (Int.toNat_natCast _).symm
    · rw [← htype, ← hversion, ← hnetwork, ← hcount]

theorem decodeArchiveSegment_eq_ok {inflate : Bytes → Option Bytes} {data : Bytes}
    {segment : ArchiveSegment} :
    decodeArchiveSegment inflate data = .ok segment ↔ ∃ networkId raw,
      segment.Wire inflate networkId raw ∧ encodeEnvelope "IND3ARCH" networkId raw = .ok data := by
  have hread : ∀ rest, readObject "IND3ARCH" "archive segment" (decodeArchiveSegmentBody inflate) data
      = .ok (segment, rest) ↔ rest = [] ∧ ∃ networkId raw, segment.Wire inflate networkId raw ∧
        encodeEnvelope "IND3ARCH" networkId raw = .ok data :=
    fun _ => readObject_eq_ok "IND3ARCH" "archive segment" (decodeArchiveSegmentBody inflate)
      (Wire inflate) (by decide) (fun _ _ _ _ => decodeArchiveSegmentBody_eq_ok)
  unfold decodeArchiveSegment
  constructor
  · intro h
    split at h
    · next value hvalue =>
      obtain rfl := Except.ok.inj h
      exact ((hread value.2).1 hvalue).2
    · exact nomatch h
    · exact nomatch h
  · intro h
    rw [(hread []).2 ⟨rfl, h⟩]

end ArchiveSegment

/-! ## Conflict proofs -/

namespace ConflictProofV3

/-- What `encode_conflict_proof_body` writes before the two transfers. -/
def writeHead (proof : ConflictProofV3) : Except String Bytes := do
  let tokenId ← encodeHashHex proof.tokenId
  let previousHash ← encodeHashHex proof.previousHash
  let sequence ← encodeUvarint proof.sequence
  let sender ← encodeAscii proof.senderAddress 128
  let spendKey ← encodeHashHex proof.spendKey
  let hashA ← encodeHashHex proof.transferHashA
  let hashB ← encodeHashHex proof.transferHashB
  pure (tokenId ++ (previousHash ++ (sequence ++ (sender ++ (spendKey ++ (hashA ++ hashB))))))

/-- What `encode_conflict_proof_body` writes after the two transfers. -/
def writeTail (proof : ConflictProofV3) : Except String Bytes := do
  let detectedAt ← encodeUvarint proof.detectedAt
  let hash ← encodeHashHex proof.proofHash
  pure (detectedAt ++ hash)

/-- A proof as it is decoded from an envelope of a network, but for its transfers. -/
structure Canonical (proof : ConflictProofV3) (networkId : Int) : Prop where
  type_eq : proof.type = conflictProofType
  version_eq : proof.version = 3
  networkId_eq : proof.networkId = networkId
  tokenId : IsHashText proof.tokenId
  previousHash : IsHashText proof.previousHash
  spendKey : IsHashText proof.spendKey
  transferHashA : IsHashText proof.transferHashA
  transferHashB : IsHashText proof.transferHashB
  proofHash : IsHashText proof.proofHash

/-- `decode_conflict_proof_body`. -/
def decodeConflictProofBody (inflate : Bytes → Option Bytes) (networkId : Int) :
    Reader ConflictProofV3 := do
  let tokenId ← Reader.readHashHex "ConflictProofV3 token id"
  let previousHash ← Reader.readHashHex "ConflictProofV3 previous hash"
  let sequence ← Reader.readUvarint "ConflictProofV3 sequence"
  let senderAddress ← Reader.readAscii "ConflictProofV3 sender address" 128
  let spendKey ← Reader.readHashHex "ConflictProofV3 spend key"
  let transferHashA ← Reader.readHashHex "ConflictProofV3 transfer hash a"
  let transferHashB ← Reader.readHashHex "ConflictProofV3 transfer hash b"
  let transferA ← Transfer.decodeTransferBody inflate networkId
  let transferB ← Transfer.decodeTransferBody inflate networkId
  let detectedAt ← Reader.readUvarint "ConflictProofV3 detected_at"
  let proofHash ← Reader.readHashHex "ConflictProofV3 proof hash"
  pure { type := conflictProofType, version := 3, networkId, tokenId, previousHash, sequence,
         senderAddress, spendKey, transferHashA, transferHashB, transferA, transferB, detectedAt,
         proofHash }

/-- `decode_conflict_proof`. -/
def decodeConflictProof (inflate : Bytes → Option Bytes) (data : Bytes) :
    Except String ConflictProofV3 :=
  decodeEnvelope "IND3CFLP" "ConflictProofV3" (decodeConflictProofBody inflate) data

/-- A written form of a proof. -/
def Wire (inflate : Bytes → Option Bytes) (networkId : Int) (proof : ConflictProofV3) (raw : Bytes) :
    Prop :=
  proof.Canonical networkId ∧ ∃ head transferA transferB tail, proof.writeHead = .ok head ∧
    proof.transferA.Wire inflate networkId transferA ∧
      proof.transferB.Wire inflate networkId transferB ∧ proof.writeTail = .ok tail ∧
        raw = head ++ (transferA ++ (transferB ++ tail))

theorem encodeConflictProofBody_eq_ok {crypto : Crypto} {proof : ConflictProofV3} {clock : Int}
    {raw : Bytes} :
    encodeConflictProofBody crypto proof true clock = .ok raw ↔
      0 ≤ proof.networkId ∧ IsHex32 proof.proofHash ∧
      ∃ head transferA transferB tail, proof.writeHead = .ok head ∧
        proof.transferA.encodeTransferBody crypto true clock = .ok transferA ∧
          proof.transferB.encodeTransferBody crypto true clock = .ok transferB ∧
            proof.writeTail = .ok tail ∧ raw = head ++ (transferA ++ (transferB ++ tail)) := by
  simp only [encodeConflictProofBody, writeHead, writeTail, Check.bind_eq_ok, requireMin_eq_ok, if_true,
    hex32_eq_ok, Check.pure_eq_ok]
  constructor
  · rintro ⟨_, hnetwork, _, ⟨hhex, rfl⟩, f1, h1, f2, h2, f3, h3, f4, h4, f5, h5, f6, h6, f7, h7, fa, ha,
      fb, hb, f8, h8, f9, h9, rfl⟩
    exact ⟨hnetwork, hhex, _, fa, fb, _, ⟨f1, h1, f2, h2, f3, h3, f4, h4, f5, h5, f6, h6, f7, h7, rfl⟩, ha,
      hb, ⟨f8, h8, f9, h9, rfl⟩, by simp only [List.append_assoc]⟩
  · rintro ⟨hnetwork, hhex, _, fa, fb, _, ⟨f1, h1, f2, h2, f3, h3, f4, h4, f5, h5, f6, h6, f7, h7, rfl⟩,
      ha, hb, ⟨f8, h8, f9, h9, rfl⟩, rfl⟩
    exact ⟨(), hnetwork, _, ⟨hhex, rfl⟩, f1, h1, f2, h2, f3, h3, f4, h4, f5, h5, f6, h6, f7, h7, fa, ha,
      fb, hb, f8, h8, f9, h9, by simp only [List.append_assoc]⟩

theorem decodeConflictProofBody_eq_ok {inflate : Bytes → Option Bytes} {networkId : Int}
    {proof : ConflictProofV3} {input rest : Bytes} :
    decodeConflictProofBody inflate networkId input = .ok (proof, rest) ↔
      ∃ raw, proof.Wire inflate networkId raw ∧ input = raw ++ rest := by
  simp only [decodeConflictProofBody, Wire, writeHead, writeTail, ByteReader.bind_eq_ok,
    ByteReader.pure_eq_ok, Reader.readHashHex_eq_ok, Reader.readUvarint_eq_ok,
    Reader.readAscii_eq_ok (by decide : 128 ≤ maxBoundedBytes), Transfer.decodeTransferBody_eq_ok,
    Check.bind_eq_ok, Check.pure_eq_ok]
  constructor
  · rintro ⟨_, _, ⟨t1, f1, h1, rfl⟩, _, _, ⟨t2, f2, h2, rfl⟩, _, _, ⟨f3, h3, rfl⟩, _, _, ⟨f4, h4, rfl⟩, _,
      _, ⟨t5, f5, h5, rfl⟩, _, _, ⟨t6, f6, h6, rfl⟩, _, _, ⟨t7, f7, h7, rfl⟩, _, _, ⟨fa, ha, rfl⟩, _, _,
      ⟨fb, hb, rfl⟩, _, _, ⟨f8, h8, rfl⟩, _, _, ⟨t9, f9, h9, rfl⟩, rfl, rfl⟩
    exact ⟨_, ⟨⟨rfl, rfl, rfl, t1, t2, t5, t6, t7, t9⟩, _, fa, fb, _,
      ⟨f1, h1, f2, h2, f3, h3, f4, h4, f5, h5, f6, h6, f7, h7, rfl⟩, ha, hb, ⟨f8, h8, f9, h9, rfl⟩, rfl⟩,
      by simp only [List.append_assoc]⟩
  · rintro ⟨_, ⟨⟨htype, hversion, hnetwork, t1, t2, t5, t6, t7, t9⟩, _, fa, fb, _,
      ⟨f1, h1, f2, h2, f3, h3, f4, h4, f5, h5, f6, h6, f7, h7, rfl⟩, ha, hb, ⟨f8, h8, f9, h9, rfl⟩, rfl⟩,
      rfl⟩
    refine ⟨_, _, ⟨t1, f1, h1, by simp only [List.append_assoc]⟩, _, _, ⟨t2, f2, h2, rfl⟩, _, _,
      ⟨f3, h3, rfl⟩, _, _, ⟨f4, h4, rfl⟩, _, _, ⟨t5, f5, h5, rfl⟩, _, _, ⟨t6, f6, h6, rfl⟩, _, _,
      ⟨t7, f7, h7, rfl⟩, _, _, ⟨fa, ha, rfl⟩, _, _, ⟨fb, hb, rfl⟩, _, _, ⟨f8, h8, rfl⟩, _, _,
      ⟨t9, f9, h9, rfl⟩, ?_, rfl⟩
    rw [← htype, ← hversion, ← hnetwork]

theorem decodeConflictProof_eq_ok {inflate : Bytes → Option Bytes} {data : Bytes}
    {proof : ConflictProofV3} :
    decodeConflictProof inflate data = .ok proof ↔ ∃ networkId raw,
      proof.Wire inflate networkId raw ∧ encodeEnvelope "IND3CFLP" networkId raw = .ok data :=
  decodeEnvelope_eq_ok "IND3CFLP" "ConflictProofV3" (decodeConflictProofBody inflate)
    (Wire inflate) (by decide)
    (fun _ _ _ _ => decodeConflictProofBody_eq_ok)

end ConflictProofV3
