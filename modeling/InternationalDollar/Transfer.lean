import InternationalDollar.BinaryV3
import InternationalDollar.Keys

set_option autoImplicit false

/-! # Transfers (`protocol_v3`, TransferV3)

A transfer spends the state a bill is in: it names the hash that state carries, its sequence number
and its owner, and is signed by the owner. `transferHash` identifies the transfer,
`spendKeyForTransfer` the state it spends.

Functions that encode a transfer check its shape again, and with it that its timestamp is not too
far ahead of the machine's clock; they take the clock as an argument. -/

/-- A TransferV3. The metadata is any JSON object. -/
structure Transfer where
  type : String
  version : Int
  networkId : Int
  signatureAlgorithm : Int
  tokenId : String
  sequence : Int
  previousHash : String
  senderAddress : String
  senderPublicKey : String
  recipientAddress : String
  timestamp : Int
  metadata : Json
  signature : String
deriving DecidableEq

/-- `TRANSFER_TYPE`. -/
def transferType : String := "ind.transfer.v3"

namespace Transfer

/-- The transfer as a JSON object. -/
def toJson (t : Transfer) : Json :=
  .obj [("metadata", t.metadata), ("network_id", .int t.networkId),
    ("previous_hash", .str t.previousHash), ("recipient_address", .str t.recipientAddress),
    ("sender_address", .str t.senderAddress), ("sender_public_key", .str t.senderPublicKey),
    ("sequence", .int t.sequence), ("signature", .str t.signature),
    ("signature_algorithm", .int t.signatureAlgorithm), ("timestamp", .int t.timestamp),
    ("token_id", .str t.tokenId), ("type", .str t.type), ("version", .int t.version)]

/-- The JSON object determines the transfer. -/
theorem toJson_inj {t u : Transfer} (h : t.toJson = u.toJson) : t = u := by
  cases t
  cases u
  simp only [toJson, Json.obj.injEq, List.cons.injEq, Prod.mk.injEq, Json.str.injEq,
    Json.int.injEq, true_and, and_true] at h
  simp only [mk.injEq]
  tauto

/-- What a transfer spends, as a JSON object. -/
def spendKeyMaterial (tokenId previousHash senderAddress : String) (sequence : Int) : Json :=
  .obj [("previous_hash", .str previousHash), ("sender_address", .str senderAddress),
    ("sequence", .int sequence), ("token_id", .str tokenId)]

/-- `spend_key_for_transfer`. -/
def spendKeyForTransfer (crypto : Crypto) (t : Transfer) : Except String String :=
  sha3Json crypto (spendKeyMaterial t.tokenId t.previousHash t.senderAddress t.sequence)

/-! ## Shape -/

/-- The signature bytes, where the text is 64 bytes of hexadecimal. -/
def signatureBytes (signature : String) : Except String Bytes := do
  let raw ← Check.ofOption (Text.fromhex signature) "invalid TransferV3 signature"
  Check.require (raw.length = 64) "invalid TransferV3 signature"
  pure raw

/-- `_validate_transfer_shape`. -/
def validateTransferShape (crypto : Crypto) (t : Transfer) (networkId : Int)
    (requireSignature : Bool) (now : Int) : Except String Unit := do
  Check.require (t.type = transferType) "malformed TransferV3"
  Check.require (t.version = 3) "unsupported TransferV3 version"
  requireMin t.networkId 0 "TransferV3 network id"
  Check.require (t.networkId = networkId) "TransferV3 network id mismatch"
  Check.require (t.signatureAlgorithm = BinaryV3.signatureAlgorithmId)
    "unsupported TransferV3 signature algorithm"
  let _ ← hex32 t.tokenId "TransferV3 token id"
  requireMin t.sequence 1 "TransferV3 sequence"
  let _ ← hex32 t.previousHash "TransferV3 previous hash"
  let _ ← validateAddress crypto t.senderAddress "TransferV3 sender address"
  let _ ← validateAddress crypto t.recipientAddress "TransferV3 recipient address"
  let _ ← decodePublicKey t.senderPublicKey
  requireMin t.timestamp 0 "TransferV3 timestamp"
  let time ← currentTime now
  Check.require (t.timestamp ≤ time + maxTransferFutureSkewSeconds)
    "TransferV3 timestamp is too far in the future"
  requireMetadata t.metadata maxTransferMetadataBytes "TransferV3"
  if requireSignature then
    let _ ← signatureBytes t.signature

/-- What `_validate_transfer_shape` establishes. -/
structure WellShaped (crypto : Crypto) (t : Transfer) (networkId : Int) (requireSignature : Bool)
    (now : Int) : Prop where
  type_eq : t.type = transferType
  version_eq : t.version = 3
  networkId_nonneg : 0 ≤ t.networkId
  networkId_eq : t.networkId = networkId
  signatureAlgorithm_eq : t.signatureAlgorithm = BinaryV3.signatureAlgorithmId
  tokenId_hex : IsHex32 t.tokenId
  sequence_pos : 1 ≤ t.sequence
  previousHash_hex : IsHex32 t.previousHash
  sender_valid : isAddress crypto t.senderAddress = true
  recipient_valid : isAddress crypto t.recipientAddress = true
  publicKey_valid : ∃ raw, decodePublicKey t.senderPublicKey = .ok raw
  timestamp_nonneg : 0 ≤ t.timestamp
  now_valid : 0 ≤ now ∧ now ≤ maxProtocolTimestamp
  timestamp_le : t.timestamp ≤ now + maxTransferFutureSkewSeconds
  metadata_valid : requireMetadata t.metadata maxTransferMetadataBytes "TransferV3" = .ok ()
  signature_valid : requireSignature = true → ∃ raw, signatureBytes t.signature = .ok raw

theorem validateTransferShape_eq_ok {crypto : Crypto} {t : Transfer} {networkId now : Int}
    {requireSignature : Bool} {u : Unit} :
    validateTransferShape crypto t networkId requireSignature now = .ok u ↔
      t.WellShaped crypto networkId requireSignature now := by
  simp only [validateTransferShape, validateAddress, bind_pure_comp, bind_map_left,
    Check.bind_eq_ok, Check.require_eq_ok, requireMin_eq_ok, hex32_eq_ok, currentTime_eq_ok,
    ↓existsAndEq, and_true, exists_and_right, exists_const, Check.exists_eq_ok]
  constructor
  · rintro ⟨h1, h2, h3, h4, h5, h6, h7, h8, h9, h10, h11, h12, h13, h14, h15, h16⟩
    refine ⟨h1, h2, h3, h4, h5, h6, h7, h8, h9, h10, h11, h12, h13, h14, h15, ?_⟩
    rintro rfl
    simpa using h16
  · rintro ⟨h1, h2, h3, h4, h5, h6, h7, h8, h9, h10, h11, h12, h13, h14, h15, h16⟩
    refine ⟨h1, h2, h3, h4, h5, h6, h7, h8, h9, h10, h11, h12, h13, h14, h15, ?_⟩
    cases requireSignature with
    | false => rfl
    | true => simpa using h16 rfl

/-! ## Encoding and hash -/

/-- The fields of `encode_transfer_body` before the signature. -/
def encodeUnsignedFields (t : Transfer) : Except String Bytes := do
  let tokenId ← BinaryV3.encodeHashHex t.tokenId
  let sequence ← BinaryV3.encodeUvarint t.sequence
  let previousHash ← BinaryV3.encodeHashHex t.previousHash
  let sender ← BinaryV3.encodeAscii t.senderAddress 128
  let publicKey ← Check.orRaise (decodePublicKey t.senderPublicKey)
    "invalid TransferV3 sender public key"
  let recipient ← BinaryV3.encodeAscii t.recipientAddress 128
  let timestamp ← BinaryV3.encodeUvarint t.timestamp
  let metadataText ← Check.orRaise (canonicalBytes t.metadata) "invalid TransferV3 metadata"
  let metadata ← BinaryV3.encodeBytes metadataText maxTransferMetadataBytes
  let algorithm ← BinaryV3.encodeUvarint t.signatureAlgorithm
  pure (tokenId ++ (sequence ++ (previousHash ++ (sender ++ (publicKey ++ (recipient ++
    (timestamp ++ (metadata ++ algorithm))))))))

/-- `encode_transfer_body`. -/
def encodeTransferBody (crypto : Crypto) (t : Transfer) (includeSignature : Bool) (clock : Int) :
    Except String Bytes := do
  requireMin t.networkId 0 "TransferV3 network id"
  validateTransferShape crypto t t.networkId includeSignature clock
  let unsigned ← encodeUnsignedFields t
  if includeSignature then
    let signature ← signatureBytes t.signature
    pure (unsigned ++ signature)
  else pure unsigned

/-- `encode_transfer`. -/
def encodeTransfer (crypto : Crypto) (t : Transfer) (includeSignature : Bool) (clock : Int) :
    Except String Bytes := do
  let body ← encodeTransferBody crypto t includeSignature clock
  BinaryV3.encodeEnvelope "IND3XFER" t.networkId body

/-- `transfer_hash`. -/
def transferHash (crypto : Crypto) (t : Transfer) (clock : Int) : Except String String := do
  let encoded ← encodeTransfer crypto t true clock
  let digest ← BinaryV3.objectHash crypto transferType encoded
  pure (Text.hex digest)

/-- What a transfer that has a hash is known to satisfy. -/
structure Hashed (crypto : Crypto) (t : Transfer) (clock : Int) (hash : String) : Prop where
  shape : t.WellShaped crypto t.networkId true clock
  networkId_le : t.networkId ≤ maxProtocolTimestamp
  sequence_le : t.sequence ≤ maxProtocolTimestamp
  timestamp_le : t.timestamp ≤ maxProtocolTimestamp
  hash_hex : IsHex32 hash

theorem hashed_of_transferHash {crypto : Crypto} {t : Transfer} {clock : Int} {hash : String}
    (h : t.transferHash crypto clock = .ok hash) : t.Hashed crypto clock hash := by
  simp only [transferHash, encodeTransfer, encodeTransferBody, encodeUnsignedFields,
    BinaryV3.encodeEnvelope, BinaryV3.objectHash, Check.bind_eq_ok, Check.pure_eq_ok,
    BinaryV3.encodeUvarint_eq_ok, validateTransferShape_eq_ok] at h
  obtain ⟨_, ⟨body, ⟨_, -, _, hshape, _, ⟨_, -, _, hseq, _, -, _, -, _, -, _, -, _, htime, -⟩, -⟩,
    _, -, _, hnetwork, -⟩, _, ⟨_, -, _, -, rfl⟩, rfl⟩ := h
  exact ⟨hshape, hnetwork.1.2, hseq.1.2, htime.1.2, isHex32_hex (crypto.length_sha3_256 _)⟩

/-! ## Signature -/

/-- `_transfer_signing_preimage`. -/
def transferSigningPreimage (crypto : Crypto) (t : Transfer) (clock : Int) :
    Except String Bytes := do
  let encoded ← encodeTransfer crypto t false clock
  BinaryV3.signingPreimage t.networkId transferType 3 BinaryV3.signatureAlgorithmId transferType
    encoded

/-- `verify_transfer_signature`. -/
def verifyTransferSignature (crypto : Crypto) (t : Transfer) (clock : Int) : Except String Unit := do
  Check.require (publicKeyMatchesAddress crypto t.senderPublicKey t.senderAddress = true)
    "TransferV3 sender key does not match sender address"
  let signature ← Check.ofOption (Text.fromhex t.signature) "non-hexadecimal number found"
  let preimage ← transferSigningPreimage crypto t clock
  let valid ← verifyKeySignature crypto t.senderPublicKey signature preimage
  Check.require (valid = true) "invalid TransferV3 signature"

/-! ## Other clocks

The clock only bounds how far ahead a transfer may be dated. So a check that succeeds at one time succeeds at
every other time of which the transfer is not too far ahead, and at every later one. -/

section Clocks

variable {crypto : Crypto} {t : Transfer} {clock clock' : Int} {includeSignature : Bool}

/-- A clock of which a transfer is not too far ahead. -/
structure NotAhead (t : Transfer) (clock : Int) : Prop where
  now_valid : 0 ≤ clock ∧ clock ≤ maxProtocolTimestamp
  timestamp_le : t.timestamp ≤ clock + maxTransferFutureSkewSeconds

theorem NotAhead.mono (h : t.NotAhead clock) (hle : clock ≤ clock') (hmax : clock' ≤ maxProtocolTimestamp) :
    t.NotAhead clock' where
  now_valid := ⟨le_trans h.now_valid.1 hle, hmax⟩
  timestamp_le := le_trans h.timestamp_le (by omega)

theorem WellShaped.notAhead {networkId : Int} (h : t.WellShaped crypto networkId includeSignature clock) :
    t.NotAhead clock :=
  ⟨h.now_valid, h.timestamp_le⟩

theorem NotAhead.wellShaped {networkId : Int} (hclock : t.NotAhead clock')
    (h : t.WellShaped crypto networkId includeSignature clock) :
    t.WellShaped crypto networkId includeSignature clock' where
  __ := h
  now_valid := hclock.now_valid
  timestamp_le := hclock.timestamp_le

theorem notAhead_of_encodeTransferBody {body : Bytes}
    (h : encodeTransferBody crypto t includeSignature clock = .ok body) : t.NotAhead clock := by
  obtain ⟨_, -, hrest⟩ := Check.bind_eq_ok.1 h
  obtain ⟨_, hshape, -⟩ := Check.bind_eq_ok.1 hrest
  exact (validateTransferShape_eq_ok.1 hshape).notAhead

theorem NotAhead.encodeTransferBody {body : Bytes} (hclock : t.NotAhead clock')
    (h : encodeTransferBody crypto t includeSignature clock = .ok body) :
    Transfer.encodeTransferBody crypto t includeSignature clock' = .ok body := by
  obtain ⟨_, hnetwork, hrest⟩ := Check.bind_eq_ok.1 h
  obtain ⟨_, hshape, hfields⟩ := Check.bind_eq_ok.1 hrest
  have hother := hclock.wellShaped (validateTransferShape_eq_ok.1 hshape)
  exact Check.bind_eq_ok.2 ⟨_, hnetwork,
    Check.bind_eq_ok.2 ⟨(), validateTransferShape_eq_ok.2 hother, hfields⟩⟩

theorem NotAhead.encodeTransfer {encoded : Bytes} (hclock : t.NotAhead clock')
    (h : encodeTransfer crypto t includeSignature clock = .ok encoded) :
    Transfer.encodeTransfer crypto t includeSignature clock' = .ok encoded := by
  obtain ⟨_, hbody, henvelope⟩ := Check.bind_eq_ok.1 h
  exact Check.bind_eq_ok.2 ⟨_, hclock.encodeTransferBody hbody, henvelope⟩

theorem NotAhead.transferHash {hash : String} (hclock : t.NotAhead clock')
    (h : t.transferHash crypto clock = .ok hash) : t.transferHash crypto clock' = .ok hash := by
  obtain ⟨_, hencoded, hdigest⟩ := Check.bind_eq_ok.1 h
  exact Check.bind_eq_ok.2 ⟨_, hclock.encodeTransfer hencoded, hdigest⟩

theorem NotAhead.verifyTransferSignature (hclock : t.NotAhead clock')
    (h : t.verifyTransferSignature crypto clock = .ok ()) : t.verifyTransferSignature crypto clock' = .ok () := by
  obtain ⟨_, hkey, h⟩ := Check.bind_eq_ok.1 h
  obtain ⟨_, hsignature, h⟩ := Check.bind_eq_ok.1 h
  obtain ⟨_, hpreimage, hverify⟩ := Check.bind_eq_ok.1 h
  obtain ⟨_, hencoded, hpreimage⟩ := Check.bind_eq_ok.1 hpreimage
  exact Check.bind_eq_ok.2 ⟨_, hkey, Check.bind_eq_ok.2 ⟨_, hsignature, Check.bind_eq_ok.2 ⟨_,
    Check.bind_eq_ok.2 ⟨_, hclock.encodeTransfer hencoded, hpreimage⟩, hverify⟩⟩⟩

theorem WellShaped.mono {networkId : Int} (h : t.WellShaped crypto networkId includeSignature clock)
    (hle : clock ≤ clock') (hmax : clock' ≤ maxProtocolTimestamp) :
    t.WellShaped crypto networkId includeSignature clock' :=
  (h.notAhead.mono hle hmax).wellShaped h

theorem encodeTransferBody_mono {body : Bytes}
    (h : encodeTransferBody crypto t includeSignature clock = .ok body) (hle : clock ≤ clock')
    (hmax : clock' ≤ maxProtocolTimestamp) :
    encodeTransferBody crypto t includeSignature clock' = .ok body :=
  ((notAhead_of_encodeTransferBody h).mono hle hmax).encodeTransferBody h

theorem transferHash_mono {hash : String} (h : t.transferHash crypto clock = .ok hash)
    (hle : clock ≤ clock') (hmax : clock' ≤ maxProtocolTimestamp) :
    t.transferHash crypto clock' = .ok hash :=
  ((hashed_of_transferHash h).shape.notAhead.mono hle hmax).transferHash h

theorem verifyTransferSignature_mono
    (h : t.verifyTransferSignature crypto clock = .ok ()) (hle : clock ≤ clock')
    (hmax : clock' ≤ maxProtocolTimestamp) : t.verifyTransferSignature crypto clock' = .ok () := by
  obtain ⟨_, -, hrest⟩ := Check.bind_eq_ok.1 h
  obtain ⟨_, -, hrest⟩ := Check.bind_eq_ok.1 hrest
  obtain ⟨_, hpreimage, -⟩ := Check.bind_eq_ok.1 hrest
  obtain ⟨_, hencoded, -⟩ := Check.bind_eq_ok.1 hpreimage
  obtain ⟨_, hbody, -⟩ := Check.bind_eq_ok.1 hencoded
  exact ((notAhead_of_encodeTransferBody hbody).mono hle hmax).verifyTransferSignature h

/-- The hash of a transfer does not depend on when it is computed. -/
theorem transferHash_unique {hash hash' : String} (h : t.transferHash crypto clock = .ok hash)
    (h' : t.transferHash crypto clock' = .ok hash') : hash = hash' := by
  rcases le_total clock clock' with hle | hle
  · have := transferHash_mono h hle (hashed_of_transferHash h').shape.now_valid.2
    exact Except.ok.inj (this.symm.trans h')
  · have := transferHash_mono h' hle (hashed_of_transferHash h).shape.now_valid.2
    exact Except.ok.inj (h.symm.trans this)

end Clocks

end Transfer
