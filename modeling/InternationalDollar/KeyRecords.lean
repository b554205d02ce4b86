import InternationalDollar.SignedRoot

set_option autoImplicit false

/-! # Operator keys that change (`transparency_client`)

An operator announces a new key by a rotation record, which both keys sign; it is told from which tree
size the new key counts and until when the old one is still accepted. A revocation record names a
rotation and is signed by its new key; the old key counts for nothing from a time on. -/

/-- `LOG_KEY_ROTATION_TYPE`. -/
def logKeyRotationType : String := "ind.transparency_operator_key_rotation.v3"

/-- `LOG_KEY_REVOCATION_TYPE`. -/
def logKeyRevocationType : String := "ind.transparency_operator_key_revocation.v3"

/-- `LOG_KEY_ROTATION_SIGNATURE_DOMAIN`. -/
def logKeyRotationSignatureDomain : String := "IND_TRANSPARENCY_KEY_ROTATION_V3"

/-- `LOG_KEY_REVOCATION_SIGNATURE_DOMAIN`. -/
def logKeyRevocationSignatureDomain : String := "IND_TRANSPARENCY_KEY_REVOCATION_V3"

/-- A key rotation record. -/
structure KeyRotation where
  type : String
  version : Int
  logId : String
  oldPublicKey : String
  newPublicKey : String
  newLogId : String
  rotationTimestamp : Int
  effectiveFromTreeSize : Int
  overlapUntilTimestamp : Int
  reason : String
  signatureAlgorithm : String
  signatureByOldKey : String
  signatureByNewKey : String
deriving DecidableEq

/-- A key revocation record. -/
structure KeyRevocation where
  type : String
  version : Int
  logId : String
  revokedPublicKey : String
  successorPublicKey : String
  rotationRecordHash : String
  revocationTimestamp : Int
  reason : String
  signatureAlgorithm : String
  signatureBySuccessorKey : String
deriving DecidableEq

namespace KeyRotation

/-- The record as a JSON object, with some members between the algorithm and the type. -/
def members (record : KeyRotation) (signatures : List (String × Json)) : Json :=
  .obj ([("effective_from_tree_size", .int record.effectiveFromTreeSize),
    ("log_id", .str record.logId), ("new_log_id", .str record.newLogId),
    ("new_public_key", .str record.newPublicKey), ("old_public_key", .str record.oldPublicKey),
    ("overlap_until_timestamp", .int record.overlapUntilTimestamp), ("reason", .str record.reason),
    ("rotation_timestamp", .int record.rotationTimestamp),
    ("signature_algorithm", .str record.signatureAlgorithm)] ++ signatures ++
    [("type", .str record.type), ("version", .int record.version)])

/-- The record as a JSON object. -/
def toJson (record : KeyRotation) : Json :=
  record.members [("signature_by_new_key", .str record.signatureByNewKey),
    ("signature_by_old_key", .str record.signatureByOldKey)]

/-- `key_rotation_signature_payload`. -/
def keyRotationSignaturePayload (record : KeyRotation) : Except String Bytes :=
  signaturePayload logKeyRotationSignatureDomain (record.members [])

/-- `key_rotation_id`. -/
def keyRotationId (crypto : Crypto) (record : KeyRotation) : Except String String :=
  sha3Json crypto record.toJson

/-- The record before it is signed. -/
def unsigned (crypto : Crypto) (oldPublicKey newPublicKey : String)
    (rotationTimestamp effectiveFromTreeSize overlapUntilTimestamp : Int) (reason : String) :
    KeyRotation where
  type := logKeyRotationType
  version := logVersion
  logId := logIdFromPublicKey crypto oldPublicKey
  oldPublicKey := oldPublicKey
  newPublicKey := newPublicKey
  newLogId := logIdFromPublicKey crypto newPublicKey
  rotationTimestamp := rotationTimestamp
  effectiveFromTreeSize := effectiveFromTreeSize
  overlapUntilTimestamp := overlapUntilTimestamp
  reason := reason
  signatureAlgorithm := logSignatureAlgorithm
  signatureByOldKey := ""
  signatureByNewKey := ""

/-- `make_key_rotation`, given the end of the overlap and the reason. -/
def makeKeyRotation (crypto : Crypto)
    (oldPrivateKey oldPublicKey newPrivateKey newPublicKey : String)
    (rotationTimestamp effectiveFromTreeSize overlapUntilTimestamp : Int) (reason : String) :
    Except String KeyRotation := do
  let record := unsigned crypto (Text.strip oldPublicKey) (Text.strip newPublicKey) rotationTimestamp
    effectiveFromTreeSize overlapUntilTimestamp reason
  let payload ← record.keyRotationSignaturePayload
  let byOldKey ← signOperatorPayload crypto oldPrivateKey payload
  let byNewKey ← signOperatorPayload crypto newPrivateKey payload
  pure { record with signatureByOldKey := byOldKey, signatureByNewKey := byNewKey }

/-- `verify_key_rotation`. An empty expected log id is none. -/
def verifyKeyRotation (crypto : Crypto) (record : KeyRotation) (expectedLogId : Option String) :
    Except String Unit := do
  Check.require (record.type = logKeyRotationType ∧ record.version = logVersion)
    "unsupported transparency operator key rotation version"
  Check.require (record.signatureAlgorithm = logSignatureAlgorithm)
    "unsupported transparency operator key rotation signature algorithm"
  Check.require (∀ expected ∈ expectedLogId, expected = "" ∨ record.logId = expected)
    "operator key rotation is for an unexpected log id"
  Check.require (record.logId = logIdFromPublicKey crypto record.oldPublicKey)
    "operator key rotation log id does not match old key"
  Check.require (record.newLogId = logIdFromPublicKey crypto record.newPublicKey)
    "operator key rotation new log id does not match new key"
  requireMin record.rotationTimestamp 0 "operator key rotation timestamp"
  requireMin record.effectiveFromTreeSize 0 "operator key rotation effective tree size"
  requireMin record.overlapUntilTimestamp 0 "operator key rotation overlap timestamp"
  Check.require (record.rotationTimestamp ≤ record.overlapUntilTimestamp)
    "operator key rotation overlap ends before rotation timestamp"
  let payload ← record.keyRotationSignaturePayload
  let byOldKey ← verifyOperatorPayload crypto record.oldPublicKey record.signatureByOldKey payload
    record.signatureAlgorithm
  Check.require (byOldKey = true) "invalid operator key rotation old-key signature"
  let byNewKey ← verifyOperatorPayload crypto record.newPublicKey record.signatureByNewKey payload
    record.signatureAlgorithm
  Check.require (byNewKey = true) "invalid operator key rotation new-key signature"

end KeyRotation

namespace KeyRevocation

/-- The record as a JSON object, with some members between the algorithm and the rest. -/
def members (record : KeyRevocation) (signatures : List (String × Json)) : Json :=
  .obj ([("log_id", .str record.logId), ("reason", .str record.reason),
    ("revocation_timestamp", .int record.revocationTimestamp),
    ("revoked_public_key", .str record.revokedPublicKey),
    ("rotation_record_hash", .str record.rotationRecordHash),
    ("signature_algorithm", .str record.signatureAlgorithm)] ++ signatures ++
    [("successor_public_key", .str record.successorPublicKey), ("type", .str record.type),
      ("version", .int record.version)])

/-- The record as a JSON object. -/
def toJson (record : KeyRevocation) : Json :=
  record.members [("signature_by_successor_key", .str record.signatureBySuccessorKey)]

/-- `key_revocation_signature_payload`. -/
def keyRevocationSignaturePayload (record : KeyRevocation) : Except String Bytes :=
  signaturePayload logKeyRevocationSignatureDomain (record.members [])

/-- `key_revocation_id`. -/
def keyRevocationId (crypto : Crypto) (record : KeyRevocation) : Except String String :=
  sha3Json crypto record.toJson

/-- The record before it is signed. -/
def unsigned (rotation : KeyRotation) (rotationRecordHash : String) (revocationTimestamp : Int)
    (reason : String) : KeyRevocation where
  type := logKeyRevocationType
  version := logVersion
  logId := rotation.logId
  revokedPublicKey := rotation.oldPublicKey
  successorPublicKey := rotation.newPublicKey
  rotationRecordHash := rotationRecordHash
  revocationTimestamp := revocationTimestamp
  reason := reason
  signatureAlgorithm := logSignatureAlgorithm
  signatureBySuccessorKey := ""

/-- `make_key_revocation`. -/
def makeKeyRevocation (crypto : Crypto) (successorPrivateKey : String) (rotation : KeyRotation)
    (revocationTimestamp : Int) (reason : String) : Except String KeyRevocation := do
  rotation.verifyKeyRotation crypto none
  let rotationRecordHash ← rotation.keyRotationId crypto
  let record := unsigned rotation rotationRecordHash revocationTimestamp reason
  let payload ← record.keyRevocationSignaturePayload
  let signature ← signOperatorPayload crypto successorPrivateKey payload
  pure { record with signatureBySuccessorKey := signature }

/-- `verify_key_revocation` with a rotation record. -/
def verifyKeyRevocation (crypto : Crypto) (record : KeyRevocation) (rotation : KeyRotation) :
    Except String Unit := do
  Check.require (record.type = logKeyRevocationType ∧ record.version = logVersion)
    "unsupported transparency operator key revocation version"
  Check.require (record.signatureAlgorithm = logSignatureAlgorithm)
    "unsupported transparency operator key revocation signature algorithm"
  requireMin record.revocationTimestamp 0 "operator key revocation timestamp"
  Check.require (record.logId = logIdFromPublicKey crypto record.revokedPublicKey)
    "operator key revocation log id does not match revoked key"
  let payload ← record.keyRevocationSignaturePayload
  let bySuccessor ← verifyOperatorPayload crypto record.successorPublicKey
    record.signatureBySuccessorKey payload record.signatureAlgorithm
  Check.require (bySuccessor = true) "invalid operator key revocation successor-key signature"
  rotation.verifyKeyRotation crypto none
  let rotationRecordHash ← rotation.keyRotationId crypto
  Check.require (record.rotationRecordHash = rotationRecordHash)
    "operator key revocation does not reference the supplied rotation"
  Check.require (record.logId = rotation.logId)
    "operator key revocation log id does not match rotation"
  Check.require (record.revokedPublicKey = rotation.oldPublicKey)
    "operator key revocation old key does not match rotation"
  Check.require (record.successorPublicKey = rotation.newPublicKey)
    "operator key revocation successor key does not match rotation"

end KeyRevocation

/-! ## The records that key holders make -/

/-- A text that is short enough for every limit. -/
def IsShort (text : String) : Prop :=
  text.length ≤ 16384

instance : DecidablePred IsShort :=
  fun text => Nat.decLe text.length 16384

/-- A short text, or a number within the limits. -/
def IsSmall : Json → Prop
  | .str s => IsShort s
  | .int n => n.natAbs ≤ jsonLimits.maxIntegerAbs
  | _ => False

theorem KeyPair.isShort_publicKey {crypto : Crypto} (keys : KeyPair crypto) :
    IsShort keys.publicKey := by
  unfold IsShort
  rw [keys.length_publicKey]
  decide

theorem IsHex32.isShort {text : String} (h : IsHex32 text) : IsShort text := by
  unfold IsShort
  rw [h.1]
  decide

theorem isShort_signature {crypto : Crypto} (keys : KeyPair crypto) (payload : Bytes) :
    IsShort (String.ofList (Base85.b85encode (crypto.sign keys.seed payload))) := by
  unfold IsShort
  have hlength := crypto.length_sign keys.seed payload
  rw [String.length_ofList, Base85.b85encode_eq (by rw [hlength]),
    Base85.length_encodeGroups, hlength]
  decide

/-- An object of small members has a canonical form. -/
theorem exists_canonicalBytes {members : List (String × Json)}
    (hlength : members.length ≤ jsonLimits.maxObjectKeys)
    (h : ∀ m ∈ members, IsShort m.1 ∧ IsSmall m.2) :
    ∃ raw, canonicalBytes (.obj members) = .ok raw := by
  refine ⟨_, canonicalBytes_eq_ok.2 ⟨Json.validate_obj.2 ⟨by decide, hlength, ?_⟩, rfl⟩⟩
  intro m hm
  obtain ⟨hname, hvalue⟩ := h m hm
  constructor
  · have hsize := Json.utf8ByteSize_le m.1
    change m.1.length ≤ 16384 at hname
    change m.1.utf8ByteSize ≤ 65536
    omega
  · cases hjson : m.2 with
    | str s =>
      rw [hjson] at hvalue
      exact validate_text (by decide) hvalue
    | int n =>
      rw [hjson] at hvalue
      exact validate_number (by decide) hvalue
    | _ =>
      rw [hjson] at hvalue
      exact hvalue.elim

section Made

variable {crypto : Crypto}

/-- Two key holders can make a rotation record, which verifies. -/
theorem exists_makeKeyRotation (old new : KeyPair crypto) {rotationTimestamp effective overlap : Int}
    (htime : 0 ≤ rotationTimestamp) (heffective : 0 ≤ effective) (hoverlap : rotationTimestamp ≤ overlap)
    (hnumbers : ∀ n ∈ [rotationTimestamp, effective, overlap],
      n.natAbs ≤ jsonLimits.maxIntegerAbs) {reason : String} (hreason : IsShort reason) :
    ∃ record hash, KeyRotation.makeKeyRotation crypto old.privateKey old.publicKey new.privateKey
        new.publicKey rotationTimestamp effective overlap reason = .ok record ∧
      record.verifyKeyRotation crypto none = .ok () ∧ record.keyRotationId crypto = .ok hash ∧
      record.logId = logIdFromPublicKey crypto old.publicKey ∧
      record.oldPublicKey = old.publicKey ∧ record.newPublicKey = new.publicKey ∧
      record.effectiveFromTreeSize = effective ∧ record.overlapUntilTimestamp = overlap := by
  simp only [List.forall_mem_cons] at hnumbers
  obtain ⟨n1, n2, n3, -⟩ := hnumbers
  let base := KeyRotation.unsigned crypto old.publicKey new.publicKey rotationTimestamp effective
    overlap reason
  have hmembers : ∀ signatures : List (String × Json), signatures.length ≤ 2 →
      (∀ m ∈ signatures, IsShort m.1 ∧ IsSmall m.2) →
      ∃ raw, canonicalBytes (base.members signatures) = .ok raw := by
    intro signatures hlength hsignatures
    refine exists_canonicalBytes ?_ ?_
    · have hkeys : 13 ≤ jsonLimits.maxObjectKeys := by decide
      simp only [List.length_append, List.length_cons, List.length_nil]
      omega
    · have hlog : ∀ key, IsShort (logIdFromPublicKey crypto key) :=
        fun key => (crypto.isHex32_sha3Hex _).isShort
      simp only [List.forall_mem_append, List.forall_mem_cons]
      exact ⟨⟨⟨⟨by decide, n2⟩, ⟨by decide, hlog _⟩, ⟨by decide, hlog _⟩,
        ⟨by decide, new.isShort_publicKey⟩, ⟨by decide, old.isShort_publicKey⟩, ⟨by decide, n3⟩,
        ⟨by decide, hreason⟩, ⟨by decide, n1⟩, ⟨by decide, (by decide : IsShort logSignatureAlgorithm)⟩,
        by simp⟩, hsignatures⟩, ⟨by decide, (by decide : IsShort logKeyRotationType)⟩,
        ⟨by decide, (by decide : logVersion.natAbs ≤ jsonLimits.maxIntegerAbs)⟩, by simp⟩
  obtain ⟨payload, hsigned⟩ : ∃ payload, base.keyRotationSignaturePayload = .ok payload := by
    obtain ⟨raw, hraw⟩ := hmembers [] (Nat.zero_le _) (by simp)
    exact ⟨_, Check.bind_eq_ok.2 ⟨raw, hraw, rfl⟩⟩
  let byOld := String.ofList (Base85.b85encode (crypto.sign old.seed payload))
  let byNew := String.ofList (Base85.b85encode (crypto.sign new.seed payload))
  obtain ⟨raw, hraw⟩ := hmembers [("signature_by_new_key", .str byNew),
    ("signature_by_old_key", .str byOld)] le_rfl (by
      simp only [List.forall_mem_cons]
      exact ⟨⟨by decide, isShort_signature _ _⟩, ⟨by decide, isShort_signature _ _⟩, by simp⟩)
  refine ⟨{ base with signatureByOldKey := byOld, signatureByNewKey := byNew }, crypto.sha3Hex raw,
    ?_, ?_, ?_, rfl, rfl, rfl, rfl, rfl⟩
  · unfold KeyRotation.makeKeyRotation
    rw [old.strip_publicKey, new.strip_publicKey]
    exact Check.bind_eq_ok.2 ⟨_, hsigned, Check.bind_eq_ok.2 ⟨_, signOperatorPayload_eq old _,
      Check.bind_eq_ok.2 ⟨_, signOperatorPayload_eq new _, rfl⟩⟩⟩
  · have hold := verifyOperatorPayload_sign old payload
    have hnew := verifyOperatorPayload_sign new payload
    simp only [KeyRotation.verifyKeyRotation, Check.bind_eq_ok, Check.require_eq_ok, requireMin_eq_ok]
    exact ⟨(), ⟨rfl, rfl⟩, (), rfl, (), by rintro _ ⟨⟩, (), rfl, (), rfl, (), htime, (),
      heffective, (), le_trans htime hoverlap, (), hoverlap, _, hsigned, true, hold, (), rfl, true,
      hnew, rfl⟩
  · exact Check.bind_eq_ok.2 ⟨raw, hraw, rfl⟩

/-- The holder of the new key of a rotation can make a revocation record, which verifies. -/
theorem exists_makeKeyRevocation (new : KeyPair crypto) {rotation : KeyRotation} {hash : String}
    (hrotation : rotation.verifyKeyRotation crypto none = .ok ())
    (hhash : rotation.keyRotationId crypto = .ok hash) (hnew : rotation.newPublicKey = new.publicKey)
    (hold : IsShort rotation.oldPublicKey) {revocationTimestamp : Int} (htime : 0 ≤ revocationTimestamp)
    (hnumber : revocationTimestamp.natAbs ≤ jsonLimits.maxIntegerAbs) {reason : String}
    (hreason : IsShort reason) :
    ∃ payload, let record := { KeyRevocation.unsigned rotation hash revocationTimestamp reason with
        signatureBySuccessorKey := String.ofList (Base85.b85encode (crypto.sign new.seed payload)) }
      KeyRevocation.makeKeyRevocation crypto new.privateKey rotation revocationTimestamp reason
          = .ok record ∧
        record.verifyKeyRevocation crypto rotation = .ok () ∧
        record.keyRevocationId crypto = .ok (crypto.sha3Hex record.toJson.bytes) := by
  have hlogId : rotation.logId = logIdFromPublicKey crypto rotation.oldPublicKey := by
    simp only [KeyRotation.verifyKeyRotation, Check.bind_eq_ok, Check.require_eq_ok] at hrotation
    obtain ⟨_, -, _, -, _, -, _, hlog, -⟩ := hrotation
    exact hlog
  let base := KeyRevocation.unsigned rotation hash revocationTimestamp reason
  have hmembers : ∀ signatures : List (String × Json), signatures.length ≤ 1 →
      (∀ m ∈ signatures, IsShort m.1 ∧ IsSmall m.2) →
      ∃ raw, canonicalBytes (base.members signatures) = .ok raw := by
    intro signatures hlength hsignatures
    refine exists_canonicalBytes ?_ ?_
    · have hkeys : 10 ≤ jsonLimits.maxObjectKeys := by decide
      simp only [List.length_append, List.length_cons, List.length_nil]
      omega
    · have hlog : IsShort rotation.logId := by
        rw [hlogId]
        exact (crypto.isHex32_sha3Hex _).isShort
      have hhash' : IsShort hash := by
        obtain ⟨_, -, hhash⟩ := Check.bind_eq_ok.1 hhash
        rw [← Except.ok.inj hhash]
        exact (crypto.isHex32_sha3Hex _).isShort
      have hsuccessor : IsShort rotation.newPublicKey := by
        rw [hnew]
        exact new.isShort_publicKey
      simp only [List.forall_mem_append, List.forall_mem_cons]
      exact ⟨⟨⟨⟨by decide, hlog⟩, ⟨by decide, hreason⟩, ⟨by decide, hnumber⟩, ⟨by decide, hold⟩,
        ⟨by decide, hhash'⟩, ⟨by decide, (by decide : IsShort logSignatureAlgorithm)⟩, by simp⟩,
        hsignatures⟩, ⟨by decide, hsuccessor⟩,
        ⟨by decide, (by decide : IsShort logKeyRevocationType)⟩,
        ⟨by decide, (by decide : logVersion.natAbs ≤ jsonLimits.maxIntegerAbs)⟩, by simp⟩
  obtain ⟨payload, hsigned⟩ : ∃ payload, base.keyRevocationSignaturePayload = .ok payload := by
    obtain ⟨raw, hraw⟩ := hmembers [] (Nat.zero_le _) (by simp)
    exact ⟨_, Check.bind_eq_ok.2 ⟨raw, hraw, rfl⟩⟩
  let signature := String.ofList (Base85.b85encode (crypto.sign new.seed payload))
  obtain ⟨raw, hraw⟩ := hmembers [("signature_by_successor_key", .str signature)] le_rfl (by
    simp only [List.forall_mem_cons]
    exact ⟨⟨by decide, isShort_signature _ _⟩, by simp⟩)
  refine ⟨payload, ?_, ?_, ?_⟩
  · exact Check.bind_eq_ok.2 ⟨_, hrotation, Check.bind_eq_ok.2 ⟨_, hhash, Check.bind_eq_ok.2
      ⟨_, hsigned, Check.bind_eq_ok.2 ⟨_, signOperatorPayload_eq new _, rfl⟩⟩⟩⟩
  · have hverify := verifyOperatorPayload_sign new payload
    rw [← hnew] at hverify
    simp only [KeyRevocation.verifyKeyRevocation, Check.bind_eq_ok, Check.require_eq_ok,
      requireMin_eq_ok]
    exact ⟨(), ⟨rfl, rfl⟩, (), rfl, (), htime, (), hlogId, _, hsigned, true, hverify, (), rfl, (),
      hrotation, hash, hhash, (), rfl, (), rfl, (), rfl, rfl⟩
  · refine Check.bind_eq_ok.2 ⟨raw, hraw, ?_⟩
    rw [← (canonicalBytes_eq_ok.1 hraw).2]
    rfl

end Made
