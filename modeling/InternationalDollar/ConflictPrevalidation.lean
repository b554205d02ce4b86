import InternationalDollar.ConflictKey
import InternationalDollar.MirroredBundles

set_option autoImplicit false

/-! # Prevalidation of conflict proofs (`node_client._cheap_prevalidate_v3_conflict_proof`)

A node checks a conflict proof twice: cheaply when the message comes in, which gives the key of the
duplicate cache, and fully when the store takes it. The first check compares the members of the message one
by one with its transfers, the second one builds the record again and compares the whole with `==`. The two
agree up to what the first leaves out, with one exception: `==` does not tell `true` from `1`. -/

namespace ConflictProofV3

/-! ## Reading messages -/

/-- `_require_int` and `_cheap_require_int`. -/
def requireInt (value : Json) (label : String) : Except String Int :=
  match value with
  | .int n => .ok n
  | _ => .error (labelled label "must be an integer")

/-- `_hex32` and `_cheap_require_hex32`, for the text as it is given. -/
def requireHexText (value : Json) (label : String) : Except String String :=
  match value with
  | .str text => do
      let _ ← hex32 text label
      pure text
  | _ => .error ("invalid " ++ label)

/-- `validate_address`. -/
def requireAddress (crypto : Crypto) (value : Json) (label : String) : Except String String :=
  match value with
  | .str text => validateAddress crypto text label
  | _ => .error ("invalid " ++ label)

/-- `TRANSFER_FIELDS`. -/
def transferFields : List String :=
  ["metadata", "network_id", "previous_hash", "recipient_address", "sender_address", "sender_public_key",
    "sequence", "signature", "signature_algorithm", "timestamp", "token_id", "type", "version"]

/-- The transfer that a value is. `_validate_transfer_shape` rejects all other values. -/
def readTransfer : Json → Except String Transfer
  | .obj members => do
      Check.require (members.map Prod.fst = transferFields) "malformed TransferV3"
      match members.map Prod.snd with
      | [metadata, .int networkId, .str previousHash, .str recipientAddress, .str senderAddress,
          .str senderPublicKey, .int sequence, .str signature, .int signatureAlgorithm, .int timestamp,
          .str tokenId, .str type, .int version] =>
          pure { type, version, networkId, signatureAlgorithm, tokenId, sequence, previousHash,
                 senderAddress, senderPublicKey, recipientAddress, timestamp, metadata, signature }
      | _ => .error "malformed TransferV3"
  | _ => .error "malformed TransferV3"

/-- The members of a message of the conflict type. -/
@[ext] structure Message where
  type : Json
  version : Json
  networkId : Json
  tokenId : Json
  previousHash : Json
  sequence : Json
  senderAddress : Json
  spendKey : Json
  transferHashA : Json
  transferHashB : Json
  transferA : Json
  transferB : Json
  detectedAt : Json
  proofHash : Json

/-- `CONFLICT_PROOF_FIELDS`. -/
def conflictProofFields : List String :=
  ["detected_at", "network_id", "previous_hash", "proof_hash", "sender_address", "sequence", "spend_key",
    "token_id", "transfer_a", "transfer_b", "transfer_hash_a", "transfer_hash_b", "type", "version"]

/-- The members of an object that has the fields of a conflict proof and no others. -/
def readMessage : Json → Except String Message
  | .obj members => do
      Check.require (members.map Prod.fst = conflictProofFields) "malformed ConflictProofV3"
      match members.map Prod.snd with
      | [detectedAt, networkId, previousHash, proofHash, senderAddress, sequence, spendKey, tokenId,
          transferA, transferB, transferHashA, transferHashB, type, version] =>
          pure { type, version, networkId, tokenId, previousHash, sequence, senderAddress, spendKey,
                 transferHashA, transferHashB, transferA, transferB, detectedAt, proofHash }
      | _ => .error "malformed ConflictProofV3"
  | _ => .error "malformed ConflictProofV3"

/-- The members of a message as an object. -/
def Message.toJson (m : Message) : Json :=
  .obj [("detected_at", m.detectedAt), ("network_id", m.networkId), ("previous_hash", m.previousHash),
    ("proof_hash", m.proofHash), ("sender_address", m.senderAddress), ("sequence", m.sequence),
    ("spend_key", m.spendKey), ("token_id", m.tokenId), ("transfer_a", m.transferA),
    ("transfer_b", m.transferB), ("transfer_hash_a", m.transferHashA),
    ("transfer_hash_b", m.transferHashB), ("type", m.type), ("version", m.version)]

/-- The message of a conflict proof. -/
def asMessage (proof : ConflictProofV3) : Message where
  type := .str proof.type
  version := .int proof.version
  networkId := .int proof.networkId
  tokenId := .str proof.tokenId
  previousHash := .str proof.previousHash
  sequence := .int proof.sequence
  senderAddress := .str proof.senderAddress
  spendKey := .str proof.spendKey
  transferHashA := .str proof.transferHashA
  transferHashB := .str proof.transferHashB
  transferA := proof.transferA.toJson
  transferB := proof.transferB.toJson
  detectedAt := .int proof.detectedAt
  proofHash := .str proof.proofHash

/-- A conflict proof as a JSON object. -/
def toJson (proof : ConflictProofV3) : Json := proof.asMessage.toJson

/-! ## The two checks -/

variable (crypto : Crypto) (message : Json) (clock : Int)

/-- `verify_conflict_proof` of a message, which expects the network of the message. -/
def verifyMessage : Except String Unit := do
  let m ← readMessage message
  Check.require (m.type = .str conflictProofType) "not a ConflictProofV3"
  let version ← requireInt m.version "ConflictProofV3 version"
  Check.require (version = 3) "unsupported ConflictProofV3 version"
  let networkId ← requireInt m.networkId "ConflictProofV3 network id"
  requireMin networkId 0 "ConflictProofV3 network id"
  let tokenId ← requireHexText m.tokenId "ConflictProofV3 token id"
  let previousHash ← requireHexText m.previousHash "ConflictProofV3 previous hash"
  let sequence ← requireInt m.sequence "ConflictProofV3 sequence"
  requireMin sequence 1 "ConflictProofV3 sequence"
  let senderAddress ← requireAddress crypto m.senderAddress "ConflictProofV3 sender address"
  let spendKey ← requireHexText m.spendKey "ConflictProofV3 spend key"
  let transferHashA ← requireHexText m.transferHashA "ConflictProofV3 transfer hash a"
  let transferHashB ← requireHexText m.transferHashB "ConflictProofV3 transfer hash b"
  let detectedAt ← requireInt m.detectedAt "ConflictProofV3 detected_at"
  requireMin detectedAt 0 "ConflictProofV3 detected_at"
  let transferA ← readTransfer m.transferA
  let transferB ← readTransfer m.transferB
  let c ← sortedConflictingTransfers crypto transferA transferB networkId clock
  let expectedKey ← c.transferA.spendKeyForTransfer crypto
  let proof : ConflictProofV3 :=
    { type := conflictProofType, version, networkId, tokenId, previousHash, sequence, senderAddress,
      spendKey, transferHashA, transferHashB, transferA, transferB, detectedAt, proofHash := "" }
  Check.require (proof.numeric = (proof.fill c expectedKey).numeric)
    "ConflictProofV3 conflict fields mismatch"
  let hash ← proof.conflictProofHash crypto clock
  Check.require (m.proofHash = .str hash) "ConflictProofV3 proof hash mismatch"

/-- One turn of the loop over the two transfers. -/
def requireTransfer (m : Message) (tokenId previousHash : String) (sequence : Int) (t : Transfer) :
    Except String Unit := do
  Check.require (t.tokenId = tokenId) "ConflictProofV3 transfers reference different bills"
  Check.require (t.previousHash = previousHash) "ConflictProofV3 transfers do not share a previous hash"
  Check.require (t.sequence = sequence) "ConflictProofV3 transfers do not share a sequence"
  Check.require (Json.str t.senderAddress = m.senderAddress)
    "ConflictProofV3 transfers do not share a sender"

/-- `_cheap_prevalidate_v3_conflict_proof`. -/
def cheapPrevalidateV3ConflictProof : Except String String := do
  let m ← readMessage message
  Check.require (m.type = .str conflictProofType) "not a ConflictProofV3"
  let version ← requireInt m.version "ConflictProofV3 version"
  Check.require (version = 3) "unsupported ConflictProofV3 version"
  let networkId ← requireInt m.networkId "ConflictProofV3 network id"
  requireMin networkId 0 "ConflictProofV3 network id"
  let tokenId ← requireHexText m.tokenId "ConflictProofV3 token id"
  let previousHash ← requireHexText m.previousHash "ConflictProofV3 previous hash"
  let sequence ← requireInt m.sequence "ConflictProofV3 sequence"
  requireMin sequence 1 "ConflictProofV3 sequence"
  let spendKey ← requireHexText m.spendKey "ConflictProofV3 spend key"
  let transferHashA ← requireHexText m.transferHashA "ConflictProofV3 transfer hash a"
  let transferHashB ← requireHexText m.transferHashB "ConflictProofV3 transfer hash b"
  let detectedAt ← requireInt m.detectedAt "ConflictProofV3 detected_at"
  requireMin detectedAt 0 "ConflictProofV3 detected_at"
  let proofHash ← requireHexText m.proofHash "ConflictProofV3 proof hash"
  let transferA ← readTransfer m.transferA
  transferA.validateTransferShape crypto networkId true clock
  let transferB ← readTransfer m.transferB
  transferB.validateTransferShape crypto networkId true clock
  requireTransfer m tokenId previousHash sequence transferA
  requireTransfer m tokenId previousHash sequence transferB
  let keyA ← transferA.spendKeyForTransfer crypto
  let keyB ← transferB.spendKeyForTransfer crypto
  Check.require (keyA = keyB) "ConflictProofV3 transfers do not share a spend key"
  Check.require (keyA = spendKey) "ConflictProofV3 spend key mismatch"
  let hashA ← transferA.transferHash crypto clock
  let hashB ← transferB.transferHash crypto clock
  Check.require (hashA ≠ hashB) "ConflictProofV3 requires two different transfers"
  let sorted := if hashB < hashA then (hashB, hashA) else (hashA, hashB)
  Check.require (transferHashA = sorted.1 ∧ transferHashB = sorted.2)
    "ConflictProofV3 transfer hash mismatch"
  let proof : ConflictProofV3 :=
    { type := conflictProofType, version, networkId, tokenId, previousHash, sequence,
      senderAddress := transferA.senderAddress, spendKey, transferHashA, transferHashB, transferA,
      transferB, detectedAt, proofHash }
  let key ← proof.conflictProofKey crypto
  pure ("conflict_v3:" ++ key)

/-! ## What the checks establish -/

/-- Both transfers of a message are signed by their senders. -/
def SignaturesVerify (proof : ConflictProofV3) : Prop :=
  proof.transferA.verifyTransferSignature crypto clock = .ok () ∧
    proof.transferB.verifyTransferSignature crypto clock = .ok ()

/-- The transfers of a message are in the order of their hashes. -/
def InHashOrder (proof : ConflictProofV3) : Prop :=
  ∃ hashA hashB, proof.transferA.transferHash crypto clock = .ok hashA ∧
    proof.transferB.transferHash crypto clock = .ok hashB ∧ hashA < hashB

/-- Two messages are about the same pair of transfers. -/
def SameTransfers (message other : Json) : Prop :=
  ∃ m n, readMessage message = .ok m ∧ readMessage other = .ok n ∧
    s(m.transferA, m.transferB) = s(n.transferA, n.transferB)

/-- The full check accepts what the cheap one lets pass, if the signatures, the order of the transfers and
    the proof hash are right; and the key that the cheap check gives is one for each pair of transfers. -/
structure PrevalidationAgrees : Prop where
  accepted : verifyMessage crypto message clock = .ok () ↔
    (∃ key, cheapPrevalidateV3ConflictProof crypto message clock = .ok key) ∧
      ∃ proof : ConflictProofV3, message = proof.toJson ∧ SignaturesVerify crypto clock proof ∧
        InHashOrder crypto clock proof ∧ proof.conflictProofHash crypto clock = .ok proof.proofHash
  evidenceKey : ∀ other clock' key key',
    cheapPrevalidateV3ConflictProof crypto message clock = .ok key →
      cheapPrevalidateV3ConflictProof crypto other clock' = .ok key' →
        SameTransfers message other → key = key'

/-- What a proof says of two accepted transfers of one state is right, but for their order. -/
structure StatesTransfers (proof : ConflictProofV3) : Prop where
  type_eq : proof.type = conflictProofType
  version_eq : proof.version = 3
  shapeA : proof.transferA.WellShaped crypto proof.networkId true clock
  shapeB : proof.transferB.WellShaped crypto proof.networkId true clock
  sameState : SameState proof.transferA proof.transferB
  tokenId_eq : proof.tokenId = proof.transferA.tokenId
  previousHash_eq : proof.previousHash = proof.transferA.previousHash
  sequence_eq : proof.sequence = proof.transferA.sequence
  sender_eq : proof.senderAddress = proof.transferA.senderAddress
  spendKey_eq : proof.transferA.spendKeyForTransfer crypto = .ok proof.spendKey
  hashes : ∃ hashA hashB, proof.transferA.transferHash crypto clock = .ok hashA ∧
    proof.transferB.transferHash crypto clock = .ok hashB ∧ hashA ≠ hashB ∧
    (proof.transferHashA, proof.transferHashB) = if hashB < hashA then (hashB, hashA) else (hashA, hashB)
  detectedAt_nonneg : 0 ≤ proof.detectedAt

/-- The transfers of a message that is right otherwise are against the order of their hashes, and `==` does
    not tell them apart. -/
def OrderHidden : Prop :=
  ∃ proof : ConflictProofV3, message = proof.toJson ∧ proof.StatesTransfers crypto clock ∧
    SignaturesVerify crypto clock proof ∧ proof.conflictProofHash crypto clock = .ok proof.proofHash ∧
    Twins proof.transferA proof.transferB ∧ ¬ InHashOrder crypto clock proof

variable {crypto message clock}

/-! ## Members and their types -/

@[simp] theorem requireInt_eq_ok {value : Json} {label : String} {n : Int} :
    requireInt value label = .ok n ↔ value = .int n := by
  unfold requireInt
  split
  · simp
  · next hother => exact iff_of_false (fun h => nomatch h) fun h => hother n h

@[simp] theorem requireHexText_eq_ok {value : Json} {label text : String} :
    requireHexText value label = .ok text ↔ value = .str text ∧ IsHex32 text := by
  unfold requireHexText
  split
  · next found =>
    simp only [Check.bind_eq_ok, hex32_eq_ok, Check.pure_eq_ok, Json.str.injEq]
    constructor
    · rintro ⟨_, ⟨hhex, -⟩, rfl⟩
      exact ⟨rfl, hhex⟩
    · rintro ⟨rfl, hhex⟩
      exact ⟨_, ⟨hhex, rfl⟩, rfl⟩
  · next hother =>
    refine iff_of_false ?_ fun h => hother text h.1
    rintro ⟨⟩

@[simp] theorem requireAddress_eq_ok {value : Json} {label text : String} :
    requireAddress crypto value label = .ok text ↔ value = .str text ∧ isAddress crypto text = true := by
  unfold requireAddress
  split
  · next found =>
    simp only [validateAddress, Check.bind_eq_ok, Check.require_eq_ok, Check.pure_eq_ok, Json.str.injEq]
    constructor
    · rintro ⟨_, haddress, rfl⟩
      exact ⟨rfl, haddress⟩
    · rintro ⟨rfl, haddress⟩
      exact ⟨(), haddress, rfl⟩
  · next hother =>
    refine iff_of_false ?_ fun h => hother text h.1
    rintro ⟨⟩

@[simp] theorem readTransfer_eq_ok {value : Json} {t : Transfer} :
    readTransfer value = .ok t ↔ value = t.toJson := by
  constructor
  · intro h
    unfold readTransfer at h
    split at h
    · next members =>
      obtain ⟨_, hkeys, h⟩ := Check.bind_eq_ok.1 h
      have hkeys := Check.require_eq_ok.1 hkeys
      split at h
      · next hvalues =>
        cases h
        rw [List.zip_of_prod hkeys hvalues]
        rfl
      · cases h
    · cases h
  · rintro rfl
    rfl

@[simp] theorem readMessage_eq_ok {m : Message} : readMessage message = .ok m ↔ message = m.toJson := by
  constructor
  · intro h
    unfold readMessage at h
    split at h
    · next members =>
      obtain ⟨_, hkeys, h⟩ := Check.bind_eq_ok.1 h
      have hkeys := Check.require_eq_ok.1 hkeys
      split at h
      · next hvalues =>
        cases h
        rw [List.zip_of_prod hkeys hvalues]
        rfl
      · cases h
    · cases h
  · rintro rfl
    rfl

/-- The members of a message are those of a proof as soon as each has its type. -/
theorem eq_toJson {proof : ConflictProofV3} {m : Message} (h : message = m.toJson)
    (hm : m = proof.asMessage) : message = proof.toJson := by
  rw [h, hm]
  rfl

/-- **The full check of a message is the check of the proof that it holds.** -/
theorem verifyMessage_eq_ok {u : Unit} : verifyMessage crypto message clock = .ok u ↔
    ∃ proof : ConflictProofV3, message = proof.toJson ∧
      verifyConflictProof crypto proof (some proof.networkId) clock = .ok () := by
  simp only [verifyMessage, verifyConflictProof, requireNetwork, Check.bind_eq_ok, Check.require_eq_ok,
    requireMin_eq_ok, readMessage_eq_ok, requireInt_eq_ok, requireHexText_eq_ok, requireAddress_eq_ok,
    readTransfer_eq_ok, hex32_eq_ok, validateAddress, Check.pure_eq_ok]
  constructor
  · rintro ⟨m, hm, _, htype, version, hversion, _, rfl, networkId, hnetwork, _, hnetworkMin, tokenId,
      ⟨htoken, htokenHex⟩, previousHash, ⟨hprevious, hpreviousHex⟩, sequence, hsequence, _, hsequenceMin,
      sender, ⟨hsender, haddress⟩, spendKey, ⟨hspendKey, hspendKeyHex⟩, transferHashA, ⟨hhashA, hhashAHex⟩,
      transferHashB, ⟨hhashB, hhashBHex⟩, detectedAt, hdetected, _, hdetectedMin, transferA, hA, transferB,
      hB, c, hc, expectedKey, hkey, _, hfill, hash, hhash, hproofHash⟩
    refine ⟨⟨conflictProofType, 3, networkId, tokenId, previousHash, sequence, sender, spendKey,
        transferHashA, transferHashB, transferA, transferB, detectedAt, hash⟩, eq_toJson hm ?_, (), rfl, (),
      rfl, (), hnetworkMin, (), fun _ he => Option.some.inj he, _, ⟨htokenHex, rfl⟩, _, ⟨hpreviousHex, rfl⟩,
      (), hsequenceMin, _, ⟨(), haddress, rfl⟩, _, ⟨hspendKeyHex, rfl⟩, _, ⟨hhashAHex, rfl⟩, _,
      ⟨hhashBHex, rfl⟩, (), hdetectedMin, c, hc, expectedKey, hkey, (), hfill, hash, ?_, rfl⟩
    · exact Message.ext htype hversion hnetwork htoken hprevious hsequence hsender hspendKey hhashA hhashB hA
        hB hdetected hproofHash
    · exact hhash
  · rintro ⟨proof, rfl, _, htype, _, hversion, _, hnetworkMin, _, -, _, ⟨htokenHex, rfl⟩, _,
      ⟨hpreviousHex, rfl⟩, _, hsequenceMin, _, ⟨_, haddress, rfl⟩, _, ⟨hspendKeyHex, rfl⟩, _,
      ⟨hhashAHex, rfl⟩, _, ⟨hhashBHex, rfl⟩, _, hdetectedMin, c, hc, expectedKey, hkey, _, hfill, hash, hhash,
      hproofHash⟩
    refine ⟨proof.asMessage, rfl, (), congrArg Json.str htype, proof.version, rfl, (), hversion,
      proof.networkId, rfl, (), hnetworkMin, proof.tokenId, ⟨rfl, htokenHex⟩, proof.previousHash,
      ⟨rfl, hpreviousHex⟩, proof.sequence, rfl, (), hsequenceMin, proof.senderAddress, ⟨rfl, haddress⟩,
      proof.spendKey, ⟨rfl, hspendKeyHex⟩, proof.transferHashA, ⟨rfl, hhashAHex⟩, proof.transferHashB,
      ⟨rfl, hhashBHex⟩, proof.detectedAt, rfl, (), hdetectedMin, proof.transferA, rfl, proof.transferB, rfl, c,
      hc, expectedKey, hkey, (), ?_, hash, hhash, congrArg Json.str hproofHash⟩
    rw [← htype]
    exact hfill

/-- **The cheap check passes what states its transfers rightly**, whatever the order and the signatures. -/
theorem cheapPrevalidate_eq_ok {key : String} :
    cheapPrevalidateV3ConflictProof crypto message clock = .ok key ↔
      ∃ proof : ConflictProofV3, message = proof.toJson ∧ proof.StatesTransfers crypto clock ∧
        IsHex32 proof.proofHash ∧
        ∃ hash, proof.conflictProofKey crypto = .ok hash ∧ "conflict_v3:" ++ hash = key := by
  simp only [cheapPrevalidateV3ConflictProof, requireTransfer, Check.bind_eq_ok, Check.require_eq_ok,
    requireMin_eq_ok, readMessage_eq_ok, requireInt_eq_ok, requireHexText_eq_ok, readTransfer_eq_ok,
    Check.pure_eq_ok, Transfer.validateTransferShape_eq_ok]
  constructor
  · rintro ⟨m, hm, _, htype, version, hversion, _, rfl, networkId, hnetwork, _, -, tokenId, ⟨htoken, -⟩,
      previousHash, ⟨hprevious, -⟩, sequence, hsequence, _, -, spendKey, ⟨hspendKey, -⟩, transferHashA,
      ⟨hhashA, -⟩, transferHashB, ⟨hhashB, -⟩, detectedAt, hdetected, _, hnonneg, proofHash,
      ⟨hproofHash, hhex⟩, transferA, hA, _, hshapeA, transferB, hB, _, hshapeB, h⟩
    obtain ⟨_, ⟨_, rfl, _, rfl, _, rfl, hsenderA⟩, _, ⟨_, htokenB, _, hpreviousB, _, hsequenceB, hsenderB⟩,
      keyA, hkeyA, keyB, hkeyB, _, rfl, _, rfl, hashA, hhashA', hashB, hhashB', _, hne, _, hsorted, hash,
      hhash, hkey⟩ := h
    refine ⟨_, eq_toJson hm ?_, ⟨rfl, rfl, hshapeA, hshapeB, ⟨htokenB.symm, hsequenceB.symm,
      hpreviousB.symm, ?_⟩, rfl, rfl, rfl, rfl, hkeyA, ⟨hashA, hashB, hhashA', hhashB', hne, ?_⟩, hnonneg⟩,
      hhex, hash, hhash, hkey⟩
    · exact Message.ext htype hversion hnetwork htoken hprevious hsequence hsenderA.symm hspendKey hhashA
        hhashB hA hB hdetected hproofHash
    · exact Json.str.inj (hsenderA.trans hsenderB.symm)
    · exact Prod.ext hsorted.1 hsorted.2
  · rintro ⟨proof, rfl, h, hhex, hash, hhash, hkey⟩
    obtain ⟨hashA, hashB, hhashA, hhashB, hne, hsorted⟩ := h.hashes
    obtain ⟨key, hspendKey, hspendKeyHex⟩ := exists_spendKey hhashA
    obtain rfl : proof.spendKey = key := Except.ok.inj (h.spendKey_eq.symm.trans hspendKey)
    have hhashAHex := (Transfer.hashed_of_transferHash hhashA).hash_hex
    have hhashBHex := (Transfer.hashed_of_transferHash hhashB).hash_hex
    have hhex32 : IsHex32 proof.transferHashA ∧ IsHex32 proof.transferHashB := by
      split at hsorted
      · obtain ⟨hfirst, hsecond⟩ := Prod.mk.inj hsorted
        exact ⟨hfirst ▸ hhashBHex, hsecond ▸ hhashAHex⟩
      · obtain ⟨hfirst, hsecond⟩ := Prod.mk.inj hsorted
        exact ⟨hfirst ▸ hhashAHex, hsecond ▸ hhashBHex⟩
    refine ⟨proof.asMessage, rfl, (), congrArg Json.str h.type_eq, proof.version, rfl, (), h.version_eq,
      proof.networkId, rfl, (), ?_, proof.tokenId, ⟨rfl, ?_⟩, proof.previousHash, ⟨rfl, ?_⟩, proof.sequence,
      rfl, (), ?_, proof.spendKey, ⟨rfl, hspendKeyHex⟩, proof.transferHashA, ⟨rfl, hhex32.1⟩,
      proof.transferHashB, ⟨rfl, hhex32.2⟩, proof.detectedAt, rfl, (), h.detectedAt_nonneg, proof.proofHash,
      ⟨rfl, hhex⟩, proof.transferA, rfl, (), h.shapeA, proof.transferB, rfl, (), h.shapeB, (),
      ⟨(), h.tokenId_eq.symm, (), h.previousHash_eq.symm, (), h.sequence_eq.symm,
        congrArg Json.str h.sender_eq.symm⟩, (), ⟨(), ?_, (), ?_, (), ?_, congrArg Json.str ?_⟩,
      proof.spendKey, hspendKey, proof.spendKey, ?_, (), rfl, (), rfl, hashA, hhashA, hashB, hhashB, (), hne,
      (), ⟨congrArg Prod.fst hsorted, congrArg Prod.snd hsorted⟩, hash, ?_, hkey⟩
    · rw [← h.shapeA.networkId_eq]
      exact h.shapeA.networkId_nonneg
    · rw [h.tokenId_eq]
      exact h.shapeA.tokenId_hex
    · rw [h.previousHash_eq]
      exact h.shapeA.previousHash_hex
    · rw [h.sequence_eq]
      exact h.shapeA.sequence_pos
    · exact h.sameState.tokenId_eq.symm.trans h.tokenId_eq.symm
    · exact h.sameState.previousHash_eq.symm.trans h.previousHash_eq.symm
    · exact h.sameState.sequence_eq.symm.trans h.sequence_eq.symm
    · exact h.sameState.sender_eq.symm.trans h.sender_eq.symm
    · exact h.sameState.spendKey_eq.symm.trans hspendKey
    · rw [← hhash]
      unfold conflictProofKey keyIdentity
      rw [h.sender_eq]

/-! ## The two checks together -/

section Typed

variable {proof : ConflictProofV3}

theorem StatesTransfers.of_lists {c : Conflict} (h : proof.Verified crypto clock)
    (hsorted : c.Sorted crypto proof.networkId clock) (hlists : proof.Lists c) :
    proof.StatesTransfers crypto clock := by
  obtain ⟨hacceptedA, hacceptedB, hsame, -⟩ := hlists.facts hsorted
  refine ⟨h.type_eq, h.version_eq, hacceptedA.shape, hacceptedB.shape, hsame, h.tokenId_eq,
    h.previousHash_eq, h.sequence_eq, h.sender_eq, h.spendKey_eq, ?_, h.detectedAt_nonneg⟩
  rcases hlists with rfl | ⟨rfl, -⟩
  · exact ⟨_, _, hsorted.hashA_eq, hsorted.hashB_eq, ne_of_lt hsorted.lt,
      (if_neg (lt_asymm hsorted.lt)).symm⟩
  · exact ⟨_, _, hsorted.hashB_eq, hsorted.hashA_eq, ne_of_gt hsorted.lt, (if_pos hsorted.lt).symm⟩

/-- **A proof is verified exactly if it states its transfers rightly, both are signed, the proof hash is
    right, and the transfers are in order or `==` does not tell them apart.** -/
theorem verified_iff : proof.Verified crypto clock ↔ proof.StatesTransfers crypto clock ∧
    SignaturesVerify crypto clock proof ∧ proof.conflictProofHash crypto clock = .ok proof.proofHash ∧
      (InHashOrder crypto clock proof ∨ Twins proof.transferA proof.transferB) := by
  constructor
  · intro h
    obtain ⟨c, hsorted, hlists⟩ := h.sorted
    obtain ⟨hacceptedA, hacceptedB, -, -⟩ := hlists.facts hsorted
    refine ⟨.of_lists h hsorted hlists, ⟨hacceptedA.signature_valid, hacceptedB.signature_valid⟩,
      h.proofHash_eq, ?_⟩
    rcases hlists with rfl | ⟨rfl, htwins⟩
    · exact Or.inl ⟨_, _, hsorted.hashA_eq, hsorted.hashB_eq, hsorted.lt⟩
    · exact Or.inr htwins
  · rintro ⟨h, ⟨hsignedA, hsignedB⟩, hhash, horder⟩
    obtain ⟨hashA, hashB, hhashA, hhashB, hne, hlisted⟩ := h.hashes
    refine ⟨h.type_eq, h.version_eq, ?_, h.tokenId_eq, h.previousHash_eq, h.sequence_eq, h.sender_eq,
      h.spendKey_eq, h.detectedAt_nonneg, hhash⟩
    by_cases hlt : hashB < hashA
    · rw [if_pos hlt] at hlisted
      obtain ⟨hfirst, hsecond⟩ := Prod.mk.inj hlisted
      refine ⟨⟨proof.transferB, proof.transferA, hashB, hashA⟩, ⟨⟨h.shapeB, hsignedB⟩,
        ⟨h.shapeA, hsignedA⟩, h.sameState.symm, hhashB, hhashA, hlt⟩, Or.inr ⟨?_, ?_⟩⟩
      · rw [exchanged, hfirst, hsecond]
      · refine horder.resolve_left ?_
        rintro ⟨hashA', hashB', hA, hB, hlt'⟩
        rw [hhashA] at hA
        rw [hhashB] at hB
        cases hA
        cases hB
        exact lt_asymm hlt hlt'
    · rw [if_neg hlt] at hlisted
      obtain ⟨hfirst, hsecond⟩ := Prod.mk.inj hlisted
      refine ⟨⟨proof.transferA, proof.transferB, hashA, hashB⟩, ⟨⟨h.shapeA, hsignedA⟩,
        ⟨h.shapeB, hsignedB⟩, h.sameState, hhashA, hhashB, lt_of_le_of_ne (not_lt.1 hlt) hne⟩, Or.inl ?_⟩
      rw [conflict, hfirst, hsecond]

theorem isHex32_of_conflictProofHash {hash : String}
    (h : proof.conflictProofHash crypto clock = .ok hash) : IsHex32 hash := by
  simp only [conflictProofHash, BinaryV3.objectHash, Check.bind_eq_ok, Check.pure_eq_ok] at h
  obtain ⟨_, -, _, ⟨_, -, _, -, rfl⟩, rfl⟩ := h
  exact isHex32_hex (crypto.length_sha3_256 _)

/-- The hashes that a proof states are those of its transfers, in whatever order it has the two. -/
theorem StatesTransfers.hashes_eq {proof' : ConflictProofV3} {clock' : Int}
    (h : proof.StatesTransfers crypto clock) (h' : proof'.StatesTransfers crypto clock')
    (hsame : s(proof.transferA, proof.transferB) = s(proof'.transferA, proof'.transferB)) :
    (proof.transferHashA, proof.transferHashB) = (proof'.transferHashA, proof'.transferHashB) := by
  obtain ⟨hashA, hashB, hA, hB, hne, hlisted⟩ := h.hashes
  obtain ⟨hashA', hashB', hA', hB', -, hlisted'⟩ := h'.hashes
  rw [hlisted, hlisted']
  rcases Sym2.eq_iff.1 hsame with ⟨heqA, heqB⟩ | ⟨heqA, heqB⟩
  · rw [heqA] at hA
    rw [heqB] at hB
    rw [Transfer.transferHash_unique hA hA', Transfer.transferHash_unique hB hB']
  · rw [heqA] at hA
    rw [heqB] at hB
    obtain rfl := Transfer.transferHash_unique hA hB'
    obtain rfl := Transfer.transferHash_unique hB hA'
    rcases lt_or_gt_of_ne hne with hlt | hlt
    · rw [if_neg (lt_asymm hlt), if_pos hlt]
    · rw [if_pos hlt, if_neg (lt_asymm hlt)]

/-- What a proof is known by depends on its transfers only, and not on their order. -/
theorem StatesTransfers.conflictProofKey_eq {proof' : ConflictProofV3} {clock' : Int}
    (h : proof.StatesTransfers crypto clock) (h' : proof'.StatesTransfers crypto clock')
    (hsame : s(proof.transferA, proof.transferB) = s(proof'.transferA, proof'.transferB)) :
    proof.conflictProofKey crypto = proof'.conflictProofKey crypto := by
  have hfacts : proof.networkId = proof'.networkId ∧ SameState proof.transferA proof'.transferA := by
    rcases Sym2.eq_iff.1 hsame with ⟨heqA, -⟩ | ⟨heqA, -⟩
    · exact ⟨h.shapeA.networkId_eq.symm.trans (heqA ▸ h'.shapeA.networkId_eq), heqA ▸ ⟨rfl, rfl, rfl, rfl⟩⟩
    · exact ⟨h.shapeA.networkId_eq.symm.trans (heqA ▸ h'.shapeB.networkId_eq), heqA ▸ h'.sameState.symm⟩
  obtain ⟨hnetwork, hstate⟩ := hfacts
  obtain ⟨hhashA, hhashB⟩ := Prod.mk.inj (h.hashes_eq h' hsame)
  unfold conflictProofKey keyIdentity
  rw [hnetwork, hhashA, hhashB, h.tokenId_eq, h'.tokenId_eq, h.previousHash_eq, h'.previousHash_eq,
    h.sequence_eq, h'.sequence_eq, h.sender_eq, h'.sender_eq, hstate.tokenId_eq, hstate.previousHash_eq,
    hstate.sequence_eq, hstate.sender_eq, h.version_eq, h'.version_eq]

theorem asMessage_inj {proof' : ConflictProofV3} (h : proof.asMessage = proof'.asMessage) :
    proof = proof' := by
  cases proof
  cases proof'
  simp only [asMessage, Message.mk.injEq, Json.str.injEq, Json.int.injEq] at h
  obtain ⟨rfl, rfl, rfl, rfl, rfl, rfl, rfl, rfl, rfl, rfl, hA, hB, rfl, rfl⟩ := h
  rw [Transfer.toJson_inj hA, Transfer.toJson_inj hB]

theorem toJson_inj {proof' : ConflictProofV3} (h : proof.toJson = proof'.toJson) : proof = proof' :=
  asMessage_inj (Except.ok.inj ((readMessage_eq_ok.2 rfl).symm.trans (readMessage_eq_ok.2 h)))

end Typed

/-- What is verified passes the cheap check. -/
theorem Verified.exists_cheapPrevalidate {proof : ConflictProofV3} (h : proof.Verified crypto clock) :
    ∃ key, cheapPrevalidateV3ConflictProof crypto proof.toJson clock = .ok key := by
  obtain ⟨input, hinput⟩ := h.exists_keyInput
  obtain ⟨hstates, -, hhash, -⟩ := verified_iff.1 h
  exact ⟨_, cheapPrevalidate_eq_ok.2 ⟨proof, rfl, hstates, isHex32_of_conflictProofHash hhash, _,
    h.conflictProofKey_eq hinput, rfl⟩⟩

theorem verifyMessage_toJson {proof : ConflictProofV3} :
    verifyMessage crypto proof.toJson clock = .ok () ↔ proof.Verified crypto clock := by
  rw [verifyMessage_eq_ok]
  constructor
  · rintro ⟨proof', hmessage, hverify⟩
    rw [toJson_inj hmessage]
    exact (verifyConflictProof_eq_ok.1 hverify).2
  · intro h
    exact ⟨proof, rfl, verifyConflictProof_eq_ok.2 ⟨fun _ he => Option.some.inj he, h⟩⟩

/-- One pair of transfers has one key in the duplicate cache. -/
theorem evidenceKey_eq {other : Json} {clock' : Int} {key key' : String}
    (h : cheapPrevalidateV3ConflictProof crypto message clock = .ok key)
    (h' : cheapPrevalidateV3ConflictProof crypto other clock' = .ok key')
    (hsame : SameTransfers message other) : key = key' := by
  obtain ⟨proof, rfl, hstates, -, hash, hhash, rfl⟩ := cheapPrevalidate_eq_ok.1 h
  obtain ⟨proof', rfl, hstates', -, hash', hhash', rfl⟩ := cheapPrevalidate_eq_ok.1 h'
  obtain ⟨m, n, hm, hn, hpair⟩ := hsame
  obtain rfl : proof.asMessage = m := Except.ok.inj ((readMessage_eq_ok.2 rfl).symm.trans hm)
  obtain rfl : proof'.asMessage = n := Except.ok.inj ((readMessage_eq_ok.2 rfl).symm.trans hn)
  have htransfers : s(proof.transferA, proof.transferB) = s(proof'.transferA, proof'.transferB) := by
    rcases Sym2.eq_iff.1 hpair with ⟨hA, hB⟩ | ⟨hA, hB⟩
    · rw [Transfer.toJson_inj hA, Transfer.toJson_inj hB]
    · rw [Transfer.toJson_inj hA, Transfer.toJson_inj hB, Sym2.eq_swap]
  rw [hstates.conflictProofKey_eq hstates' htransfers] at hhash
  rw [Except.ok.inj (hhash.symm.trans hhash')]

/-- **The cheap check and the full one agree on a message exactly if `==` does not hide the order of its
    transfers.** -/
theorem prevalidationAgrees_iff (crypto : Crypto) (message : Json) (clock : Int) :
    PrevalidationAgrees crypto message clock ↔ ¬ OrderHidden crypto message clock := by
  constructor
  · rintro hagrees ⟨proof, rfl, hstates, hsigned, hhash, htwins, horder⟩
    have hverified := verified_iff.2 ⟨hstates, hsigned, hhash, Or.inr htwins⟩
    obtain ⟨-, proof', hmessage, -, horder', -⟩ := hagrees.accepted.1 (verifyMessage_toJson.2 hverified)
    obtain rfl := toJson_inj hmessage
    exact horder horder'
  · intro hhidden
    refine ⟨⟨fun hverify => ?_, ?_⟩, fun other clock' key key' hkey hkey' hsame =>
      evidenceKey_eq hkey hkey' hsame⟩
    · obtain ⟨proof, rfl, -⟩ := verifyMessage_eq_ok.1 hverify
      have hverified := verifyMessage_toJson.1 hverify
      obtain ⟨hstates, hsigned, hhash, horder⟩ := verified_iff.1 hverified
      refine ⟨hverified.exists_cheapPrevalidate, proof, rfl, hsigned, ?_, hhash⟩
      by_contra hnot
      exact hhidden ⟨proof, rfl, hstates, hsigned, hhash, horder.resolve_left hnot, hnot⟩
    · rintro ⟨⟨key, hkey⟩, proof, rfl, hsigned, horder, hhash⟩
      obtain ⟨proof', hmessage, hstates, -⟩ := cheapPrevalidate_eq_ok.1 hkey
      obtain rfl := toJson_inj hmessage
      exact verifyMessage_toJson.2 (verified_iff.2 ⟨hstates, hsigned, hhash, Or.inl horder⟩)

/-! ## Two transfers that `==` does not tell apart -/

/-- A transfer with one metadata member. Its signature is one that verifies for every message, as there are
    under public keys of small order. -/
def twin (value : Json) : Transfer where
  type := transferType
  version := 3
  networkId := 1
  signatureAlgorithm := BinaryV3.signatureAlgorithmId
  tokenId := zeroHash
  sequence := 1
  previousHash := zeroHash
  senderAddress := "x34vJ9JU1bJJE96FWSJKvHsmmF111111x"
  senderPublicKey := "indpk3:0000000000000000000000000000000000000000"
  recipientAddress := "x34vJ9JU1bJJE96FWSJKvHsmmF111111x"
  timestamp := 2000
  metadata := .obj [("a", value)]
  signature := zeroHash ++ zeroHash

/-- The hash of the transfer with the longer text. -/
def longerHash : String := "0101010101010101010101010101010101010101010101010101010101010101"

theorem transferHash_twins :
    (twin (.bool true)).transferHash MirroredBundles.parityCrypto 5000 = .ok longerHash ∧
      (twin (.int 1)).transferHash MirroredBundles.parityCrypto 5000 = .ok zeroHash := by
  decide +kernel

theorem publicKeyMatchesAddress_twin : publicKeyMatchesAddress MirroredBundles.parityCrypto
    "indpk3:0000000000000000000000000000000000000000" "x34vJ9JU1bJJE96FWSJKvHsmmF111111x" = true := by
  decide +kernel

theorem fromhex_twin : Text.fromhex (zeroHash ++ zeroHash) = some (List.replicate 64 0) := by
  decide +kernel

theorem zeroHash_lt_longerHash : zeroHash < longerHash := by
  decide +kernel

theorem verifyTransferSignature_twin {value : Json} {hash : String}
    (h : (twin value).Hashed MirroredBundles.parityCrypto 5000 hash) :
    (twin value).verifyTransferSignature MirroredBundles.parityCrypto 5000 = .ok () := by
  obtain ⟨raw, hraw⟩ := h.shape.publicKey_valid
  have hunsigned : (twin value).WellShaped MirroredBundles.parityCrypto (twin value).networkId false 5000 :=
    { h.shape with signature_valid := fun hfalse => nomatch hfalse }
  obtain ⟨preimage, hpreimage⟩ := Transfer.exists_transferSigningPreimage hunsigned h.networkId_le
    h.sequence_le h.timestamp_le
  simp only [Transfer.verifyTransferSignature, verifyKeySignature, Check.bind_eq_ok, Check.require_eq_ok,
    Check.ofOption_eq_ok, Check.pure_eq_ok]
  exact ⟨(), publicKeyMatchesAddress_twin, _, fromhex_twin, preimage, hpreimage, true, ⟨raw, hraw, rfl⟩,
    rfl⟩

/-- A proof that lists the transfer with the greater hash first is verified. -/
theorem exists_twinProof : ∃ proof : ConflictProofV3, proof.Verified MirroredBundles.parityCrypto 5000 ∧
    proof.transferA = twin (.bool true) ∧ proof.transferB = twin (.int 1) := by
  have hA := Transfer.hashed_of_transferHash transferHash_twins.1
  have hB := Transfer.hashed_of_transferHash transferHash_twins.2
  obtain ⟨key, hkey, hkeyHex⟩ := exists_spendKey transferHash_twins.1
  obtain ⟨hash, hhash⟩ := exists_conflictProofHash
    (c := ⟨twin (.bool true), twin (.int 1), zeroHash, longerHash⟩) hA hB hA.shape hB.hash_hex hA.hash_hex
    hkeyHex ⟨le_rfl, by decide⟩
  refine ⟨{ unsignedProof 1 ⟨twin (.bool true), twin (.int 1), zeroHash, longerHash⟩ key 0 with
    proofHash := hash }, verified_iff.2 ⟨?_, ?_, hhash, Or.inr rfl⟩, rfl, rfl⟩
  · refine ⟨rfl, rfl, hA.shape, hB.shape, ⟨rfl, rfl, rfl, rfl⟩, rfl, rfl, rfl, rfl, hkey, ?_, le_rfl⟩
    exact ⟨_, _, transferHash_twins.1, transferHash_twins.2, zeroHash_lt_longerHash.ne',
      (if_pos zeroHash_lt_longerHash).symm⟩
  · exact ⟨verifyTransferSignature_twin hA, verifyTransferSignature_twin hB⟩

/-- **The full check accepts two transfers out of order.** -/
theorem not_prevalidationAgrees : ¬ ∀ (crypto : Crypto) (message : Json) (clock : Int),
    PrevalidationAgrees crypto message clock := by
  intro h
  obtain ⟨proof, hverified, htransferA, htransferB⟩ := exists_twinProof
  obtain ⟨-, proof', hmessage, -, ⟨hashA, hashB, hA, hB, hlt⟩, -⟩ :=
    (h MirroredBundles.parityCrypto proof.toJson 5000).accepted.1 (verifyMessage_toJson.2 hverified)
  obtain rfl := toJson_inj hmessage
  rw [htransferA, transferHash_twins.1] at hA
  rw [htransferB, transferHash_twins.2] at hB
  cases hA
  cases hB
  exact absurd hlt zeroHash_lt_longerHash.asymm

end ConflictProofV3
