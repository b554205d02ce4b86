import InternationalDollar.BillState

set_option autoImplicit false

/-! # Creating transfers (`protocol_v3.create_transfer_from_state`)

The owner of a state signs a transfer that spends it. **Whoever holds the key of the owner address
of a state can spend it**: the created transfer passes every check of the replay. The checks look at
the state alone, so nothing else about the bill enters. -/

namespace BaseState

/-- The transfer that `create_transfer_from_state` signs. -/
def unsignedTransfer (tokenId : String) (state : BaseState)
    (senderAddress senderPublicKey recipientAddress : String) (metadata : Json)
    (timestamp networkId : Int) : Transfer where
  type := transferType
  version := 3
  networkId := networkId
  signatureAlgorithm := BinaryV3.signatureAlgorithmId
  tokenId := tokenId
  sequence := state.sequence + 1
  previousHash := state.lastTransferHash
  senderAddress := senderAddress
  senderPublicKey := senderPublicKey
  recipientAddress := recipientAddress
  timestamp := max timestamp (state.lastTransferTimestamp + 1)
  metadata := metadata
  signature := ""

/-- `create_transfer_from_state`. -/
def createTransferFromState (crypto : Crypto) (tokenId : String) (state : BaseState)
    (senderPrivateKey senderPublicKey recipientAddress : String) (metadata : Json)
    (timestamp networkId clock : Int) : Except String Transfer := do
  validateBaseState crypto state
  let senderAddress ← decodePublicKey senderPublicKey >>= addressFromPublicKey crypto
  Check.require (senderAddress = state.ownerAddress) "TransferV3 sender key is not the current owner"
  let recipient ← validateAddress crypto recipientAddress "TransferV3 recipient address"
  let unsigned := unsignedTransfer tokenId state senderAddress senderPublicKey recipient metadata
    timestamp networkId
  Transfer.validateTransferShape crypto unsigned networkId false clock
  let preimage ← Transfer.transferSigningPreimage crypto unsigned clock
  let signature ← signWithKey crypto senderPrivateKey preimage
  let signed := { unsigned with signature := Text.hex signature }
  Transfer.verifyTransferSignature crypto signed clock
  pure signed

end BaseState

namespace Transfer

/-- The bytes a transfer signs do not depend on its signature. -/
theorem transferSigningPreimage_signature (crypto : Crypto) (t : Transfer) (signature : String)
    (clock : Int) :
    transferSigningPreimage crypto { t with signature := signature } clock
      = transferSigningPreimage crypto t clock := rfl

/-- Metadata that passes its check is written in at most 266 bytes. -/
theorem fits_metadata {metadata : Json} {label : String}
    (h : requireMetadata metadata maxTransferMetadataBytes label = .ok ()) :
    ∃ text, canonicalBytes metadata = .ok text ∧
      BinaryV3.Fits (BinaryV3.encodeBytes text maxTransferMetadataBytes) 266 := by
  unfold requireMetadata at h
  obtain ⟨_, -, h⟩ := Check.bind_eq_ok.1 h
  obtain ⟨_, -, h⟩ := Check.bind_eq_ok.1 h
  obtain ⟨text, htext, h⟩ := Check.bind_eq_ok.1 h
  exact ⟨text, htext, BinaryV3.fits_encodeBytes _ _ (Check.require_eq_ok.1 h) le_rfl (by decide)⟩

/-- A well-shaped transfer whose numbers are within the wire range can be written. -/
theorem fits_encodeUnsignedFields {crypto : Crypto} {t : Transfer} {networkId clock : Int}
    {requireSignature : Bool} (h : t.WellShaped crypto networkId requireSignature clock)
    (hsequence : t.sequence ≤ maxProtocolTimestamp) (htimestamp : t.timestamp ≤ maxProtocolTimestamp) :
    BinaryV3.Fits (encodeUnsignedFields t) 668 := by
  obtain ⟨hsenderLen, hsenderAscii⟩ := ascii_of_isAddress h.sender_valid
  obtain ⟨hrecipientLen, hrecipientAscii⟩ := ascii_of_isAddress h.recipient_valid
  obtain ⟨token, htoken, ltoken⟩ := BinaryV3.fits_encodeHashHex h.tokenId_hex
  obtain ⟨seq, hseq, lseq⟩ :=
    BinaryV3.fits_encodeUvarint _ (by have := h.sequence_pos; omega) hsequence
  obtain ⟨prev, hprev, lprev⟩ := BinaryV3.fits_encodeHashHex h.previousHash_hex
  obtain ⟨sender, hsender, lsender⟩ := BinaryV3.fits_encodeAscii _ 128 128
    hsenderAscii (by omega) le_rfl (by decide)
  obtain ⟨key, hkey⟩ := h.publicKey_valid
  obtain ⟨recipient, hrecipient, lrecipient⟩ := BinaryV3.fits_encodeAscii _ 128 128
    hrecipientAscii (by omega) le_rfl (by decide)
  obtain ⟨time, htime, ltime⟩ := BinaryV3.fits_encodeUvarint _ h.timestamp_nonneg htimestamp
  obtain ⟨text, htext, metadata, hmetadata, lmetadata⟩ := fits_metadata h.metadata_valid
  obtain ⟨algorithm, halgorithm, lalgorithm⟩ := BinaryV3.fits_encodeUvarint
    t.signatureAlgorithm (by rw [h.signatureAlgorithm_eq]; decide)
    (by rw [h.signatureAlgorithm_eq]; decide)
  have lkey : key.length = 32 := length_of_decodePublicKey hkey
  refine ⟨_, by simp only [encodeUnsignedFields, htoken, hseq, hprev, hsender, hkey, hrecipient,
    htime, htext, hmetadata, halgorithm, Check.orRaise, Check.ok_bind]; rfl, ?_⟩
  simp only [List.length_append]
  omega

/-- A well-shaped transfer whose numbers are within the wire range has an encoding. -/
theorem fits_encodeTransferBody {crypto : Crypto} {t : Transfer} {clock : Int}
    {includeSignature : Bool} (h : t.WellShaped crypto t.networkId includeSignature clock)
    (hsequence : t.sequence ≤ maxProtocolTimestamp)
    (htimestamp : t.timestamp ≤ maxProtocolTimestamp) :
    BinaryV3.Fits (encodeTransferBody crypto t includeSignature clock) 732 := by
  obtain ⟨unsigned, hunsigned, lunsigned⟩ := fits_encodeUnsignedFields h hsequence htimestamp
  have hshape : validateTransferShape crypto t t.networkId includeSignature clock = .ok () :=
    validateTransferShape_eq_ok.2 h
  have hnetwork : requireMin t.networkId 0 "TransferV3 network id" = .ok () :=
    requireMin_eq_ok.2 h.networkId_nonneg
  cases includeSignature with
  | false =>
    exact ⟨unsigned, by simp [encodeTransferBody, hnetwork, hshape, hunsigned], by omega⟩
  | true =>
    obtain ⟨signature, hsignature⟩ := h.signature_valid rfl
    have lsignature : signature.length = 64 := by
      simp only [signatureBytes, Check.bind_eq_ok, Check.require_eq_ok, Check.pure_eq_ok] at hsignature
      obtain ⟨_, -, _, hlen, rfl⟩ := hsignature
      exact hlen
    refine ⟨unsigned ++ signature, by simp [encodeTransferBody, hnetwork, hshape, hunsigned,
      hsignature], ?_⟩
    rw [List.length_append]
    omega

theorem exists_encodeTransfer {crypto : Crypto} {t : Transfer} {clock : Int}
    {includeSignature : Bool} (h : t.WellShaped crypto t.networkId includeSignature clock)
    (hnetwork : t.networkId ≤ maxProtocolTimestamp) (hsequence : t.sequence ≤ maxProtocolTimestamp)
    (htimestamp : t.timestamp ≤ maxProtocolTimestamp) :
    BinaryV3.Fits (encodeTransfer crypto t includeSignature clock) 760 := by
  obtain ⟨body, hbody, lbody⟩ := fits_encodeTransferBody h hsequence htimestamp
  obtain ⟨encoded, hencoded, lencoded⟩ := BinaryV3.fits_encodeEnvelope "IND3XFER"
    (by decide) h.networkId_nonneg hnetwork lbody
  exact ⟨encoded, by simp [encodeTransfer, hbody, hencoded], lencoded⟩

/-- A well-shaped transfer within the wire range has a hash. -/
theorem exists_transferHash {crypto : Crypto} {t : Transfer} {clock : Int}
    (h : t.WellShaped crypto t.networkId true clock)
    (hnetwork : t.networkId ≤ maxProtocolTimestamp) (hsequence : t.sequence ≤ maxProtocolTimestamp)
    (htimestamp : t.timestamp ≤ maxProtocolTimestamp) :
    ∃ hash, t.transferHash crypto clock = .ok hash ∧ IsHex32 hash := by
  obtain ⟨encoded, hencoded, lencoded⟩ := exists_encodeTransfer h hnetwork hsequence htimestamp
  obtain ⟨digest, hdigest, ldigest⟩ := BinaryV3.exists_objectHash crypto transferType
    encoded (by decide) (by decide)
    (le_trans lencoded (by decide))
  exact ⟨Text.hex digest, by simp [transferHash, hencoded, hdigest], isHex32_hex ldigest⟩

theorem exists_transferSigningPreimage {crypto : Crypto} {t : Transfer} {clock : Int}
    (h : t.WellShaped crypto t.networkId false clock)
    (hnetwork : t.networkId ≤ maxProtocolTimestamp) (hsequence : t.sequence ≤ maxProtocolTimestamp)
    (htimestamp : t.timestamp ≤ maxProtocolTimestamp) :
    ∃ preimage, transferSigningPreimage crypto t clock = .ok preimage := by
  obtain ⟨encoded, hencoded, lencoded⟩ := exists_encodeTransfer h hnetwork hsequence htimestamp
  obtain ⟨network, hn, -⟩ := BinaryV3.fits_encodeUvarint _ h.networkId_nonneg hnetwork
  obtain ⟨type, htype, -⟩ := BinaryV3.fits_encodeAscii transferType 64 64
    (by decide) (by decide) le_rfl (by decide)
  obtain ⟨domain, hdomain, -⟩ := BinaryV3.fits_encodeAscii transferType 128 128
    (by decide) (by decide) le_rfl (by decide)
  obtain ⟨version, hversion, -⟩ := BinaryV3.fits_encodeUvarint 3 (by decide) (by decide)
  obtain ⟨algorithm, halgorithm, -⟩ := BinaryV3.fits_encodeUvarint
    BinaryV3.signatureAlgorithmId (by decide) (by decide)
  obtain ⟨body, hbody, -⟩ := BinaryV3.fits_encodeBytes encoded
    BinaryV3.maxSigningPreimageObjectBytes lencoded (by decide) (by decide)
  have hu : ∀ {v : Int} (label : String), 0 ≤ v → v ≤ maxProtocolTimestamp →
      BinaryV3.requireUint v label = .ok () := fun _ h0 h1 => BinaryV3.requireUint_eq_ok.2 ⟨h0, h1⟩
  exact ⟨_, by
    simp only [transferSigningPreimage, BinaryV3.signingPreimage, hencoded, hn, htype, hdomain,
      hversion, halgorithm, hbody, Check.ok_bind, hu "network id" h.networkId_nonneg hnetwork,
      hu "object version" (v := 3) (by decide) (by decide),
      hu "signature algorithm" (v := BinaryV3.signatureAlgorithmId) (by decide) (by decide)]
    rfl⟩

end Transfer

/-- **The holder of the owner's key can spend any valid state.** The transfer that
    `create_transfer_from_state` returns is accepted by the replay from that state. -/
theorem exists_spends {crypto : Crypto} (keys : KeyPair crypto) (timestamp : Int)
    {tokenId : String} {state : BaseState} {recipient : String} {metadata : Json}
    {networkId now clock : Int}
    (hstate : state.Valid crypto) (howner : state.ownerAddress = keys.address)
    (htoken : IsHex32 tokenId) (hrecipient : isAddress crypto recipient = true)
    (hmetadata : requireMetadata metadata maxTransferMetadataBytes "TransferV3" = .ok ())
    (hnetwork : 0 ≤ networkId ∧ networkId ≤ maxProtocolTimestamp)
    (hsequence : state.sequence < maxProtocolTimestamp)
    (hnow : 0 ≤ now ∧ now ≤ maxProtocolTimestamp) (hclock : 0 ≤ clock ∧ clock ≤ maxProtocolTimestamp)
    (hlast : state.lastTransferTimestamp < timestamp) (htime : timestamp ≤ maxProtocolTimestamp)
    (hahead : timestamp ≤ now + maxTransferFutureSkewSeconds)
    (hahead' : timestamp ≤ clock + maxTransferFutureSkewSeconds)
    (hday : (if timestamp / 86400 = state.lastTransferDay then state.transfersInLastDay + 1 else 1)
      ≤ maxTransfersPerBillPerDay) :
    ∃ t hash, state.createTransferFromState crypto tokenId keys.privateKey keys.publicKey recipient
        metadata timestamp networkId clock = .ok t ∧
      Spends crypto tokenId networkId now clock state t hash ∧ IsHex32 hash ∧
      t.recipientAddress = recipient ∧ t.timestamp = timestamp ∧ t.metadata = metadata := by
  have hmax : max timestamp (state.lastTransferTimestamp + 1) = timestamp := max_eq_left (by omega)
  let unsigned := state.unsignedTransfer tokenId keys.address keys.publicKey recipient metadata
    timestamp networkId
  have hshape : ∀ time, 0 ≤ time ∧ time ≤ maxProtocolTimestamp →
      timestamp ≤ time + maxTransferFutureSkewSeconds →
      unsigned.WellShaped crypto networkId false time := by
    intro time hvalid hle
    refine ⟨rfl, rfl, hnetwork.1, rfl, rfl, htoken, ?_, hstate.lastTransferHash_hex,
      keys.isAddress_address, hrecipient, ⟨_, keys.decodePublicKey_publicKey⟩, ?_, hvalid, ?_,
      hmetadata, fun h => nomatch h⟩
    · exact Int.le_add_of_nonneg_left hstate.sequence_nonneg
    · change 0 ≤ max timestamp _
      have := hstate.lastTransferTimestamp_nonneg
      omega
    · change max timestamp _ ≤ _
      omega
  have hseq : unsigned.sequence ≤ maxProtocolTimestamp := hsequence
  have hts : unsigned.timestamp ≤ maxProtocolTimestamp := by
    change max timestamp _ ≤ _
    omega
  obtain ⟨preimage, hpreimage⟩ := Transfer.exists_transferSigningPreimage (hshape clock hclock hahead')
    hnetwork.2 hseq hts
  let t : Transfer := { unsigned with signature := Text.hex (crypto.sign keys.seed preimage) }
  have hsig : Transfer.signatureBytes t.signature = .ok (crypto.sign keys.seed preimage) := by
    simp [Transfer.signatureBytes, t, Text.fromhex_hex, crypto.length_sign]
  have hshape' : ∀ time, 0 ≤ time ∧ time ≤ maxProtocolTimestamp →
      timestamp ≤ time + maxTransferFutureSkewSeconds → t.WellShaped crypto networkId true time := by
    intro time hvalid hle
    exact { hshape time hvalid hle with signature_valid := fun _ => ⟨_, hsig⟩ }
  have hverify : t.verifyTransferSignature crypto clock = .ok () := by
    have hpre : t.transferSigningPreimage crypto clock = .ok preimage := hpreimage
    have hkey : t.senderPublicKey = keys.publicKey := rfl
    have haddr : t.senderAddress = keys.address := rfl
    have hhex : Text.fromhex t.signature = some (crypto.sign keys.seed preimage) :=
      Text.fromhex_hex _
    simp [Transfer.verifyTransferSignature, hkey, haddr, keys.publicKeyMatchesAddress_address, hhex,
      hpre, keys.verifyKeySignature_sign]
  obtain ⟨hash, hhash, hhex⟩ := Transfer.exists_transferHash (hshape' clock hclock hahead')
    hnetwork.2 hseq hts
  refine ⟨t, hash, ?_, ⟨hshape' now hnow hahead, rfl, rfl, rfl, howner.symm, ?_, ?_, hverify, hhash⟩,
    hhex, rfl, hmax, rfl⟩
  · have haddress : (decodePublicKey keys.publicKey >>= addressFromPublicKey crypto)
        = .ok keys.address :=
      Check.bind_eq_ok.2 ⟨_, keys.decodePublicKey_publicKey, keys.address_eq⟩
    have hsign : signWithKey crypto keys.privateKey preimage = .ok (crypto.sign keys.seed preimage) :=
      signWithKey_encodePrivateKey crypto keys.length_seed _
    have haddr : validateAddress crypto recipient "TransferV3 recipient address" = .ok recipient := by
      simp [validateAddress, hrecipient]
    unfold BaseState.createTransferFromState
    exact Check.bind_eq_ok.2 ⟨(), BaseState.validateBaseState_eq_ok.2 hstate,
      Check.bind_eq_ok.2 ⟨_, haddress,
      Check.bind_eq_ok.2 ⟨(), Check.require_of howner.symm _,
      Check.bind_eq_ok.2 ⟨_, haddr,
      Check.bind_eq_ok.2 ⟨(), Transfer.validateTransferShape_eq_ok.2 (hshape clock hclock hahead'),
      Check.bind_eq_ok.2 ⟨_, hpreimage,
      Check.bind_eq_ok.2 ⟨_, hsign,
      Check.bind_eq_ok.2 ⟨(), hverify, rfl⟩⟩⟩⟩⟩⟩⟩⟩
  · change _ < max timestamp _
    omega
  · change (if max timestamp _ / 86400 = _ then _ else _) ≤ _
    rwa [hmax]
