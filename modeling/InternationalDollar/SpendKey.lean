import InternationalDollar.GenesisBinding

set_option autoImplicit false

/-! # Transfer hash and spend key

The hash of a transfer is taken over the bytes that its hash texts denote, its spend key over the texts
themselves. `bytes.fromhex` reads either case and skips blanks, and `_validate_transfer_shape` drops the
normalised text that `_hex32` returns; so one transfer, spelled in two ways, has one hash and two spend
keys. The two spellings are all that can differ. -/

namespace Transfer

variable {crypto : Crypto} {t u : Transfer} {clock clock' : Int}

/-- The bytes that the hash of a transfer is taken of. -/
def hashInput (crypto : Crypto) (t : Transfer) (clock : Int) : Except String Bytes := do
  let encoded ← encodeTransfer crypto t true clock
  let prefixed ← BinaryV3.encodeAscii transferType 128
  let body ← BinaryV3.encodeBytes encoded BinaryV3.maxBoundedBytes
  pure (prefixed ++ body)

theorem transferHash_eq_ok {hash : String} : t.transferHash crypto clock = .ok hash ↔
    ∃ input, t.hashInput crypto clock = .ok input ∧ crypto.sha3Hex input = hash := by
  simp only [transferHash, hashInput, BinaryV3.objectHash, Check.bind_eq_ok, Check.pure_eq_ok]
  constructor
  · rintro ⟨encoded, hencoded, _, ⟨prefixed, hprefixed, body, hbody, rfl⟩, rfl⟩
    exact ⟨_, ⟨encoded, hencoded, prefixed, hprefixed, body, hbody, rfl⟩, rfl⟩
  · rintro ⟨_, ⟨encoded, hencoded, prefixed, hprefixed, body, hbody, rfl⟩, rfl⟩
    exact ⟨encoded, hencoded, _, ⟨prefixed, hprefixed, body, hbody, rfl⟩, rfl⟩

/-- The bytes that the spend key of a transfer is taken of. -/
def spendKeyInput (t : Transfer) : Except String Bytes :=
  canonicalBytes (spendKeyMaterial t.tokenId t.previousHash t.senderAddress t.sequence)

theorem spendKeyForTransfer_eq_ok {key : String} : t.spendKeyForTransfer crypto = .ok key ↔
    ∃ input, t.spendKeyInput = .ok input ∧ crypto.sha3Hex input = key := by
  simp only [spendKeyForTransfer, spendKeyInput, sha3Json, Check.bind_eq_ok, Check.pure_eq_ok]

/-- A transfer with a hash has a spend key. -/
theorem Hashed.exists_spendKeyInput {hash : String} (h : t.Hashed crypto clock hash) :
    ∃ input, t.spendKeyInput = .ok input := by
  have hshape := h.shape
  have hsender := (ascii_of_isAddress hshape.sender_valid).1
  rw [String.length_toList] at hsender
  have hsequence : t.sequence.natAbs ≤ jsonLimits.maxIntegerAbs := by
    have hle := h.sequence_le
    have hpos := hshape.sequence_pos
    have hmax : (jsonLimits.maxIntegerAbs : Int) = maxProtocolTimestamp := rfl
    omega
  have hmembers : 4 ≤ jsonLimits.maxObjectKeys := by decide
  refine ⟨_, canonicalBytes_eq_ok.2 ⟨Json.validate_obj.2 ⟨by decide, hmembers, ?_⟩, rfl⟩⟩
  simp only [List.forall_mem_cons]
  exact ⟨⟨by decide, validate_text (by decide) (by rw [hshape.previousHash_hex.1]; decide)⟩,
    ⟨by decide, validate_text (by decide) (by rw [hsender]; decide)⟩,
    ⟨by decide, validate_number (by decide) hsequence⟩,
    ⟨by decide, validate_text (by decide) (by rw [hshape.tokenId_hex.1]; decide)⟩, by simp⟩

/-- The bytes of two transfers agree in the sequence number and the sender, if they spell their token id
    and their previous hash in the same way. -/
theorem eq_of_hashInput {input : Bytes} (ht : t.hashInput crypto clock = .ok input)
    (hu : u.hashInput crypto clock' = .ok input) (htoken : t.tokenId = u.tokenId)
    (hprevious : t.previousHash = u.previousHash) :
    t.sequence = u.sequence ∧ t.senderAddress = u.senderAddress := by
  simp only [hashInput, encodeTransfer, Check.bind_eq_ok, Check.pure_eq_ok] at ht hu
  obtain ⟨encoded, ⟨fields, hfields, henvelope⟩, pre, hpre, body, hbody, rfl⟩ := ht
  obtain ⟨encoded', ⟨fields', hfields', henvelope'⟩, pre', hpre', body', hbody', heq⟩ := hu
  obtain rfl := Except.ok.inj (hpre.symm.trans hpre')
  obtain rfl := List.append_cancel_left heq
  obtain rfl := BinaryV3.encodeBytes_inj hbody hbody'
  obtain ⟨-, rfl⟩ := BinaryV3.encodeEnvelope_inj henvelope henvelope'
  -- The bodies agree, and with them the fields one after another.
  simp only [encodeTransferBody, encodeUnsignedFields, if_true, Check.bind_eq_ok,
    Check.pure_eq_ok] at hfields hfields'
  obtain ⟨_, -, _, -, _, ⟨token, htok, seq, hseq, prev, hprev, sender, hsender, _, -, _, -, _, -, _, -,
    _, -, _, -, rfl⟩, _, -, rfl⟩ := hfields
  obtain ⟨_, -, _, -, _, ⟨token', htok', seq', hseq', prev', hprev', sender', hsender', _, -, _, -, _, -,
    _, -, _, -, _, -, rfl⟩, _, -, hsame⟩ := hfields'
  simp only [List.append_assoc] at hsame
  rw [htoken] at htok
  rw [hprevious] at hprev
  obtain rfl := Except.ok.inj (htok.symm.trans htok')
  obtain rfl := Except.ok.inj (hprev.symm.trans hprev')
  obtain ⟨hsequence, hsame⟩ := BinaryV3.encodeUvarint_append_inj hseq' hseq
    (List.append_cancel_left hsame)
  obtain ⟨hsenders, -⟩ := BinaryV3.encodeAscii_append_inj hsender' hsender
    (List.append_cancel_left hsame)
  exact ⟨hsequence.symm, hsenders.symm⟩

/-- **Two transfers with one hash have one spend key if and only if they spell their token id and their
    previous hash in the same way.** SHA3 is asked to be injective on the bytes hashed for the two
    only. -/
theorem spendKey_eq_iff {hash : String} (ht : t.transferHash crypto clock = .ok hash)
    (hu : u.transferHash crypto clock' = .ok hash)
    (hinputs : ∀ a b, t.hashInput crypto clock = .ok a → u.hashInput crypto clock' = .ok b →
      crypto.sha3_256 a = crypto.sha3_256 b → a = b)
    (hkeys : ∀ a b, t.spendKeyInput = .ok a → u.spendKeyInput = .ok b →
      crypto.sha3_256 a = crypto.sha3_256 b → a = b) :
    t.spendKeyForTransfer crypto = u.spendKeyForTransfer crypto ↔
      t.tokenId = u.tokenId ∧ t.previousHash = u.previousHash := by
  constructor
  · intro heq
    obtain ⟨a, ha⟩ := (hashed_of_transferHash ht).exists_spendKeyInput
    obtain ⟨b, hb⟩ := (hashed_of_transferHash hu).exists_spendKeyInput
    rw [spendKeyForTransfer_eq_ok.2 ⟨a, ha, rfl⟩, spendKeyForTransfer_eq_ok.2 ⟨b, hb, rfl⟩] at heq
    have hab := hkeys a b ha hb (Text.hex_injective (Except.ok.inj heq))
    rw [hab] at ha
    have hmaterial := canonicalBytes_inj ha hb
    simp only [spendKeyMaterial, Json.obj.injEq, List.cons.injEq, Prod.mk.injEq, Json.str.injEq,
      true_and, and_true] at hmaterial
    exact ⟨hmaterial.2.2.2, hmaterial.1⟩
  · rintro ⟨htoken, hprevious⟩
    obtain ⟨a, ha, hasha⟩ := transferHash_eq_ok.1 ht
    obtain ⟨b, hb, hashb⟩ := transferHash_eq_ok.1 hu
    have hab := hinputs a b ha hb (Text.hex_injective (hasha.trans hashb.symm))
    rw [← hab] at hb
    obtain ⟨hsequence, hsender⟩ := eq_of_hashInput ha hb htoken hprevious
    unfold spendKeyForTransfer
    rw [htoken, hprevious, hsequence, hsender]

/-! ## Two spellings -/

theorem hex32_bind_congr {β : Type} {a b label : String} (hlength : a.length = b.length)
    (hhex : Text.fromhex a = Text.fromhex b) (next : Except String β) :
    (hex32 a label >>= fun _ => next) = (hex32 b label >>= fun _ => next) := by
  unfold hex32 Check.require
  rw [hlength, hhex]
  split
  · rfl
  · rfl

theorem encodeHashHex_congr {a b : String} (hlength : a.length = b.length)
    (hhex : Text.fromhex a = Text.fromhex b) :
    BinaryV3.encodeHashHex a = BinaryV3.encodeHashHex b := by
  unfold BinaryV3.encodeHashHex
  rw [hlength, hhex]

/-- The checks and the bytes of a transfer do not depend on how its previous hash is spelled. -/
theorem encodeTransfer_respelled {text : String} (hlength : text.length = t.previousHash.length)
    (hhex : Text.fromhex text = Text.fromhex t.previousHash) (includeSignature : Bool) :
    encodeTransfer crypto { t with previousHash := text } includeSignature clock
      = encodeTransfer crypto t includeSignature clock := by
  have hshape : ∀ networkId,
      validateTransferShape crypto { t with previousHash := text } networkId includeSignature clock
        = validateTransferShape crypto t networkId includeSignature clock := by
    intro networkId
    unfold validateTransferShape
    rw [hex32_bind_congr hlength hhex]
  unfold encodeTransfer encodeTransferBody encodeUnsignedFields
  rw [hshape, encodeHashHex_congr hlength hhex]

section Respelled

variable {text : String} (hlength : text.length = t.previousHash.length)
  (hhex : Text.fromhex text = Text.fromhex t.previousHash)

include hlength hhex

theorem WellShaped.respelled {networkId : Int} {requireSignature : Bool}
    (h : t.WellShaped crypto networkId requireSignature clock) :
    { t with previousHash := text }.WellShaped crypto networkId requireSignature clock where
  __ := h
  previousHash_hex := ⟨hlength.trans h.previousHash_hex.1, by rw [hhex]; exact h.previousHash_hex.2⟩

theorem verifyTransferSignature_respelled :
    verifyTransferSignature crypto { t with previousHash := text } clock
      = verifyTransferSignature crypto t clock := by
  unfold verifyTransferSignature transferSigningPreimage
  rw [encodeTransfer_respelled hlength hhex]

theorem hashInput_respelled :
    hashInput crypto { t with previousHash := text } clock = hashInput crypto t clock := by
  unfold hashInput
  rw [encodeTransfer_respelled hlength hhex]

theorem transferHash_respelled :
    transferHash crypto { t with previousHash := text } clock = transferHash crypto t clock := by
  unfold transferHash
  rw [encodeTransfer_respelled hlength hhex]

end Respelled

/-- The transfer of the sample segment. -/
def sampleSpend : Transfer :=
  sampleSegment.transfers.get ⟨0, by decide⟩

/-- The same transfer, with the first digit of its previous hash in upper case. -/
def respelledSpend : Transfer :=
  { sampleSpend with
    previousHash := "Fd8faf8bd3ec2431d0c8cd2655cfb102f7ab3c3e01a9a86d881206200c67a414" }

theorem length_respelledSpend :
    respelledSpend.previousHash.length = sampleSpend.previousHash.length := by
  decide +kernel

theorem fromhex_respelledSpend :
    Text.fromhex respelledSpend.previousHash = Text.fromhex sampleSpend.previousHash := by
  decide +kernel

/-- The sample transfer and its respelling are accepted and have one hash. -/
theorem exists_hash_sampleSpend : ∃ clock hash,
    (∀ t ∈ [sampleSpend, respelledSpend], t.validateTransferShape sampleCrypto 1 true clock = .ok () ∧
      t.verifyTransferSignature sampleCrypto clock = .ok () ∧
      t.transferHash sampleCrypto clock = .ok hash) ∧
    sampleSpend.hashInput sampleCrypto clock = respelledSpend.hashInput sampleCrypto clock := by
  obtain ⟨_, clock, _, _, _, _, _, hverify⟩ := accepted_sampleSegment
  obtain ⟨-, -, final, hreplay, -⟩ := (ArchiveSegment.Derives.of_verify hverify).replay
  obtain ⟨_, hash, hspends⟩ := BaseState.exists_spends_of_mem_replay hreplay sampleSpend
    (List.get_mem _ _)
  have hshape : sampleSpend.WellShaped sampleCrypto 1 true clock :=
    (hashed_of_transferHash hspends.hash_eq).shape
  have hlength := length_respelledSpend
  have hhex := fromhex_respelledSpend
  refine ⟨clock, hash, fun t ht => ?_, (hashInput_respelled hlength hhex).symm⟩
  simp only [List.mem_cons, List.not_mem_nil, or_false] at ht
  rcases ht with rfl | rfl
  · exact ⟨validateTransferShape_eq_ok.2 hshape, hspends.signature_valid, hspends.hash_eq⟩
  · exact ⟨validateTransferShape_eq_ok.2 (hshape.respelled hlength hhex),
      (verifyTransferSignature_respelled hlength hhex).trans hspends.signature_valid,
      (transferHash_respelled hlength hhex).trans hspends.hash_eq⟩

theorem spendKey_respelledSpend_ne :
    sampleSpend.spendKeyForTransfer sampleCrypto ≠ respelledSpend.spendKeyForTransfer sampleCrypto := by
  decide +kernel

/-- The spend keys of the two spellings do not collide. -/
theorem spendKeyInput_respelledSpend (a b : Bytes) (ha : sampleSpend.spendKeyInput = .ok a)
    (hb : respelledSpend.spendKeyInput = .ok b)
    (h : sampleCrypto.sha3_256 a = sampleCrypto.sha3_256 b) : a = b := by
  refine absurd ?_ spendKey_respelledSpend_ne
  rw [spendKeyForTransfer_eq_ok.2 ⟨a, ha, rfl⟩, spendKeyForTransfer_eq_ok.2 ⟨b, hb, rfl⟩]
  unfold Crypto.sha3Hex
  rw [h]

theorem spendKey_eq_iff_respelledSpend :
    sampleSpend.spendKeyForTransfer sampleCrypto = respelledSpend.spendKeyForTransfer sampleCrypto ↔
      sampleSpend.tokenId = respelledSpend.tokenId ∧
        sampleSpend.previousHash = respelledSpend.previousHash := by
  obtain ⟨clock, hash, haccepted, hinput⟩ := exists_hash_sampleSpend
  refine spendKey_eq_iff (haccepted _ List.mem_cons_self).2.2
    (haccepted respelledSpend (List.mem_cons_of_mem _ List.mem_cons_self)).2.2 ?_
    spendKeyInput_respelledSpend
  intro a b ha hb _
  exact Except.ok.inj (ha.symm.trans (hinput.trans hb))

/-- One accepted transfer, spelled in two ways, has one hash and two spend keys. -/
theorem not_spendKey_eq : ¬ ∀ (crypto : Crypto) (t u : Transfer) (networkId clock : Int) (hash : String),
    (∀ v ∈ [t, u], v.validateTransferShape crypto networkId true clock = .ok () ∧
      v.verifyTransferSignature crypto clock = .ok () ∧ v.transferHash crypto clock = .ok hash) →
    (∀ a b, t.hashInput crypto clock = .ok a → u.hashInput crypto clock = .ok b →
      crypto.sha3_256 a = crypto.sha3_256 b → a = b) →
    (∀ a b, t.spendKeyInput = .ok a → u.spendKeyInput = .ok b →
      crypto.sha3_256 a = crypto.sha3_256 b → a = b) →
    t.spendKeyForTransfer crypto = u.spendKeyForTransfer crypto := by
  intro hall
  obtain ⟨clock, hash, haccepted, hinput⟩ := exists_hash_sampleSpend
  refine spendKey_respelledSpend_ne (hall sampleCrypto sampleSpend respelledSpend 1 clock hash haccepted
    ?_ spendKeyInput_respelledSpend)
  intro a b ha hb _
  exact Except.ok.inj (ha.symm.trans (hinput.trans hb))

end Transfer
