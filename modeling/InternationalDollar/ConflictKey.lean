import InternationalDollar.ConflictProofV3
import Mathlib.Data.Sym.Sym2

set_option autoImplicit false

/-! # The dedupe key of a conflict proof (`protocol_v3`, conflict_proof_key)

A node files a conflict proof under a key that is independent of when the conflict was seen. The key is
the hash of the proof's texts, its token id and its previous hash among them. Verification compares
these two with the texts in the transfers, and the transfers with their hashes; but a transfer has one
hash in every spelling of the two. -/

namespace ConflictProofV3

/-- What a conflict is known by, as a JSON object. -/
def keyIdentity (proof : ConflictProofV3) : Json :=
  let hashes :=
    if proof.transferHashB < proof.transferHashA then (proof.transferHashB, proof.transferHashA)
    else (proof.transferHashA, proof.transferHashB)
  .obj [("network_id", .int proof.networkId), ("previous_hash", .str proof.previousHash),
    ("sender_address", .str proof.senderAddress), ("sequence", .int proof.sequence),
    ("token_id", .str proof.tokenId), ("transfer_hash_a", .str hashes.1),
    ("transfer_hash_b", .str hashes.2), ("type", .str conflictProofType), ("version", .int proof.version)]

/-- `conflict_proof_key`. -/
def conflictProofKey (crypto : Crypto) (proof : ConflictProofV3) : Except String String := do
  requireMin proof.networkId 0 "ConflictProofV3 network id"
  sha3Json crypto proof.keyIdentity

/-- The bytes that the key of a proof is taken of. -/
def keyInput (proof : ConflictProofV3) : Except String Bytes :=
  canonicalBytes proof.keyIdentity

/-- Two proofs are about the same unordered pair of transfer hashes on the same network. -/
def SameConflict (p q : ConflictProofV3) : Prop :=
  p.networkId = q.networkId ∧
    s(p.transferHashA, p.transferHashB) = s(q.transferHashA, q.transferHashB)

/-- Two proofs spell the token id and the previous hash alike. -/
def SpelledAlike (p q : ConflictProofV3) : Prop :=
  p.tokenId = q.tokenId ∧ p.previousHash = q.previousHash

section Key

variable {crypto : Crypto} {clock clock' : Int} {p q : ConflictProofV3}

theorem keyIdentity_of_lt (h : p.transferHashA < p.transferHashB) :
    p.keyIdentity = .obj [("network_id", .int p.networkId), ("previous_hash", .str p.previousHash),
      ("sender_address", .str p.senderAddress), ("sequence", .int p.sequence),
      ("token_id", .str p.tokenId), ("transfer_hash_a", .str p.transferHashA),
      ("transfer_hash_b", .str p.transferHashB), ("type", .str conflictProofType),
      ("version", .int p.version)] := by
  unfold keyIdentity
  rw [if_neg (lt_asymm h)]

theorem Verified.networkId_nonneg (h : p.Verified crypto clock) : 0 ≤ p.networkId := by
  obtain ⟨c, hsorted, -⟩ := h.sorted
  have hshape := hsorted.acceptedA.shape
  rw [← hshape.networkId_eq]
  exact hshape.networkId_nonneg

theorem Verified.lt (h : p.Verified crypto clock) : p.transferHashA < p.transferHashB := by
  obtain ⟨c, hsorted, hlists⟩ := h.sorted
  rw [hlists.hashes.1, hlists.hashes.2]
  exact hsorted.lt

/-- The identity of a verified proof is within the limits on JSON values. -/
theorem Verified.exists_keyInput (h : p.Verified crypto clock) : ∃ input, p.keyInput = .ok input := by
  obtain ⟨c, hsorted, hlists⟩ := h.sorted
  obtain ⟨-, -, -, hsame⟩ := hlists.facts hsorted
  have hA := Transfer.hashed_of_transferHash hsorted.hashA_eq
  have hB := Transfer.hashed_of_transferHash hsorted.hashB_eq
  have hshape := hsorted.acceptedA.shape
  have hsender := (ascii_of_isAddress hshape.sender_valid).1
  rw [String.length_toList, ← hsame.sender_eq, ← h.sender_eq] at hsender
  have htoken : p.tokenId.length = 64 := by
    rw [h.tokenId_eq, hsame.tokenId_eq]
    exact hshape.tokenId_hex.1
  have hprevious : p.previousHash.length = 64 := by
    rw [h.previousHash_eq, hsame.previousHash_eq]
    exact hshape.previousHash_hex.1
  have hhashA : p.transferHashA.length = 64 := hlists.hashes.1 ▸ hA.hash_hex.1
  have hhashB : p.transferHashB.length = 64 := hlists.hashes.2 ▸ hB.hash_hex.1
  have hmax : (jsonLimits.maxIntegerAbs : Int) = maxProtocolTimestamp := rfl
  have hsequence : p.sequence.natAbs ≤ jsonLimits.maxIntegerAbs := by
    have hle : c.transferA.sequence ≤ maxProtocolTimestamp := hA.sequence_le
    have hpos := hshape.sequence_pos
    have heq := h.sequence_eq.trans hsame.sequence_eq
    omega
  have hnetwork : p.networkId.natAbs ≤ jsonLimits.maxIntegerAbs := by
    have hle : c.transferA.networkId ≤ maxProtocolTimestamp := hA.networkId_le
    have hnonneg := h.networkId_nonneg
    have heq := hshape.networkId_eq
    omega
  have hversion : p.version.natAbs ≤ jsonLimits.maxIntegerAbs := by
    rw [h.version_eq]
    decide
  have hmembers : 9 ≤ jsonLimits.maxObjectKeys := by decide
  unfold keyInput
  rw [keyIdentity_of_lt h.lt]
  refine ⟨_, canonicalBytes_eq_ok.2 ⟨Json.validate_obj.2 ⟨by decide, hmembers, ?_⟩, rfl⟩⟩
  simp only [List.forall_mem_cons]
  exact ⟨⟨by decide, validate_number (by decide) hnetwork⟩,
    ⟨by decide, validate_text (by decide) (by rw [hprevious]; decide)⟩,
    ⟨by decide, validate_text (by decide) (by rw [hsender]; decide)⟩,
    ⟨by decide, validate_number (by decide) hsequence⟩,
    ⟨by decide, validate_text (by decide) (by rw [htoken]; decide)⟩,
    ⟨by decide, validate_text (by decide) (by rw [hhashA]; decide)⟩,
    ⟨by decide, validate_text (by decide) (by rw [hhashB]; decide)⟩,
    ⟨by decide, validate_text (by decide) (by decide +kernel)⟩,
    ⟨by decide, validate_number (by decide) hversion⟩, by simp⟩

theorem Verified.conflictProofKey_eq (h : p.Verified crypto clock) {input : Bytes}
    (hinput : p.keyInput = .ok input) : p.conflictProofKey crypto = .ok (crypto.sha3Hex input) := by
  simp only [conflictProofKey, sha3Json, Check.bind_eq_ok, requireMin_eq_ok, Check.pure_eq_ok]
  exact ⟨(), h.networkId_nonneg, input, hinput, rfl⟩

/-- The hashes of a verified proof are in order, so that the same pair is the same two hashes. -/
theorem SameConflict.hashes_eq (hp : p.transferHashA < p.transferHashB)
    (hq : q.transferHashA < q.transferHashB) (h : SameConflict p q) :
    p.transferHashA = q.transferHashA ∧ p.transferHashB = q.transferHashB := by
  rcases Sym2.eq_iff.1 h.2 with hsame | ⟨hA, hB⟩
  · exact hsame
  · rw [hA, hB] at hp
    exact absurd hp (lt_asymm hq)

/-- Two proofs with one key are about one conflict and spelled alike. -/
theorem Verified.sameConflict_of_key_eq (hp : p.Verified crypto clock) (hq : q.Verified crypto clock')
    (hkeys : ∀ a b, p.keyInput = .ok a → q.keyInput = .ok b →
      crypto.sha3_256 a = crypto.sha3_256 b → a = b)
    (h : p.conflictProofKey crypto = q.conflictProofKey crypto) :
    SameConflict p q ∧ SpelledAlike p q := by
  obtain ⟨a, ha⟩ := hp.exists_keyInput
  obtain ⟨b, hb⟩ := hq.exists_keyInput
  rw [hp.conflictProofKey_eq ha, hq.conflictProofKey_eq hb] at h
  have hab := hkeys a b ha hb (Text.hex_injective (Except.ok.inj h))
  subst hab
  have hidentity := canonicalBytes_inj ha hb
  rw [keyIdentity_of_lt hp.lt, keyIdentity_of_lt hq.lt] at hidentity
  simp only [Json.obj.injEq, List.cons.injEq, Prod.mk.injEq, Json.str.injEq, Json.int.injEq, true_and,
    and_true] at hidentity
  obtain ⟨hnetwork, hprevious, -, -, htoken, hhashA, hhashB, -⟩ := hidentity
  refine ⟨⟨hnetwork, ?_⟩, htoken, hprevious⟩
  rw [hhashA, hhashB]

/-- No two different inputs of the hash are hashed alike, of those for the transfers of two proofs. -/
def HashesApart (crypto : Crypto) (clock clock' : Int) (p q : ConflictProofV3) : Prop :=
  ∀ t ∈ [p.transferA, p.transferB], ∀ u ∈ [q.transferA, q.transferB], ∀ a b,
    t.hashInput crypto clock = .ok a → u.hashInput crypto clock' = .ok b →
      crypto.sha3_256 a = crypto.sha3_256 b → a = b

theorem Lists.mem {c : Conflict} (h : p.Lists c) : c.transferA ∈ [p.transferA, p.transferB] := by
  rcases h with rfl | ⟨rfl, -⟩
  · exact List.mem_cons_self
  · exact List.mem_cons_of_mem _ List.mem_cons_self

/-- Proofs about one conflict that are spelled alike have one key. The transfers with the lower hash have
    one sequence number and one sender. -/
theorem Verified.key_eq_of_sameConflict (hp : p.Verified crypto clock) (hq : q.Verified crypto clock')
    (hinputs : HashesApart crypto clock clock' p q)
    (hsame : SameConflict p q) (hspelled : SpelledAlike p q) :
    p.conflictProofKey crypto = q.conflictProofKey crypto := by
  have hhashes := hsame.hashes_eq hp.lt hq.lt
  obtain ⟨c, hsorted, hlists⟩ := hp.sorted
  obtain ⟨d, hsorted', hlists'⟩ := hq.sorted
  obtain ⟨-, -, -, hstate⟩ := hlists.facts hsorted
  obtain ⟨-, -, -, hstate'⟩ := hlists'.facts hsorted'
  obtain ⟨a, ha, hasha⟩ := Transfer.transferHash_eq_ok.1 hsorted.hashA_eq
  obtain ⟨b, hb, hashb⟩ := Transfer.transferHash_eq_ok.1 hsorted'.hashA_eq
  rw [← hlists.hashes.1] at hasha
  rw [← hlists'.hashes.1] at hashb
  have hab := hinputs _ hlists.mem _ hlists'.mem a b ha hb
    (Text.hex_injective (hasha.trans (hhashes.1.trans hashb.symm)))
  subst hab
  have htoken : c.transferA.tokenId = d.transferA.tokenId := by
    rw [← hstate.tokenId_eq, ← hstate'.tokenId_eq, ← hp.tokenId_eq, ← hq.tokenId_eq, hspelled.1]
  have hprevious : c.transferA.previousHash = d.transferA.previousHash := by
    rw [← hstate.previousHash_eq, ← hstate'.previousHash_eq, ← hp.previousHash_eq, ← hq.previousHash_eq,
      hspelled.2]
  obtain ⟨hsequences, hsenders⟩ := Transfer.eq_of_hashInput ha hb htoken hprevious
  have hsequence : p.sequence = q.sequence := by
    rw [hp.sequence_eq, hq.sequence_eq, hstate.sequence_eq, hstate'.sequence_eq, hsequences]
  have hsender : p.senderAddress = q.senderAddress := by
    rw [hp.sender_eq, hq.sender_eq, hstate.sender_eq, hstate'.sender_eq, hsenders]
  have hidentity : p.keyIdentity = q.keyIdentity := by
    rw [keyIdentity_of_lt hp.lt, keyIdentity_of_lt hq.lt, hsame.1, hspelled.1, hspelled.2,
      hsequence, hsender, hhashes.1, hhashes.2, hp.version_eq, hq.version_eq]
  unfold conflictProofKey
  rw [hsame.1, hidentity]

end Key

/-- **The key identifies the conflict of two accepted proofs if and only if the two, when they are about
    one conflict, spell the token id and the previous hash alike.** SHA3 is asked to be injective on the
    bytes hashed for the two proofs only. -/
theorem keyIdentifies_iff {crypto : Crypto} {clock clock' : Int} {p q : ConflictProofV3}
    {expected expected' : Option Int} (hp : verifyConflictProof crypto p expected clock = .ok ())
    (hq : verifyConflictProof crypto q expected' clock' = .ok ())
    (hkeys : ∀ a b, p.keyInput = .ok a → q.keyInput = .ok b →
      crypto.sha3_256 a = crypto.sha3_256 b → a = b)
    (hinputs : HashesApart crypto clock clock' p q) :
    (p.conflictProofKey crypto = q.conflictProofKey crypto ↔ SameConflict p q) ↔
      (SameConflict p q → SpelledAlike p q) := by
  obtain ⟨-, hp⟩ := verifyConflictProof_eq_ok.1 hp
  obtain ⟨-, hq⟩ := verifyConflictProof_eq_ok.1 hq
  constructor
  · intro hiff hsame
    exact (hp.sameConflict_of_key_eq hq hkeys (hiff.2 hsame)).2
  · intro hspelled
    constructor
    · intro heq
      exact (hp.sameConflict_of_key_eq hq hkeys heq).1
    · intro hsame
      exact hp.key_eq_of_sameConflict hq hinputs hsame (hspelled hsame)

/-! ## Two proofs of one conflict -/

/-- A second transfer of the state that the sample transfer spends. -/
def rivalSpend : Transfer :=
  { Transfer.sampleSpend with
    timestamp := 2001
    signature := "dba91f9c665c24d569ed18ee8dd2e60f83b999273888d557a64a929f4063c240" ++
      "14700d5dda20206b9672013a4ca40f3fd28bd370a39b553efa6f53b4406bc7c0" }

/-- The second transfer, its previous hash spelled as in the respelled sample transfer. -/
def respelledRival : Transfer :=
  { rivalSpend with previousHash := Transfer.respelledSpend.previousHash }

theorem sampleConflict_evaluated :
    Transfer.sampleSpend.transferHash sampleCrypto 5000
        = .ok "9119911cebc304ccc5fe838e6cd5aced914c0ebcc20a74b2c7b46faea5916c1d" ∧
      rivalSpend.transferHash sampleCrypto 5000
        = .ok "a226588287146e6f615a11446f9564e8092d39eec5033584f36d55c8447befea" ∧
      Check.returns (rivalSpend.verifyTransferSignature sampleCrypto 5000) = true := by
  decide +kernel

theorem transferHash_sampleSpend : Transfer.sampleSpend.transferHash sampleCrypto 5000
    = .ok "9119911cebc304ccc5fe838e6cd5aced914c0ebcc20a74b2c7b46faea5916c1d" :=
  sampleConflict_evaluated.1

theorem transferHash_rivalSpend : rivalSpend.transferHash sampleCrypto 5000
    = .ok "a226588287146e6f615a11446f9564e8092d39eec5033584f36d55c8447befea" :=
  sampleConflict_evaluated.2.1

theorem verifyTransferSignature_rivalSpend :
    rivalSpend.verifyTransferSignature sampleCrypto 5000 = .ok () := by
  obtain ⟨_, h⟩ := Check.returns_iff.1 sampleConflict_evaluated.2.2
  exact h

/-- Two conflicting transfers still conflict when they are respelled. -/
theorem Conflict.Sorted.respelled {crypto : Crypto} {networkId clock : Int} {c : Conflict}
    (h : c.Sorted crypto networkId clock) {text : String}
    (hlength : text.length = c.transferA.previousHash.length)
    (hhex : Text.fromhex text = Text.fromhex c.transferA.previousHash) :
    Conflict.Sorted crypto networkId clock
      { c with
        transferA := { c.transferA with previousHash := text }
        transferB := { c.transferB with previousHash := text } } := by
  have hlength' := hlength
  have hhex' := hhex
  rw [h.sameState.previousHash_eq] at hlength' hhex'
  exact ⟨⟨h.acceptedA.shape.respelled hlength hhex,
      (Transfer.verifyTransferSignature_respelled hlength hhex).trans h.acceptedA.signature_valid⟩,
    ⟨h.acceptedB.shape.respelled hlength' hhex',
      (Transfer.verifyTransferSignature_respelled hlength' hhex').trans h.acceptedB.signature_valid⟩,
    ⟨h.sameState.tokenId_eq, h.sameState.sequence_eq, rfl, h.sameState.sender_eq⟩,
    (Transfer.transferHash_respelled hlength hhex).trans h.hashA_eq,
    (Transfer.transferHash_respelled hlength' hhex').trans h.hashB_eq, h.lt⟩

/-- Two conflicting transfers have a proof, whose key they determine. -/
theorem Conflict.Sorted.exists_verified {crypto : Crypto} {networkId clock : Int} {c : Conflict}
    (h : c.Sorted crypto networkId clock) :
    ∃ proof, verifyConflictProof crypto proof none clock = .ok () ∧ proof.networkId = networkId ∧
      proof.conflict = c ∧
      proof.conflictProofKey crypto = (unsignedProof networkId c "" 0).conflictProofKey crypto := by
  obtain ⟨key, hkey, hkeyHex⟩ := exists_spendKey h.hashA_eq
  obtain ⟨hash, hhash⟩ := h.exists_conflictProofHash hkeyHex ⟨le_rfl, by decide⟩
  refine ⟨{ unsignedProof networkId c key 0 with proofHash := hash }, ?_, rfl, rfl, rfl⟩
  exact verifyConflictProof_eq_ok.2 ⟨fun _ h => (nomatch h), rfl, rfl, ⟨c, h, Or.inl rfl⟩, rfl, rfl, rfl,
    rfl, hkey, le_rfl, hhash⟩

/-- The sample transfer and the second one. -/
def sampleConflict : Conflict where
  transferA := Transfer.sampleSpend
  transferB := rivalSpend
  hashA := "9119911cebc304ccc5fe838e6cd5aced914c0ebcc20a74b2c7b46faea5916c1d"
  hashB := "a226588287146e6f615a11446f9564e8092d39eec5033584f36d55c8447befea"

/-- The same two, respelled. -/
def respelledConflict : Conflict :=
  { sampleConflict with
    transferA := { sampleConflict.transferA with previousHash := Transfer.respelledSpend.previousHash }
    transferB := { sampleConflict.transferB with previousHash := Transfer.respelledSpend.previousHash } }

theorem exists_sorted_sampleConflict : ∃ clock, sampleConflict.Sorted sampleCrypto 1 clock := by
  obtain ⟨clock, _, haccepted, -⟩ := Transfer.exists_hash_sampleSpend
  obtain ⟨hshape, hsigned, -⟩ := haccepted _ List.mem_cons_self
  have hsample : Accepted sampleCrypto 1 clock Transfer.sampleSpend :=
    ⟨Transfer.validateTransferShape_eq_ok.1 hshape, hsigned⟩
  have hrival : Accepted sampleCrypto 1 5000 rivalSpend :=
    ⟨(Transfer.hashed_of_transferHash transferHash_rivalSpend).shape, verifyTransferSignature_rivalSpend⟩
  have hmax : max clock 5000 ≤ maxProtocolTimestamp :=
    max_le hsample.shape.now_valid.2 (by decide)
  exact ⟨max clock 5000, hsample.mono (le_max_left _ _) hmax, hrival.mono (le_max_right _ _) hmax,
    ⟨rfl, rfl, rfl, rfl⟩, Transfer.transferHash_mono transferHash_sampleSpend (le_max_right _ _) hmax,
    Transfer.transferHash_mono transferHash_rivalSpend (le_max_right _ _) hmax, by decide +kernel⟩

theorem conflictProofKey_respelledConflict_ne :
    (unsignedProof 1 sampleConflict "" 0).conflictProofKey sampleCrypto
      ≠ (unsignedProof 1 respelledConflict "" 0).conflictProofKey sampleCrypto := by
  decide +kernel

/-- A respelled transfer is hashed from the same bytes; the two transfers are not hashed alike. -/
theorem hashesApart_respelled {clock : Int} (h : sampleConflict.Sorted sampleCrypto 1 clock) :
    ∀ t ∈ [Transfer.sampleSpend, rivalSpend], ∀ u ∈ [Transfer.respelledSpend, respelledRival], ∀ a b,
      t.hashInput sampleCrypto clock = .ok a → u.hashInput sampleCrypto clock = .ok b →
        sampleCrypto.sha3_256 a = sampleCrypto.sha3_256 b → a = b := by
  have hlength := Transfer.length_respelledSpend
  have hhex := Transfer.fromhex_respelledSpend
  have hsample : Transfer.respelledSpend.hashInput sampleCrypto clock
      = Transfer.sampleSpend.hashInput sampleCrypto clock := Transfer.hashInput_respelled hlength hhex
  have hrival : respelledRival.hashInput sampleCrypto clock = rivalSpend.hashInput sampleCrypto clock :=
    Transfer.hashInput_respelled hlength hhex
  obtain ⟨x, hx, hxhash⟩ := Transfer.transferHash_eq_ok.1 h.hashA_eq
  obtain ⟨y, hy, hyhash⟩ := Transfer.transferHash_eq_ok.1 h.hashB_eq
  have hx : Transfer.sampleSpend.hashInput sampleCrypto clock = .ok x := hx
  have hy : rivalSpend.hashInput sampleCrypto clock = .ok y := hy
  have hne : sampleCrypto.sha3_256 x ≠ sampleCrypto.sha3_256 y := by
    intro heq
    rw [Crypto.sha3Hex, heq] at hxhash
    exact absurd (hxhash.symm.trans hyhash) (ne_of_lt h.lt)
  simp only [List.forall_mem_cons, hsample, hrival, hx, hy, Except.ok.injEq]
  refine ⟨⟨?_, ?_, fun _ h => absurd h List.not_mem_nil⟩, ⟨?_, ?_, fun _ h => absurd h List.not_mem_nil⟩,
    fun _ h => absurd h List.not_mem_nil⟩
  · rintro a b rfl rfl -
    rfl
  · rintro a b rfl rfl heq
    exact absurd heq hne
  · rintro a b rfl rfl heq
    exact absurd heq.symm hne
  · rintro a b rfl rfl -
    rfl

/-- Two verified proofs of one conflict that have different keys, although nothing hashed for them
    collides. -/
theorem exists_respelled_proofs : ∃ (clock : Int) (p q : ConflictProofV3),
    (verifyConflictProof sampleCrypto p none clock = .ok () ∧
      verifyConflictProof sampleCrypto q none clock = .ok ()) ∧
    (∀ a b, p.keyInput = .ok a → q.keyInput = .ok b →
      sampleCrypto.sha3_256 a = sampleCrypto.sha3_256 b → a = b) ∧
    HashesApart sampleCrypto clock clock p q ∧
    SameConflict p q ∧ p.conflictProofKey sampleCrypto ≠ q.conflictProofKey sampleCrypto := by
  obtain ⟨clock, hsorted⟩ := exists_sorted_sampleConflict
  have hlength := Transfer.length_respelledSpend
  have hhex := Transfer.fromhex_respelledSpend
  obtain ⟨p, hp, hnetwork, hconflict, hkey⟩ := hsorted.exists_verified
  obtain ⟨q, hq, hnetwork', hconflict', hkey'⟩ := (hsorted.respelled hlength hhex).exists_verified
  have hne : p.conflictProofKey sampleCrypto ≠ q.conflictProofKey sampleCrypto := by
    rw [hkey, hkey']
    exact conflictProofKey_respelledConflict_ne
  have hA : p.transferA = Transfer.sampleSpend := congrArg Conflict.transferA hconflict
  have hB : p.transferB = rivalSpend := congrArg Conflict.transferB hconflict
  have hA' : q.transferA = Transfer.respelledSpend := congrArg Conflict.transferA hconflict'
  have hB' : q.transferB = respelledRival := congrArg Conflict.transferB hconflict'
  refine ⟨clock, p, q, ⟨hp, hq⟩, ?_, ?_, ⟨hnetwork.trans hnetwork'.symm, ?_⟩, hne⟩
  · intro a b ha hb hab
    refine absurd ?_ hne
    rw [(verifyConflictProof_eq_ok.1 hp).2.conflictProofKey_eq ha,
      (verifyConflictProof_eq_ok.1 hq).2.conflictProofKey_eq hb]
    unfold Crypto.sha3Hex
    rw [hab]
  · rw [HashesApart, hA, hB, hA', hB']
    exact hashesApart_respelled hsorted
  · rw [show p.transferHashA = _ from congrArg Conflict.hashA hconflict,
      show p.transferHashB = _ from congrArg Conflict.hashB hconflict,
      show q.transferHashA = _ from congrArg Conflict.hashA hconflict',
      show q.transferHashB = _ from congrArg Conflict.hashB hconflict']

theorem keyIdentifies_iff_respelled : ∃ p q : ConflictProofV3,
    SameConflict p q ∧
      ((p.conflictProofKey sampleCrypto = q.conflictProofKey sampleCrypto ↔ SameConflict p q) ↔
        (SameConflict p q → SpelledAlike p q)) := by
  obtain ⟨clock, p, q, ⟨hp, hq⟩, hkeys, hinputs, hsame, -⟩ := exists_respelled_proofs
  exact ⟨p, q, hsame, keyIdentifies_iff hp hq hkeys hinputs⟩

/-- One conflict, its transfers spelled in two ways, has two keys. -/
theorem not_keyIdentifies : ¬ ∀ (crypto : Crypto) (clock clock' : Int) (p q : ConflictProofV3)
    (expected expected' : Option Int), verifyConflictProof crypto p expected clock = .ok () →
      verifyConflictProof crypto q expected' clock' = .ok () →
      (∀ a b, p.keyInput = .ok a → q.keyInput = .ok b →
        crypto.sha3_256 a = crypto.sha3_256 b → a = b) →
      HashesApart crypto clock clock' p q →
      (p.conflictProofKey crypto = q.conflictProofKey crypto ↔ SameConflict p q) := by
  intro hall
  obtain ⟨clock, p, q, ⟨hp, hq⟩, hkeys, hinputs, hsame, hne⟩ := exists_respelled_proofs
  exact hne ((hall sampleCrypto clock clock p q none none hp hq hkeys hinputs).2 hsame)

end ConflictProofV3
