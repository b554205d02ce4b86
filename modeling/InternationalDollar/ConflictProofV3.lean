import InternationalDollar.Checkpoint
import InternationalDollar.SpendKey
import Mathlib.Data.String.Basic

set_option autoImplicit false

/-! # Conflict proofs (`protocol_v3`, ConflictProofV3)

A conflict proof shows that an owner spent one state twice: it holds two signed transfers that spend the
same state and have different hashes, the transfer with the lower hash first. It is created from two
transfers, and verified by creating it again from the two transfers it holds. -/

/-- A ConflictProofV3. -/
structure ConflictProofV3 where
  type : String
  version : Int
  networkId : Int
  tokenId : String
  previousHash : String
  sequence : Int
  senderAddress : String
  spendKey : String
  transferHashA : String
  transferHashB : String
  transferA : Transfer
  transferB : Transfer
  detectedAt : Int
  proofHash : String
deriving DecidableEq

namespace ConflictProofV3

/-- `CONFLICT_PROOF_TYPE`. -/
def conflictProofType : String := "ind.conflict_proof.v3"

/-- `_conflict_proof_unsigned`. -/
def unsigned (proof : ConflictProofV3) : ConflictProofV3 := { proof with proofHash := "" }

/-- The proof as `==` looks at it: in the metadata of the transfers `true` is `1` and `false` is `0`. -/
def numeric (proof : ConflictProofV3) : ConflictProofV3 :=
  { proof with
    transferA := { proof.transferA with metadata := proof.transferA.metadata.numeric }
    transferB := { proof.transferB with metadata := proof.transferB.metadata.numeric } }

/-- `encode_conflict_proof_body`. -/
def encodeConflictProofBody (crypto : Crypto) (proof : ConflictProofV3) (includeHash : Bool)
    (clock : Int) : Except String Bytes := do
  requireMin proof.networkId 0 "ConflictProofV3 network id"
  let proofHash := if includeHash then proof.proofHash else zeroHash
  let _ ← hex32 proofHash "ConflictProofV3 proof hash"
  let tokenId ← BinaryV3.encodeHashHex proof.tokenId
  let previousHash ← BinaryV3.encodeHashHex proof.previousHash
  let sequence ← BinaryV3.encodeUvarint proof.sequence
  let sender ← BinaryV3.encodeAscii proof.senderAddress 128
  let spendKey ← BinaryV3.encodeHashHex proof.spendKey
  let hashA ← BinaryV3.encodeHashHex proof.transferHashA
  let hashB ← BinaryV3.encodeHashHex proof.transferHashB
  let transferA ← proof.transferA.encodeTransferBody crypto true clock
  let transferB ← proof.transferB.encodeTransferBody crypto true clock
  let detectedAt ← BinaryV3.encodeUvarint proof.detectedAt
  let hash ← BinaryV3.encodeHashHex proofHash
  pure (tokenId ++ (previousHash ++ (sequence ++ (sender ++ (spendKey ++ (hashA ++ (hashB ++
    (transferA ++ (transferB ++ (detectedAt ++ hash))))))))))

/-- `encode_conflict_proof`. -/
def encodeConflictProof (crypto : Crypto) (proof : ConflictProofV3) (includeHash : Bool)
    (clock : Int) : Except String Bytes := do
  requireMin proof.networkId 0 "ConflictProofV3 network id"
  let body ← encodeConflictProofBody crypto proof includeHash clock
  BinaryV3.encodeEnvelope "IND3CFLP" proof.networkId body

/-- `conflict_proof_hash`. -/
def conflictProofHash (crypto : Crypto) (proof : ConflictProofV3) (clock : Int) :
    Except String String := do
  let encoded ← encodeConflictProof crypto proof false clock
  let digest ← BinaryV3.objectHash crypto conflictProofType encoded
  pure (Text.hex digest)

/-- Two transfers of one state with their hashes. -/
structure Conflict where
  transferA : Transfer
  transferB : Transfer
  hashA : String
  hashB : String

/-- `_sorted_conflicting_transfers`. -/
def sortedConflictingTransfers (crypto : Crypto) (a b : Transfer) (networkId clock : Int) :
    Except String Conflict := do
  a.validateTransferShape crypto networkId true clock
  b.validateTransferShape crypto networkId true clock
  a.verifyTransferSignature crypto clock
  b.verifyTransferSignature crypto clock
  Check.require (a.tokenId = b.tokenId) "ConflictProofV3 transfers reference different bills"
  Check.require (a.sequence = b.sequence) "ConflictProofV3 transfers do not share a sequence"
  Check.require (a.previousHash = b.previousHash)
    "ConflictProofV3 transfers do not share a previous hash"
  Check.require (a.senderAddress = b.senderAddress) "ConflictProofV3 transfers do not share a sender"
  let keyA ← a.spendKeyForTransfer crypto
  let keyB ← b.spendKeyForTransfer crypto
  Check.require (keyA = keyB) "ConflictProofV3 transfers do not share a spend key"
  let hashA ← a.transferHash crypto clock
  let hashB ← b.transferHash crypto clock
  Check.require (hashA ≠ hashB) "ConflictProofV3 requires two different transfers"
  pure (if hashB < hashA then ⟨b, a, hashB, hashA⟩ else ⟨a, b, hashA, hashB⟩)

/-- `int(expected_network_id)` against the network id, where one is expected. -/
def requireNetwork (expected : Option Int) (networkId : Int) : Except String Unit :=
  Check.require (∀ e ∈ expected, networkId = e) "ConflictProofV3 network id mismatch"

/-- The fields of a proof that the two transfers determine. -/
def fill (proof : ConflictProofV3) (c : Conflict) (spendKey : String) : ConflictProofV3 :=
  { proof with
    tokenId := c.transferA.tokenId
    previousHash := c.transferA.previousHash
    sequence := c.transferA.sequence
    senderAddress := c.transferA.senderAddress
    spendKey := spendKey
    transferHashA := c.hashA
    transferHashB := c.hashB
    transferA := c.transferA
    transferB := c.transferB }

/-- `create_conflict_proof_from_transfers`. Without a detection time, it is the clock's. -/
def createConflictProofFromTransfers (crypto : Crypto) (a b : Transfer) (detectedAt : Option Int)
    (expectedNetworkId : Option Int) (clock : Int) : Except String ConflictProofV3 := do
  requireMin a.networkId 0 "ConflictProofV3 network id"
  requireNetwork expectedNetworkId a.networkId
  let c ← sortedConflictingTransfers crypto a b a.networkId clock
  let spendKey ← c.transferA.spendKeyForTransfer crypto
  let detected ← currentTime (detectedAt.getD clock)
  let proof : ConflictProofV3 :=
    { type := conflictProofType
      version := 3
      networkId := a.networkId
      tokenId := c.transferA.tokenId
      previousHash := c.transferA.previousHash
      sequence := c.transferA.sequence
      senderAddress := c.transferA.senderAddress
      spendKey := spendKey
      transferHashA := c.hashA
      transferHashB := c.hashB
      transferA := c.transferA
      transferB := c.transferB
      detectedAt := detected
      proofHash := "" }
  let hash ← proof.conflictProofHash crypto clock
  pure { proof with proofHash := hash }

/-- `verify_conflict_proof`. -/
def verifyConflictProof (crypto : Crypto) (proof : ConflictProofV3) (expectedNetworkId : Option Int)
    (clock : Int) : Except String Unit := do
  Check.require (proof.type = conflictProofType) "not a ConflictProofV3"
  Check.require (proof.version = 3) "unsupported ConflictProofV3 version"
  requireMin proof.networkId 0 "ConflictProofV3 network id"
  requireNetwork expectedNetworkId proof.networkId
  let _ ← hex32 proof.tokenId "ConflictProofV3 token id"
  let _ ← hex32 proof.previousHash "ConflictProofV3 previous hash"
  requireMin proof.sequence 1 "ConflictProofV3 sequence"
  let _ ← validateAddress crypto proof.senderAddress "ConflictProofV3 sender address"
  let _ ← hex32 proof.spendKey "ConflictProofV3 spend key"
  let _ ← hex32 proof.transferHashA "ConflictProofV3 transfer hash a"
  let _ ← hex32 proof.transferHashB "ConflictProofV3 transfer hash b"
  requireMin proof.detectedAt 0 "ConflictProofV3 detected_at"
  let c ← sortedConflictingTransfers crypto proof.transferA proof.transferB proof.networkId clock
  let spendKey ← c.transferA.spendKeyForTransfer crypto
  Check.require (proof.unsigned.numeric = (proof.fill c spendKey).unsigned.numeric)
    "ConflictProofV3 conflict fields mismatch"
  let hash ← proof.conflictProofHash crypto clock
  Check.require (proof.proofHash = hash) "ConflictProofV3 proof hash mismatch"

/-! ## The transfers of a conflict -/

/-- A transfer that is well shaped and signed by its sender. -/
structure Accepted (crypto : Crypto) (networkId clock : Int) (t : Transfer) : Prop where
  shape : t.WellShaped crypto networkId true clock
  signature_valid : t.verifyTransferSignature crypto clock = .ok ()

/-- Two transfers that spend one state. -/
structure SameState (a b : Transfer) : Prop where
  tokenId_eq : a.tokenId = b.tokenId
  sequence_eq : a.sequence = b.sequence
  previousHash_eq : a.previousHash = b.previousHash
  sender_eq : a.senderAddress = b.senderAddress

theorem SameState.symm {a b : Transfer} (h : SameState a b) : SameState b a :=
  ⟨h.tokenId_eq.symm, h.sequence_eq.symm, h.previousHash_eq.symm, h.sender_eq.symm⟩

/-- Two accepted transfers of one state, the one with the lower hash first. -/
structure Conflict.Sorted (crypto : Crypto) (networkId clock : Int) (c : Conflict) : Prop where
  acceptedA : Accepted crypto networkId clock c.transferA
  acceptedB : Accepted crypto networkId clock c.transferB
  sameState : SameState c.transferA c.transferB
  hashA_eq : c.transferA.transferHash crypto clock = .ok c.hashA
  hashB_eq : c.transferB.transferHash crypto clock = .ok c.hashB
  lt : c.hashA < c.hashB

section Transfers

variable {crypto : Crypto} {networkId clock clock' : Int} {a b t : Transfer} {c : Conflict}

theorem Accepted.mono (h : Accepted crypto networkId clock t) (hle : clock ≤ clock')
    (hmax : clock' ≤ maxProtocolTimestamp) : Accepted crypto networkId clock' t :=
  ⟨h.shape.mono hle hmax, Transfer.verifyTransferSignature_mono h.signature_valid hle hmax⟩

/-- A signature covers the bytes of the transfer, so that a signed transfer can be encoded and has a
    hash. -/
theorem Accepted.exists_transferHash (h : Accepted crypto networkId clock t) :
    ∃ hash, t.transferHash crypto clock = .ok hash := by
  have hsigned := h.signature_valid
  simp only [Transfer.verifyTransferSignature, Transfer.transferSigningPreimage, Transfer.encodeTransfer,
    Transfer.encodeTransferBody, Transfer.encodeUnsignedFields, BinaryV3.encodeEnvelope,
    Check.bind_eq_ok, BinaryV3.encodeUvarint_eq_ok] at hsigned
  obtain ⟨_, -, _, -, _, ⟨_, ⟨_, ⟨_, -, _, -, _, ⟨_, -, _, hseq, _, -, _, -, _, -, _, -, _, htime, -⟩,
    -⟩, _, -, _, hnetwork, -⟩, -⟩, -⟩ := hsigned
  have hshape := h.shape
  rw [← hshape.networkId_eq] at hshape
  obtain ⟨hash, hhash, -⟩ := Transfer.exists_transferHash hshape hnetwork.1.2 hseq.1.2 htime.1.2
  exact ⟨hash, hhash⟩

/-- Transfers that spend one state have one spend key. -/
theorem SameState.spendKey_eq (h : SameState a b) :
    a.spendKeyForTransfer crypto = b.spendKeyForTransfer crypto := by
  unfold Transfer.spendKeyForTransfer
  rw [h.tokenId_eq, h.previousHash_eq, h.sequence_eq, h.sender_eq]

theorem exists_spendKey {hash : String} (h : t.transferHash crypto clock = .ok hash) :
    ∃ key, t.spendKeyForTransfer crypto = .ok key ∧ IsHex32 key := by
  obtain ⟨input, hinput⟩ := (Transfer.hashed_of_transferHash h).exists_spendKeyInput
  exact ⟨_, Transfer.spendKeyForTransfer_eq_ok.2 ⟨input, hinput, rfl⟩, crypto.isHex32_sha3Hex _⟩

theorem sortedConflictingTransfers_eq_ok :
    sortedConflictingTransfers crypto a b networkId clock = .ok c ↔
      Accepted crypto networkId clock a ∧ Accepted crypto networkId clock b ∧ SameState a b ∧
        ∃ hashA hashB, a.transferHash crypto clock = .ok hashA ∧
          b.transferHash crypto clock = .ok hashB ∧ hashA ≠ hashB ∧
          (if hashB < hashA then (⟨b, a, hashB, hashA⟩ : Conflict) else ⟨a, b, hashA, hashB⟩) = c := by
  simp only [sortedConflictingTransfers, Check.bind_eq_ok, Check.require_eq_ok, Check.pure_eq_ok,
    Transfer.validateTransferShape_eq_ok]
  constructor
  · rintro ⟨_, ha, _, hb, _, hsa, _, hsb, _, htoken, _, hseq, _, hprev, _, hsender, _, -, _, -, _, -,
      hashA, hhashA, hashB, hhashB, _, hne, hc⟩
    exact ⟨⟨ha, hsa⟩, ⟨hb, hsb⟩, ⟨htoken, hseq, hprev, hsender⟩, hashA, hashB, hhashA, hhashB, hne, hc⟩
  · rintro ⟨⟨ha, hsa⟩, ⟨hb, hsb⟩, hsame, hashA, hashB, hhashA, hhashB, hne, hc⟩
    obtain ⟨key, hkey, -⟩ := exists_spendKey hhashA
    have hkey' : b.spendKeyForTransfer crypto = .ok key := hsame.spendKey_eq.symm.trans hkey
    exact ⟨(), ha, (), hb, (), hsa, (), hsb, (), hsame.tokenId_eq, (), hsame.sequence_eq, (),
      hsame.previousHash_eq, (), hsame.sender_eq, key, hkey, key, hkey', (), rfl, hashA, hhashA, hashB,
      hhashB, (), hne, hc⟩

theorem Conflict.Sorted.of_sortedConflictingTransfers
    (h : sortedConflictingTransfers crypto a b networkId clock = .ok c) :
    c.Sorted crypto networkId clock := by
  obtain ⟨ha, hb, hsame, hashA, hashB, hhashA, hhashB, hne, hc⟩ :=
    sortedConflictingTransfers_eq_ok.1 h
  split at hc
  · next hlt =>
    subst hc
    exact ⟨hb, ha, hsame.symm, hhashB, hhashA, hlt⟩
  · next hle =>
    subst hc
    exact ⟨ha, hb, hsame, hhashA, hhashB, lt_of_le_of_ne (not_lt.1 hle) hne⟩

theorem Conflict.Sorted.sortedConflictingTransfers (h : c.Sorted crypto networkId clock) :
    sortedConflictingTransfers crypto c.transferA c.transferB networkId clock = .ok c :=
  sortedConflictingTransfers_eq_ok.2 ⟨h.acceptedA, h.acceptedB, h.sameState, c.hashA, c.hashB,
    h.hashA_eq, h.hashB_eq, ne_of_lt h.lt, if_neg (lt_asymm h.lt)⟩

theorem Conflict.Sorted.mono (h : c.Sorted crypto networkId clock) (hle : clock ≤ clock')
    (hmax : clock' ≤ maxProtocolTimestamp) : c.Sorted crypto networkId clock' where
  acceptedA := h.acceptedA.mono hle hmax
  acceptedB := h.acceptedB.mono hle hmax
  sameState := h.sameState
  hashA_eq := Transfer.transferHash_mono h.hashA_eq hle hmax
  hashB_eq := Transfer.transferHash_mono h.hashB_eq hle hmax
  lt := h.lt

/-- The two transfers may be given in either order. -/
theorem sortedConflictingTransfers_swap
    (h : sortedConflictingTransfers crypto a b networkId clock = .ok c) :
    sortedConflictingTransfers crypto b a networkId clock = .ok c := by
  obtain ⟨ha, hb, hsame, hashA, hashB, hhashA, hhashB, hne, hc⟩ :=
    sortedConflictingTransfers_eq_ok.1 h
  refine sortedConflictingTransfers_eq_ok.2 ⟨hb, ha, hsame.symm, hashB, hashA, hhashB, hhashA,
    hne.symm, ?_⟩
  rw [← hc]
  rcases lt_or_gt_of_ne hne with hlt | hlt
  · rw [if_pos hlt, if_neg (lt_asymm hlt)]
  · rw [if_neg (lt_asymm hlt), if_pos hlt]

end Transfers

/-! ## Proofs -/

/-- The two transfers of a proof. -/
def conflict (proof : ConflictProofV3) : Conflict :=
  ⟨proof.transferA, proof.transferB, proof.transferHashA, proof.transferHashB⟩

/-- The two transfers of a proof, each under the hash of the other. -/
def exchanged (proof : ConflictProofV3) : Conflict :=
  ⟨proof.transferB, proof.transferA, proof.transferHashA, proof.transferHashB⟩

/-- Two transfers that are `==` in Python. -/
def Twins (a b : Transfer) : Prop :=
  { a with metadata := a.metadata.numeric } = { b with metadata := b.metadata.numeric }

/-- A proof lists the transfers of a conflict with their hashes. It may have the two the other way round
    where `==` does not tell them apart. -/
def Lists (proof : ConflictProofV3) (c : Conflict) : Prop :=
  proof.conflict = c ∨ proof.exchanged = c ∧ Twins proof.transferA proof.transferB

/-- What `verify_conflict_proof` establishes. -/
structure Verified (crypto : Crypto) (clock : Int) (proof : ConflictProofV3) : Prop where
  type_eq : proof.type = conflictProofType
  version_eq : proof.version = 3
  sorted : ∃ c, Conflict.Sorted crypto proof.networkId clock c ∧ proof.Lists c
  tokenId_eq : proof.tokenId = proof.transferA.tokenId
  previousHash_eq : proof.previousHash = proof.transferA.previousHash
  sequence_eq : proof.sequence = proof.transferA.sequence
  sender_eq : proof.senderAddress = proof.transferA.senderAddress
  spendKey_eq : proof.transferA.spendKeyForTransfer crypto = .ok proof.spendKey
  detectedAt_nonneg : 0 ≤ proof.detectedAt
  proofHash_eq : proof.conflictProofHash crypto clock = .ok proof.proofHash

section Proofs

variable {crypto : Crypto} {clock clock' networkId : Int} {proof : ConflictProofV3}
  {expected detectedAt : Option Int} {a b : Transfer} {c : Conflict}

theorem eq_fill_iff {spendKey : String} :
    proof.unsigned.numeric = (proof.fill c spendKey).unsigned.numeric ↔
    proof.tokenId = c.transferA.tokenId ∧ proof.previousHash = c.transferA.previousHash ∧
      proof.sequence = c.transferA.sequence ∧ proof.senderAddress = c.transferA.senderAddress ∧
      proof.spendKey = spendKey ∧ proof.transferHashA = c.hashA ∧ proof.transferHashB = c.hashB ∧
      Twins proof.transferA c.transferA ∧ Twins proof.transferB c.transferB := by
  cases proof
  cases c
  simp only [unsigned, fill, numeric, Twins, mk.injEq, true_and, and_true]

/-- The transfers that a proof lists are accepted and spend one state, in the order of the proof, too. -/
theorem Lists.facts (h : proof.Lists c) (hsorted : c.Sorted crypto networkId clock) :
    Accepted crypto networkId clock proof.transferA ∧ Accepted crypto networkId clock proof.transferB ∧
      SameState proof.transferA proof.transferB ∧ SameState proof.transferA c.transferA := by
  rcases h with rfl | ⟨rfl, -⟩
  · exact ⟨hsorted.acceptedA, hsorted.acceptedB, hsorted.sameState, ⟨rfl, rfl, rfl, rfl⟩⟩
  · exact ⟨hsorted.acceptedB, hsorted.acceptedA, hsorted.sameState.symm, hsorted.sameState.symm⟩

theorem Lists.hashes (h : proof.Lists c) :
    proof.transferHashA = c.hashA ∧ proof.transferHashB = c.hashB := by
  rcases h with rfl | ⟨rfl, -⟩
  · exact ⟨rfl, rfl⟩
  · exact ⟨rfl, rfl⟩

/-- The transfers of a proof are sorted into the conflict that it lists. -/
theorem Lists.sortedConflictingTransfers (h : proof.Lists c) (hsorted : c.Sorted crypto networkId clock) :
    sortedConflictingTransfers crypto proof.transferA proof.transferB networkId clock = .ok c := by
  rcases h with rfl | ⟨rfl, -⟩
  · exact hsorted.sortedConflictingTransfers
  · exact sortedConflictingTransfers_swap hsorted.sortedConflictingTransfers

/-- **Verifying a proof establishes that it holds two accepted transfers of one state, the lower hash
    first, and no more than what follows from them.** -/
theorem verifyConflictProof_eq_ok {u : Unit} : verifyConflictProof crypto proof expected clock = .ok u ↔
    (∀ e ∈ expected, proof.networkId = e) ∧ proof.Verified crypto clock := by
  simp only [verifyConflictProof, requireNetwork, validateAddress, Check.bind_eq_ok, Check.require_eq_ok,
    requireMin_eq_ok, hex32_eq_ok, Check.pure_eq_ok, eq_fill_iff]
  constructor
  · rintro ⟨_, htype, _, hversion, _, -, _, hnetwork, _, -, _, -, _, -, _, -, _, -, _, -, _, -, _,
      hdetected, c, hc, key, hkey, _, ⟨htoken, hprev, hseq, hsender, rfl, hA, hB, htwins, -⟩, hash, hhash, rfl⟩
    have hsorted := Conflict.Sorted.of_sortedConflictingTransfers hc
    have hlists : proof.Lists c := by
      obtain ⟨-, -, -, hashA, hashB, -, -, -, hcase⟩ := sortedConflictingTransfers_eq_ok.1 hc
      split at hcase
      · subst hcase
        refine Or.inr ⟨?_, htwins⟩
        rw [exchanged, hA, hB]
      · subst hcase
        refine Or.inl ?_
        rw [conflict, hA, hB]
    obtain ⟨-, -, -, hsame⟩ := hlists.facts hsorted
    refine ⟨hnetwork, htype, hversion, ⟨c, hsorted, hlists⟩, htoken.trans hsame.tokenId_eq.symm,
      hprev.trans hsame.previousHash_eq.symm, hseq.trans hsame.sequence_eq.symm,
      hsender.trans hsame.sender_eq.symm, ?_, hdetected, hhash⟩
    rw [hsame.spendKey_eq]
    exact hkey
  · rintro ⟨hnetwork, h⟩
    obtain ⟨c, hsorted, hlists⟩ := h.sorted
    obtain ⟨hacceptedA, -, -, hsame⟩ := hlists.facts hsorted
    obtain ⟨hhashA, hhashB⟩ := hlists.hashes
    have hshape := hacceptedA.shape
    obtain ⟨key, hkey, hkeyHex⟩ := exists_spendKey hsorted.hashA_eq
    obtain rfl : proof.spendKey = key :=
      Except.ok.inj (h.spendKey_eq.symm.trans (hsame.spendKey_eq.trans hkey))
    have htwins : Twins proof.transferA c.transferA ∧ Twins proof.transferB c.transferB := by
      rcases hlists with rfl | ⟨rfl, htwins⟩
      · exact ⟨rfl, rfl⟩
      · exact ⟨htwins, Eq.symm htwins⟩
    refine ⟨(), h.type_eq, (), h.version_eq, (), ?_, (), hnetwork, _, ⟨?_, rfl⟩, _, ⟨?_, rfl⟩, (), ?_, _,
      ⟨(), ?_, rfl⟩, _, ⟨hkeyHex, rfl⟩, _, ⟨?_, rfl⟩, _, ⟨?_, rfl⟩, (), h.detectedAt_nonneg,
      c, hlists.sortedConflictingTransfers hsorted, proof.spendKey, hkey, (),
      ⟨h.tokenId_eq.trans hsame.tokenId_eq, h.previousHash_eq.trans hsame.previousHash_eq,
        h.sequence_eq.trans hsame.sequence_eq, h.sender_eq.trans hsame.sender_eq, rfl, hhashA, hhashB,
        htwins.1, htwins.2⟩, _, h.proofHash_eq, rfl⟩
    · rw [← hshape.networkId_eq]
      exact hshape.networkId_nonneg
    · rw [h.tokenId_eq]
      exact hshape.tokenId_hex
    · rw [h.previousHash_eq]
      exact hshape.previousHash_hex
    · rw [h.sequence_eq]
      exact hshape.sequence_pos
    · rw [h.sender_eq]
      exact hshape.sender_valid
    · rw [hhashA]
      exact (Transfer.hashed_of_transferHash hsorted.hashA_eq).hash_hex
    · rw [hhashB]
      exact (Transfer.hashed_of_transferHash hsorted.hashB_eq).hash_hex

/-- What `create_conflict_proof_from_transfers` returns, but for the proof hash. -/
def unsignedProof (networkId : Int) (c : Conflict) (spendKey : String) (detectedAt : Int) :
    ConflictProofV3 where
  type := conflictProofType
  version := 3
  networkId := networkId
  tokenId := c.transferA.tokenId
  previousHash := c.transferA.previousHash
  sequence := c.transferA.sequence
  senderAddress := c.transferA.senderAddress
  spendKey := spendKey
  transferHashA := c.hashA
  transferHashB := c.hashB
  transferA := c.transferA
  transferB := c.transferB
  detectedAt := detectedAt
  proofHash := ""

theorem createConflictProofFromTransfers_eq_ok :
    createConflictProofFromTransfers crypto a b detectedAt expected clock = .ok proof ↔
      0 ≤ a.networkId ∧ (∀ e ∈ expected, a.networkId = e) ∧
        ∃ c spendKey hash, sortedConflictingTransfers crypto a b a.networkId clock = .ok c ∧
          c.transferA.spendKeyForTransfer crypto = .ok spendKey ∧
          (0 ≤ detectedAt.getD clock ∧ detectedAt.getD clock ≤ maxProtocolTimestamp) ∧
          (unsignedProof a.networkId c spendKey (detectedAt.getD clock)).conflictProofHash crypto clock
            = .ok hash ∧
          { unsignedProof a.networkId c spendKey (detectedAt.getD clock) with proofHash := hash }
            = proof := by
  simp only [createConflictProofFromTransfers, requireNetwork, Check.bind_eq_ok, Check.require_eq_ok,
    requireMin_eq_ok, currentTime_eq_ok, Check.pure_eq_ok]
  constructor
  · rintro ⟨_, hnetwork, _, hexpected, c, hc, key, hkey, _, ⟨hdetected, rfl⟩, hash, hhash, rfl⟩
    exact ⟨hnetwork, hexpected, c, key, hash, hc, hkey, hdetected, hhash, rfl⟩
  · rintro ⟨hnetwork, hexpected, c, key, hash, hc, hkey, hdetected, hhash, rfl⟩
    exact ⟨(), hnetwork, (), hexpected, c, hc, key, hkey, _, ⟨hdetected, rfl⟩, hash, hhash, rfl⟩

/-- The proof hash is not part of what it is taken of. -/
theorem conflictProofHash_proofHash (hash : String) :
    conflictProofHash crypto { proof with proofHash := hash } clock
      = conflictProofHash crypto proof clock := rfl

theorem conflictProofHash_mono {hash : String} (h : proof.conflictProofHash crypto clock = .ok hash)
    (hle : clock ≤ clock') (hmax : clock' ≤ maxProtocolTimestamp) :
    proof.conflictProofHash crypto clock' = .ok hash := by
  simp only [conflictProofHash, encodeConflictProof, encodeConflictProofBody, Check.bind_eq_ok] at h ⊢
  obtain ⟨encoded, ⟨_, h0, body, ⟨_, h1, _, h2, _, h3, _, h4, _, h5, _, h6, _, h7, _, h8, _, h9,
    transferA, hA, transferB, hB, hrest⟩, henvelope⟩, hdigest⟩ := h
  exact ⟨encoded, ⟨_, h0, body, ⟨_, h1, _, h2, _, h3, _, h4, _, h5, _, h6, _, h7, _, h8, _, h9,
    transferA, Transfer.encodeTransferBody_mono hA hle hmax, transferB,
    Transfer.encodeTransferBody_mono hB hle hmax, hrest⟩, henvelope⟩, hdigest⟩

/-- A verified proof stays verified. -/
theorem Verified.mono (h : proof.Verified crypto clock) (hle : clock ≤ clock')
    (hmax : clock' ≤ maxProtocolTimestamp) : proof.Verified crypto clock' where
  __ := h
  sorted := by
    obtain ⟨c, hsorted, hlists⟩ := h.sorted
    exact ⟨c, hsorted.mono hle hmax, hlists⟩
  proofHash_eq := conflictProofHash_mono h.proofHash_eq hle hmax

/-- Two transfers that have hashes have a proof with a hash, in either order. -/
theorem exists_conflictProofHash {hashA hashB : String} (hA : c.transferA.Hashed crypto clock hashA)
    (hB : c.transferB.Hashed crypto clock hashB)
    (hshape : c.transferA.WellShaped crypto networkId true clock) (hhashA : IsHex32 c.hashA)
    (hhashB : IsHex32 c.hashB) {spendKey : String} (hkey : IsHex32 spendKey) {detected : Int}
    (hdetected : 0 ≤ detected ∧ detected ≤ maxProtocolTimestamp) :
    ∃ hash, (unsignedProof networkId c spendKey detected).conflictProofHash crypto clock
      = .ok hash := by
  have hnetwork : 0 ≤ networkId ∧ networkId ≤ maxProtocolTimestamp := by
    rw [← hshape.networkId_eq]
    exact ⟨hshape.networkId_nonneg, hA.networkId_le⟩
  obtain ⟨senderLen, senderAscii⟩ := ascii_of_isAddress hshape.sender_valid
  -- The fields of the body one after another, each with the bytes that it takes at most.
  obtain ⟨token, htoken, ltoken⟩ := BinaryV3.fits_encodeHashHex hshape.tokenId_hex
  obtain ⟨prev, hprev, lprev⟩ := BinaryV3.fits_encodeHashHex hshape.previousHash_hex
  obtain ⟨seq, hseq, lseq⟩ := BinaryV3.fits_encodeUvarint _ (le_trans (by decide) hshape.sequence_pos)
    hA.sequence_le
  obtain ⟨sender, hsender, lsender⟩ := BinaryV3.fits_encodeAscii _ 128 128 senderAscii (by omega)
    le_rfl (by decide)
  obtain ⟨key, hkey, lkey⟩ := BinaryV3.fits_encodeHashHex hkey
  obtain ⟨hashA, hhashA, lhashA⟩ := BinaryV3.fits_encodeHashHex hhashA
  obtain ⟨hashB, hhashB, lhashB⟩ := BinaryV3.fits_encodeHashHex hhashB
  obtain ⟨transferA, htransferA, ltransferA⟩ := Transfer.fits_encodeTransferBody hA.shape
    hA.sequence_le hA.timestamp_le
  obtain ⟨transferB, htransferB, ltransferB⟩ := Transfer.fits_encodeTransferBody hB.shape
    hB.sequence_le hB.timestamp_le
  obtain ⟨time, htime, ltime⟩ := BinaryV3.fits_encodeUvarint _ hdetected.1 hdetected.2
  obtain ⟨zero, hzero, lzero⟩ := BinaryV3.fits_encodeHashHex isHex32_zeroHash
  obtain ⟨body, hbody, lbody⟩ : BinaryV3.Fits ((unsignedProof networkId c spendKey
      detected).encodeConflictProofBody crypto false clock) 2000 := by
    refine ⟨token ++ (prev ++ (seq ++ (sender ++ (key ++ (hashA ++ (hashB ++ (transferA ++ (transferB ++
      (time ++ zero))))))))), ?_, ?_⟩
    · simp only [encodeConflictProofBody, unsignedProof, Check.bind_eq_ok, Check.pure_eq_ok,
        requireMin_eq_ok, hex32_eq_ok]
      exact ⟨(), hnetwork.1, _, ⟨isHex32_zeroHash, rfl⟩, _, htoken, _, hprev, _, hseq, _, hsender, _,
        hkey, _, hhashA, _, hhashB, _, htransferA, _, htransferB, _, htime, _, hzero, rfl⟩
    · simp only [List.length_append]
      omega
  obtain ⟨encoded, hencoded, lencoded⟩ := BinaryV3.fits_encodeEnvelope "IND3CFLP" (by decide)
    hnetwork.1 hnetwork.2 lbody
  obtain ⟨digest, hdigest, -⟩ := BinaryV3.exists_objectHash crypto conflictProofType encoded
    (by decide) (by decide) (le_trans lencoded (by decide))
  refine ⟨Text.hex digest, ?_⟩
  simp only [conflictProofHash, encodeConflictProof, Check.bind_eq_ok, Check.pure_eq_ok,
    requireMin_eq_ok]
  exact ⟨encoded, ⟨(), hnetwork.1, body, hbody, hencoded⟩, digest, hdigest, rfl⟩

/-- Two sorted transfers have a proof with a hash. -/
theorem Conflict.Sorted.exists_conflictProofHash (h : c.Sorted crypto networkId clock)
    {spendKey : String} (hkey : IsHex32 spendKey) {detected : Int}
    (hdetected : 0 ≤ detected ∧ detected ≤ maxProtocolTimestamp) :
    ∃ hash, (unsignedProof networkId c spendKey detected).conflictProofHash crypto clock
      = .ok hash :=
  have hA := Transfer.hashed_of_transferHash h.hashA_eq
  have hB := Transfer.hashed_of_transferHash h.hashB_eq
  ConflictProofV3.exists_conflictProofHash hA hB h.acceptedA.shape hA.hash_hex hB.hash_hex hkey hdetected

/-- A created proof is verified. -/
theorem verified_of_create
    (h : createConflictProofFromTransfers crypto a b detectedAt expected clock = .ok proof) :
    (∀ e ∈ expected, proof.networkId = e) ∧ proof.Verified crypto clock := by
  obtain ⟨-, hexpected, c, key, hash, hc, hkey, hdetected, hhash, rfl⟩ :=
    createConflictProofFromTransfers_eq_ok.1 h
  exact ⟨hexpected, rfl, rfl, ⟨c, .of_sortedConflictingTransfers hc, Or.inl rfl⟩, rfl, rfl, rfl, rfl, hkey,
    hdetected.1, hhash⟩

/-- A proof is created from two accepted transfers exactly if they conflict. -/
theorem exists_create_iff (ha : Accepted crypto networkId clock a)
    (hb : Accepted crypto networkId clock b) (hexpected : ∀ e ∈ expected, networkId = e)
    (hdetected : 0 ≤ detectedAt.getD clock ∧ detectedAt.getD clock ≤ maxProtocolTimestamp) :
    (∃ proof, createConflictProofFromTransfers crypto a b detectedAt expected clock = .ok proof) ↔
      SameState a b ∧ a.transferHash crypto clock ≠ b.transferHash crypto clock := by
  constructor
  · rintro ⟨proof, h⟩
    obtain ⟨-, -, c, _, _, hc, -⟩ := createConflictProofFromTransfers_eq_ok.1 h
    obtain ⟨-, -, hsame, hashA, hashB, hhashA, hhashB, hne, -⟩ := sortedConflictingTransfers_eq_ok.1 hc
    refine ⟨hsame, ?_⟩
    rw [hhashA, hhashB]
    exact fun heq => hne (Except.ok.inj heq)
  · rintro ⟨hsame, hne⟩
    obtain ⟨hashA, hhashA⟩ := ha.exists_transferHash
    obtain ⟨hashB, hhashB⟩ := hb.exists_transferHash
    rw [hhashA, hhashB] at hne
    obtain ⟨c, hc⟩ : ∃ c, sortedConflictingTransfers crypto a b networkId clock = .ok c :=
      ⟨_, sortedConflictingTransfers_eq_ok.2 ⟨ha, hb, hsame, hashA, hashB, hhashA, hhashB,
        fun heq => hne (congrArg _ heq), rfl⟩⟩
    have hsorted := Conflict.Sorted.of_sortedConflictingTransfers hc
    obtain ⟨key, hkey, hkeyHex⟩ := exists_spendKey hsorted.hashA_eq
    obtain ⟨hash, hhash⟩ := hsorted.exists_conflictProofHash hkeyHex hdetected
    have hnetwork := ha.shape.networkId_eq
    refine ⟨_, createConflictProofFromTransfers_eq_ok.2 ⟨ha.shape.networkId_nonneg, ?_, c, key, hash, ?_,
      hkey, hdetected, ?_, rfl⟩⟩
    · rw [hnetwork]
      exact hexpected
    · rw [hnetwork]
      exact hc
    · rw [hnetwork]
      exact hhash

/-- The order of the two transfers does not matter. -/
theorem create_swap
    (h : createConflictProofFromTransfers crypto a b detectedAt expected clock = .ok proof) :
    createConflictProofFromTransfers crypto b a detectedAt expected clock = .ok proof := by
  obtain ⟨hnonneg, hexpected, c, key, hash, hc, hrest⟩ := createConflictProofFromTransfers_eq_ok.1 h
  obtain ⟨-, hb, -⟩ := sortedConflictingTransfers_eq_ok.1 hc
  refine createConflictProofFromTransfers_eq_ok.2 ?_
  rw [hb.shape.networkId_eq]
  exact ⟨hnonneg, hexpected, c, key, hash, sortedConflictingTransfers_swap hc, hrest⟩

end Proofs

end ConflictProofV3
