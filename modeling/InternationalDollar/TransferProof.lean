import InternationalDollar.InclusionProof
import InternationalDollar.StoreIngest
import InternationalDollar.GossipMessages
import InternationalDollar.SpendMapProofs

set_option autoImplicit false

/-! # Proofs that an operator logged a transfer

A node takes the current root of an operator from the mirrors and asks the operator for two proofs: that the root
covers the transfer's leaf, and that its spend map has the transfer under the spend key. A spend proof is accepted for
a transfer exactly where the claim of the transfer is the only one that it shows
(`verifySpendMapProofForTransfer_eq_ok`). -/

variable {crypto : Crypto}

/-! ## Spend proofs -/

/-- `make_operator_policy_violation_proof`. -/
def OperatorPolicyViolationProof.makeOperatorPolicyViolationProof (acceptLegacy : Bool) (clock : Int)
    (root : MirroredRoot crypto) (spendProof : SpendMapProof) :
    Except String (OperatorPolicyViolationProof crypto) := do
  let proof : OperatorPolicyViolationProof crypto :=
    { type := logOperatorPolicyViolationType
      version := logVersion
      violationType := "accepted_conflicting_spend"
      logId := root.logId
      root := root
      spendProof := spendProof
      detectedAt := clock }
  proof.verifyOperatorPolicyViolationProof acceptLegacy clock none
  pure proof

/-- `InclusionProofError` with its reason, or `OperatorPolicyViolationError` with its evidence. -/
inductive SpendProofError (crypto : Crypto) where
  | invalid (reason : String)
  | violation (reason : String) (evidence : OperatorPolicyViolationProof crypto)

/-- `str(exc)`. -/
def SpendProofError.reason : SpendProofError crypto → String
  | .invalid reason => reason
  | .violation reason _ => reason

namespace SpendMapProof

/-- The checks of `verify_spend_map_proof_for_transfer` up to its last. It returns the claim of the transfer and
    the claims of others. -/
def claimForTransfer (crypto : Crypto) (acceptLegacy : Bool) (clock : Int) (t : Transfer) (proof : SpendMapProof)
    (root : SignedRoot) (operatorPublicKey : Option String) : Except String (SpendClaim × List SpendClaim) := do
  root.verifySignedRoot crypto acceptLegacy operatorPublicKey
  let claims ← proof.verifySpendMapProof crypto acceptLegacy clock root
  let spendKey ← t.spendKeyForTransfer crypto
  let hash ← t.transferHash crypto clock
  let claim ← Check.ofOption (claims.find? fun c => c.transferHash = hash)
    "spend proof does not contain this transfer"
  Check.require (claim.spendKey = spendKey) "spend proof is for a different bill state"
  Check.require (claim.transferHash = hash) "spend proof maps the spend key to a different transfer"
  Check.require (claim.tokenId = t.tokenId) "spend proof bill id mismatch"
  Check.require (claim.previousHash = t.previousHash) "spend proof previous hash mismatch"
  Check.require (claim.sequence = t.sequence) "spend proof sequence mismatch"
  Check.require (claim.senderAddress = t.senderAddress) "spend proof sender mismatch"
  Check.require (claim.senderPublicKey = t.senderPublicKey) "spend proof sender key mismatch"
  pure (claim, claims.filter fun c => c.transferHash ≠ hash)

/-- `verify_spend_map_proof_for_transfer`. -/
def verifySpendMapProofForTransfer (acceptLegacy : Bool) (clock : Int) (t : Transfer) (proof : SpendMapProof)
    (root : MirroredRoot crypto) (operatorPublicKey : Option String) : Except (SpendProofError crypto) Unit :=
  match proof.claimForTransfer crypto acceptLegacy clock t root.toSignedRoot operatorPublicKey with
  | .error reason => .error (.invalid reason)
  | .ok (claim, conflicting) =>
      if conflicting = [] then .ok ()
      else if ∀ c ∈ claim :: conflicting, c.transfer.isSome then
        match OperatorPolicyViolationProof.makeOperatorPolicyViolationProof acceptLegacy clock root proof with
        | .error reason => .error (.invalid reason)
        | .ok evidence => .error (.violation "operator accepted conflicting spend claims" evidence)
      else .error (.invalid "spend proof contains an unverifiable conflicting sibling claim")

end SpendMapProof

/-- A claim is that of a transfer. -/
structure SpendClaim.IsOf (crypto : Crypto) (clock : Int) (t : Transfer) (claim : SpendClaim) : Prop where
  spendKey : t.spendKeyForTransfer crypto = .ok claim.spendKey
  transferHash : t.transferHash crypto clock = .ok claim.transferHash
  tokenId : claim.tokenId = t.tokenId
  previousHash : claim.previousHash = t.previousHash
  sequence : claim.sequence = t.sequence
  senderAddress : claim.senderAddress = t.senderAddress
  senderPublicKey : claim.senderPublicKey = t.senderPublicKey

namespace SpendMapProof

variable {acceptLegacy : Bool} {clock : Int} {t : Transfer} {proof : SpendMapProof} {root : SignedRoot}
  {operatorPublicKey : Option String} {claim : SpendClaim} {shown : List SpendClaim}

theorem claimForTransfer_eq_ok {others : List SpendClaim} :
    proof.claimForTransfer crypto acceptLegacy clock t root operatorPublicKey = .ok (claim, others) ↔
      root.verifySignedRoot crypto acceptLegacy operatorPublicKey = .ok () ∧ ∃ claims,
        proof.verifySpendMapProof crypto acceptLegacy clock root = .ok claims ∧
        claims.find? (fun c => c.transferHash = claim.transferHash) = some claim ∧
        SpendClaim.IsOf crypto clock t claim ∧
        claims.filter (fun c => c.transferHash ≠ claim.transferHash) = others := by
  simp only [claimForTransfer, Check.bind_eq_ok, Check.require_eq_ok, Check.ofOption_eq_ok, Check.pure_eq_ok,
    exists_const, Prod.mk.injEq]
  constructor
  · rintro ⟨_, hroot, claims, hverify, key, hkey, hash, hhash, found, hfound, rfl, rfl, htoken, hprevious, hsequence,
      haddress, hpublicKey, rfl, rfl⟩
    exact ⟨hroot, claims, hverify, hfound,
      ⟨hkey, hhash, htoken, hprevious, hsequence, haddress, hpublicKey⟩, rfl⟩
  · rintro ⟨hroot, claims, hverify, hfound, hclaim, rfl⟩
    exact ⟨(), hroot, claims, hverify, _, hclaim.spendKey, _, hclaim.transferHash, claim, hfound, rfl, rfl,
      hclaim.tokenId, hclaim.previousHash, hclaim.sequence, hclaim.senderAddress, hclaim.senderPublicKey, rfl, rfl⟩

/-- **A spend proof is accepted for a transfer if and only if it shows the claim of the transfer and no other.** -/
theorem verifySpendMapProofForTransfer_eq_ok {root : MirroredRoot crypto} :
    proof.verifySpendMapProofForTransfer acceptLegacy clock t root operatorPublicKey = .ok () ↔
      root.verifySignedRoot crypto acceptLegacy operatorPublicKey = .ok () ∧ ∃ claim,
        proof.verifySpendMapProof crypto acceptLegacy clock root.toSignedRoot = .ok [claim] ∧
        SpendClaim.IsOf crypto clock t claim := by
  unfold verifySpendMapProofForTransfer
  constructor
  · intro h
    split at h
    · cases h
    · next claim others hclaim =>
      obtain ⟨hroot, claims, hverify, hfound, hof, hothers⟩ := claimForTransfer_eq_ok.1 hclaim
      by_cases hnone : others = []
      · -- All claims are for one transfer, and none is shown twice.
        rw [hnone, List.filter_eq_nil_iff] at hothers
        have hsame : ∀ c ∈ claims, c.transferHash = claim.transferHash := by
          intro c hc
          simpa using hothers c hc
        have hnodup := nodup_of_verify hverify
        have hlist : claims = [claim] := by
          have hreplicate : claims.map SpendClaim.transferHash
              = List.replicate claims.length claim.transferHash := by
            refine List.eq_replicate_iff.2 ⟨List.length_map _, fun hash hhash => ?_⟩
            obtain ⟨c, hc, rfl⟩ := List.mem_map.1 hhash
            exact hsame c hc
          rw [hreplicate, List.nodup_replicate] at hnodup
          have hmem := List.mem_of_find?_eq_some hfound
          obtain ⟨other, rfl⟩ := List.length_eq_one_iff.1 (Nat.le_antisymm hnodup (List.length_pos_of_mem hmem))
          rw [List.mem_singleton.1 hmem]
        exact ⟨hroot, claim, hlist ▸ hverify, hof⟩
      · rw [if_neg hnone] at h
        split at h
        · split at h
          · cases h
          · cases h
        · cases h
  · rintro ⟨hroot, claim, hverify, hof⟩
    have hclaim : proof.claimForTransfer crypto acceptLegacy clock t root.toSignedRoot operatorPublicKey
        = .ok (claim, []) := by
      refine claimForTransfer_eq_ok.2 ⟨hroot, [claim], hverify, ?_, hof, ?_⟩
      · simp
      · simp
    rw [hclaim]
    exact if_pos rfl

end SpendMapProof

/-! ## Log proofs -/

/-- An operator as the store names it. -/
structure LogIdentity where
  logId : String
  operatorPublicKey : String

/-- `_operator_identity_from_response_v3`, for a response that does not name the operator. -/
def LogIdentity.normalized (crypto : Crypto) (identity : LogIdentity) : LogIdentity :=
  let operatorPublicKey := Text.strip identity.operatorPublicKey
  let logId := Text.strip identity.logId
  { logId :=
      if logId ≠ "" then logId
      else if operatorPublicKey ≠ "" then logIdFromPublicKey crypto operatorPublicKey
      else "single-operator"
    operatorPublicKey := operatorPublicKey }

/-- What the verifier of an operator returns while a log proof is checked: the newest root that enough mirrors
    agree on, and the answers of the operator. -/
structure LogVerifier (crypto : Crypto) (pymerkle : PyMerkle) where
  currentMirroredRoot : Except String (MirroredRoot crypto)
  inclusionProof : String → Int → Except String (InclusionResponse pymerkle)
  spendMapProof : String → Int → Except String SpendMapProof

/-- A verified root is that of the log of its key. -/
theorem SignedRoot.logId_of_verify {acceptLegacy : Bool} {root : SignedRoot} {operatorPublicKey : Option String}
    (h : root.verifySignedRoot crypto acceptLegacy operatorPublicKey = .ok ()) :
    root.logId = logIdFromPublicKey crypto (Text.strip root.operatorPublicKey) := by
  simp only [verifySignedRoot, Check.bind_eq_ok, Check.require_eq_ok, exists_const] at h
  obtain ⟨-, -, -, -, _, -, _, -, _, -, _, -, -, hlog, -⟩ := h
  exact hlog

/-- The store names the log of a verified root as the root does. -/
theorem SignedRoot.normalized_of_verify {acceptLegacy : Bool} {root : SignedRoot} {operatorPublicKey : Option String}
    (h : root.verifySignedRoot crypto acceptLegacy operatorPublicKey = .ok ()) : root.logId ≠ "" ∧
      ∀ publicKey, (LogIdentity.normalized crypto ⟨root.logId, publicKey⟩).logId = root.logId := by
  have hlog := SignedRoot.logId_of_verify h
  have hne : root.logId ≠ "" := by
    rw [hlog]
    exact (crypto.isHex32_sha3Hex _).ne_empty
  have hstrip : Text.strip root.logId = root.logId := by
    rw [hlog]
    exact Text.strip_hex _
  refine ⟨hne, fun publicKey => ?_⟩
  simp only [LogIdentity.normalized, hstrip, ne_eq, hne, not_false_eq_true, if_true]

/-- What the store checks with: the cryptography, `pymerkle`, and whether older algorithm names count. -/
structure LogChecks where
  crypto : Crypto
  pymerkle : PyMerkle
  acceptLegacy : Bool

/-- A row of the new table is an old one or the new one. -/
theorem LocalStore.mem_recordTransferLogStatus {log : List TransferLogRow} {row other : TransferLogRow}
    (h : other ∈ recordTransferLogStatus log row) : other ∈ log ∨ other = row := by
  have hcases : recordTransferLogStatus log row = log ∨ recordTransferLogStatus log row
      = (log.filter fun o => !(o.transferHash = row.transferHash && o.logId = row.logId)) ++ [row] :=
    ite_eq_or_eq _ _ _
  rcases hcases with heq | heq
  · exact Or.inl (heq ▸ h)
  · rw [heq] at h
    rcases List.mem_append.1 h with h | h
    · exact Or.inl (List.mem_of_mem_filter h)
    · exact Or.inr (List.mem_singleton.1 h)

namespace LogChecks

variable (checks : LogChecks)

/-- The row that `_verify_v3_transfer_log_proof_for_operator` records, or nothing where the operator has no
    verifier. -/
def provenRow (clock : Int) (verifier : Option (LogVerifier checks.crypto checks.pymerkle)) (t : Transfer)
    (identity : LogIdentity) (leafIndex : Option Int) : Except String (Option TransferLogRow) := do
  let hash ← t.transferHash checks.crypto clock
  let identity := identity.normalized checks.crypto
  match verifier with
  | none => pure none
  | some v => do
      let root ← v.currentMirroredRoot
      Check.require (identity.logId = "" ∨ root.logId = identity.logId)
        "current transparency root is for a different operator"
      Check.require (∀ index ∈ leafIndex, index + 1 ≤ root.treeSize)
        "current transparency root does not contain V3 transfer"
      let proof ← v.inclusionProof hash root.treeSize
      proof.verifyInclusionProof checks.crypto checks.acceptLegacy hash root.toSignedRoot (some root.operatorPublicKey)
      let spendKey ← t.spendKeyForTransfer checks.crypto
      let spendProof ← v.spendMapProof spendKey root.treeSize
      (spendProof.verifySpendMapProofForTransfer checks.acceptLegacy clock t root
        (some root.operatorPublicKey)).mapError SpendProofError.reason
      let recorded : LogIdentity :=
        { logId := if root.logId ≠ "" then root.logId else identity.logId
          operatorPublicKey :=
            if root.operatorPublicKey ≠ "" then root.operatorPublicKey else identity.operatorPublicKey }
      pure (some ⟨hash, spendKey, (recorded.normalized checks.crypto).logId, .logProven⟩)

/-- `_verify_v3_transfer_log_proof_for_operator`. -/
def verifyV3TransferLogProofForOperator (clock : Int)
    (verifier : Option (LogVerifier checks.crypto checks.pymerkle)) (t : Transfer) (identity : LogIdentity)
    (leafIndex : Option Int) (store : LocalStore) : Except String Bool × LocalStore :=
  match checks.provenRow clock verifier t identity leafIndex with
  | .error reason => (.error reason, store)
  | .ok none => (.ok false, store)
  | .ok (some row) =>
      (.ok true, { store with transferLog := LocalStore.recordTransferLogStatus store.transferLog row })

variable {checks} {clock : Int} {verifier : Option (LogVerifier checks.crypto checks.pymerkle)} {t : Transfer}
  {identity : LogIdentity} {leafIndex : Option Int} {row : TransferLogRow}

/-- **What a recorded row says**: under a verified root of its log, an accepted spend proof showed the claim of the
    transfer and no other. -/
theorem of_provenRow (h : checks.provenRow clock verifier t identity leafIndex = .ok (some row)) :
    ∃ v root proof claim, verifier = some v ∧ v.currentMirroredRoot = .ok root ∧
      root.verifySignedRoot checks.crypto checks.acceptLegacy (some root.operatorPublicKey) = .ok () ∧
      v.spendMapProof row.spendKey root.treeSize = .ok proof ∧
      proof.verifySpendMapProof checks.crypto checks.acceptLegacy clock root.toSignedRoot = .ok [claim] ∧
      SpendClaim.IsOf checks.crypto clock t claim ∧ row.transferHash = claim.transferHash ∧
      row.spendKey = claim.spendKey ∧ row.status = .logProven ∧
      row.logId = root.logId := by
  obtain ⟨hash, hhash, h⟩ := Check.bind_eq_ok.1 h
  cases verifier with
  | none => cases Check.pure_eq_ok.1 h
  | some v =>
    simp only [Check.bind_eq_ok, Check.require_eq_ok, Check.pure_eq_ok, exists_const] at h
    obtain ⟨root, hroot, -, -, inclusion, -, -, -, key, hkey, proof, hproof, _, hspend, h⟩ := h
    have haccepted : proof.verifySpendMapProofForTransfer checks.acceptLegacy clock t root
        (some root.operatorPublicKey) = .ok () := by
      cases hcheck : proof.verifySpendMapProofForTransfer checks.acceptLegacy clock t root
          (some root.operatorPublicKey) with
      | error e =>
        rw [hcheck] at hspend
        cases hspend
      | ok _ => rfl
    obtain ⟨hverified, claim, hverify, hof⟩ := SpendMapProof.verifySpendMapProofForTransfer_eq_ok.1 haccepted
    obtain rfl := Option.some.inj h
    obtain rfl := Except.ok.inj (hkey.symm.trans hof.spendKey)
    obtain rfl := Except.ok.inj (hhash.symm.trans hof.transferHash)
    obtain ⟨hne, hnamed⟩ := SignedRoot.normalized_of_verify hverified
    refine ⟨v, root, proof, claim, rfl, hroot, hverified, hproof, hverify, hof, rfl, rfl, rfl, ?_⟩
    dsimp only
    rw [if_pos hne, hnamed]

/-- A row is recorded where the answers of the operator are accepted. -/
theorem provenRow_of {v : LogVerifier checks.crypto checks.pymerkle} {root : MirroredRoot checks.crypto}
    {response : InclusionResponse checks.pymerkle} {proof : SpendMapProof} {claim : SpendClaim}
    (hroot : v.currentMirroredRoot = .ok root) (hidentity : (identity.normalized checks.crypto).logId = root.logId)
    (hleaf : ∀ index ∈ leafIndex, index + 1 ≤ root.treeSize)
    (hresponse : v.inclusionProof claim.transferHash root.treeSize = .ok response)
    (hincluded : response.verifyInclusionProof checks.crypto checks.acceptLegacy claim.transferHash root.toSignedRoot
      (some root.operatorPublicKey) = .ok ())
    (hproof : v.spendMapProof claim.spendKey root.treeSize = .ok proof)
    (haccepted : proof.verifySpendMapProofForTransfer checks.acceptLegacy clock t root
      (some root.operatorPublicKey) = .ok ())
    (hof : SpendClaim.IsOf checks.crypto clock t claim) :
    checks.provenRow clock (some v) t identity leafIndex
      = .ok (some ⟨claim.transferHash, claim.spendKey, root.logId, .logProven⟩) := by
  obtain ⟨hverified, -⟩ := SpendMapProof.verifySpendMapProofForTransfer_eq_ok.1 haccepted
  obtain ⟨hne, hnamed⟩ := SignedRoot.normalized_of_verify hverified
  rw [provenRow, hof.transferHash, Check.ok_bind]
  dsimp only
  rw [hroot, Check.ok_bind, Check.require_of (Or.inr hidentity.symm), Check.ok_bind, Check.require_of hleaf,
    Check.ok_bind, hresponse, Check.ok_bind, hincluded, Check.ok_bind, hof.spendKey, Check.ok_bind, hproof,
    Check.ok_bind, haccepted]
  show Except.ok (some _) = _
  rw [if_pos hne, hnamed]

/-- The rows of the table after a check are the old ones and the row that it proved. -/
theorem mem_transferLog {store : LocalStore} {other : TransferLogRow}
    (h : other ∈ (checks.verifyV3TransferLogProofForOperator clock verifier t identity leafIndex store).2.transferLog) :
    other ∈ store.transferLog ∨ checks.provenRow clock verifier t identity leafIndex = .ok (some other) := by
  unfold verifyV3TransferLogProofForOperator at h
  split at h
  · exact Or.inl h
  · exact Or.inl h
  · next row hrow =>
    refine (LocalStore.mem_recordTransferLogStatus h).imp id fun heq => ?_
    rw [heq]
    exact hrow

end LogChecks
