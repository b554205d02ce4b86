import InternationalDollar.Lib.Check
import InternationalDollar.Lib.Select
import InternationalDollar.Lib.Text
import Mathlib.Data.Prod.Lex
import Mathlib.Data.String.Basic

set_option autoImplicit false

/-! # The local store (`INDLocalStore`)

The store keeps verified bills, one row for each bill hash, and proofs of conflicting transfers. What
it shows of a token depends on the status of its rows, on which of them is the newest and on the
conflict proofs that still verify when they are read. -/

/-! ## Rows -/

/-- A transfer as the store reads it, with its hash and its spend key. -/
structure StoreTransfer where
  tokenId : String
  previousHash : String
  sequence : Int
  senderAddress : String
  recipientAddress : String
  spendKey : String
  transferHash : String
deriving DecidableEq

/-- A bill as the store reads it: its hash, the transfers behind its checkpoint and the recent ones, the
    state that verification derives from it, the operator key of the proof bundle that it names, and the
    length of its encoding. -/
structure StoreBill where
  billHash : String
  tokenId : String
  displayId : String
  archivedTransfers : List StoreTransfer
  recentTransfers : List StoreTransfer
  ownerAddress : String
  lastTransferHash : String
  sequence : Int
  operatorPublicKey : Option String
  blobLength : Nat
  displayId_ne : displayId ≠ ""
  displayId_strip : Text.strip displayId = displayId
  transfers_token : ∀ transfer ∈ archivedTransfers ++ recentTransfers, transfer.tokenId = tokenId
  transfers_sequence : ∀ transfer ∈ archivedTransfers ++ recentTransfers,
    transfer.sequence ≤ sequence
deriving DecidableEq

/-- All transfers of a bill. -/
def StoreBill.transfers (bill : StoreBill) : List StoreTransfer :=
  bill.archivedTransfers ++ bill.recentTransfers

/-- The statuses of `bills_v3`. -/
inductive BillStatus where
  | pending
  | verified
  | settled
deriving DecidableEq

/-- `BILL_V3_STATUS_RANK`. -/
def billV3StatusRank : BillStatus → Nat
  | .pending => 2
  | .verified => 3
  | .settled => 3

/-- `_stronger_bill_v3_status`. -/
def strongerBillV3Status (current : Option BillStatus) (incoming : BillStatus) : BillStatus :=
  match current with
  | none => incoming
  | some status =>
      if billV3StatusRank incoming < billV3StatusRank status then status else incoming

/-- A row of `bills_v3`. The columns that repeat the bill are read from it. -/
structure BillRow where
  bill : StoreBill
  firstSeen : Int
  updatedAt : Int
  status : BillStatus
deriving DecidableEq

/-- A `ConflictProofV3`. -/
structure ConflictProof where
  tokenId : String
  previousHash : String
  sequence : Int
  senderAddress : String
  spendKey : String
  transferHashA : String
  transferHashB : String
  detectedAt : Int
  proofHash : String
deriving DecidableEq

/-- `conflict_proof_key`, before it is hashed. -/
def ConflictProof.conflictKey (proof : ConflictProof) :
    String × String × Int × String × String × String :=
  if proof.transferHashB < proof.transferHashA then
    (proof.tokenId, proof.previousHash, proof.sequence, proof.senderAddress, proof.transferHashB,
      proof.transferHashA)
  else
    (proof.tokenId, proof.previousHash, proof.sequence, proof.senderAddress, proof.transferHashA,
      proof.transferHashB)

/-- A row of `conflicts_v3`. -/
structure ConflictRow where
  proof : ConflictProof
  detectedAt : Int
deriving DecidableEq

/-- The statuses of `transfer_log_status_v3`. -/
inductive LogStatus where
  | unlogged
  | logPending
  | logProven
deriving DecidableEq

/-- A row of `transfer_log_status_v3`. -/
structure TransferLogRow where
  transferHash : String
  spendKey : String
  logId : String
  status : LogStatus
deriving DecidableEq

/-- The store: its settings, its tables and the time of its last write. -/
structure LocalStore where
  settlementQuorumEnabled : Bool
  operatorFinalityRequiredProofs : Nat
  allowEmbeddedOperatorKey : Bool
  bills : List BillRow
  conflicts : List ConflictRow
  transferLog : List TransferLogRow
  clock : Int
deriving DecidableEq

/-- What the verification functions answer while a call of the store runs. It depends on the mirrors
    that are reachable then. -/
structure Verification where
  verifyBill : Option String → StoreBill → Bool
  verifyConflictProof : ConflictProof → Bool
  conflictProofHash : ConflictProof → String
  provenLogIds : StoreTransfer → List String

namespace LocalStore

variable (store : LocalStore)

/-! ## Queries on bills -/

/-- `_has_materialized_newer_v3_branch_conn`: every status counts. -/
def hasMaterializedNewerV3Branch (tokenId : String) (sequence : Int) : Bool :=
  store.bills.any fun row => row.bill.tokenId = tokenId ∧ sequence < row.bill.sequence

/-- `spendable_bill_v3_statuses`. -/
def spendableBillV3Statuses : List BillStatus :=
  if store.settlementQuorumEnabled then [.settled] else [.settled, .verified]

/-- `CASE status WHEN 'settled' THEN 3 WHEN 'verified' THEN 2 ELSE 1 END`, which is also the order of
    the statuses where the last case is written out. -/
def statusOrder : BillStatus → Int
  | .settled => 3
  | .verified => 2
  | .pending => 1

/-- `ORDER BY sequence DESC, ... status ... DESC, LENGTH(bill_blob) ASC, updated_at DESC`. -/
def spendableOrder (row : BillRow) : Int ×ₗ Int ×ₗ Int ×ₗ Int :=
  toLex (-row.bill.sequence, toLex (-statusOrder row.status,
    toLex ((row.bill.blobLength : Int), -row.updatedAt)))

/-- `ORDER BY sequence DESC, ... status ... DESC, updated_at DESC`. -/
def newestOrder (row : BillRow) : Int ×ₗ Int ×ₗ Int :=
  toLex (-row.bill.sequence, toLex (-statusOrder row.status, -row.updatedAt))

/-- No row of the token has a larger sequence. -/
def isNewest (row : BillRow) : Bool :=
  !store.hasMaterializedNewerV3Branch row.bill.tokenId row.bill.sequence

/-- `get_spendable_bill_v3_by_display_id`. -/
def getSpendableBillV3ByDisplayId (displayId ownerAddress : String) : Option StoreBill :=
  let rows := store.bills.filter fun row => row.bill.displayId = displayId ∧
    row.bill.ownerAddress = ownerAddress ∧ row.status ∈ store.spendableBillV3Statuses
  (Select.first spendableOrder store.isNewest rows).map BillRow.bill

/-- One chunk of `spendable_bill_v3_display_ids`. -/
def spendableChunk (ownerAddress : String) (chunk : List String) : List String :=
  let rows := store.bills.filter fun row => row.bill.ownerAddress = ownerAddress ∧
    row.status ∈ store.spendableBillV3Statuses ∧ row.bill.displayId ∈ chunk
  (rows.filter store.isNewest).map fun row => row.bill.displayId

/-- `display_ids[offset : offset + chunk_size]` for the offsets 0, `chunk_size`, and so on. -/
def chunks {α : Type} (chunkSize : Nat) (items : List α) : List (List α) :=
  (List.range ((items.length + chunkSize - 1) / chunkSize)).map fun i =>
    (items.drop (chunkSize * i)).take chunkSize

/-- `spendable_bill_v3_display_ids`: the set of display ids found in chunks of 800. -/
def spendableBillV3DisplayIds (ownerAddress : String) (displayIds : List String) : List String :=
  let displayIds := (displayIds.map Text.strip).filter fun displayId => displayId ≠ ""
  (chunks 800 displayIds).flatMap (store.spendableChunk ownerAddress)

/-! ## Conflict proofs -/

/-- `_trusted_operator_key_from_bill_v3`, and `_trusted_operator_key_from_proof_bundle_v3` for the key
    of a bundle. -/
def trustedOperatorKey (operatorPublicKey : Option String) : Option String :=
  if store.allowEmbeddedOperatorKey then operatorPublicKey else none

/-- `_bill_v3_matches_conflict_anchor`. -/
def billV3MatchesConflictAnchor (bill : StoreBill) (proof : ConflictProof) : Bool :=
  (bill.recentTransfers.any fun transfer =>
    transfer.transferHash = proof.transferHashA ∨ transfer.transferHash = proof.transferHashB) ||
  decide (bill.sequence = proof.sequence - 1 ∧ bill.lastTransferHash = proof.previousHash ∧
    bill.ownerAddress = proof.senderAddress)

/-- `_conflict_proof_has_local_v3_anchor`. -/
def conflictProofHasLocalV3Anchor (v : Verification) (proof : ConflictProof) : Bool :=
  store.bills.any fun row => row.bill.tokenId = proof.tokenId ∧
    v.verifyBill (store.trustedOperatorKey row.bill.operatorPublicKey) row.bill = true ∧
    billV3MatchesConflictAnchor row.bill proof = true

/-- `_is_post_settlement_conflict_v3`. -/
def isPostSettlementConflictV3 (proof : ConflictProof) : Bool :=
  store.bills.any fun row => row.bill.tokenId = proof.tokenId ∧ row.status = .settled ∧
    proof.sequence ≤ row.bill.sequence

/-- Whether reading a stored proof verifies and anchors it. -/
def conflictRowHolds (v : Verification) (row : ConflictRow) : Bool :=
  v.verifyConflictProof row.proof && store.conflictProofHasLocalV3Anchor v row.proof

/-- `DELETE FROM conflicts_v3 WHERE proof_hash = ?`. -/
def deleteConflict (proofHash : String) : LocalStore :=
  { store with conflicts := store.conflicts.filter fun row => row.proof.proofHash ≠ proofHash }

/-- The loop of `_latest_conflict_proof_v3_for_token`: a proof that does not hold now is deleted, one
    at or below a settled row is passed over. -/
def scanConflicts (v : Verification) : LocalStore → List ConflictRow → Option ConflictProof × LocalStore
  | store, [] => (none, store)
  | store, row :: rest =>
      if store.conflictRowHolds v row then
        if store.isPostSettlementConflictV3 row.proof then scanConflicts v store rest
        else (some row.proof, store)
      else scanConflicts v (store.deleteConflict row.proof.proofHash) rest

/-- `ORDER BY detected_at DESC, proof_hash DESC`. -/
def conflictOrder (row : ConflictRow) : Int ×ₗ Stringᵒᵈ :=
  toLex (-row.detectedAt, OrderDual.toDual row.proof.proofHash)

/-- `_latest_conflict_proof_v3_for_token`. -/
def latestConflictProofV3ForToken (v : Verification) (tokenId : String) :
    Option ConflictProof × LocalStore :=
  scanConflicts v store (Select.orderBy conflictOrder
    (store.conflicts.filter fun row => row.proof.tokenId = tokenId))

/-- The hashes of the proofs that the loop deletes. -/
def scanDropped (v : Verification) : LocalStore → List ConflictRow → List String
  | _, [] => []
  | store, row :: rest =>
      if store.conflictRowHolds v row then
        if store.isPostSettlementConflictV3 row.proof then scanDropped v store rest else []
      else row.proof.proofHash :: scanDropped v (store.deleteConflict row.proof.proofHash) rest

/-- The hashes of the proofs that `_latest_conflict_proof_v3_for_token` deletes. -/
def droppedProofs (v : Verification) (tokenId : String) : List String :=
  scanDropped v store (Select.orderBy conflictOrder
    (store.conflicts.filter fun row => row.proof.tokenId = tokenId))

/-- The loop of `conflict_messages`. -/
def scanMessages (v : Verification) : LocalStore → List ConflictRow → List ConflictProof × LocalStore
  | store, [] => ([], store)
  | store, row :: rest =>
      if store.conflictRowHolds v row then
        let (messages, store') := scanMessages v store rest
        if store.isPostSettlementConflictV3 row.proof then (messages, store')
        else (row.proof :: messages, store')
      else scanMessages v (store.deleteConflict row.proof.proofHash) rest

/-- `conflict_messages`. -/
def conflictMessages (v : Verification) (limit : Nat) : List ConflictProof × LocalStore :=
  scanMessages v store ((Select.orderBy (fun row : ConflictRow => -row.detectedAt)
    store.conflicts).take limit)

/-! ## Confidence -/

/-- What `bill_v3_confidence` answers. -/
structure Confidence where
  accepted : Bool
  level : String
  reason : String
  sequence : Option Int
deriving DecidableEq

/-- The fallback row of `bill_v3_confidence`: the newest settled or verified row of an owner. -/
def fallbackRow (tokenId ownerAddress : String) : Option BillRow :=
  Select.first spendableOrder (fun _ => true) (store.bills.filter fun row =>
    row.bill.tokenId = tokenId ∧ row.bill.ownerAddress = ownerAddress ∧
      row.status ∈ [BillStatus.settled, BillStatus.verified])

/-- The row on which `bill_v3_confidence` decides. An empty owner is no owner. -/
def confidenceRow (tokenId expectedOwner : String) : Option BillRow :=
  match Select.first newestOrder (fun _ => true)
      (store.bills.filter fun row => row.bill.tokenId = tokenId) with
  | none => none
  | some row =>
      if expectedOwner ≠ "" ∧ row.bill.ownerAddress ≠ expectedOwner then
        match store.fallbackRow tokenId expectedOwner with
        | none => some row
        | some fallback =>
            if store.isNewest fallback then some fallback else some row
      else some row

/-- `bill_v3_confidence`, and the store after it. -/
def billV3Confidence (v : Verification) (tokenId expectedOwner : String)
    (minSettledSeconds now : Int) : Confidence × LocalStore :=
  match store.confidenceRow tokenId expectedOwner with
  | none => (⟨false, "unknown", "V3 bill not found", none⟩, store)
  | some record =>
      let (conflict, store') := store.latestConflictProofV3ForToken v tokenId
      let answer : Confidence :=
        match conflict with
        | some proof =>
            if record.status ≠ .settled then
              ⟨false, "conflict", "V3 bill has a stored conflict proof before local settlement",
                some proof.sequence⟩
            else settledAnswer record
        | none => settledAnswer record
      (answer, store')
where
  /-- The answer on a row that no conflict proof stops. -/
  settledAnswer (record : BillRow) : Confidence :=
    if expectedOwner ≠ "" ∧ record.bill.ownerAddress ≠ expectedOwner then
      ⟨false, "wrong_owner", "V3 bill owner does not match expected owner", none⟩
    else match record.status with
      | .pending => ⟨false, "pending", "V3 bill is not locally spendable", none⟩
      | .verified =>
          if store.settlementQuorumEnabled then
            ⟨false, "verified", "V3 bill is verified but awaiting settlement quorum",
              some record.bill.sequence⟩
          else ⟨true, "verified", "V3 bill is verified locally", some record.bill.sequence⟩
      | .settled =>
          if now - record.updatedAt < minSettledSeconds then
            ⟨false, "settled_fresh", "V3 bill is settled but below requested confidence age", none⟩
          else ⟨true, "strong_local", "V3 bill is settled locally", some record.bill.sequence⟩

end LocalStore
