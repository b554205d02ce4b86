import InternationalDollar.Lib.Dict
import InternationalDollar.Lib.Runs
import InternationalDollar.LocalStore

set_option autoImplicit false

/-! # Writing to the local store

Rows come from gossip, from wallet synchronisation, from the wallet itself and from compaction, and
change their status when they settle. What a call reads from the network is part of its event: the
answers of the verification functions, of the operators, of the settlement reconciler and the bill that
a compaction builds. -/

namespace LocalStore

/-! ## Rows of bills -/

/-- `_store_bill_v3_conn`: `INSERT OR REPLACE` by bill hash with the stronger status. -/
def storeBillV3Conn (store : LocalStore) (bill : StoreBill) (status : BillStatus) (now : Int) :
    LocalStore :=
  let existing := store.bills.find? fun row => row.bill.billHash = bill.billHash
  let row : BillRow := {
    bill := bill
    firstSeen := existing.elim now BillRow.firstSeen
    updatedAt := now
    status := strongerBillV3Status (existing.map BillRow.status) status }
  { store with
    bills := (store.bills.filter fun other => other.bill.billHash ≠ bill.billHash) ++ [row] }

/-- The compact copy of a bill: the same state, with all transfers behind the checkpoint. -/
def isCompactCopy (bill copy : StoreBill) : Prop :=
  bill.recentTransfers ≠ [] ∧ copy.archivedTransfers = bill.transfers ∧ copy.recentTransfers = [] ∧
    copy.tokenId = bill.tokenId ∧ copy.displayId = bill.displayId ∧
    copy.ownerAddress = bill.ownerAddress ∧ copy.sequence = bill.sequence ∧
    copy.lastTransferHash = bill.lastTransferHash

instance (bill copy : StoreBill) : Decidable (isCompactCopy bill copy) :=
  inferInstanceAs (Decidable (_ ∧ _))

/-- `_maybe_compact_bill_v3`: a failure is swallowed. `copy` is what the compaction builds, if it is due
    and the checkpoint is proven. -/
def maybeCompactBillV3 (store : LocalStore) (bill : StoreBill) (copy : Option StoreBill)
    (status : BillStatus) (now : Int) : LocalStore :=
  match copy with
  | none => store
  | some copy => if isCompactCopy bill copy then store.storeBillV3Conn copy status now else store

/-! ## Conflicts -/

/-- `_sorted_conflicting_transfers` with `create_conflict_proof_from_transfers`. -/
def createConflictProofFromTransfers (v : Verification) (a b : StoreTransfer) (detectedAt : Int) :
    Option ConflictProof :=
  if a.tokenId = b.tokenId ∧ a.sequence = b.sequence ∧ a.previousHash = b.previousHash ∧
      a.senderAddress = b.senderAddress ∧ a.spendKey = b.spendKey ∧
      a.transferHash ≠ b.transferHash then
    let (first, second) := if b.transferHash < a.transferHash then (b, a) else (a, b)
    let proof : ConflictProof := {
      tokenId := first.tokenId
      previousHash := first.previousHash
      sequence := first.sequence
      senderAddress := first.senderAddress
      spendKey := first.spendKey
      transferHashA := first.transferHash
      transferHashB := second.transferHash
      detectedAt := detectedAt
      proofHash := "" }
    some { proof with proofHash := v.conflictProofHash proof }
  else none

/-- `_find_conflicting_transfer_pair`. -/
def findConflictingTransferPair (a b : StoreBill) : Option (StoreTransfer × StoreTransfer) :=
  b.recentTransfers.findSome? fun transferB =>
    (a.recentTransfers.find? fun transferA => transferA.spendKey = transferB.spendKey ∧
      transferA.transferHash ≠ transferB.transferHash).map fun transferA => (transferA, transferB)

/-- `create_conflict_proof`: both bills are verified under one key. -/
def createConflictProof (v : Verification) (operatorKey : Option String) (a b : StoreBill)
    (now : Int) : Option ConflictProof :=
  if v.verifyBill operatorKey a = true ∧ v.verifyBill operatorKey b = true ∧
      a.tokenId = b.tokenId then
    (findConflictingTransferPair a b).bind fun pair =>
      createConflictProofFromTransfers v pair.1 pair.2 now
  else none

/-- `ORDER BY sequence DESC, updated_at DESC`. -/
def recentOrder (row : BillRow) : Int ×ₗ Int :=
  toLex (-row.bill.sequence, -row.updatedAt)

/-- The rows that the tip cache suggests: another tip with the spend key of the incoming tip. The cache
    follows `bills_v3`. -/
def tipCandidates (store : LocalStore) (bill : StoreBill) : List BillRow :=
  match bill.recentTransfers.getLast? with
  | none => []
  | some tip =>
      (Select.orderBy recentOrder (store.bills.filter fun row => row.bill.tokenId = bill.tokenId ∧
        ∃ other ∈ row.bill.recentTransfers.getLast?, other.spendKey = tip.spendKey ∧
          other.transferHash ≠ tip.transferHash)).take 25

/-- `_find_conflicting_bill_v3`: each stored bill of the token is tried once, under the key of the
    incoming bill where there is one. -/
def findConflictingBillV3 (store : LocalStore) (v : Verification) (bill : StoreBill)
    (trustedKey : Option String) (now : Int) : Option ConflictProof :=
  let incomingKey := trustedKey.or (store.trustedOperatorKey bill.operatorPublicKey)
  let rows := store.tipCandidates bill ++
    Select.orderBy recentOrder (store.bills.filter fun row => row.bill.tokenId = bill.tokenId)
  (dedupBy (fun row : BillRow => row.bill.billHash) [bill.billHash] rows).findSome? fun row =>
    createConflictProof v
      (incomingKey.or (store.trustedOperatorKey row.bill.operatorPublicKey)) row.bill bill now

/-- What `_store_conflict_proof_v3_conn` returns. -/
structure ConflictRecord where
  inserted : Bool
  ignored : Bool
deriving DecidableEq

/-- `INSERT OR IGNORE INTO conflicts_v3`: the proof hash is the primary key. -/
def insertConflict (store : LocalStore) (row : ConflictRow) : LocalStore :=
  if store.conflicts.any fun other => other.proof.proofHash = row.proof.proofHash then store
  else { store with conflicts := store.conflicts ++ [row] }

/-- `_store_conflict_proof_v3_conn`. `preverified` proofs are not verified again. -/
def storeConflictProofV3Conn (store : LocalStore) (v : Verification) (proof : ConflictProof)
    (preverified : Bool) (now : Int) : Except String (ConflictRecord × LocalStore) := do
  Check.require (preverified = true ∨ v.verifyConflictProof proof = true)
    "ConflictProofV3 conflict fields mismatch"
  Check.require (store.conflictProofHasLocalV3Anchor v proof = true) "unanchored V3 conflict proof"
  if store.isPostSettlementConflictV3 proof then pure (⟨false, true⟩, store)
  else if store.conflicts.any fun row => row.proof.conflictKey = proof.conflictKey then
    pure (⟨false, false⟩, store)
  else pure (⟨true, false⟩, store.insertConflict ⟨proof, now⟩)

/-! ## Gossip -/

/-- A transfer announcement, the key of its embedded bundle, and what the network makes of it: the log
    rows that the submission records, whether the submission is accepted, and the compact copy. -/
structure Announcement where
  bill : StoreBill
  bundleOperatorKey : Option String
  logRows : List TransferLogRow
  submitted : Bool
  compactCopy : Option StoreBill

/-- What a peer is answered: a status, and the conflict proof to relay. -/
structure Answer where
  status : String
  conflictProof : Option ConflictProof
deriving DecidableEq

/-- `_record_v3_transfer_log_status_conn`: a row is not replaced by one of a lower rank. -/
def recordTransferLogStatus (log : List TransferLogRow) (row : TransferLogRow) :
    List TransferLogRow :=
  let rank : LogStatus → Nat
    | .unlogged => 0
    | .logPending => 1
    | .logProven => 2
  let same := fun other : TransferLogRow =>
    other.transferHash = row.transferHash && other.logId = row.logId
  if log.any fun other => same other ∧ rank row.status < rank other.status then log
  else (log.filter fun other => !same other) ++ [row]

/-- The rows that the submission of a transfer records are about that transfer. -/
def recordSubmission (store : LocalStore) (bill : StoreBill) (rows : List TransferLogRow) :
    LocalStore :=
  match bill.recentTransfers.getLast? with
  | none => store
  | some tip =>
      let about := rows.map fun row =>
        { row with transferHash := tip.transferHash, spendKey := tip.spendKey : TransferLogRow }
      { store with transferLog := about.foldl recordTransferLogStatus store.transferLog }

/-- `_ingest_transfer_announcement_v3`. On an exception the transaction of the call is rolled back; the
    log rows of the submission are written on connections of their own, which wait in vain for the
    transaction that a dropped proof has opened. -/
def ingestTransferAnnouncementV3 (store : LocalStore) (v : Verification) (a : Announcement)
    (now : Int) : Except String Answer × LocalStore :=
  let trustedKey := store.trustedOperatorKey a.bundleOperatorKey
  if v.verifyBill trustedKey a.bill = false then (.error "transfer announcement rejected", store)
  else
    match store.latestConflictProofV3ForToken v a.bill.tokenId with
    | (some _, store') =>
        (.ok ⟨"conflict", none⟩, store'.storeBillV3Conn a.bill .verified now)
    | (none, store') =>
        match store'.findConflictingBillV3 v a.bill trustedKey now with
        | some proof =>
            match store'.storeConflictProofV3Conn v proof false now with
            | .error error => (.error error, store)
            | .ok (record, store'') =>
                if record.ignored then (.ok ⟨"ignored_conflict", none⟩, store'')
                else (.ok ⟨"conflict", if record.inserted then some proof else none⟩,
                  store''.storeBillV3Conn a.bill .verified now)
        | none =>
            if a.logRows ≠ [] ∧ store.droppedProofs v a.bill.tokenId ≠ [] then
              (.error "database is locked", store)
            else if a.submitted = false then
              (.error "transparency log submission failed", store.recordSubmission a.bill a.logRows)
            else
              let logged := store'.recordSubmission a.bill a.logRows
              if store.settlementQuorumEnabled then
                (.ok ⟨"pending", none⟩, logged.storeBillV3Conn a.bill .pending now)
              else (.ok ⟨"verified", none⟩, (logged.storeBillV3Conn a.bill .verified now)
                |>.maybeCompactBillV3 a.bill a.compactCopy .verified now)

/-- `_ingest_conflict_proof_v3`. -/
def ingestConflictProofV3 (store : LocalStore) (v : Verification) (proof : ConflictProof)
    (preverified : Bool) (now : Int) : Except String Answer × LocalStore :=
  match store.storeConflictProofV3Conn v proof preverified now with
  | .error error => (.error error, store)
  | .ok (record, store') =>
      if record.ignored then (.ok ⟨"ignored_conflict", none⟩, store')
      else (.ok ⟨"conflict", if record.inserted then some proof else none⟩, store')

/-! ## Wallet synchronisation -/

/-- A record of `wallet_bill_sync_response`, as a peer sends it. -/
structure SyncRecord where
  bill : StoreBill
  status : String
  bundleOperatorKey : Option String
  compactCopy : Option StoreBill

/-- The status of a record: what the peer says, if it is one of the three statuses. -/
def SyncRecord.billStatus (record : SyncRecord) : BillStatus :=
  if record.status = "settled" then .settled
  else if record.status = "pending" then .pending
  else .verified

/-- `ingest_wallet_bill_sync_record` with `store_bill_v3`. -/
def ingestWalletBillSyncRecord (store : LocalStore) (v : Verification) (record : SyncRecord)
    (now : Int) : Except String BillStatus × LocalStore :=
  if v.verifyBill (store.trustedOperatorKey record.bundleOperatorKey) record.bill = false then
    (.error "wallet bill sync record rejected", store)
  else
    let stored := store.storeBillV3Conn record.bill record.billStatus now
    (.ok record.billStatus,
      if record.billStatus = .pending then stored
      else stored.maybeCompactBillV3 record.bill record.compactCopy record.billStatus now)

/-! ## Settlement -/

/-- `_bill_v3_tip_log_proven`, with `_v3_spend_key_has_witness_divergence`. -/
def billV3TipLogProven (store : LocalStore) (bill : StoreBill) : Bool :=
  match bill.recentTransfers.getLast? with
  | none => true
  | some tip =>
      if store.transferLog.any fun row => row.spendKey = tip.spendKey ∧
          row.transferHash ≠ tip.transferHash ∧ row.status ≠ .unlogged then false
      else
        let proven := store.transferLog.filter fun row =>
          row.transferHash = tip.transferHash ∧ row.status = .logProven
        decide (store.operatorFinalityRequiredProofs ≤
          (proven.map TransferLogRow.logId).dedup.length)

/-- `_verify_v3_transfer_log_proof_once`: the proofs that verify now are recorded. -/
def verifyTransferLogProofOnce (store : LocalStore) (v : Verification) (tip : StoreTransfer) :
    LocalStore :=
  let proven := (v.provenLogIds tip).map fun logId =>
    (⟨tip.transferHash, tip.spendKey, logId, .logProven⟩ : TransferLogRow)
  { store with transferLog := proven.foldl recordTransferLogStatus store.transferLog }

/-- `ORDER BY first_seen ASC, updated_at ASC`. -/
def seenOrder (row : BillRow) : Int ×ₗ Int :=
  toLex (row.firstSeen, row.updatedAt)

/-- `pending_v3_settlement_candidates`. -/
def pendingV3SettlementCandidates (store : LocalStore) (now bufferSeconds : Int) : List StoreBill :=
  ((Select.orderBy seenOrder (store.bills.filter fun row =>
    row.status = .pending ∧ row.firstSeen ≤ now - bufferSeconds)).map BillRow.bill).filter
      fun bill => bill.recentTransfers ≠ []

/-- The arguments of `finalize_pending`: the reconciler says of which bills it decides to settle. -/
structure Finalization where
  bufferSeconds : Int
  reconciler : Option (StoreBill → Bool)
  requireLogProof : Bool
  compactCopy : StoreBill → Option StoreBill

/-- `UPDATE bills_v3 SET status = 'settled' ... WHERE bill_hash = ? AND status = 'pending'`. -/
def settleRow (store : LocalStore) (bill : StoreBill) (now : Int) : LocalStore :=
  { store with bills := store.bills.map fun row =>
      if row.bill.billHash = bill.billHash ∧ row.status = .pending then
        { row with status := .settled, updatedAt := now }
      else row }

/-- The log proof part of `finalize_pending` for one candidate: whether it may go on, and the store. -/
def requireLogProof (store : LocalStore) (v : Verification) (f : Finalization) (bill : StoreBill) :
    Bool × LocalStore :=
  if (f.requireLogProof || store.settlementQuorumEnabled) = false then (true, store)
  else if store.billV3TipLogProven bill then (true, store)
  else match bill.recentTransfers.getLast? with
    | none => (false, store)
    | some tip =>
        let store' := store.verifyTransferLogProofOnce v tip
        (store'.billV3TipLogProven bill, store')

/-- Whether the reconciler part of `finalize_pending` lets a candidate pass. -/
def reconcilerSettles (store : LocalStore) (f : Finalization) (bill : StoreBill) : Bool :=
  match f.reconciler with
  | none => !store.settlementQuorumEnabled
  | some decide => decide bill

/-- One turn of the loop of `finalize_pending`. -/
def finalizeCandidate (v : Verification) (f : Finalization) (now : Int)
    (state : LocalStore × List StoreBill) (bill : StoreBill) : LocalStore × List StoreBill :=
  let (store, finalized) := state
  let (proven, store) := store.requireLogProof v f bill
  if proven = false ∨ store.reconcilerSettles f bill = false then (store, finalized)
  else match store.latestConflictProofV3ForToken v bill.tokenId with
    | (some _, store) => (store, finalized)
    | (none, store) =>
        if store.bills.any fun row =>
            row.bill.billHash = bill.billHash ∧ row.status = .pending then
          (store.settleRow bill now, finalized ++ [bill])
        else (store, finalized)

/-- `finalize_pending`. -/
def finalizePending (store : LocalStore) (v : Verification) (f : Finalization) (now : Int) :
    LocalStore :=
  let (store, finalized) := (store.pendingV3SettlementCandidates now f.bufferSeconds).foldl
    (finalizeCandidate v f now) (store, [])
  finalized.foldl (fun store bill =>
    store.maybeCompactBillV3 bill (f.compactCopy bill) .settled now) store

/-! ## Discarding -/

/-- The arguments of `discard_unsettled_bill_v3`. -/
structure Discard where
  billHash : String
  displayId : Option String
  ownerAddress : Option String
  sequence : Option Int

/-- `discard_unsettled_bill_v3`: whether a row was deleted, and the store. -/
def discardUnsettledBillV3 (store : LocalStore) (d : Discard) : Bool × LocalStore :=
  let billHash := Text.strip (Text.lower d.billHash)
  if billHash = "" then (false, store)
  else match store.bills.find? fun row => row.bill.billHash = billHash with
    | none => (false, store)
    | some row =>
        if row.status = .settled then (false, store)
        else if ∃ displayId ∈ d.displayId, row.bill.displayId ≠ displayId then (false, store)
        else if ∃ owner ∈ d.ownerAddress, row.bill.ownerAddress ≠ owner then (false, store)
        else if ∃ sequence ∈ d.sequence, row.bill.sequence ≠ sequence then (false, store)
        else (true, { store with bills := store.bills.filter fun other =>
          other.bill.billHash ≠ billHash ∨ other.status = .settled })

/-! ## Runs -/

/-- The calls of the store, each with the answers of the verification functions while it runs. -/
inductive Call where
  | announcement (v : Verification) (a : Announcement)
  | conflictProof (v : Verification) (proof : ConflictProof) (preverified : Bool)
  | syncRecord (v : Verification) (record : SyncRecord)
  | cachedBill (bill : StoreBill) (status : BillStatus)
  | finalize (v : Verification) (f : Finalization)
  | discard (d : Discard)
  | statusLookup (v : Verification) (tokenId : String)
  | messages (v : Verification) (limit : Nat)

/-- What a call leaves in the store. `ingest_message` is `announcement` or `conflictProof`. -/
def call (store : LocalStore) (now : Int) : Call → LocalStore
  | .announcement v a => (store.ingestTransferAnnouncementV3 v a now).2
  | .conflictProof v proof preverified => (store.ingestConflictProofV3 v proof preverified now).2
  | .syncRecord v record => (store.ingestWalletBillSyncRecord v record now).2
  | .cachedBill bill status => store.storeBillV3Conn bill status now
  | .finalize v f => store.finalizePending v f now
  | .discard d => (store.discardUnsettledBillV3 d).2
  | .statusLookup v tokenId => (store.latestConflictProofV3ForToken v tokenId).2
  | .messages v limit => (store.conflictMessages v limit).2

/-- A call at some time. The clock does not go back. -/
structure Event where
  now : Int
  call : Call

/-- One event. -/
def step (store : LocalStore) (event : Event) : Option LocalStore :=
  if event.now < store.clock then none
  else some { store.call event.now event.call with clock := event.now }

/-- A store with no rows. -/
def initial (settlementQuorumEnabled : Bool) (operatorFinalityRequiredProofs : Nat)
    (allowEmbeddedOperatorKey : Bool) : LocalStore where
  settlementQuorumEnabled := settlementQuorumEnabled
  operatorFinalityRequiredProofs := operatorFinalityRequiredProofs
  allowEmbeddedOperatorKey := allowEmbeddedOperatorKey
  bills := []
  conflicts := []
  transferLog := []
  clock := 0

/-! ## Sample bills -/

/-- A first transfer of a token, from `A`. -/
def sampleTransfer (recipientAddress transferHash : String) : StoreTransfer where
  tokenId := "t"
  previousHash := "p"
  sequence := 1
  senderAddress := "A"
  recipientAddress := recipientAddress
  spendKey := "k"
  transferHash := transferHash

theorem sampleDisplayId_ne : "1x1" ≠ "" := by decide

theorem sampleDisplayId_strip : Text.strip "1x1" = "1x1" := by decide

/-- A bill with one transfer. -/
def sampleBill (billHash : String) (tip : StoreTransfer) (operatorPublicKey : Option String) :
    StoreBill where
  billHash := billHash
  tokenId := tip.tokenId
  displayId := "1x1"
  archivedTransfers := []
  recentTransfers := [tip]
  ownerAddress := tip.recipientAddress
  lastTransferHash := tip.transferHash
  sequence := tip.sequence
  operatorPublicKey := operatorPublicKey
  blobLength := 100
  displayId_ne := sampleDisplayId_ne
  displayId_strip := sampleDisplayId_strip
  transfers_token := by simp
  transfers_sequence := by simp

/-- A verification that accepts everything. -/
def everythingVerifies : Verification where
  verifyBill _ _ := true
  verifyConflictProof _ := true
  conflictProofHash proof := proof.transferHashA ++ proof.transferHashB
  provenLogIds _ := []

/-- The announcement of a bill that an operator accepts. -/
def sampleAnnouncement (bill : StoreBill) : Announcement where
  bill := bill
  bundleOperatorKey := bill.operatorPublicKey
  logRows := []
  submitted := true
  compactCopy := none

end LocalStore
