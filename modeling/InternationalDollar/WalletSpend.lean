import InternationalDollar.OutgoingQueue
import InternationalDollar.RejectedEvidence
import InternationalDollar.WalletBalance

set_option autoImplicit false

/-! # Spending a wallet bill (`wallet_services`, `prepare_spend_wallet_bill_v3`, `commit_prepared_wallet_spend_v3`)

A spend is prepared without a write: the bill is looked up in the store, the transfer is signed and its
announcement is built. It is committed in two writes, the new tip to the store and the announcement to the
outgoing queue, after the tip that it spends was looked up again. -/

/-- What `wallet_bill_lines` holds: a line of the wallet file, or a bill. -/
inductive WalletItem where
  | line (text : String)
  | bill (bill : BillV3)

/-- A `TransferAnnouncementV3`. -/
structure TransferAnnouncement where
  type : String
  version : Int
  networkId : Int
  payloadEncoding : String
  bill : String
  proofBundle : Option String
  archiveSegments : List String
  announcedAt : Int
deriving DecidableEq

/-- What `prepare_spend_wallet_bill_v3` returns, as far as a commit with a cached state reads it. -/
structure PreparedSpend where
  bill : BillV3
  announcement : TransferAnnouncement
  state : TokenState
  historyTimestamp : Int

/-- A store with its setting, at a fixed time. -/
structure WalletNode (Proofs : Type) where
  store : EvidenceStore Proofs
  settlementQuorumEnabled : Bool
  clock : Int

/-- The tables of the store and the files of the outgoing queue. -/
structure SpendWorld where
  tables : BillTables
  queue : OutgoingQueue.Files TransferAnnouncement

/-- `TRANSFER_ANNOUNCEMENT_TYPE`. -/
def transferAnnouncementType : String := "ind.transfer_announcement.v3"

/-- `V3_PAYLOAD_ENCODING`. -/
def v3PayloadEncoding : String := "indb3-base85"

/-- `encode_wire_payload`. -/
def encodeWirePayload (blob : Bytes) : String :=
  "indb3:" ++ String.ofList (Base85.b85encode blob)

namespace WalletItem

/-- `_display_id_from_wallet_line`. -/
def displayIdFromWalletLine (crypto : Crypto) (line : String) : Option String :=
  if CancelledSend.isMarked line then none else WalletServices.walletLineDisplayId crypto line

/-- `_wallet_spend_item_display_id`. -/
def displayId (crypto : Crypto) : WalletItem → Option String
  | .line text => displayIdFromWalletLine crypto text
  | .bill given =>
      if Text.strip given.checkpointCore.displayId = "" then none
      else some (Text.strip given.checkpointCore.displayId)

end WalletItem

/-! ## Queries on bills -/

namespace BillTables

variable (tables : BillTables)

/-- `_has_materialized_newer_v3_branch_conn`: every status counts. -/
def hasMaterializedNewerV3Branch (tokenId : String) (sequence : Int) : Bool :=
  tables.billsV3.any fun item => item.2.tokenId = tokenId ∧ sequence < item.2.sequence

/-- No row of the token has a larger sequence. -/
def isNewest (item : String × StoredBillRow) : Bool :=
  !tables.hasMaterializedNewerV3Branch item.2.tokenId item.2.sequence

/-- `ORDER BY sequence DESC, ... status ... DESC, LENGTH(bill_blob) ASC, updated_at DESC`. -/
def spendableOrder (item : String × StoredBillRow) : Int ×ₗ Int ×ₗ Int ×ₗ Int :=
  toLex (-item.2.sequence, toLex (-LocalStore.statusOrder item.2.status,
    toLex ((item.2.billBlob.length : Int), -item.2.updatedAt)))

/-- `ORDER BY sequence DESC, LENGTH(bill_blob) ASC, updated_at DESC`. -/
def storedOrder (item : String × StoredBillRow) : Int ×ₗ Int ×ₗ Int :=
  toLex (-item.2.sequence, toLex ((item.2.billBlob.length : Int), -item.2.updatedAt))

/-- `spendable_bill_v3_statuses`. -/
def spendableStatuses (settlementQuorumEnabled : Bool) : List BillStatus :=
  if settlementQuorumEnabled then [.settled] else [.settled, .verified]

/-- The row that `get_spendable_bill_v3_by_display_id` selects. -/
def spendableRow (settlementQuorumEnabled : Bool) (displayId ownerAddress : String) :
    Option (String × StoredBillRow) :=
  Select.first spendableOrder tables.isNewest (tables.billsV3.filter fun item =>
    item.2.displayId = displayId ∧ item.2.ownerAddress = ownerAddress ∧
      item.2.status ∈ spendableStatuses settlementQuorumEnabled)

/-- The row that `get_bill_v3_by_display_id` selects. -/
def displayedRow (displayId : String) : Option (String × StoredBillRow) :=
  Select.first storedOrder (fun _ => true)
    (tables.billsV3.filter fun item => item.2.displayId = displayId)

end BillTables

namespace WalletNode

variable {Proofs : Type} (n : WalletNode Proofs)

/-- The bill of a row that was selected. -/
def decodeRow : Option (String × StoredBillRow) → Except String (Option BillV3)
  | none => .ok none
  | some item => do
      let bill ← BillV3.decodeBill n.store.inflate item.2.billBlob
      pure (some bill)

/-- `get_spendable_bill_v3_by_display_id`. -/
def getSpendableBillV3ByDisplayId (tables : BillTables) (displayId ownerAddress : String) :
    Except String (Option BillV3) :=
  n.decodeRow (tables.spendableRow n.settlementQuorumEnabled displayId ownerAddress)

/-- `get_bill_v3_by_display_id`. -/
def getBillV3ByDisplayId (tables : BillTables) (displayId : String) : Except String (Option BillV3) :=
  n.decodeRow (tables.displayedRow displayId)

/-- `get_proof_bundle_v3`. -/
def getProofBundleV3 (tables : EvidenceTables) (proofBundleHash : String) :
    Except String (Option (ProofBundle Proofs)) :=
  match AssocList.get? (Text.lower proofBundleHash) tables.proofBundlesV3 with
  | none => .ok none
  | some row => do
      let bundle ← n.store.codec.decodeProofBundle row.bundleBlob
      pure (some bundle)

/-! ## Preparing -/

/-- `_archive_segment_hashes_for_proof_bundle_v3`, through the bundles that a bundle names as previous. -/
def archiveSegmentHashes (tables : EvidenceTables) :
    Nat → List String → ProofBundle Proofs → Except String (List String)
  | 0, _, _ => .error "maximum recursion depth exceeded"
  | fuel + 1, seen, bundle =>
      let segmentHash := Text.lower (Text.strip bundle.sourceEvidence.archiveSegmentHash)
      let previousHash := Text.lower (Text.strip (bundle.sourceEvidence.previousProofBundleHash.getD ""))
      let own := if segmentHash = "" then [] else [segmentHash]
      if previousHash = "" ∨ previousHash ∈ seen then .ok own
      else
        match n.getProofBundleV3 tables previousHash with
        | .error e => .error e
        | .ok none => .ok own
        | .ok (some previous) => do
            let rest ← archiveSegmentHashes tables fuel (previousHash :: seen) previous
            pure (own ++ rest)

/-- `_archive_segments_for_proof_bundle`: what cannot be read is left out. -/
def archiveSegmentsForProofBundle (tables : EvidenceTables) (bundle : Option (ProofBundle Proofs)) :
    List ArchiveSegment :=
  match bundle with
  | none => []
  | some bundle =>
      match n.archiveSegmentHashes tables n.store.recursionLimit [] bundle with
      | .error _ => []
      | .ok hashes => (hashes.dedup.insertionSort fun a b => a ≤ b).filterMap
          (n.store.getArchiveSegmentV3 tables)

/-- `create_transfer_announcement`. -/
def createTransferAnnouncement (bill : BillV3) (bundle : Option (ProofBundle Proofs))
    (segments : List ArchiveSegment) : Except String TransferAnnouncement := do
  Check.require (bill.recentTransfers ≠ []) "TransferAnnouncementV3 requires a recent TransferV3"
  requireMin bill.networkId 0 "BillV3 network id"
  let proofBlob ← bundle.mapM n.store.codec.encodeProofBundle
  let segmentBlobs ← segments.mapM fun segment => segment.encodeArchiveSegment n.store.node n.clock
  let blob ← bill.encodeBill n.store.node n.clock
  let announcedAt ← currentTime n.clock
  pure { type := transferAnnouncementType, version := 3, networkId := bill.networkId,
         payloadEncoding := v3PayloadEncoding, bill := encodeWirePayload blob,
         proofBundle := proofBlob.map encodeWirePayload,
         archiveSegments := segmentBlobs.map encodeWirePayload, announcedAt }

/-- `_wallet_address`. -/
def walletAddress (walletLines : List String) : String :=
  match walletLines with
  | [] => ""
  | first :: _ => Text.strip first

/-- `_wallet_keys`. -/
def walletKeys (walletLines : List String) : Except String (String × String) :=
  match walletLines with
  | _ :: privateKey :: publicKey :: _ => .ok (Text.strip privateKey, Text.strip publicKey)
  | _ => .error "wallet is missing signing keys"

/-- `_resolve_wallet_bill_v3`. -/
def resolveWalletBillV3 (tables : BillTables) (address : String) :
    WalletItem → Except String (Option BillV3)
  | .bill bill => .ok (some bill)
  | .line text =>
      match WalletItem.displayIdFromWalletLine n.store.node.crypto text with
      | none => .ok none
      | some displayId =>
          if address = "" then n.getBillV3ByDisplayId tables displayId
          else n.getSpendableBillV3ByDisplayId tables displayId address

/-- `latest_bill_transfer_timestamp` of a bill. -/
def latestBillTransferTimestamp (bill : BillV3) : Int :=
  match bill.recentTransfers.getLast? with
  | some t => t.timestamp
  | none => bill.checkpointCore.lastTransferTimestamp

/-- The bundle that goes with a bill: the one that is given, or that of the store. -/
def bundleForTransfer (tables : EvidenceTables) (given : Option (ProofBundle Proofs))
    (proofBundleHash : String) : Except String (Option (ProofBundle Proofs)) :=
  match given with
  | some bundle => .ok (some bundle)
  | none => n.getProofBundleV3 tables proofBundleHash

/-- The bundle that a bill refers to, where it refers to one. -/
def bundleOfBill (tables : EvidenceTables) (given : Option (ProofBundle Proofs)) (bill : BillV3) :
    Except String (Option (ProofBundle Proofs)) :=
  if bill.proofBundleRef.proofBundleHash = "" then .ok given
  else n.bundleForTransfer tables given bill.proofBundleRef.proofBundleHash

/-- An address that is not empty is validated. -/
def validateWalletAddress (address : String) : Except String Unit :=
  if address = "" then .ok ()
  else do
    let _ ← validateAddress n.store.node.crypto address "wallet V3 address"
    pure ()

/-- The part of `prepare_spend_wallet_bill_v3` after the bill is found. -/
def prepareBill (walletLines : List String) (recipientAddress : String)
    (proofBundle : Option (ProofBundle Proofs)) (timestamp : Option Int) (tables : EvidenceTables)
    (bill : BillV3) : Except String (Option PreparedSpend) := do
  let cachedState ← bill.cachedBillState n.store.node (some defaultNetworkId) n.clock n.clock
  if walletAddress walletLines ≠ "" ∧ cachedState.ownerAddress ≠ walletAddress walletLines then pure none
  else do
    let (privateKey, publicKey) ← walletKeys walletLines
    let bundle ← n.bundleOfBill tables proofBundle bill
    let (transferredBill, state) ← bill.createTransferFromCachedBill n.store.node privateKey publicKey
      recipientAddress .null timestamp (some defaultNetworkId) (some cachedState) n.clock
    let bundle ← n.bundleForTransfer tables bundle transferredBill.proofBundleRef.proofBundleHash
    let announcement ← n.createTransferAnnouncement transferredBill bundle
      (n.archiveSegmentsForProofBundle tables bundle)
    pure (some { bill := transferredBill, announcement, state,
                 historyTimestamp := latestBillTransferTimestamp transferredBill })

/-- `prepare_spend_wallet_bill_v3`. -/
def prepareSpendWalletBillV3 (walletLines : List String) (item : WalletItem) (recipientAddress : String)
    (proofBundle : Option (ProofBundle Proofs)) (timestamp : Option Int) (tables : BillTables) :
    Except String (Option PreparedSpend) := do
  n.validateWalletAddress (walletAddress walletLines)
  match n.resolveWalletBillV3 tables (walletAddress walletLines) item with
  | .error e => .error e
  | .ok none => .ok none
  | .ok (some bill) =>
      n.prepareBill walletLines recipientAddress proofBundle timestamp tables.evidence bill

/-! ## Committing -/

/-- `ensure_prepared_wallet_spend_is_current`. -/
def ensurePreparedWalletSpendIsCurrent (prepared : PreparedSpend) (tables : BillTables) :
    Except String Unit := do
  let transfer ← Check.ofOption prepared.bill.recentTransfers.getLast?
    "prepared wallet spend is missing its transfer"
  let displayId := Text.strip prepared.state.displayId
  let senderAddress := Text.strip transfer.senderAddress
  Check.require (displayId ≠ "" ∧ senderAddress ≠ "") "prepared wallet spend is missing its source"
  let found ← n.getSpendableBillV3ByDisplayId tables displayId senderAddress
  let sourceBill ← Check.ofOption found "bill tip changed while signing; sync and retry"
  let sourceState ← sourceBill.cachedBillState n.store.node (some defaultNetworkId) n.clock n.clock
  Check.require (sourceState.sequence + 1 = transfer.sequence)
    "bill sequence changed while signing; sync and retry"
  Check.require (sourceState.lastTransferHash = transfer.previousHash)
    "bill tip changed while signing; sync and retry"

/-- A write that may fail. -/
def writeUnlessFails {σ : Type} (fault : Option String) (f : σ → σ) : Effect σ String Unit :=
  match fault with
  | some e => Effect.raise e
  | none => Effect.write f

/-- `store_cached_bill_v3`, in one transaction. -/
def storeCachedBillV3 (fault : Option String) (bill : BillV3) (state : TokenState) (status : BillStatus) :
    Effect BillTables String String := do
  let billHash ← Effect.lift (bill.billHash n.store.node n.clock)
  let existing ← Effect.read fun tables : BillTables => AssocList.get? billHash tables.billsV3
  let storedStatus := strongerBillV3Status (existing.map fun row => row.status) status
  let blob ← Effect.lift (bill.encodeBill n.store.node n.clock)
  let tip ← Effect.lift (n.store.billTipRecordV3 bill state storedStatus n.clock)
  writeUnlessFails fault (EvidenceStore.writeBill bill state billHash blob storedStatus tip n.clock)
  pure billHash

/-- A computation on the tables of the store. -/
def onTables {α : Type} (x : Effect BillTables String α) : Effect SpendWorld String α :=
  Effect.focus SpendWorld.tables (fun tables world => { world with tables := tables }) x

/-- `write_transaction_message`. -/
def writeTransactionMessage (fault : Option String) (message : TransferAnnouncement) :
    Effect SpendWorld String Unit :=
  writeUnlessFails fault fun world =>
    { world with queue := world.queue.write world.queue.nextTransactionPath message }

/-- The first part of a commit: the tip is checked and the bill is stored. -/
def storePrepared (storeFault : Option String) (prepared : PreparedSpend) :
    Effect SpendWorld String String := do
  let current ← Effect.read fun world : SpendWorld =>
    n.ensurePreparedWalletSpendIsCurrent prepared world.tables
  Effect.lift current
  onTables (n.storeCachedBillV3 storeFault prepared.bill prepared.state .verified)

/-- `commit_prepared_wallet_spend_v3`. -/
def commitPreparedWalletSpendV3 (storeFault queueFault : Option String) (prepared : PreparedSpend) :
    Effect SpendWorld String TokenState := do
  let _ ← n.storePrepared storeFault prepared
  writeTransactionMessage queueFault prepared.announcement
  pure prepared.state

end WalletNode

/-! ## Lookups and a new row -/

namespace BillTables

variable {tables : BillTables} {bill : BillV3} {state : TokenState} {billHash : String} {blob : Bytes}
  {status : BillStatus} {tip : BillTipRow} {now : Int} {displayId : String}

/-- No row of another display id is of the token or under the hash of a new tip. -/
structure Apart (tables : BillTables) (displayId : String) (state : TokenState) (billHash : String) :
    Prop where
  display_ne : state.displayId ≠ displayId
  token_ne : ∀ item ∈ tables.billsV3, item.2.displayId = displayId → item.2.tokenId ≠ state.tokenId
  hash_token : ∀ item ∈ tables.billsV3, item.1 = billHash → item.2.tokenId = state.tokenId

/-- The rows of another display id stay as they are. -/
theorem Apart.filter_writeBill (h : tables.Apart displayId state billHash)
    {selects : String × StoredBillRow → Bool}
    (hselects : ∀ item, selects item = true → item.2.displayId = displayId) :
    (EvidenceStore.writeBill bill state billHash blob status tip now tables).billsV3.filter selects
      = tables.billsV3.filter selects := by
  refine AssocList.filter_put ?_ fun item hitem hkey => ?_
  · by_contra hselected
    exact h.display_ne (hselects _ (eq_true_of_ne_false hselected))
  · by_contra hselected
    exact h.token_ne item hitem (hselects _ (eq_true_of_ne_false hselected))
      (h.hash_token item hitem hkey)

/-- A row of another token stays the newest, or stays behind. -/
theorem Apart.isNewest_writeBill (h : tables.Apart displayId state billHash)
    {item : String × StoredBillRow} (htoken : item.2.tokenId ≠ state.tokenId) :
    (EvidenceStore.writeBill bill state billHash blob status tip now tables).isNewest item
      = tables.isNewest item := by
  unfold isNewest hasMaterializedNewerV3Branch
  refine congrArg not (AssocList.any_put ?_ fun other hother hkey => ?_)
  · exact decide_eq_false fun hboth => htoken hboth.1.symm
  · exact decide_eq_false fun hboth => htoken (hboth.1.symm.trans (h.hash_token other hother hkey))

theorem Apart.spendableRow_writeBill (h : tables.Apart displayId state billHash) (quorum : Bool)
    (ownerAddress : String) :
    (EvidenceStore.writeBill bill state billHash blob status tip now tables).spendableRow quorum displayId
      ownerAddress = tables.spendableRow quorum displayId ownerAddress := by
  unfold spendableRow
  rw [h.filter_writeBill fun item hitem => (of_decide_eq_true hitem).1]
  refine Select.first_congr fun item hitem => h.isNewest_writeBill ?_
  rw [List.mem_filter, decide_eq_true_eq] at hitem
  exact h.token_ne item hitem.1 hitem.2.1

theorem Apart.displayedRow_writeBill (h : tables.Apart displayId state billHash) :
    (EvidenceStore.writeBill bill state billHash blob status tip now tables).displayedRow displayId
      = tables.displayedRow displayId := by
  unfold displayedRow
  rw [h.filter_writeBill fun item hitem => of_decide_eq_true hitem]

/-- The selected row has the display id. -/
theorem spendableRow_eq_some {quorum : Bool} {ownerAddress : String} {item : String × StoredBillRow}
    (h : tables.spendableRow quorum displayId ownerAddress = some item) :
    item ∈ tables.billsV3 ∧ item.2.displayId = displayId := by
  obtain ⟨hmem, -, -⟩ := Select.first_eq_some h
  rw [List.mem_filter, decide_eq_true_eq] at hmem
  exact ⟨hmem.1, hmem.2.1⟩

theorem displayedRow_eq_some {item : String × StoredBillRow}
    (h : tables.displayedRow displayId = some item) :
    item ∈ tables.billsV3 ∧ item.2.displayId = displayId := by
  obtain ⟨hmem, -, -⟩ := Select.first_eq_some h
  rw [List.mem_filter, decide_eq_true_eq] at hmem
  exact hmem

end BillTables

/-! ## What a prepared spend is -/

namespace BaseState

variable {crypto : Crypto} {tokenId : String} {networkId now clock : Int} {state final : BaseState}
  {verifySignatures : Bool}

/-- A round of the replay, with or without the signature. -/
theorem exists_advance_of_replayTransfer {t : Transfer}
    (h : replayTransfer crypto tokenId networkId now clock verifySignatures state t = .ok final) :
    ∃ hash, t.transferHash crypto clock = .ok hash ∧ final = state.advance t hash ∧
      t.sequence = state.sequence + 1 ∧ t.previousHash = state.lastTransferHash := by
  cases verifySignatures <;>
    simp only [replayTransfer, Check.bind_eq_ok, Check.require_eq_ok, Check.pure_eq_ok, if_true,
      Bool.false_eq_true, if_false] at h <;>
    obtain ⟨_, -, _, -, _, hsequence, _, hprevious, _, -, _, -, _, -, _, -, _, -, _, -, hash, hhash, rfl⟩ := h <;>
    exact ⟨hash, hhash, rfl, hsequence, hprevious⟩

/-- Transfers do not change the display id. -/
theorem displayId_of_replayTransfers {transfers : List Transfer}
    (h : replayTransfers crypto tokenId networkId now clock verifySignatures state transfers = .ok final) :
    final.displayId = state.displayId := by
  induction transfers generalizing state with
  | nil =>
    cases h
    rfl
  | cons t rest ih =>
    obtain ⟨next, hnext, hrest⟩ := Check.bind_eq_ok.1 h
    obtain ⟨hash, -, rfl, -⟩ := exists_advance_of_replayTransfer hnext
    exact (ih hrest).trans rfl

end BaseState

namespace BillV3

variable {node : Node} {bill : BillV3} {expectedNetworkId : Option Int} {now clock : Int} {state : BaseState}

/-- The display id of a cached state is that of the core, and one that parses. -/
theorem displayId_of_cachedBillState
    (h : bill.cachedBillState node expectedNetworkId now clock = .ok state) :
    state.displayId = bill.checkpointCore.displayId ∧
      Text.strip bill.checkpointCore.displayId = bill.checkpointCore.displayId := by
  simp only [cachedBillState, Check.bind_eq_ok] at h
  obtain ⟨_, hheader, _, -, _, -, hreplay⟩ := h
  simp only [BaseState.replayTransferSequenceFromState, Check.bind_eq_ok] at hreplay
  obtain ⟨_, -, time, -, hreplay⟩ := hreplay
  refine ⟨BaseState.displayId_of_replayTransfers hreplay, ?_⟩
  simp only [validateHeader, validateDisplayIdIssueIndex, validateDisplayIdValue, parseDisplayId,
    DisplayId.displayIdHash, Check.bind_eq_ok, Check.require_eq_ok] at hheader
  obtain ⟨_, -, _, -, _, -, _, -, _, -, _, -, value, -, _, -, _, ⟨_, ⟨_, ⟨_, ⟨_, htrim, -⟩, -⟩, -⟩, -⟩, -⟩ :=
    hheader
  rw [Text.strip, ← htrim, String.ofList_toList]

end BillV3

namespace PreparedSpend

/-- A prepared spend is its source with one transfer more, and says what that leads to. -/
structure Extends {Proofs : Type} (n : WalletNode Proofs) (source : BillV3) (prepared : PreparedSpend)
    (t : Transfer) : Prop where
  bill_eq : prepared.bill = source.append t
  displayId_eq : prepared.state.displayId = source.checkpointCore.displayId
  displayId_strip : Text.strip prepared.state.displayId = prepared.state.displayId
  tokenId_eq : prepared.state.tokenId = source.tokenId
  owner_eq : prepared.state.ownerAddress = t.recipientAddress
  sequence_eq : prepared.state.sequence = t.sequence
  history_eq : prepared.historyTimestamp = t.timestamp
  announced : ∃ blob, prepared.bill.encodeBill n.store.node n.clock = .ok blob ∧
    prepared.announcement.bill = encodeWirePayload blob

variable {Proofs : Type} {n : WalletNode Proofs} {source : BillV3} {prepared : PreparedSpend} {t : Transfer}

theorem Extends.getLast? (h : prepared.Extends n source t) :
    prepared.bill.recentTransfers.getLast? = some t := by
  rw [h.bill_eq]
  exact List.getLast?_concat

end PreparedSpend

namespace WalletNode

variable {Proofs : Type} {n : WalletNode Proofs} {walletLines : List String} {recipientAddress : String}
  {proofBundle : Option (ProofBundle Proofs)} {timestamp : Option Int} {tables : BillTables}
  {evidence : EvidenceTables} {item : WalletItem} {bill : BillV3} {prepared : PreparedSpend}

theorem bill_of_createTransferAnnouncement {bundle : Option (ProofBundle Proofs)}
    {segments : List ArchiveSegment} {message : TransferAnnouncement}
    (h : n.createTransferAnnouncement bill bundle segments = .ok message) :
    ∃ blob, bill.encodeBill n.store.node n.clock = .ok blob ∧ message.bill = encodeWirePayload blob := by
  simp only [createTransferAnnouncement, Check.bind_eq_ok, Check.pure_eq_ok] at h
  obtain ⟨_, -, _, -, _, -, _, -, blob, hblob, _, -, rfl⟩ := h
  exact ⟨blob, hblob, rfl⟩

theorem latestBillTransferTimestamp_append (t : Transfer) :
    latestBillTransferTimestamp (bill.append t) = t.timestamp := by
  have hlast : (bill.append t).recentTransfers.getLast? = some t := List.getLast?_concat
  rw [latestBillTransferTimestamp, hlast]

/-- What the preparation of a bill returns is the bill with one transfer more. -/
theorem extends_of_prepareBill
    (h : n.prepareBill walletLines recipientAddress proofBundle timestamp evidence bill
      = .ok (some prepared)) : ∃ t, prepared.Extends n bill t := by
  unfold prepareBill at h
  obtain ⟨state, hstate, h⟩ := Check.bind_eq_ok.1 h
  obtain ⟨hdisplay, hstrip⟩ := BillV3.displayId_of_cachedBillState hstate
  split at h
  · exact nomatch h
  · simp only [Check.bind_eq_ok, Check.pure_eq_ok, Option.some.injEq] at h
    obtain ⟨keys, -, _, -, ⟨new, token⟩, hcreate, _, -, message, hmessage, rfl⟩ := h
    simp only [BillV3.createTransferFromCachedBill, BillV3.stateOrCached, Check.ok_bind, Check.bind_eq_ok,
      Check.pure_eq_ok, Prod.mk.injEq] at hcreate
    obtain ⟨t, -, next, hreplay, rfl, rfl⟩ := hcreate
    obtain ⟨-, -, hround⟩ := BaseState.replaySingle_eq_ok.1 hreplay
    obtain ⟨hash, -, rfl, hsequence, -⟩ := BaseState.exists_advance_of_replayTransfer hround
    refine ⟨t, rfl, hdisplay, ?_, rfl, rfl, hsequence.symm, latestBillTransferTimestamp_append t,
      bill_of_createTransferAnnouncement hmessage⟩
    show Text.strip state.displayId = state.displayId
    rw [hdisplay, hstrip]

/-- A line is prepared to the same as long as the same bill is found for it. -/
theorem prepareSpendWalletBillV3_congr {tables' : BillTables} (hevidence : tables'.evidence = tables.evidence)
    (hresolve : n.resolveWalletBillV3 tables' (walletAddress walletLines) item
      = n.resolveWalletBillV3 tables (walletAddress walletLines) item) :
    n.prepareSpendWalletBillV3 walletLines item recipientAddress proofBundle timestamp tables'
      = n.prepareSpendWalletBillV3 walletLines item recipientAddress proofBundle timestamp tables := by
  unfold prepareSpendWalletBillV3
  rw [hevidence, hresolve]

/-- The rows of a display id hold bills of it. -/
def Displays (n : WalletNode Proofs) (tables : BillTables) (displayId : String) : Prop :=
  ∀ item ∈ tables.billsV3, item.2.displayId = displayId →
    ∀ bill, BillV3.decodeBill n.store.inflate item.2.billBlob = .ok bill →
      bill.checkpointCore.displayId = displayId

theorem decodeRow_eq_some {row : Option (String × StoredBillRow)} (h : n.decodeRow row = .ok (some bill)) :
    ∃ item, row = some item ∧ BillV3.decodeBill n.store.inflate item.2.billBlob = .ok bill := by
  cases row with
  | none => exact nomatch h
  | some item =>
    simp only [decodeRow, Check.bind_eq_ok, Check.pure_eq_ok, Option.some.injEq] at h
    obtain ⟨_, hdecode, rfl⟩ := h
    exact ⟨item, rfl, hdecode⟩

/-- The bill that is found for a line has the display id of the line. -/
theorem displayId_of_resolve {address displayId : String}
    (hdisplay : item.displayId n.store.node.crypto = some displayId) (hrows : n.Displays tables displayId)
    (h : n.resolveWalletBillV3 tables address item = .ok (some bill)) :
    Text.strip bill.checkpointCore.displayId = displayId ∨ bill.checkpointCore.displayId = displayId := by
  cases item with
  | bill given =>
    cases h
    rw [WalletItem.displayId] at hdisplay
    split at hdisplay
    · exact nomatch hdisplay
    · exact Or.inl (Option.some.inj hdisplay)
  | line text =>
    have hline : WalletItem.displayIdFromWalletLine n.store.node.crypto text = some displayId := hdisplay
    simp only [resolveWalletBillV3, hline] at h
    right
    split at h
    · obtain ⟨row, hrow, hdecode⟩ := decodeRow_eq_some h
      obtain ⟨hmem, heq⟩ := BillTables.displayedRow_eq_some hrow
      exact hrows row hmem heq bill hdecode
    · obtain ⟨row, hrow, hdecode⟩ := decodeRow_eq_some h
      obtain ⟨hmem, heq⟩ := BillTables.spendableRow_eq_some hrow
      exact hrows row hmem heq bill hdecode

/-- **What is prepared for a line extends a bill of its display id.** -/
theorem extends_of_prepare {displayId : String}
    (hdisplay : item.displayId n.store.node.crypto = some displayId) (hrows : n.Displays tables displayId)
    (h : n.prepareSpendWalletBillV3 walletLines item recipientAddress proofBundle timestamp tables
      = .ok (some prepared)) :
    ∃ source t, prepared.Extends n source t ∧ prepared.state.displayId = displayId := by
  unfold prepareSpendWalletBillV3 at h
  obtain ⟨-, -, h⟩ := Check.bind_eq_ok.1 h
  cases hresolve : n.resolveWalletBillV3 tables (walletAddress walletLines) item with
  | error e => rw [hresolve] at h; exact nomatch h
  | ok found =>
    cases found with
    | none => rw [hresolve] at h; exact nomatch h
    | some source =>
      rw [hresolve] at h
      obtain ⟨t, hextends⟩ := extends_of_prepareBill h
      refine ⟨source, t, hextends, ?_⟩
      rcases displayId_of_resolve hdisplay hrows hresolve with heq | heq
      · rw [← heq, ← hextends.displayId_eq, hextends.displayId_strip]
      · rw [← heq, hextends.displayId_eq]

/-- The bill that is found for a line does not depend on a new tip of another display id. -/
theorem resolveWalletBillV3_writeBill {state : TokenState} {billHash displayId address : String}
    {blob : Bytes} {status : BillStatus} {tip : BillTipRow} {now : Int}
    (hdisplay : item.displayId n.store.node.crypto = some displayId)
    (h : tables.Apart displayId state billHash) :
    n.resolveWalletBillV3 (EvidenceStore.writeBill bill state billHash blob status tip now tables) address item
      = n.resolveWalletBillV3 tables address item := by
  cases item with
  | bill given => rfl
  | line text =>
    have hline : WalletItem.displayIdFromWalletLine n.store.node.crypto text = some displayId := hdisplay
    simp only [resolveWalletBillV3, hline, getBillV3ByDisplayId, getSpendableBillV3ByDisplayId,
      h.displayedRow_writeBill, h.spendableRow_writeBill]

end WalletNode

/-! ## What a commit does -/

namespace WalletNode

variable {Proofs : Type} {n : WalletNode Proofs} {prepared : PreparedSpend} {storeFault queueFault : Option String}
  {world world' : SpendWorld} {state : TokenState} {error : String}

/-- The transfer of a prepared spend extends the tip that the store has for its display id. -/
def IsCurrent (n : WalletNode Proofs) (prepared : PreparedSpend) (tables : BillTables) : Prop :=
  ∃ t tip tipState, prepared.bill.recentTransfers.getLast? = some t ∧
    n.getSpendableBillV3ByDisplayId tables (Text.strip prepared.state.displayId) (Text.strip t.senderAddress)
      = .ok (some tip) ∧
    tip.cachedBillState n.store.node (some defaultNetworkId) n.clock n.clock = .ok tipState ∧
    t.sequence = tipState.sequence + 1 ∧ t.previousHash = tipState.lastTransferHash

theorem isCurrent_of_ensure (h : n.ensurePreparedWalletSpendIsCurrent prepared world.tables = .ok ()) :
    n.IsCurrent prepared world.tables := by
  simp only [ensurePreparedWalletSpendIsCurrent, Check.bind_eq_ok, Check.ofOption_eq_ok,
    Check.require_eq_ok] at h
  obtain ⟨t, ht, _, -, found, hfound, tip, rfl, tipState, hstate, _, hsequence, hprevious⟩ := h
  exact ⟨t, tip, tipState, ht, hfound, hstate, hsequence.symm, hprevious.symm⟩

/-- The new tip is in the tables. -/
def Stored (n : WalletNode Proofs) (prepared : PreparedSpend) (before after : BillTables) : Prop :=
  ∃ billHash blob status tip, prepared.bill.billHash n.store.node n.clock = .ok billHash ∧
    prepared.bill.encodeBill n.store.node n.clock = .ok blob ∧
    n.store.billTipRecordV3 prepared.bill prepared.state status n.clock = .ok tip ∧
    after = EvidenceStore.writeBill prepared.bill prepared.state billHash blob status tip n.clock before

/-- A transaction that raises leaves the tables as they were. -/
theorem raisesIn_storeCachedBillV3 {P : BillTables → Prop} {bill : BillV3} {status : BillStatus} :
    Effect.RaisesIn P (n.storeCachedBillV3 storeFault bill state status) := by
  unfold storeCachedBillV3
  refine .lift_bind fun _ => .read_bind fun _ => .lift_bind fun _ => .lift_bind fun _ => ?_
  cases storeFault with
  | none => exact .write_bind _ _
  | some e =>
    intro s hs e' t h
    cases h
    exact hs

theorem storeCachedBillV3_eq_ok {tables tables' : BillTables} {hash : String}
    (h : n.storeCachedBillV3 storeFault prepared.bill prepared.state .verified tables = (.ok hash, tables')) :
    n.Stored prepared tables tables' := by
  unfold storeCachedBillV3 at h
  obtain ⟨billHash, s1, h1, h⟩ := Effect.bind_eq_ok.1 h
  rw [Effect.read_bind] at h
  obtain ⟨blob, s2, h2, h⟩ := Effect.bind_eq_ok.1 h
  obtain ⟨tip, s3, h3, h⟩ := Effect.bind_eq_ok.1 h
  obtain ⟨u, s4, hwrite, hlast⟩ := Effect.bind_eq_ok.1 h
  obtain ⟨hhash, rfl⟩ := Effect.lift_eq_ok.1 h1
  obtain ⟨hblob, rfl⟩ := Effect.lift_eq_ok.1 h2
  obtain ⟨htip, rfl⟩ := Effect.lift_eq_ok.1 h3
  obtain ⟨-, rfl⟩ := Effect.pure_eq_ok.1 hlast
  cases storeFault with
  | none =>
    cases hwrite
    exact ⟨billHash, blob, _, tip, hhash, hblob, htip, rfl⟩
  | some e => exact nomatch hwrite

/-- Where the tip cannot be stored, nothing has changed. -/
theorem eq_of_storePrepared_eq_error
    (h : n.storePrepared storeFault prepared world = (.error error, world')) : world' = world := by
  unfold storePrepared at h
  rw [Effect.read_bind] at h
  cases hcurrent : n.ensurePreparedWalletSpendIsCurrent prepared world.tables with
  | error e =>
    rw [hcurrent, Effect.lift_error_bind] at h
    cases h
    rfl
  | ok u =>
    rw [hcurrent, Effect.lift_ok_bind] at h
    obtain ⟨hraised, rfl⟩ := Prod.mk.inj h
    have hkept := raisesIn_storeCachedBillV3 (P := fun tables => tables = world.tables) world.tables rfl error
      _ (Prod.ext hraised rfl)
    exact congrArg (fun tables => { world with tables := tables }) hkept

/-- Where it is stored, the transfer extends the tip of before. -/
theorem storePrepared_eq_ok {hash : String}
    (h : n.storePrepared storeFault prepared world = (.ok hash, world')) :
    n.IsCurrent prepared world.tables ∧ n.Stored prepared world.tables world'.tables ∧
      world'.queue = world.queue := by
  unfold storePrepared at h
  rw [Effect.read_bind] at h
  obtain ⟨u, mid, hlift, h⟩ := Effect.bind_eq_ok.1 h
  obtain ⟨hcurrent, rfl⟩ := Effect.lift_eq_ok.1 hlift
  obtain ⟨hstored, rfl⟩ := Prod.mk.inj h
  exact ⟨isCurrent_of_ensure hcurrent, storeCachedBillV3_eq_ok (Prod.ext hstored rfl), rfl⟩

/-- What a commit does that returns. -/
structure Committed (n : WalletNode Proofs) (prepared : PreparedSpend) (before after : SpendWorld) : Prop where
  current : n.IsCurrent prepared before.tables
  stored : n.Stored prepared before.tables after.tables
  queued : after.queue = (before.queue.nextTransactionPath, prepared.announcement) :: before.queue

/-- **A commit returns the state once both writes are done.** -/
theorem commitPrepared_eq_ok
    (h : n.commitPreparedWalletSpendV3 storeFault queueFault prepared world = (.ok state, world')) :
    state = prepared.state ∧ n.Committed prepared world world' := by
  unfold commitPreparedWalletSpendV3 at h
  obtain ⟨hash, mid, hstore, h⟩ := Effect.bind_eq_ok.1 h
  obtain ⟨⟨⟩, last, hqueue, h⟩ := Effect.bind_eq_ok.1 h
  obtain ⟨rfl, rfl⟩ := Effect.pure_eq_ok.1 h
  obtain ⟨hcurrent, hstored, heq⟩ := storePrepared_eq_ok hstore
  cases queueFault with
  | some e => exact nomatch hqueue
  | none =>
    cases hqueue
    refine ⟨rfl, hcurrent, hstored, ?_⟩
    rw [← heq]
    exact OutgoingQueue.Files.write_next _ _

/-- **A commit that raises has changed nothing, unless the tip was stored and the announcement was not
    queued.** -/
theorem eq_of_commitPrepared_eq_error
    (h : n.commitPreparedWalletSpendV3 storeFault queueFault prepared world = (.error error, world'))
    (hqueue : queueFault = none ∨ ∀ hash t, n.storePrepared storeFault prepared world ≠ (.ok hash, t)) :
    world' = world := by
  unfold commitPreparedWalletSpendV3 at h
  cases hstore : n.storePrepared storeFault prepared world with
  | mk result mid =>
    cases result with
    | error e =>
      rw [Effect.bind_of_error hstore] at h
      cases h
      exact eq_of_storePrepared_eq_error hstore
    | ok hash =>
      rw [Effect.bind_of_ok hstore] at h
      rcases hqueue with rfl | hnot
      · exact nomatch h
      · exact absurd hstore (hnot hash mid)

end WalletNode
