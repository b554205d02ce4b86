import InternationalDollar.SpendMapProofs
import InternationalDollar.StoreWrites

set_option autoImplicit false

/-! # Settlement queries between peers

Before a pending bill settles, its node asks its settlement peers what they know of the token. A peer
answers with the last recent transfer of its newest row, and the node takes any other transfer there for
a divergent spend. A peer that is a transfer ahead or behind on the same chain is therefore taken for
one that holds another branch, and a peer that compacted its bill has nothing to show. -/

namespace LocalStore

variable {first second store : LocalStore} {v : Verification} {now : Int}

/-! ## The query -/

/-- What `_proof_bundle_operator_identity_v3` reads from the proof bundle of a bill. -/
structure OperatorIdentity where
  logId : String
  operatorPublicKey : String

/-- A query of the type `ind.peer_settlement_query.v3`. -/
structure SettlementQuery where
  tokenId : String
  displayId : String
  billHash : String
  transferHash : String
  previousHash : String
  sequence : Int
  spendKey : String
  operatorLogId : String
  operatorPublicKey : String

/-- `_v3_settlement_query_for_bill`. -/
def v3SettlementQueryForBill (bill : StoreBill) (identity : OperatorIdentity) :
    Option SettlementQuery :=
  bill.recentTransfers.getLast?.map fun transfer => {
    tokenId := bill.tokenId
    displayId := bill.displayId
    billHash := bill.billHash
    transferHash := transfer.transferHash
    previousHash := transfer.previousHash
    sequence := transfer.sequence
    spendKey := transfer.spendKey
    operatorLogId := identity.logId
    operatorPublicKey := identity.operatorPublicKey }

/-! ## The status of a reference -/

/-- What `status_record_for_ref` returns. -/
structure StatusRecord where
  displayId : String
  tokenId : String
  ownerAddress : String
  sequence : Option Int
  status : String

/-- What `status_record_for_ref` reads besides the tables of this model: the verification functions, the
    clock, the issued checkpoint of the reference and its token of the old protocol. -/
structure StatusContext where
  verification : Verification
  now : Int
  issuedCheckpoint : Option StatusRecord
  token : Option StatusRecord

/-- `_bill_v3_row_for_ref`: by token, then by display id. -/
def billV3RowForRef (store : LocalStore) (ref : String) : Option BillRow :=
  (Select.first spendableOrder (fun _ => true)
    (store.bills.filter fun row => row.bill.tokenId = ref)).or
  (Select.first spendableOrder (fun _ => true)
    (store.bills.filter fun row => row.bill.displayId = ref))

/-- `_conflict_status_record_v3`. -/
def conflictStatusRecordV3 (tokenId displayId : String) (proof : ConflictProof) : StatusRecord where
  displayId := displayId
  tokenId := tokenId
  ownerAddress := ""
  sequence := some proof.sequence
  status := "conflict"

/-- `_status_record_for_bill_v3_row`. A stored row decodes and agrees with its columns. -/
def statusRecordForBillV3Row (store : LocalStore) (c : StatusContext) (row : BillRow) :
    StatusRecord × LocalStore :=
  match store.latestConflictProofV3ForToken c.verification row.bill.tokenId with
  | (some proof, store') =>
      if row.status ≠ .settled then
        (conflictStatusRecordV3 row.bill.tokenId row.bill.displayId proof, store')
      else confidenceRecord store'
  | (none, store') => confidenceRecord store'
where
  /-- The record of a row that no conflict proof stops. -/
  confidenceRecord (store : LocalStore) : StatusRecord × LocalStore :=
    let (confidence, store') :=
      store.billV3Confidence c.verification row.bill.tokenId row.bill.ownerAddress 0 c.now
    (⟨row.bill.displayId, row.bill.tokenId, row.bill.ownerAddress, some row.bill.sequence,
      confidence.level⟩, store')

/-- `status_record_for_ref`. -/
def statusRecordForRef (store : LocalStore) (c : StatusContext) (ref : String) :
    Option StatusRecord × LocalStore :=
  let ref := Text.strip ref
  if ref = "" then (none, store)
  else match store.billV3RowForRef ref with
    | some row =>
        let (record, store') := store.statusRecordForBillV3Row c row
        (some record, store')
    | none =>
        match store.latestConflictProofV3ForToken c.verification ref, c.issuedCheckpoint with
        | (some proof, store'), issued =>
            (some (conflictStatusRecordV3 ref (issued.elim ref StatusRecord.displayId) proof), store')
        | (none, store'), some issued =>
            match store'.latestConflictProofV3ForToken c.verification issued.tokenId with
            | (some proof, store'') =>
                (some (conflictStatusRecordV3 issued.tokenId issued.displayId proof), store'')
            | (none, store'') => (some issued, store'')
        | (none, store'), none => (c.token, store')

/-- `_local_conflict_status`. -/
def localConflictStatus (store : LocalStore) (c : StatusContext) (tokenId : String) :
    Bool × LocalStore :=
  let (record, store') := store.statusRecordForRef c tokenId
  (record.any fun record => record.status = "conflict", store')

/-! ## The answer of a peer -/

/-- A message that a peer sends along: an announcement, a conflict proof, or one of a type that writes
    neither bills nor conflict proofs. -/
inductive PeerMessage where
  | announcement (messageHash : String) (bill : StoreBill) (bundleOperatorKey : Option String)
  | conflictProof (proof : ConflictProof)
  | other (messageHash tokenId : String)

/-- The token under which a message is filed. -/
def PeerMessage.tokenId : PeerMessage → String
  | .announcement _ bill _ => bill.tokenId
  | .conflictProof proof => proof.tokenId
  | .other _ tokenId => tokenId

/-- A row of `messages`. -/
structure MessageRow where
  firstSeen : Int
  message : PeerMessage

/-- Whether `_v3_messages_for_token` sends a message. -/
def sendsMessage (spendKey : String) : PeerMessage → Bool
  | .announcement _ bill _ =>
      bill.recentTransfers.getLast?.any fun transfer => spendKey = "" ∨ transfer.spendKey = spendKey
  | .conflictProof _ => false
  | .other _ _ => true

/-- `_v3_messages_for_token`. -/
def v3MessagesForToken (rows : List MessageRow) (tokenId spendKey : String) (limit : Nat) :
    List PeerMessage :=
  (((Select.orderBy (fun row : MessageRow => -row.firstSeen)
    (rows.filter fun row => row.message.tokenId = tokenId)).take limit).map
      MessageRow.message).filter (sendsMessage spendKey)

/-- A response of the type `ind.peer_settlement_response.v3`. -/
structure SettlementResponse where
  tokenId : String
  displayId : String
  status : String
  ownerAddress : String
  sequence : Option Int
  localTransferHash : String
  matchesQuery : Bool
  conflict : Bool
  conflictProofHash : String
  messages : List PeerMessage

/-- `ORDER BY sequence DESC, updated_at DESC LIMIT 1` over the rows of a token. -/
def newestRowOfToken (store : LocalStore) (tokenId : String) : Option BillRow :=
  Select.first recentOrder (fun _ => true) (store.bills.filter fun row => row.bill.tokenId = tokenId)

/-- The last recent transfer of the newest row of a token. -/
def newestTransfer (store : LocalStore) (tokenId : String) : Option StoreTransfer :=
  (store.newestRowOfToken tokenId).bind fun row => row.bill.recentTransfers.getLast?

/-- `peer_settlement_response_v3`. -/
def peerSettlementResponseV3 (store : LocalStore) (c : StatusContext) (rows : List MessageRow)
    (query : SettlementQuery) (limit : Nat) : Except String SettlementResponse × LocalStore :=
  let tokenId := Text.strip query.tokenId
  let spendKey := Text.strip query.spendKey
  let transferHash := Text.lower (Text.strip query.transferHash)
  if tokenId = "" then (.error "V3 settlement query is missing token id", store)
  else
    let (conflictProof, store') := store.latestConflictProofV3ForToken c.verification tokenId
    let messages := v3MessagesForToken rows tokenId spendKey limit
    let (record, store'') := store'.statusRecordForRef c tokenId
    let named := if query.displayId = "" then tokenId else query.displayId
    let status := record.getD ⟨named, tokenId, "", none, "unknown"⟩
    let localTipHash := (store.newestTransfer tokenId).elim "" StoreTransfer.transferHash
    (.ok {
      tokenId := tokenId
      displayId := if status.displayId = "" then named else status.displayId
      status := status.status
      ownerAddress := status.ownerAddress
      sequence := status.sequence
      localTransferHash := localTipHash
      matchesQuery := transferHash ≠ "" && localTipHash = transferHash
      conflict := conflictProof.isSome
      conflictProofHash := conflictProof.elim "" ConflictProof.proofHash
      messages := messages ++ (conflictProof.map PeerMessage.conflictProof).toList }, store'')

/-- `MAX_SETTLEMENT_MESSAGES_PER_RESPONSE`, unless the environment sets it. -/
def maxSettlementMessagesPerResponse : Nat := 100

/-- `_settlement_response_for_request`: an error is a response too. -/
def settlementResponseForRequest (store : LocalStore) (c : StatusContext) (rows : List MessageRow)
    (query : SettlementQuery) : SettlementResponse :=
  match (store.peerSettlementResponseV3 c rows query maxSettlementMessagesPerResponse).1 with
  | .ok response => response
  | .error _ => ⟨"", "", "invalid", "", none, "", false, false, "", []⟩

/-! ## The verdict on an answer -/

/-- What the network makes of a message while it is ingested. -/
structure Ingestion where
  verification : Verification
  now : Int
  logRows : List TransferLogRow
  submitted : Bool
  compactCopy : Option StoreBill

/-- `ingest_wire_message` of one message; an exception is logged and the next message follows. -/
def ingestSettlementMessage (ingestion : PeerMessage → Ingestion) (store : LocalStore)
    (message : PeerMessage) : LocalStore :=
  let i := ingestion message
  match message with
  | .announcement _ bill bundleOperatorKey =>
      store.call i.now (.announcement i.verification
        ⟨bill, bundleOperatorKey, i.logRows, i.submitted, i.compactCopy⟩)
  | .conflictProof proof => store.call i.now (.conflictProof i.verification proof false)
  | .other _ _ => store

/-- `_ingest_settlement_response_messages`. -/
def ingestSettlementResponseMessages (store : LocalStore) (ingestion : PeerMessage → Ingestion)
    (response : SettlementResponse) : LocalStore :=
  (response.messages.take maxSettlementMessagesPerResponse).foldl
    (ingestSettlementMessage ingestion) store

/-- How `_reconcile_v3_settlement_candidate` takes the answer of one peer. -/
inductive Verdict where
  | conflict
  | confirmation
  | divergent (localTransferHash status : String)
  | failure (status : String)
deriving DecidableEq

/-- One turn of the loop of `_reconcile_v3_settlement_candidate`. -/
def reconcilePeer (store : LocalStore) (ingestion : PeerMessage → Ingestion) (c : StatusContext)
    (tokenId : String) (response : SettlementResponse) : Verdict × LocalStore :=
  if response.tokenId ≠ tokenId then (.failure "wrong_token", store)
  else
    let ingested := store.ingestSettlementResponseMessages ingestion response
    match ingested.localConflictStatus c tokenId with
    | (true, store') => (.conflict, store')
    | (false, store') =>
        (if response.conflict then .failure "unproved_conflict"
          else if response.matchesQuery then .confirmation
          else if response.localTransferHash ≠ "" then
            .divergent response.localTransferHash response.status
          else .failure response.status, store')

/-- What the loop has counted. -/
structure Tally where
  confirmations : Nat
  divergent : List Verdict
  failures : List Verdict

/-- What the loop counts of a verdict. -/
def Tally.count (tally : Tally) : Verdict → Tally
  | .conflict => tally
  | .confirmation => { tally with confirmations := tally.confirmations + 1 }
  | .divergent hash status => { tally with divergent := tally.divergent ++ [.divergent hash status] }
  | .failure status => { tally with failures := tally.failures ++ [.failure status] }

/-- What came of asking one peer: no answer, or an answer and what happens while it is taken in. -/
inductive PeerResult where
  | unanswered (status : String)
  | answered (response : SettlementResponse) (ingestion : PeerMessage → Ingestion) (c : StatusContext)

/-- The loop of `_reconcile_v3_settlement_candidate`. No tally is left where it returns early. -/
def countPeers (store : LocalStore) (tokenId : String) (tally : Tally) :
    List PeerResult → Option Tally × LocalStore
  | [] => (some tally, store)
  | .unanswered status :: rest => store.countPeers tokenId (tally.count (.failure status)) rest
  | .answered response ingestion c :: rest =>
      match store.reconcilePeer ingestion c tokenId response with
      | (.conflict, store') => (none, store')
      | (verdict, store') => store'.countPeers tokenId (tally.count verdict) rest

/-- What `_reconcile_v3_settlement_candidate` decides. -/
inductive Decision where
  | settle (reason : String)
  | await (reason : String)
  | conflict (reason : String)
deriving DecidableEq

/-- The settings of the settlement quorum. -/
structure SettlementSettings where
  enabled : Bool
  peerCount : Nat
  minConfirmations : Nat
  requireAll : Bool

/-- `_reconcile_v3_settlement_candidate`. -/
def reconcileV3SettlementCandidate (store : LocalStore) (settings : SettlementSettings)
    (query : SettlementQuery) (results : List PeerResult) (c : StatusContext) :
    Decision × LocalStore :=
  if settings.enabled = false then (.settle "settlement quorum disabled", store)
  else if 0 < settings.minConfirmations ∧ settings.peerCount = 0 then
    (.await "no settlement peers configured", store)
  else match store.countPeers query.tokenId ⟨0, [], []⟩ results with
    | (none, store') => (.conflict "peer proved conflict", store')
    | (some tally, store') =>
        match store'.localConflictStatus c query.tokenId with
        | (true, store'') => (.conflict "local conflict proof stored", store'')
        | (false, store'') =>
            (if tally.divergent ≠ [] then .await "peer has divergent spend"
              else if settings.minConfirmations ≤ tally.confirmations then
                .settle "peer settlement quorum reached"
              else if settings.requireAll = true ∧ tally.confirmations < settings.peerCount then
                .await "awaiting all configured settlement peers"
              else .await "awaiting settlement peer quorum", store'')

/-! ## Agreement -/

/-- The bill that a message announces. -/
def PeerMessage.announced : PeerMessage → Option StoreBill
  | .announcement _ bill _ => some bill
  | .conflictProof _ => none
  | .other _ _ => none

/-- The transfers of a token in the bills of two stores and in the announcements that the second one
    keeps. -/
def heldTransfers (first second : LocalStore) (rows : List MessageRow) (tokenId : String) :
    List StoreTransfer :=
  let bills := (first.bills ++ second.bills).map BillRow.bill ++
    rows.filterMap fun row => row.message.announced
  (bills.filter fun bill => bill.tokenId = tokenId).flatMap StoreBill.transfers

/-- What two stores hold of a token lies on one chain: no two transfers spend one state in two ways, and
    neither store has a proof that some do. -/
structure Agree (first second : LocalStore) (rows : List MessageRow) (tokenId : String) : Prop where
  oneChain : ∀ a ∈ heldTransfers first second rows tokenId,
    ∀ b ∈ heldTransfers first second rows tokenId, ¬ Forks a b
  first_unproved : ∀ row ∈ first.conflicts, row.proof.tokenId ≠ tokenId
  second_unproved : ∀ row ∈ second.conflicts, row.proof.tokenId ≠ tokenId

theorem mem_heldTransfers {rows : List MessageRow} {tokenId : String} {transfer : StoreTransfer} :
    transfer ∈ heldTransfers first second rows tokenId ↔
      (∃ row ∈ first.bills ++ second.bills, row.bill.tokenId = tokenId ∧
        transfer ∈ row.bill.transfers) ∨
      ∃ row ∈ rows, ∃ bill ∈ row.message.announced, bill.tokenId = tokenId ∧
        transfer ∈ bill.transfers := by
  unfold heldTransfers
  simp only [List.mem_flatMap, List.mem_filter, List.mem_append, List.mem_map, List.mem_filterMap,
    decide_eq_true_eq]
  constructor
  · rintro ⟨bill, ⟨⟨row, hrow, rfl⟩ | ⟨row, hrow, hbill⟩, htoken⟩, hmem⟩
    · exact Or.inl ⟨row, hrow, htoken, hmem⟩
    · exact Or.inr ⟨row, hrow, bill, hbill, htoken, hmem⟩
  · rintro (⟨row, hrow, htoken, hmem⟩ | ⟨row, hrow, bill, hbill, htoken, hmem⟩)
    · exact ⟨row.bill, ⟨Or.inl ⟨row, hrow, rfl⟩, htoken⟩, hmem⟩
    · exact ⟨bill, ⟨Or.inr ⟨row, hrow, hbill⟩, htoken⟩, hmem⟩

/-! ## Ingesting what a peer sends -/

/-- A store knows a token, has transfers of a chain only, and no proof of a conflict. -/
structure OnChain (chain : List StoreTransfer) (tokenId : String) (store : LocalStore) : Prop where
  known : ∃ row ∈ store.bills, row.bill.tokenId = tokenId
  transfers : ∀ row ∈ store.bills, row.bill.tokenId = tokenId → ∀ t ∈ row.bill.transfers, t ∈ chain
  unproved : ∀ row ∈ store.conflicts, row.proof.tokenId ≠ tokenId

section Ingestion

variable {chain : List StoreTransfer} {tokenId : String}

theorem OnChain.log (h : store.OnChain chain tokenId) (log : List TransferLogRow) :
    OnChain chain tokenId { store with transferLog := log } :=
  ⟨h.known, h.transfers, h.unproved⟩

theorem OnChain.drops (h : store.OnChain chain tokenId) {store' : LocalStore}
    (hdrops : store.DropsConflicts store') : store'.OnChain chain tokenId := by
  obtain ⟨kept, rfl, hkept⟩ := hdrops
  exact ⟨h.known, h.transfers, fun row hrow => h.unproved row (hkept.subset hrow)⟩

theorem OnChain.storeBillV3Conn (h : store.OnChain chain tokenId) {bill : StoreBill}
    (htoken : bill.tokenId = tokenId) (hchain : ∀ t ∈ bill.transfers, t ∈ chain)
    (status : BillStatus) : (store.storeBillV3Conn bill status now).OnChain chain tokenId := by
  refine ⟨⟨_, storedRow_mem bill status, htoken⟩, fun row hrow hrowToken => ?_, h.unproved⟩
  rcases mem_storeBillV3Conn.1 hrow with ⟨hold, -⟩ | rfl
  · exact h.transfers row hold hrowToken
  · exact hchain

theorem OnChain.maybeCompactBillV3 (h : store.OnChain chain tokenId) {bill : StoreBill}
    (htoken : bill.tokenId = tokenId) (hchain : ∀ t ∈ bill.transfers, t ∈ chain)
    (copy : Option StoreBill) (status : BillStatus) :
    (store.maybeCompactBillV3 bill copy status now).OnChain chain tokenId := by
  rcases maybeCompactBillV3_cases store now bill copy status with
    heq | ⟨compact, -, hcompact, heq⟩
  · rwa [heq]
  · -- the compact copy has the transfers of the bill behind its checkpoint
    rw [heq]
    obtain ⟨-, harchived, hrecent, hsame, -⟩ := hcompact
    refine h.storeBillV3Conn (hsame.trans htoken) (fun t ht => hchain t ?_) status
    unfold StoreBill.transfers at ht
    rwa [harchived, hrecent, List.append_nil] at ht

theorem OnChain.recordSubmission (h : store.OnChain chain tokenId) (bill : StoreBill)
    (rows : List TransferLogRow) : (store.recordSubmission bill rows).OnChain chain tokenId := by
  obtain ⟨log, heq⟩ := recordSubmission_frame store bill rows
  rw [heq]
  exact h.log log

/-- An announcement on the chain finds no conflict, so it writes bills of the chain only. -/
theorem OnChain.announcement (h : store.OnChain chain tokenId)
    (hforks : ∀ a ∈ chain, ∀ b ∈ chain, ¬ Forks a b) {a : Announcement}
    (htoken : a.bill.tokenId = tokenId) (hchain : ∀ t ∈ a.bill.transfers, t ∈ chain) :
    (store.ingestTransferAnnouncementV3 v a now).2.OnChain chain tokenId := by
  have hread := h.drops (dropsConflicts_latest store v a.bill.tokenId)
  generalize hend : store.ingestTransferAnnouncementV3 v a now = result
  have hcases := ingestTransferAnnouncementV3_cases store v now a
  rw [hend] at hcases
  obtain ⟨answer, store'⟩ := result
  cases hcases with
  | rejected => exact h
  | inConflict row hopen => exact absurd (hopen.2.1.trans htoken) (h.unproved row hopen.1)
  | ignored => exact hread
  | conflict proof record mid hclear hfound =>
    obtain ⟨-, row, hrow, hsame, t, ht, u, hu, hfork, -⟩ := findConflictingBillV3_eq_some hfound
    have htchain := hread.transfers row hrow (hsame.trans htoken) t (List.mem_append_right _ ht)
    exact absurd hfork (hforks t htchain u (hchain u (List.mem_append_right _ hu)))
  | unlogged => exact h.recordSubmission _ _
  | pending => exact (hread.recordSubmission _ _).storeBillV3Conn htoken hchain _
  | verified =>
    exact ((hread.recordSubmission _ _).storeBillV3Conn htoken hchain _).maybeCompactBillV3 htoken
      hchain _ _

/-- The messages of the token that are on the chain. -/
def MessageOnChain (chain : List StoreTransfer) (tokenId : String) (message : PeerMessage) : Prop :=
  message.tokenId = tokenId ∧ (∀ proof, message ≠ .conflictProof proof) ∧
    ∀ bill ∈ message.announced, ∀ t ∈ bill.transfers, t ∈ chain

theorem OnChain.ingestSettlementMessage (h : store.OnChain chain tokenId)
    (hforks : ∀ a ∈ chain, ∀ b ∈ chain, ¬ Forks a b) (ingestion : PeerMessage → Ingestion)
    {message : PeerMessage} (hmessage : MessageOnChain chain tokenId message) :
    (store.ingestSettlementMessage ingestion message).OnChain chain tokenId := by
  obtain ⟨htoken, hproof, hchain⟩ := hmessage
  cases message with
  | announcement messageHash bill bundleOperatorKey =>
    exact h.announcement hforks htoken (hchain bill rfl)
  | conflictProof proof => exact absurd rfl (hproof proof)
  | other => exact h

theorem OnChain.ingestSettlementResponseMessages (h : store.OnChain chain tokenId)
    (hforks : ∀ a ∈ chain, ∀ b ∈ chain, ¬ Forks a b) (ingestion : PeerMessage → Ingestion)
    {response : SettlementResponse}
    (hmessages : ∀ message ∈ response.messages, MessageOnChain chain tokenId message) :
    (store.ingestSettlementResponseMessages ingestion response).OnChain chain tokenId := by
  unfold LocalStore.ingestSettlementResponseMessages
  generalize htaken : response.messages.take maxSettlementMessagesPerResponse = messages
  replace hmessages : ∀ message ∈ messages, MessageOnChain chain tokenId message :=
    fun message hmessage => hmessages message (List.mem_of_mem_take (htaken ▸ hmessage))
  clear htaken
  induction messages generalizing store with
  | nil => exact h
  | cons message rest ih =>
    rw [List.foldl_cons]
    refine ih (h.ingestSettlementMessage hforks ingestion ?_) fun m hm => ?_
    · exact hmessages message List.mem_cons_self
    · exact hmessages m (List.mem_cons_of_mem _ hm)

end Ingestion

/-! ## What a store without a proof shows -/

section Unproved

variable {tokenId : String}

/-- Without a proof of the token a reader finds none and drops none. -/
theorem latest_of_unproved (h : ∀ row ∈ store.conflicts, row.proof.tokenId ≠ tokenId) :
    store.latestConflictProofV3ForToken v tokenId = (none, store) := by
  unfold latestConflictProofV3ForToken
  have hnil : store.conflicts.filter (fun row => row.proof.tokenId = tokenId) = [] := by
    refine List.filter_eq_nil_iff.2 fun row hrow hsame => ?_
    exact h row hrow (of_decide_eq_true hsame)
  rw [hnil]
  rfl

theorem settledAnswer_level_ne (ownerAddress : String) (minSettledSeconds : Int) (record : BillRow) :
    (billV3Confidence.settledAnswer store ownerAddress minSettledSeconds now record).level
      ≠ "conflict" := by
  unfold billV3Confidence.settledAnswer
  split
  · simp
  · split
    · simp
    · split
      · simp
      · simp
    · split
      · simp
      · simp

theorem billV3Confidence_level_ne (h : ∀ row ∈ store.conflicts, row.proof.tokenId ≠ tokenId)
    (ownerAddress : String) (minSettledSeconds : Int) :
    (store.billV3Confidence v tokenId ownerAddress minSettledSeconds now).1.level ≠ "conflict" := by
  unfold billV3Confidence
  split
  · simp
  · rw [latest_of_unproved h]
    exact settledAnswer_level_ne ownerAddress minSettledSeconds _

/-- A store that knows the token and has no proof of a conflict does not call it a conflict. -/
theorem localConflictStatus_eq_false (hknown : ∃ row ∈ store.bills, row.bill.tokenId = tokenId)
    (hunproved : ∀ row ∈ store.conflicts, row.proof.tokenId ≠ tokenId)
    (hstrip : Text.strip tokenId = tokenId) (hne : tokenId ≠ "") (c : StatusContext) :
    (store.localConflictStatus c tokenId).1 = false := by
  obtain ⟨old, hold, htoken⟩ := hknown
  obtain ⟨row, hrow⟩ : ∃ row, Select.first spendableOrder (fun _ => true)
      (store.bills.filter fun row => row.bill.tokenId = tokenId) = some row :=
    Select.exists_first (List.mem_filter.2 ⟨hold, decide_eq_true htoken⟩) rfl
  have hfound : row.bill.tokenId = tokenId :=
    of_decide_eq_true (List.mem_filter.1 (Select.first_eq_some hrow).1).2
  have href : store.billV3RowForRef tokenId = some row := by
    unfold billV3RowForRef
    rw [hrow]
    rfl
  unfold localConflictStatus statusRecordForRef
  simp only [hstrip, if_neg hne, href]
  unfold statusRecordForBillV3Row
  rw [hfound, latest_of_unproved hunproved]
  simpa [statusRecordForBillV3Row.confidenceRecord, hfound] using
    billV3Confidence_level_ne hunproved row.bill.ownerAddress 0

end Unproved

end LocalStore
