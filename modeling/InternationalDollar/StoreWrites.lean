import InternationalDollar.StoreIngest

set_option autoImplicit false

/-! # What the calls of the store write

Every call is taken apart once: which proofs of conflict a reader drops, which row a write puts into
`bills_v3`, and how an announcement ends. The invariants of the store are then proved write by write. -/

namespace LocalStore

variable {store : LocalStore} {v : Verification} {now : Int}

/-! ## Rows of bills -/

/-- The row that `_store_bill_v3_conn` writes. -/
def storedRow (store : LocalStore) (bill : StoreBill) (status : BillStatus) (now : Int) : BillRow :=
  let existing := store.bills.find? fun row => row.bill.billHash = bill.billHash
  { bill := bill
    firstSeen := existing.elim now BillRow.firstSeen
    updatedAt := now
    status := strongerBillV3Status (existing.map BillRow.status) status }

theorem mem_storeBillV3Conn {bill : StoreBill} {status : BillStatus} {row : BillRow} :
    row ∈ (store.storeBillV3Conn bill status now).bills ↔
      (row ∈ store.bills ∧ row.bill.billHash ≠ bill.billHash) ∨
        row = store.storedRow bill status now := by
  unfold storeBillV3Conn storedRow
  simp

theorem storedRow_mem (bill : StoreBill) (status : BillStatus) :
    store.storedRow bill status now ∈ (store.storeBillV3Conn bill status now).bills :=
  mem_storeBillV3Conn.2 (Or.inr rfl)

@[simp] theorem storedRow_bill (bill : StoreBill) (status : BillStatus) :
    (store.storedRow bill status now).bill = bill :=
  rfl

@[simp] theorem storedRow_updatedAt (bill : StoreBill) (status : BillStatus) :
    (store.storedRow bill status now).updatedAt = now :=
  rfl

@[simp] theorem storeBillV3Conn_conflicts (bill : StoreBill) (status : BillStatus) :
    (store.storeBillV3Conn bill status now).conflicts = store.conflicts :=
  rfl

variable (store now) in
/-- A compaction writes nothing, or the copy. -/
theorem maybeCompactBillV3_cases (bill : StoreBill) (copy : Option StoreBill) (status : BillStatus) :
    store.maybeCompactBillV3 bill copy status now = store ∨
      ∃ compact, copy = some compact ∧ isCompactCopy bill compact ∧
        store.maybeCompactBillV3 bill copy status now
          = store.storeBillV3Conn compact status now := by
  cases copy with
  | none => exact Or.inl rfl
  | some compact =>
    by_cases hcompact : isCompactCopy bill compact
    · exact Or.inr ⟨compact, rfl, hcompact, if_pos hcompact⟩
    · exact Or.inl (if_neg hcompact)

theorem maybeCompactBillV3_conflicts (bill : StoreBill) (copy : Option StoreBill)
    (status : BillStatus) :
    (store.maybeCompactBillV3 bill copy status now).conflicts = store.conflicts := by
  rcases maybeCompactBillV3_cases store now bill copy status with
    heq | ⟨compact, -, -, heq⟩
  · rw [heq]
  · rw [heq, storeBillV3Conn_conflicts]

variable (store) in
/-- The submission of a transfer writes its log rows only. -/
theorem recordSubmission_frame (bill : StoreBill) (rows : List TransferLogRow) :
    ∃ log, store.recordSubmission bill rows = { store with transferLog := log } := by
  unfold recordSubmission
  split
  · exact ⟨store.transferLog, rfl⟩
  · exact ⟨_, rfl⟩

/-! ## Readers of conflict proofs -/

/-- A stored proof of the token that reads as a conflict now. -/
def OpenConflict (store : LocalStore) (v : Verification) (tokenId : String) (row : ConflictRow) :
    Prop :=
  row ∈ store.conflicts ∧ row.proof.tokenId = tokenId ∧ store.conflictRowHolds v row = true ∧
    store.isPostSettlementConflictV3 row.proof = false

/-- The scan returns the first proof that holds and is not below a settled row. -/
theorem scanConflicts_fst (rows : List ConflictRow) :
    (scanConflicts v store rows).1 = (rows.find? fun row =>
      store.conflictRowHolds v row && !store.isPostSettlementConflictV3 row.proof).map
        ConflictRow.proof := by
  induction rows generalizing store with
  | nil => rfl
  | cons row rest ih =>
    unfold scanConflicts
    by_cases hholds : store.conflictRowHolds v row = true
    · by_cases hpost : store.isPostSettlementConflictV3 row.proof = true
      · rw [if_pos hholds, if_pos hpost, ih, List.find?_cons, hholds, hpost]
        rfl
      · have hfalse : store.isPostSettlementConflictV3 row.proof = false := by simpa using hpost
        rw [if_pos hholds, if_neg hpost, List.find?_cons, hholds, hfalse]
        rfl
    · -- A deletion leaves the rows of bills alone, so the later proofs read the same.
      have hfalse : store.conflictRowHolds v row = false := by simpa using hholds
      rw [if_neg hholds, ih, List.find?_cons, hfalse]
      rfl

theorem latestConflictProofV3ForToken_eq_none {tokenId : String} :
    (store.latestConflictProofV3ForToken v tokenId).1 = none ↔
      ∀ row, ¬ store.OpenConflict v tokenId row := by
  unfold latestConflictProofV3ForToken
  rw [scanConflicts_fst, Option.map_eq_none_iff, List.find?_eq_none]
  constructor
  · rintro h row ⟨hmem, htoken, hholds, hpost⟩
    refine h row ?_ ?_
    · rw [Select.mem_orderBy, List.mem_filter]
      exact ⟨hmem, decide_eq_true htoken⟩
    · rw [hholds, hpost]
      rfl
  · intro h row hrow hopen
    rw [Select.mem_orderBy, List.mem_filter] at hrow
    rw [Bool.and_eq_true, Bool.not_eq_true'] at hopen
    exact h row ⟨hrow.1, of_decide_eq_true hrow.2, hopen.1, hopen.2⟩

theorem latestConflictProofV3ForToken_eq_some {tokenId : String} {proof : ConflictProof}
    (h : (store.latestConflictProofV3ForToken v tokenId).1 = some proof) :
    ∃ row, store.OpenConflict v tokenId row ∧ row.proof = proof := by
  unfold latestConflictProofV3ForToken at h
  rw [scanConflicts_fst, Option.map_eq_some_iff] at h
  obtain ⟨row, hfind, hproof⟩ := h
  have hrow := List.mem_of_find?_eq_some hfind
  have hopen := List.find?_some hfind
  rw [Select.mem_orderBy, List.mem_filter] at hrow
  rw [Bool.and_eq_true, Bool.not_eq_true'] at hopen
  exact ⟨row, ⟨hrow.1, of_decide_eq_true hrow.2, hopen.1, hopen.2⟩, hproof⟩

/-- A store after readers of conflict proofs: only proofs are gone. -/
def DropsConflicts (store store' : LocalStore) : Prop :=
  ∃ kept, store' = { store with conflicts := kept } ∧ kept.Sublist store.conflicts

theorem DropsConflicts.refl (store : LocalStore) : store.DropsConflicts store :=
  ⟨store.conflicts, rfl, List.Sublist.refl _⟩

theorem DropsConflicts.trans {a b c : LocalStore} (h : a.DropsConflicts b)
    (k : b.DropsConflicts c) : a.DropsConflicts c := by
  obtain ⟨kept, rfl, hkept⟩ := h
  obtain ⟨kept', rfl, hkept'⟩ := k
  exact ⟨kept', rfl, hkept'.trans hkept⟩

theorem DropsConflicts.bills {store' : LocalStore} (h : store.DropsConflicts store') :
    store'.bills = store.bills := by
  obtain ⟨kept, rfl, -⟩ := h
  rfl

theorem DropsConflicts.mem {store' : LocalStore} (h : store.DropsConflicts store')
    {row : ConflictRow} (hrow : row ∈ store'.conflicts) : row ∈ store.conflicts := by
  obtain ⟨kept, rfl, hkept⟩ := h
  exact hkept.subset hrow

theorem dropsConflicts_deleteConflict (proofHash : String) :
    store.DropsConflicts (store.deleteConflict proofHash) :=
  ⟨_, rfl, List.filter_sublist⟩

theorem dropsConflicts_scanConflicts (rows : List ConflictRow) :
    store.DropsConflicts (scanConflicts v store rows).2 := by
  induction rows generalizing store with
  | nil => exact .refl store
  | cons row rest ih =>
    unfold scanConflicts
    split
    · split
      · exact ih
      · exact .refl store
    · exact (dropsConflicts_deleteConflict _).trans ih

/-- A proof stays if every proof with its hash that the scan reads holds. -/
theorem mem_scanConflicts {rows : List ConflictRow} {row : ConflictRow} (hrow : row ∈ store.conflicts)
    (hholds : ∀ other ∈ rows, other.proof.proofHash = row.proof.proofHash →
      store.conflictRowHolds v other = true) : row ∈ (scanConflicts v store rows).2.conflicts := by
  induction rows generalizing store with
  | nil => exact hrow
  | cons other rest ih =>
    have hrest := fun third hthird => hholds third (List.mem_cons_of_mem _ hthird)
    unfold scanConflicts
    split
    · split
      · exact ih hrow hrest
      · exact hrow
    · next hno =>
      refine ih (List.mem_filter.2 ⟨hrow, decide_eq_true fun heq => hno ?_⟩) hrest
      exact hholds other List.mem_cons_self heq.symm

/-- What is sent out again is not at or below a settled row. -/
theorem isPostSettlement_of_mem_scanMessages {rows : List ConflictRow} {proof : ConflictProof}
    (h : proof ∈ (scanMessages v store rows).1) :
    store.isPostSettlementConflictV3 proof = false := by
  induction rows generalizing store with
  | nil => exact absurd h List.not_mem_nil
  | cons row rest ih =>
    unfold scanMessages at h
    split at h
    · dsimp only at h
      split at h
      · exact ih h
      · next hpost =>
        rcases List.mem_cons.1 h with rfl | h
        · simpa using hpost
        · exact ih h
    · have hrest := ih h
      exact hrest

theorem mem_scanMessages {rows : List ConflictRow} {row : ConflictRow} (hrow : row ∈ store.conflicts)
    (hholds : ∀ other ∈ rows, other.proof.proofHash = row.proof.proofHash →
      store.conflictRowHolds v other = true) : row ∈ (scanMessages v store rows).2.conflicts := by
  induction rows generalizing store with
  | nil => exact hrow
  | cons other rest ih =>
    have hrest := fun third hthird => hholds third (List.mem_cons_of_mem _ hthird)
    unfold scanMessages
    split
    · dsimp only
      split
      · exact ih hrow hrest
      · exact ih hrow hrest
    · next hno =>
      refine ih (List.mem_filter.2 ⟨hrow, decide_eq_true fun heq => hno ?_⟩) hrest
      exact hholds other List.mem_cons_self heq.symm

variable (store v) in
theorem dropsConflicts_latest (tokenId : String) :
    store.DropsConflicts (store.latestConflictProofV3ForToken v tokenId).2 :=
  dropsConflicts_scanConflicts _

theorem dropsConflicts_scanMessages (rows : List ConflictRow) :
    store.DropsConflicts (scanMessages v store rows).2 := by
  induction rows generalizing store with
  | nil => exact .refl store
  | cons row rest ih =>
    unfold scanMessages
    split
    · dsimp only
      split
      · exact ih
      · exact ih
    · exact (dropsConflicts_deleteConflict _).trans ih

theorem dropsConflicts_conflictMessages (limit : Nat) :
    store.DropsConflicts (store.conflictMessages v limit).2 :=
  dropsConflicts_scanMessages _

/-! ## Storing a conflict proof -/

variable (store) in
theorem insertConflict_cases (row : ConflictRow) :
    store.insertConflict row = store ∨
      (∀ other ∈ store.conflicts, other.proof.proofHash ≠ row.proof.proofHash) ∧
        store.insertConflict row = { store with conflicts := store.conflicts ++ [row] } := by
  unfold insertConflict
  split
  · exact Or.inl rfl
  · next hnew =>
    refine Or.inr ⟨fun other hother heq => hnew ?_, rfl⟩
    exact List.any_eq_true.2 ⟨other, hother, decide_eq_true heq⟩

theorem insertConflict_bills (row : ConflictRow) :
    (store.insertConflict row).bills = store.bills := by
  rcases insertConflict_cases store row with heq | ⟨-, heq⟩
  · rw [heq]
  · rw [heq]

/-- How `_store_conflict_proof_v3_conn` ends. -/
inductive StoredConflict (store : LocalStore) (v : Verification) (proof : ConflictProof) (now : Int) :
    ConflictRecord → LocalStore → Prop
  /-- A settled row of the token is at or above the proof. -/
  | ignored (h : store.isPostSettlementConflictV3 proof = true) :
      StoredConflict store v proof now ⟨false, true⟩ store
  /-- The conflict is known. -/
  | known (h : store.isPostSettlementConflictV3 proof = false)
      (row : ConflictRow) (hrow : row ∈ store.conflicts)
      (hkey : row.proof.conflictKey = proof.conflictKey) :
      StoredConflict store v proof now ⟨false, false⟩ store
  | inserted (h : store.isPostSettlementConflictV3 proof = false) :
      StoredConflict store v proof now ⟨true, false⟩ (store.insertConflict ⟨proof, now⟩)

theorem storeConflictProofV3Conn_cases {proof : ConflictProof} {preverified : Bool}
    {record : ConflictRecord} {store' : LocalStore}
    (h : store.storeConflictProofV3Conn v proof preverified now = .ok (record, store')) :
    store.conflictProofHasLocalV3Anchor v proof = true ∧
      (preverified = true ∨ v.verifyConflictProof proof = true) ∧
      StoredConflict store v proof now record store' := by
  unfold storeConflictProofV3Conn at h
  obtain ⟨_, hverified, h⟩ := Check.bind_eq_ok.1 h
  obtain ⟨_, hanchor, h⟩ := Check.bind_eq_ok.1 h
  refine ⟨Check.require_eq_ok.1 hanchor, Check.require_eq_ok.1 hverified, ?_⟩
  split at h
  · next hpost =>
    cases h
    exact .ignored hpost
  · next hpost =>
    have hpost : store.isPostSettlementConflictV3 proof = false := by simpa using hpost
    split at h
    · next hknown =>
      cases h
      obtain ⟨row, hrow, hkey⟩ := List.any_eq_true.1 hknown
      exact .known hpost row hrow (of_decide_eq_true hkey)
    · cases h
      exact .inserted hpost

/-! ## Announcements -/

/-- How `_ingest_transfer_announcement_v3` ends. -/
inductive Announced (store : LocalStore) (v : Verification) (a : Announcement) (now : Int) :
    Except String Answer → LocalStore → Prop
  | rejected (error : String) : Announced store v a now (.error error) store
  /-- The token has an open conflict: the bill is kept beside it. -/
  | inConflict (row : ConflictRow) (hopen : store.OpenConflict v a.bill.tokenId row) :
      Announced store v a now (.ok ⟨"conflict", none⟩)
        ((store.latestConflictProofV3ForToken v a.bill.tokenId).2.storeBillV3Conn a.bill .verified now)
  /-- The announcement conflicts at or below a settled row. -/
  | ignored (hclear : ∀ row, ¬ store.OpenConflict v a.bill.tokenId row) :
      Announced store v a now (.ok ⟨"ignored_conflict", none⟩)
        (store.latestConflictProofV3ForToken v a.bill.tokenId).2
  /-- The announcement conflicts with a stored bill. -/
  | conflict (proof : ConflictProof) (record : ConflictRecord) (mid : LocalStore)
      (hclear : ∀ row, ¬ store.OpenConflict v a.bill.tokenId row)
      (hfound : (store.latestConflictProofV3ForToken v a.bill.tokenId).2.findConflictingBillV3 v a.bill
        (store.trustedOperatorKey a.bundleOperatorKey) now = some proof)
      (hstored : StoredConflict (store.latestConflictProofV3ForToken v a.bill.tokenId).2 v proof now
        record mid) (hkept : record.ignored = false) :
      Announced store v a now
        (.ok ⟨"conflict", if record.inserted then some proof else none⟩)
        (mid.storeBillV3Conn a.bill .verified now)
  /-- No operator accepts the transfer: the call is rolled back. -/
  | unlogged (error : String) :
      Announced store v a now (.error error) (store.recordSubmission a.bill a.logRows)
  | pending (hclear : ∀ row, ¬ store.OpenConflict v a.bill.tokenId row)
      (hfound : (store.latestConflictProofV3ForToken v a.bill.tokenId).2.findConflictingBillV3 v a.bill
        (store.trustedOperatorKey a.bundleOperatorKey) now = none)
      (hsubmitted : a.submitted = true) (hquorum : store.settlementQuorumEnabled = true) :
      Announced store v a now (.ok ⟨"pending", none⟩)
        (((store.latestConflictProofV3ForToken v a.bill.tokenId).2.recordSubmission a.bill
          a.logRows).storeBillV3Conn a.bill .pending now)
  | verified (hclear : ∀ row, ¬ store.OpenConflict v a.bill.tokenId row)
      (hfound : (store.latestConflictProofV3ForToken v a.bill.tokenId).2.findConflictingBillV3 v a.bill
        (store.trustedOperatorKey a.bundleOperatorKey) now = none)
      (hsubmitted : a.submitted = true) (hquorum : store.settlementQuorumEnabled = false) :
      Announced store v a now (.ok ⟨"verified", none⟩)
        ((((store.latestConflictProofV3ForToken v a.bill.tokenId).2.recordSubmission a.bill
          a.logRows).storeBillV3Conn a.bill .verified now).maybeCompactBillV3 a.bill a.compactCopy
            .verified now)

variable (store v now) in
theorem ingestTransferAnnouncementV3_cases (a : Announcement) :
    Announced store v a now (store.ingestTransferAnnouncementV3 v a now).1
      (store.ingestTransferAnnouncementV3 v a now).2 := by
  unfold ingestTransferAnnouncementV3
  dsimp only
  split
  · exact .rejected _
  · split
    · next proof store' hlatest =>
      have hsome : (store.latestConflictProofV3ForToken v a.bill.tokenId).1 = some proof := by
        rw [hlatest]
      obtain ⟨row, hopen, -⟩ := latestConflictProofV3ForToken_eq_some hsome
      have hstore : store' = (store.latestConflictProofV3ForToken v a.bill.tokenId).2 := by
        rw [hlatest]
      subst hstore
      exact .inConflict row hopen
    · next store' hlatest =>
      have hnone : (store.latestConflictProofV3ForToken v a.bill.tokenId).1 = none := by
        rw [hlatest]
      have hclear := latestConflictProofV3ForToken_eq_none.1 hnone
      have hstore : store' = (store.latestConflictProofV3ForToken v a.bill.tokenId).2 := by
        rw [hlatest]
      subst hstore
      split
      · next proof hfound =>
        split
        · exact .rejected _
        · next record mid hconn =>
          obtain ⟨-, -, hstored⟩ := storeConflictProofV3Conn_cases hconn
          split
          · next hignored =>
            cases hstored with
            | ignored => exact .ignored hclear
            | known => exact absurd hignored (by decide)
            | inserted => exact absurd hignored (by decide)
          · next hkept =>
            exact .conflict proof record mid hclear hfound hstored (by simpa using hkept)
      · next hfound =>
        split
        · exact .rejected _
        · split
          · exact .unlogged _
          · next hsubmitted =>
            have hsubmitted : a.submitted = true := by simpa using hsubmitted
            split
            · next hquorum => exact .pending hclear hfound hsubmitted hquorum
            · next hquorum => exact .verified hclear hfound hsubmitted (by simpa using hquorum)

theorem ingestTransferAnnouncementV3_rejected {a : Announcement}
    (h : v.verifyBill (store.trustedOperatorKey a.bundleOperatorKey) a.bill = false) :
    (store.ingestTransferAnnouncementV3 v a now).2 = store := by
  unfold ingestTransferAnnouncementV3
  dsimp only
  rw [if_pos h]

/-! ## Found conflicts -/

/-- Two transfers that spend one state in two ways. -/
def Forks (a b : StoreTransfer) : Prop :=
  a.spendKey = b.spendKey ∧ a.transferHash ≠ b.transferHash

instance (a b : StoreTransfer) : Decidable (Forks a b) :=
  inferInstanceAs (Decidable (_ ∧ _))

theorem findConflictingTransferPair_eq_some {a b : StoreBill} {pair : StoreTransfer × StoreTransfer}
    (h : findConflictingTransferPair a b = some pair) :
    pair.1 ∈ a.recentTransfers ∧ pair.2 ∈ b.recentTransfers ∧ Forks pair.1 pair.2 := by
  unfold findConflictingTransferPair at h
  obtain ⟨second, hsecond, hpair⟩ := List.exists_of_findSome?_eq_some h
  rw [Option.map_eq_some_iff] at hpair
  obtain ⟨first, hfirst, rfl⟩ := hpair
  have hforks := List.find?_some hfirst
  simp only [decide_eq_true_eq] at hforks
  exact ⟨List.mem_of_find?_eq_some hfirst, hsecond, hforks⟩

theorem createConflictProofFromTransfers_eq_some {a b : StoreTransfer} {proof : ConflictProof}
    (h : createConflictProofFromTransfers v a b now = some proof) :
    a.tokenId = b.tokenId ∧ a.sequence = b.sequence ∧ proof.tokenId = a.tokenId ∧
      proof.sequence = a.sequence := by
  unfold createConflictProofFromTransfers at h
  split at h
  · next hsame =>
    refine ⟨hsame.1, hsame.2.1, ?_⟩
    by_cases hlt : b.transferHash < a.transferHash
    · simp only [if_pos hlt, Option.some.injEq] at h
      subst h
      exact ⟨hsame.1.symm, hsame.2.1.symm⟩
    · simp only [if_neg hlt, Option.some.injEq] at h
      subst h
      exact ⟨rfl, rfl⟩
  · exact absurd h (by simp)

/-- The rows that are tried are stored. -/
theorem mem_of_tried {bill : StoreBill} {row : BillRow}
    (h : row ∈ store.tipCandidates bill ++ Select.orderBy recentOrder
      (store.bills.filter fun row => row.bill.tokenId = bill.tokenId)) : row ∈ store.bills := by
  rcases List.mem_append.1 h with htip | hall
  · unfold tipCandidates at htip
    split at htip
    · exact absurd htip List.not_mem_nil
    · exact (List.mem_filter.1 (Select.mem_orderBy.1 (List.mem_of_mem_take htip))).1
  · exact (List.mem_filter.1 (Select.mem_orderBy.1 hall)).1

/-- A conflict that is found is between recent transfers of a stored bill and of the incoming one. -/
theorem findConflictingBillV3_eq_some {bill : StoreBill} {key : Option String} {proof : ConflictProof}
    (h : store.findConflictingBillV3 v bill key now = some proof) :
    proof.tokenId = bill.tokenId ∧ ∃ row ∈ store.bills, row.bill.tokenId = bill.tokenId ∧
      ∃ a ∈ row.bill.recentTransfers, ∃ b ∈ bill.recentTransfers, Forks a b ∧
        proof.sequence = b.sequence := by
  unfold findConflictingBillV3 at h
  dsimp only at h
  obtain ⟨row, hrow, hproof⟩ := List.exists_of_findSome?_eq_some h
  have hin := mem_of_tried (mem_of_mem_dedupBy hrow)
  unfold createConflictProof at hproof
  split at hproof
  · next hverified =>
    obtain ⟨pair, hpair, hcreated⟩ := Option.bind_eq_some_iff.1 hproof
    obtain ⟨ha, hb, hforks⟩ := findConflictingTransferPair_eq_some hpair
    obtain ⟨htoken, hsequence, hproofToken, hproofSequence⟩ :=
      createConflictProofFromTransfers_eq_some hcreated
    have hbill : pair.2.tokenId = bill.tokenId :=
      bill.transfers_token pair.2 (List.mem_append_right _ hb)
    exact ⟨hproofToken.trans (htoken.trans hbill), row, hin, hverified.2.2, pair.1, ha, pair.2, hb,
      hforks, hproofSequence.trans hsequence⟩
  · exact absurd hproof (by simp)

/-- The conflict that an announcement is found to have. -/
def foundConflict (store : LocalStore) (v : Verification) (a : Announcement) (now : Int) :
    Option ConflictProof :=
  store.findConflictingBillV3 v a.bill (store.trustedOperatorKey a.bundleOperatorKey) now

variable (v now) in
theorem findConflictingBillV3_of_drops {store' : LocalStore} (h : store.DropsConflicts store')
    (bill : StoreBill) (key : Option String) :
    store'.findConflictingBillV3 v bill key now = store.findConflictingBillV3 v bill key now := by
  obtain ⟨kept, rfl, -⟩ := h
  rfl

/-! ## Settlement -/

variable (store v) in
theorem requireLogProof_frame (f : Finalization) (bill : StoreBill) :
    ∃ log, (store.requireLogProof v f bill).2 = { store with transferLog := log } := by
  unfold requireLogProof
  split
  · exact ⟨store.transferLog, rfl⟩
  · split
    · exact ⟨store.transferLog, rfl⟩
    · split
      · exact ⟨store.transferLog, rfl⟩
      · exact ⟨_, rfl⟩

variable (store v now) in
/-- One turn of the loop checks the log, reads the proofs of the token and settles the row or not. -/
theorem finalizeCandidate_cases (f : Finalization) (finalized : List StoreBill) (bill : StoreBill) :
    ∃ log, let logged : LocalStore := { store with transferLog := log }
      finalizeCandidate v f now (store, finalized) bill = (logged, finalized) ∨
      finalizeCandidate v f now (store, finalized) bill
        = ((logged.latestConflictProofV3ForToken v bill.tokenId).2, finalized) ∨
      ((logged.latestConflictProofV3ForToken v bill.tokenId).1 = none ∧
        finalizeCandidate v f now (store, finalized) bill
          = ((logged.latestConflictProofV3ForToken v bill.tokenId).2.settleRow bill now,
            finalized ++ [bill])) := by
  obtain ⟨log, hlog⟩ := requireLogProof_frame store v f bill
  refine ⟨log, ?_⟩
  unfold finalizeCandidate
  dsimp only
  rw [hlog]
  split
  · exact Or.inl rfl
  · split
    · next proof store' hlatest =>
      rw [hlatest]
      exact Or.inr (Or.inl rfl)
    · next store' hlatest =>
      rw [hlatest]
      split
      · exact Or.inr (Or.inr ⟨rfl, rfl⟩)
      · exact Or.inr (Or.inl rfl)

/-- The rule for `finalize_pending`: `P` holds through the loop, `R` of the bills that settle, and `Q`
    through the compactions after it. -/
theorem finalizePending_keeps {P Q : LocalStore → Prop} {R : StoreBill → Prop} (f : Finalization)
    (hstore : P store)
    (hlog : ∀ s log, P s → P { s with transferLog := log })
    (hread : ∀ s, ∀ bill ∈ store.pendingV3SettlementCandidates now f.bufferSeconds, P s →
      P (s.latestConflictProofV3ForToken v bill.tokenId).2)
    (hsettle : ∀ s, ∀ bill ∈ store.pendingV3SettlementCandidates now f.bufferSeconds, P s →
      (s.latestConflictProofV3ForToken v bill.tokenId).1 = none →
        P ((s.latestConflictProofV3ForToken v bill.tokenId).2.settleRow bill now) ∧ R bill)
    (hdone : ∀ s, P s → Q s)
    (hcopy : ∀ s, ∀ bill ∈ store.pendingV3SettlementCandidates now f.bufferSeconds, R bill →
      ∀ compact, isCompactCopy bill compact → f.compactCopy bill = some compact → Q s →
        Q (s.storeBillV3Conn compact .settled now)) :
    Q (store.finalizePending v f now) := by
  have hloop : ∀ (bills : List StoreBill) (s : LocalStore) (finalized : List StoreBill),
      (∀ bill ∈ bills, bill ∈ store.pendingV3SettlementCandidates now f.bufferSeconds) →
      (∀ bill ∈ finalized, bill ∈ store.pendingV3SettlementCandidates now f.bufferSeconds ∧ R bill) →
      P s →
      P (bills.foldl (finalizeCandidate v f now) (s, finalized)).1 ∧
        ∀ bill ∈ (bills.foldl (finalizeCandidate v f now) (s, finalized)).2,
          bill ∈ store.pendingV3SettlementCandidates now f.bufferSeconds ∧ R bill := by
    intro bills
    induction bills with
    | nil => exact fun s finalized _ hfinalized hs => ⟨hs, hfinalized⟩
    | cons bill rest ih =>
      intro s finalized hbills hfinalized hs
      have hbill := hbills bill List.mem_cons_self
      have hrest := fun b hb => hbills b (List.mem_cons_of_mem _ hb)
      rw [List.foldl_cons]
      obtain ⟨log, heq | heq | ⟨hnone, heq⟩⟩ :=
        finalizeCandidate_cases s v now f finalized bill
      · rw [heq]
        exact ih _ _ hrest hfinalized (hlog s log hs)
      · rw [heq]
        exact ih _ _ hrest hfinalized (hread _ bill hbill (hlog s log hs))
      · obtain ⟨hsettled, hr⟩ := hsettle _ bill hbill (hlog s log hs) hnone
        rw [heq]
        refine ih _ _ hrest (fun b hb => ?_) hsettled
        rcases List.mem_append.1 hb with hb | hb
        · exact hfinalized b hb
        · rw [List.mem_singleton.1 hb]
          exact ⟨hbill, hr⟩
  have hcompact : ∀ (bills : List StoreBill) (s : LocalStore),
      (∀ bill ∈ bills, bill ∈ store.pendingV3SettlementCandidates now f.bufferSeconds ∧ R bill) →
      Q s → Q (bills.foldl (fun store bill =>
        store.maybeCompactBillV3 bill (f.compactCopy bill) .settled now) s) := by
    intro bills
    induction bills with
    | nil => exact fun s _ hs => hs
    | cons bill rest ih =>
      intro s hbills hs
      rw [List.foldl_cons]
      refine ih _ (fun b hb => hbills b (List.mem_cons_of_mem _ hb)) ?_
      rcases maybeCompactBillV3_cases s now bill (f.compactCopy bill) .settled with
        heq | ⟨compact, hsome, hcompact, heq⟩
      · rwa [heq]
      · rw [heq]
        obtain ⟨hbill, hr⟩ := hbills bill List.mem_cons_self
        exact hcopy s bill hbill hr compact hcompact hsome hs
  obtain ⟨hlooped, hfinalized⟩ := hloop _ store [] (fun _ h => h) (fun _ h => by simp at h) hstore
  exact hcompact _ _ hfinalized (hdone _ hlooped)

/-- A candidate for settlement is the bill of a pending row. -/
theorem exists_row_of_candidate {bill : StoreBill} {bufferSeconds : Int}
    (h : bill ∈ store.pendingV3SettlementCandidates now bufferSeconds) :
    ∃ row ∈ store.bills, row.bill = bill ∧ row.status = .pending := by
  unfold pendingV3SettlementCandidates at h
  rw [List.mem_filter, List.mem_map] at h
  obtain ⟨⟨row, hrow, rfl⟩, -⟩ := h
  rw [Select.mem_orderBy, List.mem_filter, decide_eq_true_eq] at hrow
  exact ⟨row, hrow.1, rfl, hrow.2.1⟩

theorem mem_settleRow {bill : StoreBill} {row : BillRow} (h : row ∈ (store.settleRow bill now).bills) :
    row ∈ store.bills ∨ ∃ old ∈ store.bills, old.bill.billHash = bill.billHash ∧
      old.status = .pending ∧ row = { old with status := .settled, updatedAt := now } := by
  unfold settleRow at h
  obtain ⟨old, hold, hrow⟩ := List.mem_map.1 h
  by_cases hsettles : old.bill.billHash = bill.billHash ∧ old.status = .pending
  · rw [if_pos hsettles] at hrow
    exact Or.inr ⟨old, hold, hsettles.1, hsettles.2, hrow.symm⟩
  · rw [if_neg hsettles] at hrow
    exact Or.inl (hrow ▸ hold)

/-! ## Discarding -/

variable (store) in
/-- `discard_unsettled_bill_v3` deletes no settled row and writes nothing else. -/
theorem discardUnsettledBillV3_frame (d : Discard) :
    ∃ kept, (store.discardUnsettledBillV3 d).2 = { store with bills := kept } ∧
      kept.Sublist store.bills ∧ ∀ row ∈ store.bills, row.status = .settled → row ∈ kept := by
  have hsame : ∃ kept, store = { store with bills := kept } ∧ kept.Sublist store.bills ∧
      ∀ row ∈ store.bills, row.status = .settled → row ∈ kept :=
    ⟨store.bills, rfl, List.Sublist.refl _, fun _ h _ => h⟩
  unfold discardUnsettledBillV3
  dsimp only
  split
  · exact hsame
  · split
    · exact hsame
    · split_ifs
      · exact hsame
      · exact hsame
      · exact hsame
      · exact hsame
      · refine ⟨_, rfl, List.filter_sublist, fun row hrow hsettled => ?_⟩
        exact List.mem_filter.2 ⟨hrow, decide_eq_true (Or.inr hsettled)⟩

/-! ## One rule for all calls -/

/-- The rule for calls: what every single write keeps, a call keeps. -/
theorem call_keeps {P : LocalStore → Prop} (c : Call) (hstore : P store)
    (hlog : ∀ s log, P s → P { s with transferLog := log })
    (hdrops : ∀ s s', P s → s.DropsConflicts s' → P s')
    (hbill : ∀ s bill status, P s → P (s.storeBillV3Conn bill status now))
    (hconflict : ∀ s row, P s → P (s.insertConflict row))
    (hsettle : ∀ s bill, P s → P (s.settleRow bill now))
    (hdiscard : ∀ s kept, P s → kept.Sublist s.bills → P { s with bills := kept }) :
    P (store.call now c) := by
  have hcompact : ∀ s bill copy status, P s → P (s.maybeCompactBillV3 bill copy status now) := by
    intro s bill copy status hs
    rcases maybeCompactBillV3_cases s now bill copy status with
      heq | ⟨compact, -, -, heq⟩
    · rwa [heq]
    · rw [heq]
      exact hbill s compact status hs
  have hsubmission : ∀ s bill rows, P s → P (s.recordSubmission bill rows) := by
    intro s bill rows hs
    obtain ⟨log, heq⟩ := recordSubmission_frame s bill rows
    rw [heq]
    exact hlog s log hs
  have hstored : ∀ v s proof record s', P s → StoredConflict s v proof now record s' → P s' := by
    intro v s proof record s' hs h
    cases h with
    | ignored => exact hs
    | known => exact hs
    | inserted => exact hconflict s _ hs
  cases c with
  | announcement v a =>
    have hread := hdrops store _ hstore (dropsConflicts_latest _ v a.bill.tokenId)
    show P (store.ingestTransferAnnouncementV3 v a now).2
    generalize hend : store.ingestTransferAnnouncementV3 v a now = result
    have hcases := ingestTransferAnnouncementV3_cases store v now a
    rw [hend] at hcases
    obtain ⟨answer, store'⟩ := result
    cases hcases with
    | rejected => exact hstore
    | inConflict => exact hbill _ _ _ hread
    | ignored => exact hread
    | conflict proof record mid hclear hfound hmid => exact hbill _ _ _ (hstored v _ _ _ _ hread hmid)
    | unlogged => exact hsubmission _ _ _ hstore
    | pending => exact hbill _ _ _ (hsubmission _ _ _ hread)
    | verified => exact hcompact _ _ _ _ (hbill _ _ _ (hsubmission _ _ _ hread))
  | conflictProof v proof preverified =>
    show P (store.ingestConflictProofV3 v proof preverified now).2
    unfold ingestConflictProofV3
    split
    · exact hstore
    · next record store' hconn =>
      have hmid := hstored v _ _ _ _ hstore (storeConflictProofV3Conn_cases hconn).2.2
      split
      · exact hmid
      · exact hmid
  | syncRecord v record =>
    show P (store.ingestWalletBillSyncRecord v record now).2
    unfold ingestWalletBillSyncRecord
    split
    · exact hstore
    · dsimp only
      split
      · exact hbill _ _ _ hstore
      · exact hcompact _ _ _ _ (hbill _ _ _ hstore)
  | cachedBill bill status => exact hbill _ _ _ hstore
  | finalize v f =>
    exact finalizePending_keeps (P := P) (Q := P) (R := fun _ => True) f hstore hlog
      (fun s bill _ hs => hdrops s _ hs (dropsConflicts_latest _ _ bill.tokenId))
      (fun s bill _ hs _ =>
        ⟨hsettle _ bill (hdrops s _ hs (dropsConflicts_latest _ _ bill.tokenId)), trivial⟩)
      (fun _ hs => hs) (fun s _ _ _ compact _ _ hs => hbill s compact .settled hs)
  | discard d =>
    obtain ⟨kept, heq, hkept, -⟩ := discardUnsettledBillV3_frame store d
    show P (store.discardUnsettledBillV3 d).2
    rw [heq]
    exact hdiscard store kept hstore hkept
  | statusLookup v tokenId => exact hdrops store _ hstore (dropsConflicts_latest _ _ tokenId)
  | messages v limit => exact hdrops store _ hstore (dropsConflicts_conflictMessages limit)

/-! ## Keys -/

/-- The primary keys of `bills_v3` and `conflicts_v3` are keys. -/
structure Keyed (store : LocalStore) : Prop where
  bills : (store.bills.map fun row => row.bill.billHash).Nodup
  conflicts : (store.conflicts.map fun row => row.proof.proofHash).Nodup

theorem Keyed.bill_eq (h : store.Keyed) {row other : BillRow} (hrow : row ∈ store.bills)
    (hother : other ∈ store.bills) (heq : row.bill.billHash = other.bill.billHash) : row = other :=
  List.inj_on_of_nodup_map h.bills hrow hother heq

/-- A lookup by bill hash finds the row. -/
theorem Keyed.find?_eq (h : store.Keyed) {row : BillRow} (hrow : row ∈ store.bills) :
    store.bills.find? (fun other => other.bill.billHash = row.bill.billHash) = some row := by
  have hsome : (store.bills.find? fun other =>
      other.bill.billHash = row.bill.billHash).isSome = true :=
    List.find?_isSome.2 ⟨row, hrow, decide_eq_true rfl⟩
  obtain ⟨found, hfind⟩ := Option.isSome_iff_exists.1 hsome
  have hhash := List.find?_some hfind
  simp only [decide_eq_true_eq] at hhash
  rw [hfind, h.bill_eq (List.mem_of_find?_eq_some hfind) hrow hhash]

theorem Keyed.conflict_eq (h : store.Keyed) {row other : ConflictRow} (hrow : row ∈ store.conflicts)
    (hother : other ∈ store.conflicts) (heq : row.proof.proofHash = other.proof.proofHash) :
    row = other :=
  List.inj_on_of_nodup_map h.conflicts hrow hother heq

theorem keyed_storeBillV3Conn (h : store.Keyed) (bill : StoreBill) (status : BillStatus) :
    (store.storeBillV3Conn bill status now).Keyed := by
  refine ⟨?_, h.conflicts⟩
  have hbills : (store.storeBillV3Conn bill status now).bills
      = (store.bills.filter fun other => other.bill.billHash ≠ bill.billHash)
        ++ [store.storedRow bill status now] := rfl
  rw [hbills, List.map_append, List.map_singleton, List.nodup_append]
  refine ⟨h.bills.sublist (List.filter_sublist.map _), List.nodup_singleton _, ?_⟩
  intro key hkey other hother heq
  obtain ⟨row, hrow, rfl⟩ := List.mem_map.1 hkey
  rw [List.mem_singleton.1 hother] at heq
  exact of_decide_eq_true (List.mem_filter.1 hrow).2 heq

theorem keyed_insertConflict (h : store.Keyed) (row : ConflictRow) :
    (store.insertConflict row).Keyed := by
  rcases insertConflict_cases store row with heq | ⟨hnew, heq⟩
  · rwa [heq]
  · rw [heq]
    refine ⟨h.bills, ?_⟩
    rw [List.map_append, List.map_singleton, List.nodup_append]
    refine ⟨h.conflicts, List.nodup_singleton _, ?_⟩
    intro key hkey other hother hsame
    obtain ⟨old, hold, rfl⟩ := List.mem_map.1 hkey
    exact hnew old hold (hsame.trans (List.mem_singleton.1 hother))

@[simp] theorem settleRow_map_bill (bill : StoreBill) :
    (store.settleRow bill now).bills.map BillRow.bill = store.bills.map BillRow.bill := by
  unfold settleRow
  rw [List.map_map]
  refine List.map_congr_left fun row _ => ?_
  show BillRow.bill (if _ then _ else _) = row.bill
  split
  · rfl
  · rfl

theorem keyed_settleRow (h : store.Keyed) (bill : StoreBill) : (store.settleRow bill now).Keyed := by
  refine ⟨?_, h.conflicts⟩
  have hsame : ∀ rows : List BillRow,
      (rows.map fun row => row.bill.billHash) = (rows.map BillRow.bill).map StoreBill.billHash :=
    fun rows => by rw [List.map_map]; rfl
  rw [hsame, settleRow_map_bill, ← hsame]
  exact h.bills

theorem keyed_drops {store' : LocalStore} (h : store.Keyed) (hdrops : store.DropsConflicts store') :
    store'.Keyed := by
  obtain ⟨kept, rfl, hkept⟩ := hdrops
  exact ⟨h.bills, h.conflicts.sublist (hkept.map _)⟩

variable (now) in
theorem keyed_call (h : store.Keyed) (c : Call) : (store.call now c).Keyed :=
  call_keeps (P := Keyed) c h (fun _ _ hs => ⟨hs.bills, hs.conflicts⟩)
    (fun _ _ hs hdrops => keyed_drops hs hdrops)
    (fun _ bill status hs => keyed_storeBillV3Conn hs bill status)
    (fun _ row hs => keyed_insertConflict hs row) (fun _ bill hs => keyed_settleRow hs bill)
    (fun _ _ hs hkept => ⟨hs.bills.sublist (hkept.map _), hs.conflicts⟩)

theorem step_eq {event : Event} {store' : LocalStore} (h : store.step event = some store') :
    store.clock ≤ event.now ∧ store' = { store.call event.now event.call with clock := event.now } := by
  unfold step at h
  split at h
  · exact absurd h (by simp)
  · next hclock =>
    cases h
    exact ⟨not_lt.1 hclock, rfl⟩

theorem keyed_step {event : Event} {store' : LocalStore} (h : store.Keyed)
    (hstep : store.step event = some store') : store'.Keyed := by
  obtain ⟨-, rfl⟩ := step_eq hstep
  have hcall := keyed_call event.now h event.call
  exact ⟨hcall.bills, hcall.conflicts⟩

theorem keyed_initial (quorum : Bool) (required : Nat) (embedded : Bool) :
    (initial quorum required embedded).Keyed :=
  ⟨List.nodup_nil, List.nodup_nil⟩

/-- A store that some run leads to. -/
def Reachable (store : LocalStore) : Prop :=
  ∃ quorum required embedded,
    Runs.Reaches step (fun _ _ => True) (initial quorum required embedded) store

theorem Reachable.keyed (h : store.Reachable) : store.Keyed := by
  obtain ⟨quorum, required, embedded, hreach⟩ := h
  exact hreach.invariant (fun _ _ _ hs _ hstep => keyed_step hs hstep) (keyed_initial _ _ _)

end LocalStore
