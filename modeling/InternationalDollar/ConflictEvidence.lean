import InternationalDollar.SpendViews

set_option autoImplicit false

/-! # Stored conflict proofs

Readers of `conflicts_v3` verify a proof and its anchor again and delete the row on any exception. The
verification of the anchor asks the mirrors of the transparency log, so that one read during an outage
deletes the evidence for good. It stays in every run in which the reads of the proof verify. -/

namespace LocalStore

variable {store : LocalStore} {v : Verification} {now : Int} {row : ConflictRow}

/-! ## Reading one proof -/

/-- The proof verifies, and so does a stored bill that anchors it. -/
structure Verifiable (store : LocalStore) (v : Verification) (row : ConflictRow) : Prop where
  proof : v.verifyConflictProof row.proof = true
  anchor : ∃ other ∈ store.bills, other.bill.tokenId = row.proof.tokenId ∧
    v.verifyBill (store.trustedOperatorKey other.bill.operatorPublicKey) other.bill = true ∧
      billV3MatchesConflictAnchor other.bill row.proof = true

theorem conflictRowHolds_iff : store.conflictRowHolds v row = true ↔ store.Verifiable v row := by
  unfold conflictRowHolds conflictProofHasLocalV3Anchor
  rw [Bool.and_eq_true, List.any_eq_true]
  simp only [decide_eq_true_eq]
  exact ⟨fun h => ⟨h.1, h.2⟩, fun h => ⟨h.proof, h.anchor⟩⟩

/-- What anchors a proof depends on the bills alone, not on their statuses. -/
theorem verifiable_congr {store' : LocalStore}
    (hbills : store'.bills.map BillRow.bill = store.bills.map BillRow.bill)
    (hembedded : store'.allowEmbeddedOperatorKey = store.allowEmbeddedOperatorKey)
    (h : store.Verifiable v row) : store'.Verifiable v row := by
  obtain ⟨other, hother, htoken, hverified, hmatches⟩ := h.anchor
  have hin : other.bill ∈ store'.bills.map BillRow.bill :=
    hbills ▸ List.mem_map.2 ⟨other, hother, rfl⟩
  obtain ⟨same, hsame, heq⟩ := List.mem_map.1 hin
  refine ⟨h.proof, same, hsame, ?_⟩
  unfold trustedOperatorKey at hverified ⊢
  rw [heq, hembedded]
  exact ⟨htoken, hverified, hmatches⟩

/-- A lookup of a token keeps the proof if the proof is of another token or verifies. -/
theorem mem_latest (hkeyed : store.Keyed) (hrow : row ∈ store.conflicts) {tokenId : String}
    (hverifies : row.proof.tokenId = tokenId → store.Verifiable v row) :
    row ∈ (store.latestConflictProofV3ForToken v tokenId).2.conflicts := by
  refine mem_scanConflicts hrow fun other hother hsame => ?_
  rw [Select.mem_orderBy, List.mem_filter, decide_eq_true_eq] at hother
  have heq := hkeyed.conflict_eq hother.1 hrow hsame
  rw [heq] at hother ⊢
  exact conflictRowHolds_iff.2 (hverifies hother.2)

/-! ## Calls that read the proof -/

/-- The calls that may read a stored proof, with their verification: an announcement or a status lookup
    of its token, a settlement with a candidate of its token, and the proofs for rebroadcast when it is
    among them. -/
inductive Reads (store : LocalStore) (now : Int) (row : ConflictRow) : Call → Verification → Prop
  | announcement (v : Verification) (a : Announcement)
      (htoken : row.proof.tokenId = a.bill.tokenId) : Reads store now row (.announcement v a) v
  | finalize (v : Verification) (f : Finalization) (bill : StoreBill)
      (hbill : bill ∈ store.pendingV3SettlementCandidates now f.bufferSeconds)
      (htoken : row.proof.tokenId = bill.tokenId) : Reads store now row (.finalize v f) v
  | statusLookup (v : Verification) : Reads store now row (.statusLookup v row.proof.tokenId) v
  | messages (v : Verification) (limit : Nat)
      (hin : row ∈ (Select.orderBy (fun row : ConflictRow => -row.detectedAt)
        store.conflicts).take limit) : Reads store now row (.messages v limit) v

/-- Whenever the call reads the proof, the mirrors are there: the proof and an anchor verify. -/
def ReadsVerify (row : ConflictRow) (store : LocalStore) (event : Event) : Prop :=
  ∀ v, Reads store event.now row event.call v → store.Verifiable v row

/-- The stores of the loop of `finalize_pending`: the statuses change, the bills do not. -/
structure Looping (store : LocalStore) (row : ConflictRow) (s : LocalStore) : Prop where
  kept : row ∈ s.conflicts
  keyed : s.Keyed
  bills : s.bills.map BillRow.bill = store.bills.map BillRow.bill
  embedded : s.allowEmbeddedOperatorKey = store.allowEmbeddedOperatorKey

theorem looping_latest {s : LocalStore} (h : store.Looping row s) {tokenId : String}
    (hverifies : row.proof.tokenId = tokenId → store.Verifiable v row) :
    store.Looping row (s.latestConflictProofV3ForToken v tokenId).2 := by
  have hkept := mem_latest h.keyed h.kept (v := v) fun htoken =>
    verifiable_congr h.bills h.embedded (hverifies htoken)
  have hkeyed := keyed_drops h.keyed (dropsConflicts_latest _ v tokenId)
  obtain ⟨conflicts, heq, -⟩ := dropsConflicts_latest s v tokenId
  rw [heq] at hkept hkeyed ⊢
  exact ⟨hkept, hkeyed, h.bills, h.embedded⟩

theorem looping_settleRow {s : LocalStore} (h : store.Looping row s) (bill : StoreBill) :
    store.Looping row (s.settleRow bill now) :=
  ⟨h.kept, keyed_settleRow h.keyed bill, (settleRow_map_bill bill).trans h.bills, h.embedded⟩

theorem looping_self (hkeyed : store.Keyed) (hrow : row ∈ store.conflicts) :
    store.Looping row store :=
  ⟨hrow, hkeyed, rfl, rfl⟩

theorem mem_insertConflict (other : ConflictRow) (hrow : row ∈ store.conflicts) :
    row ∈ (store.insertConflict other).conflicts := by
  rcases insertConflict_cases store other with heq | ⟨-, heq⟩
  · rwa [heq]
  · rw [heq]
    exact List.mem_append_left _ hrow

theorem mem_of_storedConflict {proof : ConflictProof} {record : ConflictRecord} {mid : LocalStore}
    (h : StoredConflict store v proof now record mid) (hrow : row ∈ store.conflicts) :
    row ∈ mid.conflicts := by
  cases h with
  | ignored => exact hrow
  | known => exact hrow
  | inserted => exact mem_insertConflict _ hrow

theorem mem_recordSubmission (bill : StoreBill) (rows : List TransferLogRow)
    (hrow : row ∈ store.conflicts) : row ∈ (store.recordSubmission bill rows).conflicts := by
  obtain ⟨log, heq⟩ := recordSubmission_frame store bill rows
  rw [heq]
  exact hrow

/-- A call keeps the proof if its reads of the proof verify. -/
theorem mem_call (hkeyed : store.Keyed) (hrow : row ∈ store.conflicts) (c : Call)
    (hreads : ∀ v, Reads store now row c v → store.Verifiable v row) :
    row ∈ (store.call now c).conflicts := by
  cases c with
  | announcement v a =>
    have hread : row ∈ (store.latestConflictProofV3ForToken v a.bill.tokenId).2.conflicts :=
      mem_latest hkeyed hrow fun htoken => hreads v (.announcement v a htoken)
    show row ∈ (store.ingestTransferAnnouncementV3 v a now).2.conflicts
    generalize hend : store.ingestTransferAnnouncementV3 v a now = result
    have hcases := ingestTransferAnnouncementV3_cases store v now a
    rw [hend] at hcases
    obtain ⟨answer, store'⟩ := result
    cases hcases with
    | rejected => exact hrow
    | inConflict => exact hread
    | ignored => exact hread
    | conflict proof record mid hclear hfound hstored =>
      have hmid := mem_of_storedConflict hstored hread
      exact hmid
    | unlogged => exact mem_recordSubmission _ _ hrow
    | pending => exact mem_recordSubmission _ _ hread
    | verified =>
      show row ∈ (maybeCompactBillV3 _ _ _ _ _).conflicts
      rw [maybeCompactBillV3_conflicts]
      exact mem_recordSubmission _ _ hread
  | conflictProof v proof preverified =>
    show row ∈ (store.ingestConflictProofV3 v proof preverified now).2.conflicts
    unfold ingestConflictProofV3
    split
    · exact hrow
    · next record store' hconn =>
      have hkept := mem_of_storedConflict (storeConflictProofV3Conn_cases hconn).2.2 hrow
      split
      · exact hkept
      · exact hkept
  | syncRecord v record =>
    show row ∈ (store.ingestWalletBillSyncRecord v record now).2.conflicts
    unfold ingestWalletBillSyncRecord
    split
    · exact hrow
    · dsimp only
      split
      · exact hrow
      · rw [maybeCompactBillV3_conflicts]
        exact hrow
  | cachedBill bill status => exact hrow
  | finalize v f =>
    exact finalizePending_keeps (P := store.Looping row) (Q := fun s => row ∈ s.conflicts)
      (R := fun _ => True) f (looping_self hkeyed hrow)
      (fun s log hs => ⟨hs.kept, ⟨hs.keyed.bills, hs.keyed.conflicts⟩, hs.bills, hs.embedded⟩)
      (fun s bill hbill hs => looping_latest hs fun htoken => hreads v (.finalize v f bill hbill htoken))
      (fun s bill hbill hs _ => ⟨looping_settleRow (looping_latest hs fun htoken =>
        hreads v (.finalize v f bill hbill htoken)) bill, trivial⟩)
      (fun s hs => hs.kept) (fun s bill _ _ compact _ _ hs => hs)
  | discard d =>
    obtain ⟨kept, heq, -⟩ := discardUnsettledBillV3_frame store d
    have hcall : store.call now (.discard d) = (store.discardUnsettledBillV3 d).2 := rfl
    rw [hcall, heq]
    exact hrow
  | statusLookup v tokenId =>
    have hcall : store.call now (.statusLookup v tokenId) =
        (store.latestConflictProofV3ForToken v tokenId).2 := rfl
    rw [hcall]
    refine mem_latest hkeyed hrow fun htoken => ?_
    subst htoken
    exact hreads v (.statusLookup v)
  | messages v limit =>
    have hread : ∀ other ∈ (Select.orderBy (fun row : ConflictRow => -row.detectedAt)
        store.conflicts).take limit, other.proof.proofHash = row.proof.proofHash →
          store.conflictRowHolds v other = true := by
      intro other hother hsame
      have hmem := Select.mem_orderBy.1 (List.mem_of_mem_take hother)
      have heq := hkeyed.conflict_eq hmem hrow hsame
      subst heq
      exact conflictRowHolds_iff.2 (hreads v (.messages v limit hother))
    have hcall : store.call now (.messages v limit) = (scanMessages v store _).2 := rfl
    rw [hcall]
    exact mem_scanMessages hrow hread

/-! ## What stored evidence does -/

/-- The proof reads as a conflict: it verifies and no settled row is at or above it. -/
theorem openConflict_of_verifiable (hrow : row ∈ store.conflicts) (hverifiable : store.Verifiable v row)
    (hpost : store.isPostSettlementConflictV3 row.proof = false) :
    store.OpenConflict v row.proof.tokenId row :=
  ⟨hrow, rfl, conflictRowHolds_iff.2 hverifiable, hpost⟩

theorem isPostSettlementConflictV3_eq_false {proof : ConflictProof} :
    store.isPostSettlementConflictV3 proof = false ↔
      ∀ other ∈ store.bills, other.bill.tokenId = proof.tokenId → other.status = .settled →
        other.bill.sequence < proof.sequence := by
  unfold isPostSettlementConflictV3
  rw [List.any_eq_false]
  simp only [decide_eq_true_eq, not_and, not_le]

/-- A bill in conflict is not accepted unless it is settled. -/
theorem not_accepted_of_open (hrow : row ∈ store.conflicts) (hverifiable : store.Verifiable v row)
    (hpost : store.isPostSettlementConflictV3 row.proof = false) {owner : String} {record : BillRow}
    (hrecord : store.confidenceRow row.proof.tokenId owner = some record)
    (hunsettled : record.status ≠ .settled) :
    (store.billV3Confidence v row.proof.tokenId owner 0 now).1.accepted = false := by
  have hopen := openConflict_of_verifiable hrow hverifiable hpost
  rcases billV3Confidence_eq v now hrecord with ⟨hclear | hsettled, -⟩ | ⟨-, heq⟩
  · exact absurd hopen (hclear row)
  · exact absurd hsettled hunsettled
  · exact heq

/-- The settled rows of the token are those that were settled. -/
def SettlesNone (store : LocalStore) (row : ConflictRow) (s : LocalStore) : Prop :=
  ∀ other ∈ s.bills, other.bill.tokenId = row.proof.tokenId → other.status = .settled →
    other ∈ store.bills

/-- `finalize_pending` settles no row of a token in conflict. -/
theorem settlesNone_finalizePending (hkeyed : store.Keyed) (hrow : row ∈ store.conflicts)
    (hverifiable : store.Verifiable v row)
    (hpost : store.isPostSettlementConflictV3 row.proof = false) (f : Finalization) :
    store.SettlesNone row (store.finalizePending v f now) := by
  refine finalizePending_keeps (P := fun s => store.Looping row s ∧ store.SettlesNone row s)
    (Q := store.SettlesNone row) (R := fun bill => bill.tokenId ≠ row.proof.tokenId) f
    ⟨looping_self hkeyed hrow, fun other hother _ _ => hother⟩ ?_ ?_ ?_ (fun _ hs => hs.2) ?_
  · intro s log hs
    exact ⟨⟨hs.1.kept, ⟨hs.1.keyed.bills, hs.1.keyed.conflicts⟩, hs.1.bills, hs.1.embedded⟩, hs.2⟩
  · intro s bill _ hs
    refine ⟨looping_latest hs.1 fun _ => hverifiable, fun other hother => ?_⟩
    rw [(dropsConflicts_latest _ _ bill.tokenId).bills] at hother
    exact hs.2 other hother
  · intro s bill hbill hs hnone
    -- The token of the proof has an open conflict all through the loop.
    have hother : bill.tokenId ≠ row.proof.tokenId := by
      intro htoken
      have hpostS : s.isPostSettlementConflictV3 row.proof = false :=
        isPostSettlementConflictV3_eq_false.2 fun other hother hsame hsettled =>
          isPostSettlementConflictV3_eq_false.1 hpost other (hs.2 other hother hsame hsettled) hsame
            hsettled
      have hopen := openConflict_of_verifiable hs.1.kept
        (verifiable_congr hs.1.bills hs.1.embedded hverifiable) hpostS
      exact latestConflictProofV3ForToken_eq_none.1 hnone row (htoken ▸ hopen)
    have hread : store.Looping row (s.latestConflictProofV3ForToken v bill.tokenId).2 :=
      looping_latest hs.1 fun _ => hverifiable
    refine ⟨⟨looping_settleRow hread bill, fun other hin hsame hsettled => ?_⟩, hother⟩
    rcases mem_settleRow hin with hold | ⟨old, hold, hhash, -, rfl⟩
    · rw [(dropsConflicts_latest _ _ bill.tokenId).bills] at hold
      exact hs.2 other hold hsame hsettled
    · obtain ⟨candidate, hcandidate, rfl, -⟩ := exists_row_of_candidate hbill
      have hin : candidate.bill ∈ (s.latestConflictProofV3ForToken v
          candidate.bill.tokenId).2.bills.map BillRow.bill :=
        hread.bills ▸ List.mem_map.2 ⟨candidate, hcandidate, rfl⟩
      obtain ⟨same, hsameRow, hbillEq⟩ := List.mem_map.1 hin
      have heq := hread.keyed.bill_eq hold hsameRow (hhash.trans (hbillEq ▸ rfl))
      rw [heq] at hsame
      exact absurd (hbillEq ▸ hsame) hother
  · intro s bill _ hother compact hcompact _ hs other hin hsame hsettled
    rcases mem_storeBillV3Conn.1 hin with ⟨hold, -⟩ | rfl
    · exact hs other hold hsame hsettled
    · exact absurd (hcompact.2.2.2.1.symm.trans hsame) hother

/-! ## Runs -/

/-- Evidence that survives: the proof is stored, and while it verifies and no settled row is at or above
    it, a bill of the token that is not settled is neither accepted nor settled. -/
structure Survives (row : ConflictRow) (store : LocalStore) : Prop where
  kept : row ∈ store.conflicts
  unaccepted : ∀ v owner record now, store.Verifiable v row →
    store.isPostSettlementConflictV3 row.proof = false →
    store.confidenceRow row.proof.tokenId owner = some record → record.status ≠ .settled →
      (store.billV3Confidence v row.proof.tokenId owner 0 now).1.accepted = false
  unsettled : ∀ v f now, store.Verifiable v row →
    store.isPostSettlementConflictV3 row.proof = false →
      store.SettlesNone row (store.finalizePending v f now)

/-- A stored proof survives every run in which the calls that read it find the mirrors. -/
theorem survives_of_reaches {store' : LocalStore} (hreach : store.Reachable)
    (hrow : row ∈ store.conflicts) (hrun : Runs.Reaches step (ReadsVerify row) store store') :
    Survives row store' := by
  have hstep : ∀ s event s', s.Keyed ∧ row ∈ s.conflicts → ReadsVerify row s event →
      step s event = some s' → s'.Keyed ∧ row ∈ s'.conflicts := by
    intro s event s' hs hreads hstep
    refine ⟨keyed_step hs.1 hstep, ?_⟩
    obtain ⟨-, rfl⟩ := step_eq hstep
    exact mem_call hs.1 hs.2 event.call hreads
  have hkept := hrun.invariant hstep ⟨hreach.keyed, hrow⟩
  exact ⟨hkept.2, fun v owner record now hverifiable hpost hrecord hunsettled =>
      not_accepted_of_open hkept.2 hverifiable hpost hrecord hunsettled,
    fun v f now hverifiable hpost => settlesNone_finalizePending hkept.1 hkept.2 hverifiable hpost f⟩

/-- The conflict of the two sample announcements. -/
def sampleConflict : ConflictRow where
  proof := {
    tokenId := "t"
    previousHash := "p"
    sequence := 1
    senderAddress := "A"
    spendKey := "k"
    transferHashA := "x"
    transferHashB := "y"
    detectedAt := 20
    proofHash := "xy" }
  detectedAt := 20

/-- The conflict survives a status lookup while the mirrors are reachable. -/
theorem survives_statusLookup : Survives sampleConflict
    ((step (sampleStore sampleFork) ⟨30, .statusLookup everythingVerifies "t"⟩).getD
      (sampleStore [])) := by
  have hreach : (sampleStore sampleFork).Reachable := reachable_sampleStore (by decide)
  refine survives_of_reaches hreach (by decide)
    (Runs.Reaches.refl.next (e := ⟨30, .statusLookup everythingVerifies "t"⟩) ?_ rfl)
  intro v hreads
  cases hreads with
  | statusLookup => exact conflictRowHolds_iff.1 (by decide)

/-- A verification during an outage: no bill verifies. -/
def mirrorsDown : Verification :=
  { everythingVerifies with verifyBill := fun _ _ => false }

/-- One status lookup during an outage deletes the proof, and every bill stays stored. -/
theorem not_survives_outage : ¬ ∀ (row : ConflictRow) (v : Verification) (store store' : LocalStore),
    store.Reachable → row ∈ store.conflicts → store.Verifiable v row →
      Runs.Reaches step (fun _ _ => True) store store' → store'.bills = store.bills →
        row ∈ store'.conflicts := by
  intro h
  have hstep : step (sampleStore sampleFork) ⟨30, .statusLookup mirrorsDown "t"⟩
      = some (sampleStore (sampleFork ++ [⟨30, .statusLookup mirrorsDown "t"⟩])) := by decide
  have hkept := h sampleConflict everythingVerifies _ _ (reachable_sampleStore (by decide))
    (by decide) (conflictRowHolds_iff.1 (by decide)) (Runs.Reaches.refl.next trivial hstep) (by decide)
  exact absurd hkept (by decide)

end LocalStore
