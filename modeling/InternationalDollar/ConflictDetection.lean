import InternationalDollar.ConflictEvidence

set_option autoImplicit false

/-! # Detecting double spends

An announcement is compared with every stored bill of its token. The comparison verifies both bills
under the operator key of the incoming one and looks at recent transfers only, so that a fork stays
undetected when the stored bill was proven by another operator or when either side has the fork behind
its checkpoint. Where neither happens, two stored bills that fork leave a conflict proof. -/

namespace LocalStore

variable {store : LocalStore} {v : Verification} {now : Int}

/-! ## Forks of bills -/

/-- Two bills contain transfers that spend one state in two ways. -/
def ForkWith (a b : StoreBill) : Prop :=
  ∃ t ∈ a.transfers, ∃ u ∈ b.transfers, Forks t u

instance (a b : StoreBill) : Decidable (ForkWith a b) :=
  inferInstanceAs (Decidable (∃ _ ∈ _, _))

theorem ForkWith.symm {a b : StoreBill} (h : ForkWith a b) : ForkWith b a := by
  obtain ⟨t, ht, u, hu, hkey, hhash⟩ := h
  exact ⟨u, hu, t, ht, hkey.symm, hhash.symm⟩

theorem transfers_compact {bill compact : StoreBill} (h : isCompactCopy bill compact) :
    compact.transfers = bill.transfers := by
  obtain ⟨-, harchived, hrecent, -⟩ := h
  unfold StoreBill.transfers at harchived ⊢
  rw [harchived, hrecent, List.append_nil]

/-- A compaction moves no fork. -/
theorem forkWith_compact {bill compact other : StoreBill} (h : isCompactCopy bill compact) :
    ForkWith other compact ↔ ForkWith other bill := by
  unfold ForkWith
  rw [transfers_compact h]

/-! ## What an announcement is compared with -/

/-- The key under which a stored bill and an incoming one are verified. -/
def comparisonKey (store : LocalStore) (a : Announcement) (row : BillRow) : Option String :=
  ((store.trustedOperatorKey a.bundleOperatorKey).or
    (store.trustedOperatorKey a.bill.operatorPublicKey)).or
      (store.trustedOperatorKey row.bill.operatorPublicKey)

/-- Spend keys commit to the state that they spend. -/
def SpendKeysCommit (a b : StoreBill) : Prop :=
  ∀ t ∈ a.recentTransfers, ∀ u ∈ b.recentTransfers, t.spendKey = u.spendKey →
    t.sequence = u.sequence ∧ t.previousHash = u.previousHash ∧ t.senderAddress = u.senderAddress

instance (a b : StoreBill) : Decidable (SpendKeysCommit a b) :=
  inferInstanceAs (Decidable (∀ _ ∈ _, _))

theorem createConflictProof_ne_none {key : Option String} {a b : StoreBill}
    (ha : v.verifyBill key a = true) (hb : v.verifyBill key b = true) (htoken : a.tokenId = b.tokenId)
    (hkeys : SpendKeysCommit a b)
    (hfork : ∃ t ∈ a.recentTransfers, ∃ u ∈ b.recentTransfers, Forks t u) :
    createConflictProof v key a b now ≠ none := by
  have hpair : ∃ pair, findConflictingTransferPair a b = some pair := by
    obtain ⟨t, ht, u, hu, hforks⟩ := hfork
    refine Option.isSome_iff_exists.1 (List.findSome?_isSome_iff.2 ⟨u, hu, ?_⟩)
    rw [Option.isSome_map, List.find?_isSome]
    exact ⟨t, ht, decide_eq_true hforks⟩
  obtain ⟨⟨t, u⟩, hpair⟩ := hpair
  obtain ⟨ht, hu, hforks⟩ := findConflictingTransferPair_eq_some hpair
  obtain ⟨hsequence, hprevious, hsender⟩ := hkeys t ht u hu hforks.1
  have htokens : t.tokenId = u.tokenId :=
    (a.transfers_token t (List.mem_append_right _ ht)).trans
      (htoken.trans (b.transfers_token u (List.mem_append_right _ hu)).symm)
  unfold createConflictProof
  rw [if_pos ⟨ha, hb, htoken⟩, hpair]
  show createConflictProofFromTransfers v t u now ≠ none
  unfold createConflictProofFromTransfers
  rw [if_pos ⟨htokens, hsequence, hprevious, hsender, hforks.1, hforks.2⟩]
  simp

/-- The comparison tries every stored bill of the token, the tip cache notwithstanding. -/
theorem createConflictProof_eq_none (hkeyed : store.Keyed) {a : Announcement}
    (hnone : store.foundConflict v a now = none) {row : BillRow} (hrow : row ∈ store.bills)
    (htoken : row.bill.tokenId = a.bill.tokenId) (hhash : row.bill.billHash ≠ a.bill.billHash) :
    createConflictProof v (store.comparisonKey a row) row.bill a.bill now = none := by
  unfold foundConflict findConflictingBillV3 at hnone
  dsimp only at hnone
  have hall : row ∈ store.tipCandidates a.bill ++ Select.orderBy recentOrder
      (store.bills.filter fun row => row.bill.tokenId = a.bill.tokenId) := by
    refine List.mem_append_right _ (Select.mem_orderBy.2 (List.mem_filter.2 ⟨hrow, ?_⟩))
    exact decide_eq_true htoken
  obtain ⟨tried, htried, hsame⟩ := exists_mem_dedupBy (fun row : BillRow => row.bill.billHash)
    [a.bill.billHash] hall (by rwa [List.mem_singleton])
  have hin := mem_of_tried (mem_of_mem_dedupBy htried)
  rw [hkeyed.bill_eq hin hrow hsame] at htried
  exact List.findSome?_eq_none_iff.1 hnone row htried

/-! ## The invariant -/

/-- No stored bill forks with itself, and two that fork have a stored conflict proof. -/
structure Watched (store : LocalStore) : Prop where
  keyed : store.Keyed
  selfless : ∀ row ∈ store.bills, ¬ ForkWith row.bill row.bill
  detected : ∀ row ∈ store.bills, ∀ other ∈ store.bills, row.bill.tokenId = other.bill.tokenId →
    ForkWith row.bill other.bill → ∃ conflict ∈ store.conflicts,
      conflict.proof.tokenId = row.bill.tokenId

/-- A bill may be written if each stored bill that it forks with has a conflict proof. -/
theorem Watched.storeBillV3Conn (h : store.Watched) {bill : StoreBill} (status : BillStatus)
    (hself : ¬ ForkWith bill bill)
    (hdetected : ∀ row ∈ store.bills, row.bill.tokenId = bill.tokenId → ForkWith row.bill bill →
      ∃ conflict ∈ store.conflicts, conflict.proof.tokenId = row.bill.tokenId) :
    (store.storeBillV3Conn bill status now).Watched := by
  refine ⟨keyed_storeBillV3Conn h.keyed bill status, fun row hrow => ?_,
    fun row hrow other hother htoken hfork => ?_⟩
  · rcases mem_storeBillV3Conn.1 hrow with ⟨hold, -⟩ | rfl
    · exact h.selfless row hold
    · exact hself
  · rcases mem_storeBillV3Conn.1 hrow with ⟨hold, -⟩ | rfl
    · rcases mem_storeBillV3Conn.1 hother with ⟨hold', -⟩ | rfl
      · exact h.detected row hold other hold' htoken hfork
      · exact hdetected row hold htoken hfork
    · rcases mem_storeBillV3Conn.1 hother with ⟨hold', -⟩ | rfl
      · obtain ⟨conflict, hconflict, hsame⟩ := hdetected other hold' htoken.symm hfork.symm
        exact ⟨conflict, hconflict, hsame.trans htoken.symm⟩
      · exact absurd hfork hself

/-- The bills of the second store have the transfers of bills of the first one, and no conflict proof is
    lost. -/
structure Reworked (store s : LocalStore) : Prop where
  keyed : s.Keyed
  bills : ∀ row ∈ s.bills, ∃ old ∈ store.bills, old.bill.tokenId = row.bill.tokenId ∧
    old.bill.transfers = row.bill.transfers
  conflicts : ∀ conflict ∈ store.conflicts, conflict ∈ s.conflicts

theorem Watched.of_reworked (h : store.Watched) {s : LocalStore} (hs : store.Reworked s) :
    s.Watched := by
  refine ⟨hs.keyed, fun row hrow hself => ?_, fun row hrow other hother htoken hfork => ?_⟩
  · obtain ⟨old, hold, -, htransfers⟩ := hs.bills row hrow
    unfold ForkWith at hself
    rw [← htransfers] at hself
    exact h.selfless old hold hself
  · obtain ⟨a, ha, hatoken, hatransfers⟩ := hs.bills row hrow
    obtain ⟨b, hb, hbtoken, hbtransfers⟩ := hs.bills other hother
    unfold ForkWith at hfork
    rw [← hatransfers, ← hbtransfers] at hfork
    obtain ⟨conflict, hconflict, hsame⟩ :=
      h.detected a ha b hb (hatoken.trans (htoken.trans hbtoken.symm)) hfork
    exact ⟨conflict, hs.conflicts conflict hconflict, hsame.trans hatoken⟩

theorem reworked_of_bills {s : LocalStore} (hkeyed : s.Keyed)
    (hbills : s.bills.map BillRow.bill = store.bills.map BillRow.bill)
    (hconflicts : ∀ conflict ∈ store.conflicts, conflict ∈ s.conflicts) : store.Reworked s := by
  refine ⟨hkeyed, fun row hrow => ?_, hconflicts⟩
  obtain ⟨old, hold, heq⟩ := List.mem_map.1 (hbills ▸ List.mem_map.2 ⟨row, hrow, rfl⟩)
  exact ⟨old, hold, congrArg _ heq, congrArg _ heq⟩

/-- The copy of a stored bill has its transfers. -/
theorem Reworked.storeCompact {s : LocalStore} (hs : store.Reworked s) {bill compact : StoreBill}
    (status : BillStatus) (hstored : ∃ row ∈ store.bills, row.bill = bill)
    (hcompact : isCompactCopy bill compact) :
    store.Reworked (s.storeBillV3Conn compact status now) := by
  refine ⟨keyed_storeBillV3Conn hs.keyed compact status, fun row hrow => ?_, hs.conflicts⟩
  rcases mem_storeBillV3Conn.1 hrow with ⟨hold, -⟩ | rfl
  · exact hs.bills row hold
  · obtain ⟨stored, hin, rfl⟩ := hstored
    exact ⟨stored, hin, hcompact.2.2.2.1.symm, (transfers_compact hcompact).symm⟩

/-! ## Calls that detect -/

/-- An announcement whose forks are seen. Hashes and spend keys do not collide and the bill itself does
    not fork; the stored conflict proofs of the token verify; and, while the token has no open conflict,
    each stored bill that forks with the incoming one verifies under the key of the comparison, with a
    fork among the recent transfers of both. -/
structure AnnouncementDetects (store : LocalStore) (v : Verification) (a : Announcement) (now : Int) :
    Prop where
  hashes : ∀ row ∈ store.bills, row.bill.billHash = a.bill.billHash → row.bill = a.bill
  proofs : ∀ conflict ∈ store.conflicts, ∀ proof, store.foundConflict v a now = some proof →
    conflict.proof.proofHash = proof.proofHash → conflict.proof.tokenId = proof.tokenId
  spendKeys : ∀ row ∈ store.bills, SpendKeysCommit row.bill a.bill
  selfless : ¬ ForkWith a.bill a.bill
  reads : ∀ conflict ∈ store.conflicts, conflict.proof.tokenId = a.bill.tokenId →
    store.Verifiable v conflict
  seen : (∀ conflict, ¬ store.OpenConflict v a.bill.tokenId conflict) → ∀ row ∈ store.bills,
    row.bill.tokenId = a.bill.tokenId → ForkWith row.bill a.bill →
      v.verifyBill (store.comparisonKey a row) row.bill = true ∧
        v.verifyBill (store.comparisonKey a row) a.bill = true ∧
          ∃ t ∈ row.bill.recentTransfers, ∃ u ∈ a.bill.recentTransfers, Forks t u

/-- The steps of the run: announcements whose forks are seen, settlements, proofs from peers and reads,
    all while the stored proofs verify. -/
def StepDetects (store : LocalStore) (event : Event) : Prop :=
  match event.call with
  | .announcement v a =>
      v.verifyBill (store.trustedOperatorKey a.bundleOperatorKey) a.bill = true →
        AnnouncementDetects store v a event.now
  | .syncRecord _ _ | .cachedBill _ _ | .discard _ => False
  | .conflictProof _ _ _ => True
  | .finalize _ _ | .statusLookup _ _ | .messages _ _ =>
      ∀ conflict ∈ store.conflicts, ReadsVerify conflict store event

/-- Where nothing is found, no stored bill forks with the incoming one. -/
theorem AnnouncementDetects.not_fork {a : Announcement} (h : AnnouncementDetects store v a now)
    (hkeyed : store.Keyed) (hclear : ∀ conflict, ¬ store.OpenConflict v a.bill.tokenId conflict)
    (hnone : store.foundConflict v a now = none) {row : BillRow} (hrow : row ∈ store.bills)
    (htoken : row.bill.tokenId = a.bill.tokenId) : ¬ ForkWith row.bill a.bill := by
  intro hfork
  by_cases hhash : row.bill.billHash = a.bill.billHash
  · rw [h.hashes row hrow hhash] at hfork
    exact h.selfless hfork
  · obtain ⟨hstored, hincoming, hrecent⟩ := h.seen hclear row hrow htoken hfork
    exact createConflictProof_ne_none hstored hincoming htoken (h.spendKeys row hrow) hrecent
      (createConflictProof_eq_none hkeyed hnone hrow htoken hhash)

/-- A conflict that is kept leaves a proof of its token. -/
theorem exists_conflict_of_stored {proof : ConflictProof} {record : ConflictRecord} {mid : LocalStore}
    (hstored : StoredConflict store v proof now record mid) (hkept : record.ignored = false)
    (hproofs : ∀ conflict ∈ store.conflicts, conflict.proof.proofHash = proof.proofHash →
      conflict.proof.tokenId = proof.tokenId) :
    ∃ conflict ∈ mid.conflicts, conflict.proof.tokenId = proof.tokenId := by
  cases hstored with
  | ignored => exact absurd hkept (by decide)
  | known _ row hrow hkey =>
    have htoken : ∀ p : ConflictProof, p.conflictKey.1 = p.tokenId := by
      intro p
      unfold ConflictProof.conflictKey
      split
      · rfl
      · rfl
    exact ⟨row, hrow, (htoken row.proof).symm.trans ((congrArg Prod.fst hkey).trans (htoken proof))⟩
  | inserted =>
    unfold insertConflict
    split
    · next hany =>
      obtain ⟨row, hrow, hhash⟩ := List.any_eq_true.1 hany
      exact ⟨row, hrow, hproofs row hrow (of_decide_eq_true hhash)⟩
    · exact ⟨⟨proof, now⟩, List.mem_append_right _ (List.mem_singleton.2 rfl), rfl⟩

theorem Watched.recordSubmission (h : store.Watched) (bill : StoreBill) (rows : List TransferLogRow) :
    (store.recordSubmission bill rows).Watched := by
  obtain ⟨log, heq⟩ := recordSubmission_frame store bill rows
  rw [heq]
  exact ⟨⟨h.keyed.bills, h.keyed.conflicts⟩, h.selfless, h.detected⟩

theorem Watched.maybeCompactBillV3 (h : store.Watched) {bill : StoreBill} (copy : Option StoreBill)
    (status : BillStatus) (hstored : ∃ row ∈ store.bills, row.bill = bill) :
    (store.maybeCompactBillV3 bill copy status now).Watched := by
  rcases maybeCompactBillV3_cases store now bill copy status with
    heq | ⟨compact, -, hcompact, heq⟩
  · rwa [heq]
  · rw [heq]
    exact h.of_reworked ((reworked_of_bills h.keyed rfl fun _ hin => hin).storeCompact status hstored
      hcompact)

theorem Watched.storedConflict (h : store.Watched) {proof : ConflictProof} {record : ConflictRecord}
    {mid : LocalStore} (hstored : StoredConflict store v proof now record mid) : mid.Watched := by
  cases hstored with
  | ignored => exact h
  | known => exact h
  | inserted =>
    exact h.of_reworked (reworked_of_bills (keyed_insertConflict h.keyed _)
      (by rw [insertConflict_bills]) fun conflict hconflict => mem_insertConflict _ hconflict)

/-- An announcement whose forks are seen keeps the store watched. -/
theorem Watched.announcement (h : store.Watched) {a : Announcement}
    (hdetects : v.verifyBill (store.trustedOperatorKey a.bundleOperatorKey) a.bill = true →
      AnnouncementDetects store v a now) :
    (store.ingestTransferAnnouncementV3 v a now).2.Watched := by
  by_cases hverified : v.verifyBill (store.trustedOperatorKey a.bundleOperatorKey) a.bill = true
  swap
  · rw [ingestTransferAnnouncementV3_rejected (by simpa using hverified)]
    exact h
  have hdetects := hdetects hverified
  -- The lookup of the token keeps every proof, as they all verify.
  have hdrops := dropsConflicts_latest store v a.bill.tokenId
  have hkept : ∀ conflict ∈ store.conflicts,
      conflict ∈ (store.latestConflictProofV3ForToken v a.bill.tokenId).2.conflicts :=
    fun conflict hconflict => mem_latest h.keyed hconflict (hdetects.reads conflict hconflict)
  have hread : (store.latestConflictProofV3ForToken v a.bill.tokenId).2.Watched :=
    h.of_reworked (reworked_of_bills (keyed_drops h.keyed hdrops) (by rw [hdrops.bills]) hkept)
  have hsame := findConflictingBillV3_of_drops v now hdrops a.bill
    (store.trustedOperatorKey a.bundleOperatorKey)
  generalize hend : store.ingestTransferAnnouncementV3 v a now = result
  have hcases := ingestTransferAnnouncementV3_cases store v now a
  rw [hend] at hcases
  obtain ⟨answer, store'⟩ := result
  have hstore : ∀ status, (∀ conflict, ¬ store.OpenConflict v a.bill.tokenId conflict) →
      store.foundConflict v a now = none →
        (((store.latestConflictProofV3ForToken v a.bill.tokenId).2.recordSubmission a.bill
          a.logRows).storeBillV3Conn a.bill status now).Watched := by
    intro status hclear hnone
    obtain ⟨log, heq⟩ := recordSubmission_frame (store.latestConflictProofV3ForToken v a.bill.tokenId).2 a.bill a.logRows
    refine (hread.recordSubmission _ _).storeBillV3Conn status hdetects.selfless
      fun row hrow htoken hfork => ?_
    have hrow : row ∈ store.bills := by
      rw [heq] at hrow
      exact hdrops.bills ▸ hrow
    exact absurd hfork (hdetects.not_fork h.keyed hclear hnone hrow htoken)
  cases hcases with
  | rejected => exact h
  | inConflict row hopen =>
    refine hread.storeBillV3Conn .verified hdetects.selfless fun other _ htoken _ => ?_
    exact ⟨row, hkept row hopen.1, hopen.2.1.trans htoken.symm⟩
  | ignored => exact hread
  | conflict proof record mid _ hfound hstored hkeeps =>
    have hproofs : ∀ conflict ∈
        (store.latestConflictProofV3ForToken v a.bill.tokenId).2.conflicts,
        conflict.proof.proofHash = proof.proofHash → conflict.proof.tokenId = proof.tokenId :=
      fun conflict hconflict =>
        hdetects.proofs conflict (hdrops.mem hconflict) proof (hsame.symm.trans hfound)
    obtain ⟨conflict, hconflict, htoken⟩ := exists_conflict_of_stored hstored hkeeps hproofs
    have hproof := (findConflictingBillV3_eq_some hfound).1
    refine (hread.storedConflict hstored).storeBillV3Conn .verified hdetects.selfless
      fun other _ hother _ => ⟨conflict, hconflict, ?_⟩
    exact htoken.trans (hproof.trans hother.symm)
  | unlogged => exact h.recordSubmission _ _
  | pending hclear hfound => exact hstore .pending hclear (hsame.symm.trans hfound)
  | verified hclear hfound =>
    exact (hstore .verified hclear (hsame.symm.trans hfound)).maybeCompactBillV3 _ _
      ⟨_, storedRow_mem a.bill .verified, rfl⟩

/-- Settlements keep the store watched while the proofs that they read verify. -/
theorem Watched.finalizePending (h : store.Watched) (f : Finalization)
    (hreads : ∀ conflict ∈ store.conflicts, ∀ bill ∈
      store.pendingV3SettlementCandidates now f.bufferSeconds,
        conflict.proof.tokenId = bill.tokenId → store.Verifiable v conflict) :
    (store.finalizePending v f now).Watched := by
  refine h.of_reworked (finalizePending_keeps
    (P := fun s => (s.Keyed ∧ s.bills.map BillRow.bill = store.bills.map BillRow.bill) ∧
      ∀ conflict ∈ store.conflicts, store.Looping conflict s)
    (Q := store.Reworked) (R := fun _ => True) f
    ⟨⟨h.keyed, rfl⟩, fun conflict hconflict => looping_self h.keyed hconflict⟩ ?_ ?_ ?_ ?_ ?_)
  · intro s log hs
    refine ⟨⟨⟨hs.1.1.bills, hs.1.1.conflicts⟩, hs.1.2⟩, fun conflict hconflict => ?_⟩
    have hloop := hs.2 conflict hconflict
    exact ⟨hloop.kept, ⟨hloop.keyed.bills, hloop.keyed.conflicts⟩, hloop.bills, hloop.embedded⟩
  · intro s bill hbill hs
    have hdrops := dropsConflicts_latest s v bill.tokenId
    exact ⟨⟨keyed_drops hs.1.1 hdrops, by rw [hdrops.bills, hs.1.2]⟩, fun conflict hconflict =>
      looping_latest (hs.2 conflict hconflict) fun htoken =>
        hreads conflict hconflict bill hbill htoken⟩
  · intro s bill hbill hs _
    have hdrops := dropsConflicts_latest s v bill.tokenId
    refine ⟨⟨⟨keyed_settleRow (keyed_drops hs.1.1 hdrops) bill, ?_⟩, fun conflict hconflict => ?_⟩,
      trivial⟩
    · rw [settleRow_map_bill, hdrops.bills, hs.1.2]
    · exact looping_settleRow (looping_latest (hs.2 conflict hconflict) fun htoken =>
        hreads conflict hconflict bill hbill htoken) bill
  · exact fun s hs =>
      reworked_of_bills hs.1.1 hs.1.2 fun conflict hconflict => (hs.2 conflict hconflict).kept
  · intro s bill hbill _ compact hcompact _ hs
    obtain ⟨row, hrow, hsame, -⟩ := exists_row_of_candidate hbill
    exact hs.storeCompact .settled ⟨row, hrow, hsame⟩ hcompact

/-- A step of the run keeps the store watched. -/
theorem Watched.step (h : store.Watched) {event : Event} {store' : LocalStore}
    (hdetects : StepDetects store event) (hstep : store.step event = some store') :
    store'.Watched := by
  obtain ⟨-, rfl⟩ := step_eq hstep
  obtain ⟨now, c⟩ := event
  have hclock : ∀ s : LocalStore, s.Watched → { s with clock := now }.Watched := fun s hs =>
    ⟨⟨hs.keyed.bills, hs.keyed.conflicts⟩, hs.selfless, hs.detected⟩
  refine hclock _ ?_
  have hreworked : (∀ conflict ∈ store.conflicts, ReadsVerify conflict store ⟨now, c⟩) →
      (store.call now c).bills = store.bills → (store.call now c).Watched := by
    intro hreads hbills
    refine h.of_reworked (reworked_of_bills (keyed_call _ h.keyed c) (by rw [hbills]) ?_)
    exact fun conflict hconflict => mem_call h.keyed hconflict c (hreads conflict hconflict)
  cases c with
  | announcement v a => exact h.announcement hdetects
  | conflictProof v proof preverified =>
    show (store.ingestConflictProofV3 v proof preverified now).2.Watched
    unfold ingestConflictProofV3
    split
    · exact h
    · next record store' hconn =>
      have hmid := h.storedConflict (storeConflictProofV3Conn_cases hconn).2.2
      split
      · exact hmid
      · exact hmid
  | syncRecord => exact absurd hdetects id
  | cachedBill => exact absurd hdetects id
  | finalize v f =>
    exact h.finalizePending f fun conflict hconflict bill hbill htoken =>
      hdetects conflict hconflict v (.finalize v f bill hbill htoken)
  | discard => exact absurd hdetects id
  | statusLookup v tokenId => exact hreworked hdetects (dropsConflicts_latest _ _ tokenId).bills
  | messages v limit => exact hreworked hdetects (dropsConflicts_conflictMessages limit).bills

/-! ## Runs -/

/-- Whenever two stored bills of one token fork, a conflict proof of the token is stored or the token has
    a settled row at or above the fork. -/
def ForksDetected (store : LocalStore) : Prop :=
  ∀ row ∈ store.bills, ∀ other ∈ store.bills, row.bill.billHash ≠ other.bill.billHash →
    row.bill.tokenId = other.bill.tokenId → ∀ t ∈ row.bill.transfers, ∀ u ∈ other.bill.transfers,
      Forks t u → (∃ conflict ∈ store.conflicts, conflict.proof.tokenId = row.bill.tokenId) ∨
        ∃ settled ∈ store.bills, settled.bill.tokenId = row.bill.tokenId ∧
          settled.status = .settled ∧ t.sequence ≤ settled.bill.sequence

/-- In every run of announcements whose forks are seen, forks of stored bills are detected. -/
theorem forksDetected_of_reaches {quorum : Bool} {required : Nat} {embedded : Bool}
    (hrun : Runs.Reaches step StepDetects (initial quorum required embedded) store) :
    store.ForksDetected := by
  have hwatched : store.Watched := by
    refine hrun.invariant (fun s event s' hs hdetects hstep => hs.step hdetects hstep) ?_
    exact ⟨keyed_initial quorum required embedded, fun row hrow => absurd hrow List.not_mem_nil,
      fun row hrow => absurd hrow List.not_mem_nil⟩
  intro row hrow other hother _ htoken t ht u hu hforks
  exact Or.inl (hwatched.detected row hrow other hother htoken ⟨t, ht, u, hu, hforks⟩)

/-- Two announcements that fork in their recent transfers leave a conflict proof. -/
theorem forksDetected_sampleFork : (sampleStore sampleFork).ForksDetected := by
  have hfirst : step (initial false 0 false) ⟨10, .announcement everythingVerifies
      (sampleAnnouncement (sampleBill "b1" (sampleTransfer "B" "x") none))⟩
        = some (sampleStore (sampleFork.take 1)) := by decide
  have hsecond : step (sampleStore (sampleFork.take 1)) ⟨20, .announcement everythingVerifies
      (sampleAnnouncement (sampleBill "b2" (sampleTransfer "C" "y") none))⟩
        = some (sampleStore sampleFork) := by decide
  have hdetects : StepDetects (initial false 0 false) ⟨10, .announcement everythingVerifies
      (sampleAnnouncement (sampleBill "b1" (sampleTransfer "B" "x") none))⟩ := fun _ =>
    ⟨by decide, fun _ h => absurd h List.not_mem_nil, by decide, by decide,
      fun _ h => absurd h List.not_mem_nil, fun _ _ h => absurd h List.not_mem_nil⟩
  have hnone : (sampleStore (sampleFork.take 1)).conflicts = [] := by decide
  have hdetects' : StepDetects (sampleStore (sampleFork.take 1)) ⟨20, .announcement everythingVerifies
      (sampleAnnouncement (sampleBill "b2" (sampleTransfer "C" "y") none))⟩ := by
    refine fun _ => ⟨by decide, fun conflict h => ?_, by decide, by decide, fun conflict h => ?_,
      fun _ row hrow _ _ => ⟨rfl, rfl, ?_⟩⟩
    · rw [hnone] at h
      exact absurd h List.not_mem_nil
    · rw [hnone] at h
      exact absurd h List.not_mem_nil
    · revert row
      decide
  exact forksDetected_of_reaches ((Runs.Reaches.refl.next hdetects hfirst).next hdetects' hsecond)

/-- All bills and conflict proofs verify, under every key. -/
def VerifiesAlone (_ : LocalStore) (event : Event) : Prop :=
  ∃ v a, event.call = .announcement v a ∧ (∀ key bill, v.verifyBill key bill = true) ∧
    ∀ proof, v.verifyConflictProof proof = true

/-- A bill that has the first transfer of the token behind its checkpoint and a second one on top. -/
def sampleExtended : StoreBill :=
  { sampleBill "b3" { sampleTransfer "D" "z" with
      previousHash := "x", sequence := 2, senderAddress := "B", spendKey := "l" } none with
    archivedTransfers := [sampleTransfer "B" "x"]
    transfers_token := by decide
    transfers_sequence := by decide }

/-- The extended bill, and then a transfer that forks with its archived one: nothing is found. -/
theorem not_forksDetected : ¬ ∀ store : LocalStore,
    Runs.Reaches step VerifiesAlone (initial false 0 false) store → store.ForksDetected := by
  intro h
  have hexec : Runs.exec step (initial false 0 false)
      [⟨10, .announcement everythingVerifies (sampleAnnouncement sampleExtended)⟩,
        ⟨20, .announcement everythingVerifies
          (sampleAnnouncement (sampleBill "b2" (sampleTransfer "C" "y") none))⟩]
      = some (sampleStore
        [⟨10, .announcement everythingVerifies (sampleAnnouncement sampleExtended)⟩,
          ⟨20, .announcement everythingVerifies
            (sampleAnnouncement (sampleBill "b2" (sampleTransfer "C" "y") none))⟩]) := by decide
  have hdetected := h _ (Runs.reaches_of_exec hexec (Runs.meetsAll_of_forall fun s event hevent => by
    simp only [List.mem_cons, List.not_mem_nil, or_false] at hevent
    rcases hevent with rfl | rfl
    · exact ⟨_, _, rfl, fun _ _ => rfl, fun _ => rfl⟩
    · exact ⟨_, _, rfl, fun _ _ => rfl, fun _ => rfl⟩))
  have hoff := hdetected ⟨sampleExtended, 10, 10, .verified⟩ (by decide)
    ⟨sampleBill "b2" (sampleTransfer "C" "y") none, 20, 20, .verified⟩ (by decide) (by decide)
    (by decide) (sampleTransfer "B" "x") (by decide) (sampleTransfer "C" "y") (by decide) (by decide)
  revert hoff
  decide

end LocalStore