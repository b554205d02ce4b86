import InternationalDollar.SpendViews

set_option autoImplicit false

/-! # A settled bill

A settled row is written again when its bill comes back, from gossip or from a peer. The ranks of
"verified" and "settled" are equal, so that a write as "verified" takes the settlement back. A bill of
the token with a larger sequence makes the settled one unspendable, whether it spends its tip or not.
Without such writes the settlement stays. -/

namespace LocalStore

variable {store : LocalStore} {v : Verification} {now : Int} {bill : StoreBill}

/-- The transfers of a bill spend the tip of a settled bill. -/
def SpendsTip (settled bill : StoreBill) : Prop :=
  ∃ transfer ∈ bill.transfers, transfer.previousHash = settled.lastTransferHash ∧
    transfer.sequence = settled.sequence + 1

instance (settled bill : StoreBill) : Decidable (SpendsTip settled bill) :=
  inferInstanceAs (Decidable (∃ _ ∈ _, _))

theorem spendsTip_compact {copy : StoreBill} {other : StoreBill} (hcompact : isCompactCopy bill copy)
    (h : SpendsTip other bill) : SpendsTip other copy := by
  obtain ⟨transfer, htransfer, hspends⟩ := h
  obtain ⟨-, harchived, -⟩ := hcompact
  exact ⟨transfer, List.mem_append_left _ (harchived ▸ htransfer), hspends⟩

/-! ## The invariant -/

/-- A settled bill is settled, every longer bill of its token spends its tip, and no conflict proof at
    or below it was added. -/
structure Settlement (bill : StoreBill) (known : List ConflictRow) (store : LocalStore) : Prop where
  keyed : store.Keyed
  settled : ∃ row ∈ store.bills, row.bill = bill ∧ row.status = .settled
  longer : ∀ row ∈ store.bills, row.bill.tokenId = bill.tokenId →
    bill.sequence < row.bill.sequence → SpendsTip bill row.bill
  conflicts : ∀ row ∈ store.conflicts, row.proof.tokenId = bill.tokenId →
    row.proof.sequence ≤ bill.sequence → row ∈ known

variable {known : List ConflictRow}

/-- A proof at or below the settled bill is passed over. -/
theorem Settlement.postSettlement (h : Settlement bill known store) {proof : ConflictProof}
    (htoken : proof.tokenId = bill.tokenId) (hsequence : proof.sequence ≤ bill.sequence) :
    store.isPostSettlementConflictV3 proof = true := by
  obtain ⟨row, hrow, rfl, hsettled⟩ := h.settled
  exact List.any_eq_true.2 ⟨row, hrow, decide_eq_true ⟨htoken.symm, hsettled, hsequence⟩⟩

theorem Settlement.lt_sequence (h : Settlement bill known store) {proof : ConflictProof}
    (hpost : store.isPostSettlementConflictV3 proof = false) (htoken : proof.tokenId = bill.tokenId) :
    bill.sequence < proof.sequence := by
  by_contra hle
  rw [h.postSettlement htoken (not_lt.1 hle)] at hpost
  exact absurd hpost (by decide)

theorem Settlement.drops {store' : LocalStore} (h : Settlement bill known store)
    (hdrops : store.DropsConflicts store') : Settlement bill known store' := by
  have hkeyed := keyed_drops h.keyed hdrops
  obtain ⟨kept, rfl, hkept⟩ := hdrops
  exact ⟨hkeyed, h.settled, h.longer, fun row hrow => h.conflicts row (hkept.subset hrow)⟩

theorem Settlement.log (h : Settlement bill known store) (log : List TransferLogRow) :
    Settlement bill known { store with transferLog := log } :=
  ⟨⟨h.keyed.bills, h.keyed.conflicts⟩, h.settled, h.longer, h.conflicts⟩

theorem Settlement.recordSubmission (h : Settlement bill known store) (other : StoreBill)
    (rows : List TransferLogRow) : Settlement bill known (store.recordSubmission other rows) := by
  obtain ⟨log, heq⟩ := recordSubmission_frame store other rows
  rw [heq]
  exact h.log log

/-- A bill that may be written: not the settled one as "verified", and no longer one that does not spend
    its tip. -/
structure MayStore (settled other : StoreBill) (status : BillStatus) : Prop where
  same : other.billHash = settled.billHash → other = settled ∧ status ≠ .verified
  longer : other.tokenId = settled.tokenId → settled.sequence < other.sequence →
    SpendsTip settled other

theorem Settlement.storeBillV3Conn (h : Settlement bill known store) {other : StoreBill}
    {status : BillStatus} (hmay : MayStore bill other status) :
    Settlement bill known (store.storeBillV3Conn other status now) := by
  refine ⟨keyed_storeBillV3Conn h.keyed other status, ?_, fun row hrow => ?_, h.conflicts⟩
  · obtain ⟨row, hrow, hbill, hsettled⟩ := h.settled
    by_cases hsame : other.billHash = bill.billHash
    · obtain ⟨rfl, hstatus⟩ := hmay.same hsame
      refine ⟨_, storedRow_mem other status, rfl, ?_⟩
      -- The row that is replaced is the settled one, and the incoming status does not beat it.
      have hfound := h.keyed.find?_eq hrow
      rw [hbill] at hfound
      unfold storedRow strongerBillV3Status
      dsimp only
      rw [hfound, Option.map_some, hsettled]
      cases status with
      | pending => rfl
      | verified => exact absurd rfl hstatus
      | settled => rfl
    · refine ⟨row, mem_storeBillV3Conn.2 (Or.inl ⟨hrow, fun heq => hsame ?_⟩), hbill, hsettled⟩
      exact heq.symm.trans (congrArg StoreBill.billHash hbill)
  · rcases mem_storeBillV3Conn.1 hrow with ⟨hold, -⟩ | rfl
    · exact h.longer row hold
    · exact hmay.longer

theorem Settlement.maybeCompactBillV3 (h : Settlement bill known store) {other : StoreBill}
    {copy : Option StoreBill} {status : BillStatus}
    (hmay : ∀ compact ∈ copy, isCompactCopy other compact → MayStore bill compact status) :
    Settlement bill known (store.maybeCompactBillV3 other copy status now) := by
  rcases maybeCompactBillV3_cases store now other copy status with
    heq | ⟨compact, hsome, hcompact, heq⟩
  · rwa [heq]
  · rw [heq]
    exact h.storeBillV3Conn (hmay compact hsome hcompact)

theorem Settlement.insertConflict (h : Settlement bill known store) {row : ConflictRow}
    (hpost : store.isPostSettlementConflictV3 row.proof = false) :
    Settlement bill known (store.insertConflict row) := by
  have hkeyed := keyed_insertConflict h.keyed row
  rcases insertConflict_cases store row with heq | ⟨-, heq⟩
  · rwa [heq]
  · rw [heq] at hkeyed ⊢
    refine ⟨hkeyed, h.settled, h.longer, fun other hother htoken hsequence => ?_⟩
    rcases List.mem_append.1 hother with hold | hnew
    · exact h.conflicts other hold htoken hsequence
    · rw [List.mem_singleton.1 hnew] at htoken hsequence
      exact absurd hsequence (not_le.2 (h.lt_sequence hpost htoken))

theorem Settlement.storedConflict (h : Settlement bill known store) {proof : ConflictProof}
    {record : ConflictRecord} {mid : LocalStore}
    (hstored : StoredConflict store v proof now record mid) : Settlement bill known mid := by
  cases hstored with
  | ignored => exact h
  | known => exact h
  | inserted hpost => exact h.insertConflict hpost

theorem Settlement.settleRow (h : Settlement bill known store) (other : StoreBill) :
    Settlement bill known (store.settleRow other now) := by
  refine ⟨keyed_settleRow h.keyed other, ?_, fun row hrow => ?_, h.conflicts⟩
  · obtain ⟨row, hrow, hbill, hsettled⟩ := h.settled
    refine ⟨row, List.mem_map.2 ⟨row, hrow, if_neg ?_⟩, hbill, hsettled⟩
    rw [hsettled]
    exact fun hpending => BillStatus.noConfusion hpending.2
  · rcases mem_settleRow hrow with hold | ⟨old, hold, -, -, rfl⟩
    · exact h.longer row hold
    · exact h.longer old hold

theorem Settlement.discard (h : Settlement bill known store) {kept : List BillRow}
    (hkept : kept.Sublist store.bills)
    (hsettled : ∀ row ∈ store.bills, row.status = .settled → row ∈ kept) :
    Settlement bill known { store with bills := kept } := by
  obtain ⟨row, hrow, hbill, hstatus⟩ := h.settled
  exact ⟨⟨h.keyed.bills.sublist (hkept.map _), h.keyed.conflicts⟩,
    ⟨row, hsettled row hrow hstatus, hbill, hstatus⟩,
    fun other hother => h.longer other (hkept.subset hother), h.conflicts⟩

/-! ## Calls that leave the settlement alone -/

/-- An announcement beside a settled bill. The settled bill itself does not come back while its token has
    an open conflict, or without a settlement quorum where it would be written as "verified"; a longer
    bill spends its tip, or is found to conflict with it. -/
structure AnnouncementKeeps (settled : StoreBill) (store : LocalStore) (v : Verification)
    (a : Announcement) (now : Int) : Prop where
  same : a.bill.billHash = settled.billHash → a.bill = settled ∧
    (∀ row, ¬ store.OpenConflict v settled.tokenId row) ∧
      (store.settlementQuorumEnabled = true ∨ a.submitted = false ∨
        store.foundConflict v a now ≠ none)
  longer : a.bill.tokenId = settled.tokenId → settled.sequence < a.bill.sequence →
    SpendsTip settled a.bill ∨ (∀ row, ¬ store.OpenConflict v settled.tokenId row) ∧
      ∃ proof, store.foundConflict v a now = some proof ∧ proof.sequence ≤ settled.sequence
  copy : store.settlementQuorumEnabled = false → ∀ compact ∈ a.compactCopy,
    compact.billHash ≠ settled.billHash

/-- The calls that leave a settled bill alone. -/
def CallKeeps (settled : StoreBill) (store : LocalStore) (now : Int) : Call → Prop
  | .announcement v a =>
      v.verifyBill (store.trustedOperatorKey a.bundleOperatorKey) a.bill = true →
        AnnouncementKeeps settled store v a now
  | .syncRecord v record =>
      v.verifyBill (store.trustedOperatorKey record.bundleOperatorKey) record.bill = true →
        MayStore settled record.bill record.billStatus ∧
          ∀ compact ∈ record.compactCopy, compact.billHash = settled.billHash →
            compact = settled ∧ record.billStatus ≠ .verified
  | .cachedBill bill status => MayStore settled bill status
  | .finalize _ f =>
      ∀ bill ∈ store.pendingV3SettlementCandidates now f.bufferSeconds,
        ∀ compact ∈ f.compactCopy bill, compact.billHash = settled.billHash → compact = settled
  | .conflictProof _ _ _ | .discard _ | .statusLookup _ _ | .messages _ _ => True

/-- The copy of a bill that may be written may be written. -/
theorem MayStore.compact {settled compact : StoreBill} {status : BillStatus}
    (hlonger : bill.tokenId = settled.tokenId → settled.sequence < bill.sequence →
      SpendsTip settled bill) (hcompact : isCompactCopy bill compact)
    (hsame : compact.billHash = settled.billHash → compact = settled ∧ status ≠ .verified) :
    MayStore settled compact status := by
  refine ⟨hsame, fun htoken hsequence => spendsTip_compact hcompact ?_⟩
  obtain ⟨-, -, -, htoken', -, -, hsequence', -⟩ := hcompact
  exact hlonger (htoken'.symm.trans htoken) (hsequence' ▸ hsequence)

/-- No conflict at or below the settled bill is kept. -/
theorem Settlement.sequence_of_kept (h : Settlement bill known store) {proof : ConflictProof}
    {record : ConflictRecord} {mid : LocalStore}
    (hstored : StoredConflict store v proof now record mid) (hkept : record.ignored = false)
    (htoken : proof.tokenId = bill.tokenId) : bill.sequence < proof.sequence := by
  cases hstored with
  | ignored => exact absurd hkept (by decide)
  | known hpost => exact h.lt_sequence hpost htoken
  | inserted hpost => exact h.lt_sequence hpost htoken

theorem Settlement.announcement (h : Settlement bill known store) {a : Announcement}
    (hkeeps : v.verifyBill (store.trustedOperatorKey a.bundleOperatorKey) a.bill = true →
      AnnouncementKeeps bill store v a now) :
    Settlement bill known (store.ingestTransferAnnouncementV3 v a now).2 := by
  by_cases hverified : v.verifyBill (store.trustedOperatorKey a.bundleOperatorKey) a.bill = true
  swap
  · rw [ingestTransferAnnouncementV3_rejected (by simpa using hverified)]
    exact h
  have hkeeps := hkeeps hverified
  have hread := h.drops (dropsConflicts_latest _ v a.bill.tokenId)
  have hsame := findConflictingBillV3_of_drops v now
    (dropsConflicts_latest store v a.bill.tokenId) a.bill
    (store.trustedOperatorKey a.bundleOperatorKey)
  generalize hend : store.ingestTransferAnnouncementV3 v a now = result
  have hcases := ingestTransferAnnouncementV3_cases store v now a
  rw [hend] at hcases
  obtain ⟨answer, store'⟩ := result
  cases hcases with
  | rejected => exact h
  | inConflict row hopen =>
    refine hread.storeBillV3Conn ⟨fun hhash => ?_, fun htoken hsequence => ?_⟩
    · obtain ⟨heq, hclear, -⟩ := hkeeps.same hhash
      exact absurd (heq ▸ hopen) (hclear row)
    · rcases hkeeps.longer htoken hsequence with hspends | ⟨hclear, -⟩
      · exact hspends
      · exact absurd (htoken ▸ hopen) (hclear row)
  | ignored => exact hread
  | conflict proof record mid _ hfound hstored hkept =>
    -- A conflict of the settled bill, or with it, is at or below its row.
    obtain ⟨htokenProof, -, -, -, -, -, transfer, htransfer, -, hsequenceProof⟩ :=
      findConflictingBillV3_eq_some hfound
    refine (hread.storedConflict hstored).storeBillV3Conn ⟨fun hhash => ?_, fun htoken hsequence => ?_⟩
    · obtain ⟨heq, -⟩ := hkeeps.same hhash
      have hlt := hread.sequence_of_kept hstored hkept (htokenProof.trans (congrArg _ heq))
      have hle := a.bill.transfers_sequence transfer (List.mem_append_right _ htransfer)
      rw [heq] at hle
      omega
    · rcases hkeeps.longer htoken hsequence with hspends | ⟨-, proof', hfound', hle⟩
      · exact hspends
      · rw [hsame] at hfound
        have heq : proof' = proof := Option.some.inj (hfound'.symm.trans hfound)
        have hlt := hread.sequence_of_kept hstored hkept (htokenProof.trans htoken)
        rw [heq] at hle
        omega
  | unlogged => exact h.recordSubmission _ _
  | pending _ hfound =>
    refine (hread.recordSubmission _ _).storeBillV3Conn ⟨fun hhash => ?_, fun htoken hsequence => ?_⟩
    · exact ⟨(hkeeps.same hhash).1, by decide⟩
    · rcases hkeeps.longer htoken hsequence with hspends | ⟨-, proof, hfound', -⟩
      · exact hspends
      · rw [hsame] at hfound
        exact absurd (hfound.symm.trans hfound') (by simp)
  | verified _ hfound hsubmitted hquorum =>
    rw [hsame] at hfound
    have hlonger : a.bill.tokenId = bill.tokenId → bill.sequence < a.bill.sequence →
        SpendsTip bill a.bill := by
      intro htoken hsequence
      rcases hkeeps.longer htoken hsequence with hspends | ⟨-, proof, hfound', -⟩
      · exact hspends
      · exact absurd (hfound.symm.trans hfound') (by simp)
    refine ((hread.recordSubmission _ _).storeBillV3Conn
      ⟨fun hhash => ?_, hlonger⟩).maybeCompactBillV3 fun compact hsome hcompact => ?_
    · obtain ⟨-, -, hon | hoff | hfork⟩ := hkeeps.same hhash
      · rw [hon] at hquorum
        exact absurd hquorum (by decide)
      · rw [hoff] at hsubmitted
        exact absurd hsubmitted (by decide)
      · exact absurd hfound hfork
    · exact MayStore.compact hlonger hcompact fun hhash =>
        absurd hhash (hkeeps.copy hquorum compact hsome)

/-- A call that leaves the settled bill alone keeps the settlement. -/
theorem Settlement.call (h : Settlement bill known store) {c : Call}
    (hkeeps : CallKeeps bill store now c) : Settlement bill known (store.call now c) := by
  cases c with
  | announcement v a => exact h.announcement hkeeps
  | conflictProof v proof preverified =>
    show Settlement bill known (store.ingestConflictProofV3 v proof preverified now).2
    unfold ingestConflictProofV3
    split
    · exact h
    · next record store' hconn =>
      have hmid := h.storedConflict (storeConflictProofV3Conn_cases hconn).2.2
      split
      · exact hmid
      · exact hmid
  | syncRecord v record =>
    show Settlement bill known (store.ingestWalletBillSyncRecord v record now).2
    unfold ingestWalletBillSyncRecord
    split
    · exact h
    · next hverified =>
      obtain ⟨hmay, hcopy⟩ := hkeeps (by simpa using hverified)
      have hstored : Settlement bill known (store.storeBillV3Conn record.bill record.billStatus now) :=
        h.storeBillV3Conn hmay
      dsimp only
      split
      · exact hstored
      · exact hstored.maybeCompactBillV3 fun compact hsome hcompact =>
          MayStore.compact hmay.longer hcompact (hcopy compact hsome)
  | cachedBill other status => exact h.storeBillV3Conn hkeeps
  | finalize v f =>
    refine finalizePending_keeps (P := Settlement bill known) (Q := Settlement bill known)
      (R := fun _ => True) f h (fun s log hs => hs.log log)
      (fun s other _ hs => hs.drops (dropsConflicts_latest _ _ other.tokenId))
      (fun s other _ hs _ =>
        ⟨(hs.drops (dropsConflicts_latest _ _ other.tokenId)).settleRow other, trivial⟩)
      (fun _ hs => hs) fun s other hother _ compact hcompact hsome hs => ?_
    obtain ⟨row, hrow, rfl, -⟩ := exists_row_of_candidate hother
    exact hs.storeBillV3Conn (MayStore.compact (h.longer row hrow) hcompact fun hhash =>
      ⟨hkeeps row.bill hother compact hsome hhash, by decide⟩)
  | discard d =>
    obtain ⟨kept, heq, hkept, hsettled⟩ := discardUnsettledBillV3_frame store d
    have hcall : store.call now (.discard d) = (store.discardUnsettledBillV3 d).2 := rfl
    rw [hcall, heq]
    exact h.discard hkept hsettled
  | statusLookup v tokenId => exact h.drops (dropsConflicts_latest _ _ tokenId)
  | messages v limit => exact h.drops (dropsConflicts_conflictMessages limit)

/-! ## What stays -/

/-- A settlement that is irrevocable: the row is settled; no conflict proof of its token at or below it
    was added, and none is reported, sent out again or relayed; and the owner has a spendable bill unless
    a bill that spends the settled tip is stored. -/
structure Irrevocable (settled : StoreBill) (known : List ConflictRow) (store : LocalStore) :
    Prop where
  kept : ∃ row ∈ store.bills, row.bill = settled ∧ row.status = .settled
  stored : ∀ row ∈ store.conflicts, row.proof.tokenId = settled.tokenId →
    row.proof.sequence ≤ settled.sequence → row ∈ known
  reported : ∀ v proof, (store.latestConflictProofV3ForToken v settled.tokenId).1 = some proof →
    settled.sequence < proof.sequence
  sentAgain : ∀ v limit, ∀ proof ∈ (store.conflictMessages v limit).1,
    proof.tokenId = settled.tokenId → settled.sequence < proof.sequence
  relayed : ∀ v a now answer proof, (store.ingestTransferAnnouncementV3 v a now).1 = .ok answer →
    answer.conflictProof = some proof → proof.tokenId = settled.tokenId →
      settled.sequence < proof.sequence
  relayedProof : ∀ v sent preverified now answer proof,
    (store.ingestConflictProofV3 v sent preverified now).1 = .ok answer →
      answer.conflictProof = some proof → proof.tokenId = settled.tokenId →
        settled.sequence < proof.sequence
  spendable : (store.getSpendableBillV3ByDisplayId settled.displayId
    settled.ownerAddress).isSome = true ∨
      ∃ row ∈ store.bills, row.bill.tokenId = settled.tokenId ∧ SpendsTip settled row.bill

theorem Settlement.reported (h : Settlement bill known store) {proof : ConflictProof}
    (hlatest : (store.latestConflictProofV3ForToken v bill.tokenId).1 = some proof) :
    bill.sequence < proof.sequence := by
  obtain ⟨row, ⟨-, htoken, -, hpost⟩, rfl⟩ := latestConflictProofV3ForToken_eq_some hlatest
  exact h.lt_sequence hpost htoken

theorem Settlement.relayed (h : Settlement bill known store) {a : Announcement} {answer : Answer}
    {proof : ConflictProof} (hanswer : (store.ingestTransferAnnouncementV3 v a now).1 = .ok answer)
    (hproof : answer.conflictProof = some proof) (htoken : proof.tokenId = bill.tokenId) :
    bill.sequence < proof.sequence := by
  have hread := h.drops (dropsConflicts_latest _ v a.bill.tokenId)
  have hcases := ingestTransferAnnouncementV3_cases store v now a
  rw [hanswer] at hcases
  generalize (store.ingestTransferAnnouncementV3 v a now).2 = store' at hcases
  cases hcases with
  | inConflict => exact absurd hproof (by simp)
  | ignored => exact absurd hproof (by simp)
  | conflict found record mid _ _ hstored hkept =>
    have heq : found = proof := by
      cases hinserted : record.inserted with
      | false => simp [hinserted] at hproof
      | true => simpa [hinserted] using hproof
    subst heq
    exact hread.sequence_of_kept hstored hkept htoken
  | pending => exact absurd hproof (by simp)
  | verified => exact absurd hproof (by simp)

theorem Settlement.relayedProof (h : Settlement bill known store) {sent proof : ConflictProof}
    {preverified : Bool} {answer : Answer}
    (hanswer : (store.ingestConflictProofV3 v sent preverified now).1 = .ok answer)
    (hproof : answer.conflictProof = some proof) (htoken : proof.tokenId = bill.tokenId) :
    bill.sequence < proof.sequence := by
  unfold ingestConflictProofV3 at hanswer
  split at hanswer
  · exact absurd hanswer (by simp)
  · next record store' hconn =>
    have hstored := (storeConflictProofV3Conn_cases hconn).2.2
    split at hanswer
    · cases hanswer
      exact absurd hproof (by simp)
    · next hkept =>
      cases hanswer
      have heq : sent = proof := by
        cases hinserted : record.inserted with
        | false => simp [hinserted] at hproof
        | true => simpa [hinserted] using hproof
      subst heq
      exact h.sequence_of_kept hstored (by simpa using hkept) htoken

/-- The settled row itself is spendable as long as no longer bill is stored. -/
theorem Settlement.spendable (h : Settlement bill known store) :
    (store.getSpendableBillV3ByDisplayId bill.displayId bill.ownerAddress).isSome = true ∨
      ∃ row ∈ store.bills, row.bill.tokenId = bill.tokenId ∧ SpendsTip bill row.bill := by
  by_cases hlonger : ∃ row ∈ store.bills, row.bill.tokenId = bill.tokenId ∧
      bill.sequence < row.bill.sequence
  · obtain ⟨row, hrow, htoken, hsequence⟩ := hlonger
    exact Or.inr ⟨row, hrow, htoken, h.longer row hrow htoken hsequence⟩
  · obtain ⟨row, hrow, rfl, hsettled⟩ := h.settled
    refine Or.inl (isSome_getSpendable_iff.2 ⟨row, hrow, listed_iff.2 ⟨rfl, rfl, ?_, ?_⟩⟩)
    · exact mem_spendableStatuses.2 (Or.inl hsettled)
    · refine isNewest_iff.2 fun other hother htoken => ?_
      by_contra hlt
      exact hlonger ⟨other, hother, htoken, not_le.1 hlt⟩

theorem Settlement.irrevocable (h : Settlement bill known store) : Irrevocable bill known store where
  kept := h.settled
  stored := h.conflicts
  reported _ _ hlatest := h.reported hlatest
  sentAgain _ _ _ hproof htoken := h.lt_sequence (isPostSettlement_of_mem_scanMessages hproof) htoken
  relayed _ _ _ _ _ hanswer hproof htoken := h.relayed hanswer hproof htoken
  relayedProof _ _ _ _ _ _ hanswer hproof htoken := h.relayedProof hanswer hproof htoken
  spendable := h.spendable

/-- From a store with a settled bill whose longer bills all spend its tip, the settlement is irrevocable
    in every run of calls that leave it alone. -/
theorem irrevocable_of_reaches {store' : LocalStore} (hreach : store.Reachable)
    (hsettled : ∃ row ∈ store.bills, row.bill = bill ∧ row.status = .settled)
    (hlonger : ∀ row ∈ store.bills, row.bill.tokenId = bill.tokenId →
      bill.sequence < row.bill.sequence → SpendsTip bill row.bill)
    (hrun : Runs.Reaches step (fun s event => CallKeeps bill s event.now event.call) store store') :
    Irrevocable bill store.conflicts store' := by
  have hstep : ∀ s event s', Settlement bill store.conflicts s →
      CallKeeps bill s event.now event.call → step s event = some s' →
        Settlement bill store.conflicts s' := by
    intro s event s' hs hkeeps hstep
    obtain ⟨-, rfl⟩ := step_eq hstep
    have hcall := hs.call hkeeps
    exact ⟨⟨hcall.keyed.bills, hcall.keyed.conflicts⟩, hcall.settled, hcall.longer, hcall.conflicts⟩
  exact (hrun.invariant hstep ⟨hreach.keyed, hsettled, hlonger, fun row hrow _ _ => hrow⟩).irrevocable

/-! ## A settled sample bill -/

/-- A pending bill that settles. -/
def sampleSettlement : List Event :=
  [⟨10, .announcement everythingVerifies
      (sampleAnnouncement (sampleBill "b1" (sampleTransfer "B" "x") none))⟩,
    ⟨80, .finalize everythingVerifies ⟨60, some fun _ => true, true, fun _ => none⟩⟩]

/-- The store after some events, from an empty store with a settlement quorum. -/
def quorumStore (events : List Event) : LocalStore :=
  (Runs.exec step (initial true 0 false) events).getD (initial true 0 false)

theorem reachable_quorumStore {events : List Event}
    (h : Runs.exec step (initial true 0 false) events = some (quorumStore events)) :
    (quorumStore events).Reachable :=
  ⟨_, _, _, Runs.reaches_of_exec h (Runs.meetsAll_of_forall fun _ _ _ => trivial)⟩

/-- The conflicting bill comes after the settlement and is ignored. -/
theorem irrevocable_lateConflict : Irrevocable (sampleBill "b1" (sampleTransfer "B" "x") none) []
    (quorumStore (sampleSettlement ++ [⟨90, .announcement everythingVerifies
      (sampleAnnouncement (sampleBill "b2" (sampleTransfer "C" "y") none))⟩])) := by
  have hconflicts : (quorumStore sampleSettlement).conflicts = [] := by decide
  rw [← hconflicts]
  refine irrevocable_of_reaches (reachable_quorumStore (by decide)) (by decide) (by decide)
    (Runs.Reaches.refl.next (e := ⟨90, .announcement everythingVerifies
      (sampleAnnouncement (sampleBill "b2" (sampleTransfer "C" "y") none))⟩) (fun _ => ?_) (by decide))
  exact ⟨fun hhash => absurd hhash (by decide), fun _ hlt => absurd hlt (by decide),
    fun _ compact hcompact => absurd hcompact (by simp [sampleAnnouncement])⟩

/-- A peer's record of the settled bill with the status "verified" takes the settlement back. -/
theorem not_irrevocable_syncRecord : ¬ ∀ (settled : StoreBill) (store store' : LocalStore),
    store.Reachable → (∃ row ∈ store.bills, row.bill = settled ∧ row.status = .settled) →
      Runs.Reaches step (fun _ _ => True) store store' →
        Irrevocable settled store.conflicts store' := by
  intro h
  have hstep : step (quorumStore sampleSettlement) ⟨90, .syncRecord everythingVerifies
      ⟨sampleBill "b1" (sampleTransfer "B" "x") none, "verified", none, none⟩⟩
        = some (quorumStore (sampleSettlement ++ [⟨90, .syncRecord everythingVerifies
          ⟨sampleBill "b1" (sampleTransfer "B" "x") none, "verified", none, none⟩⟩])) := by decide
  have hlaw := h (sampleBill "b1" (sampleTransfer "B" "x") none) _ _
    (reachable_quorumStore (by decide)) (by decide) (Runs.Reaches.refl.next trivial hstep)
  exact absurd hlaw.kept (by decide)

end LocalStore
