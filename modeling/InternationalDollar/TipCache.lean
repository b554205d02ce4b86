import InternationalDollar.Lib.TriedSearch
import InternationalDollar.RejectedEvidence
import InternationalDollar.StoreWrites

set_option autoImplicit false

/-! # The tip cache (`store._find_conflicting_bill_v3`, `rebuild_bill_tips_v3`)

The store looks for a stored bill that conflicts with an incoming one in two passes: over the rows that
`bill_tips_v3` suggests, and then over all rows of the token. The table is a cache, which may be rebuilt at
any time. Whether a conflict is found does not depend on what it holds. Which one is found does, and a
conflict below a settled row is ignored while one above it is recorded. -/

namespace LocalStore

/-- The rows of `bill_tips_v3`. -/
abbrev TipTable := List (String × BillTipRow)

/-! ## The cache -/

/-- `_bill_tip_record_v3`. -/
def billTipRecord (bill : StoreBill) (status : BillStatus) (now : Int) : BillTipRow :=
  let tip := bill.recentTransfers.getLast?
  { tokenId := bill.tokenId
    spendKey := tip.map StoreTransfer.spendKey
    tipTransferHash := tip.map StoreTransfer.transferHash
    previousHash := tip.map StoreTransfer.previousHash
    sequence := bill.sequence
    senderAddress := tip.map StoreTransfer.senderAddress
    ownerAddress := bill.ownerAddress
    status := status
    updatedAt := now }

/-- What `rebuild_bill_tips_v3` returns. -/
structure RebuildReport where
  rebuilt : Nat
  skipped : Nat
deriving DecidableEq

/-- One turn of the loop of `rebuild_bill_tips_v3`. -/
def rebuildTip (accepts : StoreBill → Bool) (now : Int) (built : TipTable × RebuildReport) (row : BillRow) :
    TipTable × RebuildReport :=
  if accepts row.bill then
    (AssocList.put row.bill.billHash (billTipRecord row.bill row.status now) built.1,
      { built.2 with rebuilt := built.2.rebuilt + 1 })
  else (built.1, { built.2 with skipped := built.2.skipped + 1 })

/-- `rebuild_bill_tips_v3`. A bill is accepted when it verifies, or, with `verify` off, when its transfers
    lead to a state. -/
def rebuildBillTipsV3 (store : LocalStore) (accepts : StoreBill → Bool) (limit : Option Int)
    (tips : TipTable) (now : Int) : TipTable × RebuildReport :=
  let rows := Select.orderBy (fun row : BillRow => -row.updatedAt) store.bills
  match limit with
  | none => rows.foldl (rebuildTip accepts now) ([], ⟨0, 0⟩)
  | some limit => (rows.take limit.toNat).foldl (rebuildTip accepts now) (tips, ⟨0, 0⟩)

/-! ## The search -/

variable (store : LocalStore) (v : Verification) (tips : Option TipTable)

/-- `ORDER BY bill_tips_v3.sequence DESC, bill_tips_v3.updated_at DESC`. -/
def tipOrder (joined : BillTipRow × BillRow) : Int ×ₗ Int :=
  toLex (-joined.1.sequence, -joined.1.updatedAt)

/-- `bill_tips_v3 JOIN bills_v3 ON bills_v3.bill_hash = bill_tips_v3.bill_hash`. -/
def joinTips (tips : TipTable) : List (BillTipRow × BillRow) :=
  tips.flatMap fun entry =>
    (store.bills.filter fun row => row.bill.billHash = entry.1).map fun row => (entry.2, row)

/-- The rows of the first pass: the cached tips that have the spend key of the incoming tip and another
    hash. No rows where the table cannot be read. -/
def cachedRows (bill : StoreBill) : List BillRow :=
  match bill.recentTransfers.getLast?, tips with
  | some tip, some tips =>
      let rows := (store.joinTips tips).filter fun joined => joined.1.tokenId = bill.tokenId ∧
        joined.1.spendKey = some tip.spendKey ∧ ∃ hash ∈ joined.1.tipTransferHash, hash ≠ tip.transferHash
      ((Select.orderBy tipOrder rows).take 25).map Prod.snd
  | _, _ => []

/-- The rows of the second pass. -/
def tokenRows (bill : StoreBill) : List BillRow :=
  Select.orderBy recentOrder (store.bills.filter fun row => row.bill.tokenId = bill.tokenId)

/-- `try_stored_bill`, for a row that is not tried yet. -/
def tryStoredBill (bill : StoreBill) (trustedKey : Option String) (now : Int) (row : BillRow) :
    Option ConflictProof :=
  let incomingKey := trustedKey.or (store.trustedOperatorKey bill.operatorPublicKey)
  createConflictProof v (incomingKey.or (store.trustedOperatorKey row.bill.operatorPublicKey)) row.bill bill
    now

/-- `_find_conflicting_bill_v3`, with the cache as it is. -/
def findConflictingBillV3With (bill : StoreBill) (trustedKey : Option String) (now : Int) :
    Option ConflictProof :=
  TriedSearch.passes (fun row : BillRow => row.bill.billHash) (store.tryStoredBill v bill trustedKey now)
    [bill.billHash] (store.cachedRows tips bill) (store.tokenRows bill)

/-- `_ingest_transfer_announcement_v3`, with the search for a conflicting bill as a parameter. -/
def ingestTransferAnnouncementWith (find : LocalStore → Option ConflictProof) (a : Announcement)
    (now : Int) : Except String Answer × LocalStore :=
  let trustedKey := store.trustedOperatorKey a.bundleOperatorKey
  if v.verifyBill trustedKey a.bill = false then (.error "transfer announcement rejected", store)
  else
    match store.latestConflictProofV3ForToken v a.bill.tokenId with
    | (some _, store') =>
        (.ok ⟨"conflict", none⟩, store'.storeBillV3Conn a.bill .verified now)
    | (none, store') =>
        match find store' with
        | some proof =>
            match store'.storeConflictProofV3Conn v proof false now with
            | .error error => (.error error, store)
            | .ok (record, store'') =>
                if record.ignored then (.ok ⟨"ignored_conflict", none⟩, store'')
                else (.ok ⟨"conflict", if record.inserted then some proof else none⟩,
                  store''.storeBillV3Conn a.bill .verified now)
        | none =>
            if a.logRows ≠ [] ∧ store.droppedProofs v a.bill.tokenId ≠ [] then
              (.error "database is locked", store)
            else if a.submitted = false then
              (.error "transparency log submission failed", store.recordSubmission a.bill a.logRows)
            else
              let logged := store'.recordSubmission a.bill a.logRows
              if store.settlementQuorumEnabled then
                (.ok ⟨"pending", none⟩, logged.storeBillV3Conn a.bill .pending now)
              else (.ok ⟨"verified", none⟩, (logged.storeBillV3Conn a.bill .verified now)
                |>.maybeCompactBillV3 a.bill a.compactCopy .verified now)

/-- What becomes of an announcement under a cache: the status that it is accepted with, if it is. -/
def decisionWith (a : Announcement) (now : Int) : Option String :=
  ((store.ingestTransferAnnouncementWith v (fun store' => store'.findConflictingBillV3With v tips a.bill
    (store.trustedOperatorKey a.bundleOperatorKey) now) a now).1.toOption).map Answer.status

/-! ## Caches that decide -/

/-- No content of the cache changes whether a conflict is found, nor what becomes of the announcement. -/
structure CacheNeverDecides (store : LocalStore) (v : Verification) (a : Announcement) (now : Int) :
    Prop where
  found : ∀ tips tips' trustedKey,
    (store.findConflictingBillV3With v tips a.bill trustedKey now).isSome =
      (store.findConflictingBillV3With v tips' a.bill trustedKey now).isSome
  decision : ∀ tips tips', store.decisionWith v tips a now = store.decisionWith v tips' a now

/-- Whether a conflict proof is accepted as evidence: it verifies and has an anchor. -/
def isEvidence (proof : ConflictProof) : Bool :=
  v.verifyConflictProof proof && store.conflictProofHasLocalV3Anchor v proof

/-- The conflicts of an announcement with other stored bills are all evidence or none is, and all of them
    lie at or below a settled row or none does. An announcement that does not verify has no conflicts, nor
    has one whose token has an open conflict already. -/
def ConflictsAgree (store : LocalStore) (v : Verification) (a : Announcement) (now : Int) : Prop :=
  v.verifyBill (store.trustedOperatorKey a.bundleOperatorKey) a.bill = true →
  (store.latestConflictProofV3ForToken v a.bill.tokenId).1 = none →
  ∀ row ∈ store.bills, row.bill.billHash ≠ a.bill.billHash →
  ∀ other ∈ store.bills, other.bill.billHash ≠ a.bill.billHash →
  ∀ proof ∈ store.tryStoredBill v a.bill (store.trustedOperatorKey a.bundleOperatorKey) now row,
  ∀ proof' ∈ store.tryStoredBill v a.bill (store.trustedOperatorKey a.bundleOperatorKey) now other,
    store.isEvidence v proof = store.isEvidence v proof' ∧
      (store.isEvidence v proof = true →
        store.isPostSettlementConflictV3 proof = store.isPostSettlementConflictV3 proof')

variable {store v} {tips : Option TipTable} {now : Int}

/-! ## The two passes -/

theorem mem_cachedRows {bill : StoreBill} {row : BillRow} (h : row ∈ store.cachedRows tips bill) :
    row ∈ store.bills := by
  unfold cachedRows at h
  split at h
  · obtain ⟨joined, hjoined, rfl⟩ := List.mem_map.1 h
    have hrows := (List.mem_filter.1 (Select.mem_orderBy.1 (List.mem_of_mem_take hjoined))).1
    obtain ⟨entry, -, hentry⟩ := List.mem_flatMap.1 hrows
    obtain ⟨row, hrow, rfl⟩ := List.mem_map.1 hentry
    exact (List.mem_filter.1 hrow).1
  · cases h

theorem mem_tokenRows {bill : StoreBill} {row : BillRow} :
    row ∈ store.tokenRows bill ↔ row ∈ store.bills ∧ row.bill.tokenId = bill.tokenId := by
  rw [tokenRows, Select.mem_orderBy, List.mem_filter, decide_eq_true_iff]

/-- A conflict is found with a bill of the same token only, and it needs a transfer that can be
    compared. -/
theorem tryStoredBill_eq_some {bill : StoreBill} {trustedKey : Option String} {row : BillRow}
    {proof : ConflictProof} (h : store.tryStoredBill v bill trustedKey now row = some proof) :
    row.bill.tokenId = bill.tokenId ∧ ∃ tip, bill.recentTransfers.getLast? = some tip := by
  unfold tryStoredBill createConflictProof at h
  dsimp only at h
  split at h
  · next hverified =>
    obtain ⟨pair, hpair, -⟩ := Option.bind_eq_some_iff.1 h
    obtain ⟨-, hin, -⟩ := findConflictingTransferPair_eq_some hpair
    refine ⟨hverified.2.2, ?_⟩
    exact Option.ne_none_iff_exists'.1 fun hnone => List.ne_nil_of_mem hin (List.getLast?_eq_none_iff.1 hnone)
  · cases h

/-- Both passes read rows of the table, in which a hash stands for one row. -/
theorem injOn_tried (h : store.Keyed) (bill : StoreBill) :
    Set.InjOn (fun row : BillRow => row.bill.billHash)
      {row | row ∈ store.cachedRows tips bill ++ store.tokenRows bill} := by
  have hin : ∀ row ∈ store.cachedRows tips bill ++ store.tokenRows bill, row ∈ store.bills := by
    intro row hrow
    rcases List.mem_append.1 hrow with hrow | hrow
    · exact mem_cachedRows hrow
    · exact (mem_tokenRows.1 hrow).1
  intro row hrow other hother heq
  exact h.bill_eq (hin row hrow) (hin other hother) heq

/-- **The search finds a conflict exactly when a row of the token conflicts**, under every cache. -/
theorem isSome_findConflictingBillV3With (h : store.Keyed) (bill : StoreBill)
    (trustedKey : Option String) :
    (store.findConflictingBillV3With v tips bill trustedKey now).isSome = true ↔
      ∃ row ∈ store.tokenRows bill, row.bill.billHash ∉ [bill.billHash] ∧
        (store.tryStoredBill v bill trustedKey now row).isSome = true := by
  refine TriedSearch.isSome_passes (injOn_tried h bill) fun row hrow hsome => ?_
  obtain ⟨proof, hproof⟩ := Option.isSome_iff_exists.1 hsome
  exact mem_tokenRows.2 ⟨mem_cachedRows hrow, (tryStoredBill_eq_some hproof).1⟩

theorem findConflictingBillV3With_eq_some {bill : StoreBill} {trustedKey : Option String}
    {proof : ConflictProof} (h : store.findConflictingBillV3With v tips bill trustedKey now = some proof) :
    ∃ row ∈ store.bills, row.bill.billHash ≠ bill.billHash ∧
      store.tryStoredBill v bill trustedKey now row = some proof := by
  obtain ⟨row, hrow, htried, hproof⟩ := TriedSearch.passes_eq_some h
  refine ⟨row, ?_, fun heq => htried (heq ▸ List.mem_singleton_self _), hproof⟩
  rcases List.mem_append.1 hrow with hrow | hrow
  · exact mem_cachedRows hrow
  · exact (mem_tokenRows.1 hrow).1

variable (v tips now) in
theorem findConflictingBillV3With_of_drops {store' : LocalStore} (h : store.DropsConflicts store')
    (bill : StoreBill) (trustedKey : Option String) :
    store'.findConflictingBillV3With v tips bill trustedKey now
      = store.findConflictingBillV3With v tips bill trustedKey now := by
  obtain ⟨kept, rfl, -⟩ := h
  rfl

/-- The rows that the bills of the store suggest lead to a conflict as any cache does. -/
theorem isSome_findConflictingBillV3 (h : store.Keyed) (bill : StoreBill) (trustedKey : Option String) :
    (store.findConflictingBillV3 v bill trustedKey now).isSome =
      (store.findConflictingBillV3With v tips bill trustedKey now).isSome := by
  have hsearch : store.findConflictingBillV3 v bill trustedKey now
      = TriedSearch.passes (fun row : BillRow => row.bill.billHash)
        (store.tryStoredBill v bill trustedKey now) [bill.billHash] (store.tipCandidates bill)
        (store.tokenRows bill) := by
    rw [TriedSearch.passes_eq, TriedSearch.pass_eq_findSome?]
    rfl
  rw [Bool.eq_iff_iff, isSome_findConflictingBillV3With h, hsearch]
  refine TriedSearch.isSome_passes (fun row hrow other hother heq => ?_) fun row hrow hsome => ?_
  · exact h.bill_eq (mem_of_tried hrow) (mem_of_tried hother) heq
  · obtain ⟨proof, hproof⟩ := Option.isSome_iff_exists.1 hsome
    exact mem_tokenRows.2 ⟨mem_of_tried (List.mem_append_left _ hrow), (tryStoredBill_eq_some hproof).1⟩

/-! ## What becomes of an announcement -/

/-- The announcements of the store are those that search with the rows which its own bills suggest. -/
theorem ingestTransferAnnouncementV3_eq (a : Announcement) :
    store.ingestTransferAnnouncementV3 v a now = store.ingestTransferAnnouncementWith v
      (fun store' => store'.findConflictingBillV3 v a.bill (store.trustedOperatorKey a.bundleOperatorKey)
        now) a now := rfl

/-- What a proof does to the announcement that it is found for. -/
def outcome (store : LocalStore) (v : Verification) (proof : ConflictProof) : Option String :=
  if store.isEvidence v proof = true then
    some (if store.isPostSettlementConflictV3 proof = true then "ignored_conflict" else "conflict")
  else none

theorem outcome_of_drops {store' : LocalStore} (h : store.DropsConflicts store') (proof : ConflictProof) :
    store'.outcome v proof = store.outcome v proof := by
  obtain ⟨kept, rfl, -⟩ := h
  rfl

/-- A proof is stored exactly if it is evidence. -/
theorem storeConflictProofV3Conn_error {proof : ConflictProof} {error : String}
    (h : store.storeConflictProofV3Conn v proof false now = .error error) :
    store.isEvidence v proof = false := by
  rw [Bool.eq_false_iff]
  intro hevidence
  obtain ⟨hverify, hanchor⟩ := Bool.and_eq_true_iff.1 hevidence
  unfold storeConflictProofV3Conn at h
  rw [Check.require_of (Or.inr hverify), Check.require_of hanchor] at h
  simp only [bind, Except.bind] at h
  split at h
  · cases h
  · split at h <;> cases h

theorem decisionWith_of_found {a : Announcement} {proof : ConflictProof}
    (hverify : v.verifyBill (store.trustedOperatorKey a.bundleOperatorKey) a.bill = true)
    (hopen : (store.latestConflictProofV3ForToken v a.bill.tokenId).1 = none)
    (hfound : store.findConflictingBillV3With v tips a.bill (store.trustedOperatorKey a.bundleOperatorKey)
      now = some proof) : store.decisionWith v tips a now = store.outcome v proof := by
  have hdrops := dropsConflicts_latest store v a.bill.tokenId
  unfold decisionWith ingestTransferAnnouncementWith
  rw [if_neg (by rw [hverify]; decide)]
  generalize store.latestConflictProofV3ForToken v a.bill.tokenId = latest at hopen hdrops ⊢
  obtain ⟨_, store'⟩ := latest
  subst hopen
  rw [← findConflictingBillV3With_of_drops v tips now hdrops] at hfound
  rw [← outcome_of_drops hdrops]
  simp only [hfound]
  cases hstored : store'.storeConflictProofV3Conn v proof false now with
  | error error => simp [outcome, storeConflictProofV3Conn_error hstored, Except.toOption]
  | ok result =>
    obtain ⟨record, store''⟩ := result
    obtain ⟨hanchor, hverified, hcase⟩ := storeConflictProofV3Conn_cases hstored
    have hevidence : store'.isEvidence v proof = true :=
      Bool.and_eq_true_iff.2 ⟨hverified.resolve_left (by decide), hanchor⟩
    cases hcase with
    | ignored hpost => simp [outcome, hevidence, hpost, Except.toOption]
    | known hpost => simp [outcome, hevidence, hpost, Except.toOption]
    | inserted hpost => simp [outcome, hevidence, hpost, Except.toOption]

/-- Where no conflict is found, the cache is out of play. -/
theorem decisionWith_of_none {tips' : Option TipTable} {a : Announcement}
    (hfound : store.findConflictingBillV3With v tips a.bill (store.trustedOperatorKey a.bundleOperatorKey)
      now = none)
    (hfound' : store.findConflictingBillV3With v tips' a.bill
      (store.trustedOperatorKey a.bundleOperatorKey) now = none) :
    store.decisionWith v tips a now = store.decisionWith v tips' a now := by
  have hdrops := dropsConflicts_latest store v a.bill.tokenId
  rw [← findConflictingBillV3With_of_drops v _ now hdrops] at hfound hfound'
  unfold decisionWith ingestTransferAnnouncementWith
  generalize store.latestConflictProofV3ForToken v a.bill.tokenId = latest at hfound hfound' ⊢
  obtain ⟨conflict, store'⟩ := latest
  dsimp only at hfound hfound'
  cases conflict with
  | none => simp only [hfound, hfound']
  | some conflict => rfl

/-- Where the search is not reached, the cache is out of play. -/
theorem decisionWith_of_not_searched {tips' : Option TipTable} {a : Announcement}
    (h : ¬ (v.verifyBill (store.trustedOperatorKey a.bundleOperatorKey) a.bill = true ∧
      (store.latestConflictProofV3ForToken v a.bill.tokenId).1 = none)) :
    store.decisionWith v tips a now = store.decisionWith v tips' a now := by
  unfold decisionWith ingestTransferAnnouncementWith
  by_cases hverify : v.verifyBill (store.trustedOperatorKey a.bundleOperatorKey) a.bill = true
  · have hopen := fun hnone => h ⟨hverify, hnone⟩
    generalize store.latestConflictProofV3ForToken v a.bill.tokenId = latest at hopen ⊢
    obtain ⟨conflict, store'⟩ := latest
    cases conflict with
    | none => exact absurd rfl hopen
    | some conflict => rfl
  · simp only [if_pos (Bool.not_eq_true _ ▸ hverify)]

/-! ## Caches that suggest one row -/

/-- A cache with one row, which leads an announcement to a stored bill. -/
def leadingTo (bill : StoreBill) (tip : StoreTransfer) (row : BillRow) : TipTable :=
  [(row.bill.billHash, { billTipRecord row.bill row.status row.updatedAt with
    tokenId := bill.tokenId
    spendKey := some tip.spendKey
    tipTransferHash := some (tip.transferHash ++ "-") })]

theorem cachedRows_leadingTo (h : store.Keyed) {bill : StoreBill} {tip : StoreTransfer}
    (htip : bill.recentTransfers.getLast? = some tip) {row : BillRow} (hrow : row ∈ store.bills) :
    store.cachedRows (some (leadingTo bill tip row)) bill = [row] := by
  have hhash : tip.transferHash ++ "-" ≠ tip.transferHash := fun heq => by
    have hlength := congrArg String.length heq
    rw [String.length_append] at hlength
    exact absurd hlength (Nat.ne_of_gt (Nat.lt_add_of_pos_right (by decide)))
  have hfilter : store.bills.filter (fun other => other.bill.billHash = row.bill.billHash) = [row] := by
    have hnodup := h.bills.of_map
    rw [List.filter_congr (q := fun other => other == row) fun other hother => ?_, List.filter_beq,
      List.count_eq_one_of_mem hnodup hrow, List.replicate_one]
    rw [Bool.eq_iff_iff, decide_eq_true_iff, beq_iff_eq]
    exact ⟨h.bill_eq hother hrow, fun heq => heq ▸ rfl⟩
  unfold cachedRows joinTips leadingTo
  rw [htip]
  simp [hfilter, hhash, Select.orderBy]

/-- A search that is led to a conflicting row finds the conflict with it. -/
theorem findConflictingBillV3With_leadingTo (h : store.Keyed) {bill : StoreBill} {row : BillRow}
    {trustedKey : Option String} (hrow : row ∈ store.bills) (hne : row.bill.billHash ≠ bill.billHash)
    {proof : ConflictProof} (hproof : store.tryStoredBill v bill trustedKey now row = some proof) :
    ∃ tips, store.findConflictingBillV3With v tips bill trustedKey now = some proof := by
  obtain ⟨-, tip, htip⟩ := tryStoredBill_eq_some hproof
  refine ⟨some (leadingTo bill tip row), ?_⟩
  unfold findConflictingBillV3With TriedSearch.passes
  rw [cachedRows_leadingTo h htip hrow, TriedSearch.pass, if_neg (fun hin => hne (List.mem_singleton.1 hin)),
    hproof]

theorem outcome_eq_iff {proof proof' : ConflictProof} : store.outcome v proof = store.outcome v proof' ↔
    store.isEvidence v proof = store.isEvidence v proof' ∧
      (store.isEvidence v proof = true →
        store.isPostSettlementConflictV3 proof = store.isPostSettlementConflictV3 proof') := by
  unfold outcome
  cases store.isEvidence v proof <;> cases store.isEvidence v proof' <;>
    cases store.isPostSettlementConflictV3 proof <;>
    cases store.isPostSettlementConflictV3 proof' <;> simp

/-- **The cache finds what the store finds, and decides nothing exactly when the conflicts agree.** -/
theorem cacheNeverDecides_iff (hkeyed : store.Keyed) (v : Verification) (a : Announcement) (now : Int) :
    store.CacheNeverDecides v a now ↔ store.ConflictsAgree v a now := by
  have hfound : ∀ tips tips' trustedKey,
      (store.findConflictingBillV3With v tips a.bill trustedKey now).isSome =
        (store.findConflictingBillV3With v tips' a.bill trustedKey now).isSome := fun _ _ _ =>
    Bool.eq_iff_iff.2 ((isSome_findConflictingBillV3With hkeyed _ _).trans
      (isSome_findConflictingBillV3With hkeyed _ _).symm)
  constructor
  · intro hnever hverify hopen row hrow hne other hother hne' proof hproof proof' hproof'
    obtain ⟨tips, htips⟩ := findConflictingBillV3With_leadingTo hkeyed hrow hne hproof
    obtain ⟨tips', htips'⟩ := findConflictingBillV3With_leadingTo hkeyed hother hne' hproof'
    rw [← outcome_eq_iff, ← decisionWith_of_found hverify hopen htips,
      ← decisionWith_of_found hverify hopen htips']
    exact hnever.decision _ _
  · intro hagree
    refine ⟨hfound, fun tips tips' => ?_⟩
    by_cases hsearched : v.verifyBill (store.trustedOperatorKey a.bundleOperatorKey) a.bill = true ∧
        (store.latestConflictProofV3ForToken v a.bill.tokenId).1 = none
    · have hsame := hfound tips tips' (store.trustedOperatorKey a.bundleOperatorKey)
      cases hcase : store.findConflictingBillV3With v tips a.bill
          (store.trustedOperatorKey a.bundleOperatorKey) now with
      | none =>
        rw [hcase, Option.isSome_none, eq_comm, Option.isSome_eq_false_iff, Option.isNone_iff_eq_none] at hsame
        exact decisionWith_of_none hcase hsame
      | some proof =>
        rw [hcase, Option.isSome_some, eq_comm] at hsame
        obtain ⟨proof', hcase'⟩ := Option.isSome_iff_exists.1 hsame
        obtain ⟨row, hrow, hne, hproof⟩ := findConflictingBillV3With_eq_some hcase
        obtain ⟨other, hother, hne', hproof'⟩ := findConflictingBillV3With_eq_some hcase'
        rw [decisionWith_of_found hsearched.1 hsearched.2 hcase,
          decisionWith_of_found hsearched.1 hsearched.2 hcase', outcome_eq_iff]
        exact hagree hsearched.1 hsearched.2 row hrow hne other hother hne' proof hproof proof' hproof'
    · exact decisionWith_of_not_searched hsearched

/-! ## A conflict on either side of a settled row -/

/-- A transfer of a token, with the hash of the one that it follows. -/
def sampleTransferOn (previousHash : String) (sequence : Int) (transferHash : String) : StoreTransfer where
  tokenId := "t"
  previousHash := previousHash
  sequence := sequence
  senderAddress := "A"
  recipientAddress := "A"
  spendKey := previousHash
  transferHash := transferHash

/-- A bill with two transfers. -/
def sampleBranch (billHash first second : String) : StoreBill where
  billHash := billHash
  tokenId := "t"
  displayId := "1x1"
  archivedTransfers := []
  recentTransfers := [sampleTransferOn "p" 1 first, sampleTransferOn first 2 second]
  ownerAddress := "A"
  lastTransferHash := second
  sequence := 2
  operatorPublicKey := none
  blobLength := 100
  displayId_ne := sampleDisplayId_ne
  displayId_strip := sampleDisplayId_strip
  transfers_token := by simp [sampleTransferOn]
  transfers_sequence := by simp [sampleTransferOn]

/-- A settled bill, a bill that continues it, and a pending bill on another branch. -/
def branchedStore : LocalStore :=
  { initial false 0 false with
    bills := [⟨sampleBill "b1" (sampleTransferOn "p" 1 "x") none, 10, 10, .settled⟩,
      ⟨sampleBranch "b2" "x" "y", 20, 20, .verified⟩, ⟨sampleBranch "b3" "u" "w", 30, 30, .pending⟩] }

theorem keyed_branchedStore : branchedStore.Keyed :=
  ⟨by decide, List.nodup_nil⟩

theorem cacheNeverDecides_iff_branchedStore : branchedStore.Keyed ∧
    (branchedStore.CacheNeverDecides everythingVerifies (sampleAnnouncement (sampleBranch "b4" "x" "z")) 40 ↔
      branchedStore.ConflictsAgree everythingVerifies (sampleAnnouncement (sampleBranch "b4" "x" "z")) 40) :=
  ⟨keyed_branchedStore, cacheNeverDecides_iff keyed_branchedStore _ _ _⟩

/-- **Dropping the cache changes what is accepted.** With a rebuilt cache the announcement is recorded as
    a conflict with the bill that continues the settled one; with an empty cache the older conflict is found
    first, which is ignored. -/
theorem not_cacheNeverDecides : ¬ ∀ (store : LocalStore) (v : Verification) (a : Announcement) (now : Int),
    store.Keyed → store.CacheNeverDecides v a now := by
  intro h
  have hnever := h branchedStore everythingVerifies (sampleAnnouncement (sampleBranch "b4" "x" "z")) 40
    keyed_branchedStore
  have hrebuilt : branchedStore.decisionWith everythingVerifies
      (some (branchedStore.rebuildBillTipsV3 (fun _ => true) none [] 35).1)
      (sampleAnnouncement (sampleBranch "b4" "x" "z")) 40 = some "conflict" := by decide
  have hempty : branchedStore.decisionWith everythingVerifies (some [])
      (sampleAnnouncement (sampleBranch "b4" "x" "z")) 40 = some "ignored_conflict" := by decide
  rw [← hnever.decision (some []), hempty] at hrebuilt
  exact absurd hrebuilt (by decide)

end LocalStore
