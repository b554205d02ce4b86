import InternationalDollar.KnownRanges
import InternationalDollar.Lib.Paging
import InternationalDollar.StoreIngest

set_option autoImplicit false

/-! # Paging of wallet sync (`wallet_bill_sync_page`)

A wallet asks a server for the bills of an owner, newest or oldest first, and skips what it has. A page that
is full names the time, the sequence and the token of its last row, and the next page begins behind them.
Rows can share all three, and a server that has scanned many rows answers with a page that is not full, which
the wallet takes for the last one. -/

/-- The directions of a sync. -/
inductive SyncDirection where
  | newer
  | backfill
  | reconcile
deriving DecidableEq

/-- A cursor as a request has it. -/
structure CursorRequest where
  updatedAt : Option Int
  sequence : Option Int
  tokenId : Option String

/-- A parsed cursor. -/
structure SyncCursor where
  updatedAt : Int
  sequence : Int
  tokenId : String
deriving DecidableEq

/-- The arguments of `wallet_bill_sync_page` that stay the same from page to page. -/
structure SyncRequest where
  ownerAddress : String
  knownTokenSequences : List (String × Int)
  knownDisplayRanges : List DisplayRange
  afterUpdatedAt : Option Int
  beforeUpdatedAt : Option Int
  direction : Option String
  limit : Int

/-- A server: its limits and its store, and what it reads from the blob of a row and from the proof bundle
    that the bill names: `_bill_v3_record_has_allowed_value` and `_wallet_sync_record_from_bill_row_v3`. -/
structure SyncServer (Record : Type) where
  crypto : Crypto
  store : LocalStore
  rangeLimit : Nat
  scanLimit : Nat
  hasAllowedValue : BillRow → Bool
  record : BillRow → Except String Record

/-- A page, with the row that each record was read from. -/
structure SyncPage (Record : Type) where
  records : List (BillRow × Record)
  hasMore : Bool
  nextCursor : Option CursorRequest
  direction : SyncDirection

namespace WalletSync

/-! ## The request -/

/-- `_parse_known_token_sequences_v3`. -/
def parseKnownTokenSequences (known : List (String × Int)) : List (String × Int) :=
  (known.filter fun entry => entry.1 ≠ "").foldl
    (fun parsed entry => AssocList.put entry.1 entry.2 parsed) []

/-- The direction of a request, or the one that its times stand for. -/
def syncDirection (request : SyncRequest) : SyncDirection :=
  match Text.lower (request.direction.getD "") with
  | "newer" => .newer
  | "backfill" => .backfill
  | "reconcile" => .reconcile
  | _ =>
    if request.afterUpdatedAt.getD 0 ≠ 0 ∧ request.beforeUpdatedAt.getD 0 = 0 then .newer else .backfill

/-- `max(1, min(500, int(limit)))`. -/
def pageLimit (request : SyncRequest) : Nat :=
  (max 1 (min 500 request.limit)).toNat

/-- `_parse_wallet_sync_cursor_v3`. -/
def parseWalletSyncCursor (request : SyncRequest) (cursor : Option CursorRequest) : Option SyncCursor :=
  let requested := match syncDirection request with
    | .newer => request.afterUpdatedAt
    | _ => request.beforeUpdatedAt
  match (cursor.bind CursorRequest.updatedAt).or requested with
  | none => none
  | some updatedAt => some
      { updatedAt
        sequence := (cursor.bind CursorRequest.sequence).getD 0
        tokenId := (cursor.bind CursorRequest.tokenId).getD "" }

/-! ## The rows -/

/-- The columns that rows are sorted by. -/
def rowKey (row : BillRow) : Int ×ₗ Int ×ₗ String :=
  toLex (row.updatedAt, toLex (row.bill.sequence, row.bill.tokenId))

/-- The columns of a cursor. -/
def cursorKey (cursor : SyncCursor) : Int ×ₗ Int ×ₗ String :=
  toLex (cursor.updatedAt, toLex (cursor.sequence, cursor.tokenId))

/-- The rows of an owner in the order of a direction. Every status is one of those that are asked for. -/
def ownerRows (store : LocalStore) (ownerAddress : String) (direction : SyncDirection) : List BillRow :=
  let rows := store.bills.filter fun row => row.bill.ownerAddress = ownerAddress
  match direction with
  | .newer => Select.orderBy rowKey rows
  | _ => Select.orderBy (fun row => OrderDual.toDual (rowKey row)) rows

/-- The clause of a cursor. -/
def isAfter (direction : SyncDirection) (cursor : Option SyncCursor) (row : BillRow) : Bool :=
  match cursor with
  | none => true
  | some cursor =>
    match direction with
    | .newer => cursorKey cursor < rowKey row
    | _ => rowKey row < cursorKey cursor

variable {Record : Type} (server : SyncServer Record) (request : SyncRequest)

/-- The rows of a page's query, over all offsets. -/
def rowsAfter (cursor : Option CursorRequest) : List BillRow :=
  let direction := syncDirection request
  (ownerRows server.store request.ownerAddress direction).filter
    (isAfter direction (parseWalletSyncCursor request cursor))

/-- The record of a row, unless the wallet has the bill, a newer branch is stored, or it cannot be read. -/
def syncRecord (row : BillRow) : Option Record :=
  let known := AssocList.get? row.bill.tokenId (parseKnownTokenSequences request.knownTokenSequences)
  if ∃ sequence ∈ known, row.bill.sequence ≤ sequence then none
  else if KnownRanges.displayIdCoveredByKnownRanges server.crypto row.bill.displayId row.bill.sequence
      (KnownRanges.parseKnownDisplayRanges server.rangeLimit request.knownDisplayRanges) then none
  else if server.store.hasMaterializedNewerV3Branch row.bill.tokenId row.bill.sequence then none
  else
    match server.store.bills.find? fun other => other.bill.billHash = row.bill.billHash with
    | none => none
    | some full => if server.hasAllowedValue full then (server.record full).toOption else none

/-! ## Pages -/

/-- `batch_size`. -/
def batchSize : Nat := max (pageLimit request) 250

/-- `scan_limit`. -/
def scanLimit : Nat := max server.scanLimit (pageLimit request * 100)

/-- The cursor of a row. -/
def cursorOf (row : BillRow) : CursorRequest :=
  ⟨some row.updatedAt, some row.bill.sequence, some row.bill.tokenId⟩

/-- `wallet_bill_sync_page`. -/
def walletBillSyncPage (cursor : Option CursorRequest) : SyncPage Record :=
  let limit := pageLimit request
  let records := Paging.scanPage (syncRecord server request) limit (batchSize request)
    (scanLimit server request) (rowsAfter server request cursor)
  { records
    hasMore := limit ≤ records.length
    nextCursor := if limit ≤ records.length then records.getLast?.map fun last => cursorOf last.1 else none
    direction := syncDirection request }

/-- The records of all pages: each page is asked for with the cursor of the one before, until there are no
    more. The number of pages is bounded by `fuel`. -/
def syncPages : Nat → Option CursorRequest → Option (List (BillRow × Record))
  | 0, _ => none
  | fuel + 1, cursor =>
    let page := walletBillSyncPage server request cursor
    if page.hasMore = true then (syncPages fuel page.nextCursor).map (page.records ++ ·)
    else some page.records

/-! ## When nothing is lost -/

/-- The rows that a page scans at most: the scan limit, rounded up to whole batches. -/
def scannedRows : Nat :=
  Paging.window (batchSize request) (scanLimit server request)

/-- Cut the eligible rows behind the starting cursor into pages. No page ends between two rows with one time,
    sequence and token, and the rows of each page are among the first `scannedRows` that are left for it. -/
def SyncFits (cursor : Option CursorRequest) : Prop :=
  match syncDirection request with
  | .newer => Paging.Fits rowKey (syncRecord server request) (pageLimit request)
      (scannedRows server request) (rowsAfter server request cursor)
  | _ => Paging.Fits (fun row => OrderDual.toDual (rowKey row)) (syncRecord server request)
      (pageLimit request) (scannedRows server request) (rowsAfter server request cursor)

variable {server request}

theorem pageLimit_pos : 0 < pageLimit request := by
  unfold pageLimit
  have hpos : (1 : Int) ≤ max 1 (min 500 request.limit) := le_max_left _ _
  omega

theorem batchSize_pos : 0 < batchSize request :=
  pageLimit_pos.trans_le (le_max_left _ _)

theorem parseWalletSyncCursor_cursorOf (row : BillRow) :
    parseWalletSyncCursor request (some (cursorOf row)) =
      some ⟨row.updatedAt, row.bill.sequence, row.bill.tokenId⟩ := rfl

/-- A page, when the rows are sorted by a key and a cursor selects the rows behind it. -/
theorem syncPages_eq_allPages {κ : Type} [LinearOrder κ] (key : BillRow → κ)
    (hafter : ∀ cursor last, last ∈ rowsAfter server request cursor →
      rowsAfter server request (some (cursorOf last)) =
        Paging.behind key (key last) (rowsAfter server request cursor))
    (fuel : Nat) (cursor : Option CursorRequest) :
    syncPages server request fuel cursor =
      Paging.allPages key (fun rows => (Paging.itemsOf (syncRecord server request)
        (rows.take (scannedRows server request))).take (pageLimit request)) (pageLimit request) fuel
        (rowsAfter server request cursor) := by
  induction fuel generalizing cursor with
  | zero => rfl
  | succ fuel ih =>
    have hpage : (walletBillSyncPage server request cursor).records =
        (Paging.itemsOf (syncRecord server request) ((rowsAfter server request cursor).take
          (scannedRows server request))).take (pageLimit request) :=
      Paging.scanPage_eq batchSize_pos _
    unfold syncPages Paging.allPages
    rw [← hpage]
    cases hlast : (walletBillSyncPage server request cursor).records.getLast? with
    | none =>
      have hnil := List.getLast?_eq_none_iff.1 hlast
      have hmore : (walletBillSyncPage server request cursor).hasMore = false := by
        have hpos := @pageLimit_pos request
        refine decide_eq_false fun hle => ?_
        have hlength : pageLimit request ≤ (walletBillSyncPage server request cursor).records.length := hle
        rw [hnil, List.length_nil] at hlength
        omega
      simp only [hmore, hnil]
      rfl
    | some last =>
      by_cases hfull : pageLimit request ≤ (walletBillSyncPage server request cursor).records.length
      · have hmore : (walletBillSyncPage server request cursor).hasMore = true := decide_eq_true hfull
        have hnext : (walletBillSyncPage server request cursor).nextCursor = some (cursorOf last.1) := by
          refine (if_pos hfull).trans ?_
          show ((walletBillSyncPage server request cursor).records.getLast?.map fun last =>
            cursorOf last.1) = _
          rw [hlast]
          rfl
        have hmem : last.1 ∈ rowsAfter server request cursor := by
          have hitem := List.mem_of_getLast? hlast
          rw [hpage] at hitem
          obtain ⟨row, hrow, hread⟩ := List.mem_filterMap.1 (List.mem_of_mem_take hitem)
          obtain ⟨record, -, rfl⟩ := Option.map_eq_some_iff.1 hread
          exact List.mem_of_mem_take hrow
        simp only [hmore, hnext, if_pos hfull, if_true]
        rw [ih, hafter cursor last.1 hmem]
      · have hmore : (walletBillSyncPage server request cursor).hasMore = false := decide_eq_false hfull
        simp only [hmore, if_neg hfull]
        rfl

/-- The rows behind a row are behind the cursor that the row is behind. -/
theorem rowsAfter_cursorOf {κ : Type} [LinearOrder κ] (key : BillRow → κ)
    (hrow : ∀ last row : BillRow, isAfter (syncDirection request)
      (some ⟨last.updatedAt, last.bill.sequence, last.bill.tokenId⟩) row = true ↔ key last < key row)
    (htrans : ∀ cursor (last row : BillRow), isAfter (syncDirection request) cursor last = true →
      key last < key row → isAfter (syncDirection request) cursor row = true)
    (cursor : Option CursorRequest) (last : BillRow) (hlast : last ∈ rowsAfter server request cursor) :
    rowsAfter server request (some (cursorOf last)) =
      Paging.behind key (key last) (rowsAfter server request cursor) := by
  have hafter := (List.mem_filter.1 hlast).2
  unfold Paging.behind rowsAfter
  simp only [parseWalletSyncCursor_cursorOf]
  rw [List.filter_filter]
  refine List.filter_congr fun row _ => ?_
  rw [Bool.eq_iff_iff, hrow, Bool.and_eq_true, decide_eq_true_iff]
  exact ⟨fun hlt => ⟨hlt, htrans _ last row hafter hlt⟩, And.left⟩

theorem isAfter_newer (cursor : SyncCursor) (row : BillRow) :
    isAfter .newer (some cursor) row = true ↔ cursorKey cursor < rowKey row :=
  decide_eq_true_iff

theorem isAfter_older {direction : SyncDirection} (h : direction ≠ .newer) (cursor : SyncCursor)
    (row : BillRow) : isAfter direction (some cursor) row = true ↔ rowKey row < cursorKey cursor := by
  cases direction with
  | newer => exact absurd rfl h
  | backfill => exact decide_eq_true_iff
  | reconcile => exact decide_eq_true_iff

/-- Paging in a direction, for the key by which its rows are sorted. -/
theorem syncPages_spec {κ : Type} [LinearOrder κ] (key : BillRow → κ)
    (hsorted : (ownerRows server.store request.ownerAddress (syncDirection request)).Pairwise
      fun a b => key a ≤ key b)
    (hrow : ∀ last row : BillRow, isAfter (syncDirection request)
      (some ⟨last.updatedAt, last.bill.sequence, last.bill.tokenId⟩) row = true ↔ key last < key row)
    (htrans : ∀ cursor (last row : BillRow), isAfter (syncDirection request) cursor last = true →
      key last < key row → isAfter (syncDirection request) cursor row = true)
    (cursor : Option CursorRequest) :
    ∃ fuel records, syncPages server request fuel cursor = some records ∧
      (records = Paging.itemsOf (syncRecord server request) (rowsAfter server request cursor) ↔
        Paging.Fits key (syncRecord server request) (pageLimit request) (scannedRows server request)
          (rowsAfter server request cursor)) := by
  have hsortedAfter : (rowsAfter server request cursor).Pairwise fun a b => key a ≤ key b :=
    hsorted.sublist List.filter_sublist
  obtain ⟨records, hrecords, -, hiff⟩ := @Paging.allPages_spec _ _ _ _ key (syncRecord server request)
    (pageLimit request) (scannedRows server request) _ pageLimit_pos hsortedAfter
    ((rowsAfter server request cursor).length + 1) (Nat.lt_succ_self _)
  refine ⟨(rowsAfter server request cursor).length + 1, records, ?_, hiff⟩
  rw [syncPages_eq_allPages key (rowsAfter_cursorOf key hrow htrans)]
  exact hrecords

/-- **Paging returns every eligible row behind the starting cursor once and in order exactly if no page ends
    between two rows that one cursor stands for, and none is given up before its rows are scanned.** It comes
    to an end in any case. -/
theorem syncPages_complete_iff {Record : Type} (server : SyncServer Record) (request : SyncRequest)
    (cursor : Option CursorRequest) :
    ∃ fuel records, syncPages server request fuel cursor = some records ∧
      (records = Paging.itemsOf (syncRecord server request) (rowsAfter server request cursor) ↔
        SyncFits server request cursor) := by
  unfold SyncFits
  by_cases hdirection : syncDirection request = .newer
  · simp only [hdirection]
    refine syncPages_spec rowKey ?_ ?_ ?_ cursor
    · rw [hdirection]
      exact Select.sorted_orderBy rowKey _
    · intro last row
      rw [hdirection, isAfter_newer]
      rfl
    · rw [hdirection]
      intro start last row hlast hlt
      cases start with
      | none => rfl
      | some start => exact (isAfter_newer _ _).2 (((isAfter_newer _ _).1 hlast).trans hlt)
  · have hspec := @syncPages_spec _ server request _ _ (fun row => OrderDual.toDual (rowKey row)) ?_ ?_ ?_ cursor
    · cases hdirection' : syncDirection request with
      | newer => exact absurd hdirection' hdirection
      | backfill => exact hspec
      | reconcile => exact hspec
    · cases hdirection' : syncDirection request with
      | newer => exact absurd hdirection' hdirection
      | backfill => exact Select.sorted_orderBy (fun row => OrderDual.toDual (rowKey row)) _
      | reconcile => exact Select.sorted_orderBy (fun row => OrderDual.toDual (rowKey row)) _
    · intro last row
      rw [isAfter_older hdirection]
      rfl
    · intro start last row hlast hlt
      cases start with
      | none => rfl
      | some start =>
        have hlast := (isAfter_older hdirection _ _).1 hlast
        exact (isAfter_older hdirection _ _).2 (lt_trans (show rowKey row < rowKey last from hlt) hlast)

/-! ## Two branches of one bill -/

/-- A row of a bill that has a competing branch at the same sequence, written at the same time. -/
def branchRow (billHash : String) : BillRow where
  bill :=
    { billHash
      tokenId := "token"
      displayId := "1x1"
      archivedTransfers := []
      recentTransfers := []
      ownerAddress := "owner"
      lastTransferHash := billHash
      sequence := 1
      operatorPublicKey := none
      blobLength := 0
      displayId_ne := LocalStore.sampleDisplayId_ne
      displayId_strip := LocalStore.sampleDisplayId_strip
      transfers_token := fun _ h => nomatch h
      transfers_sequence := fun _ h => nomatch h }
  firstSeen := 5
  updatedAt := 5
  status := .pending

/-- A server with two such rows. -/
def branchServer : SyncServer Unit where
  crypto := sampleCrypto
  store := ⟨false, 1, false, [branchRow "a", branchRow "b"], [], [], 5⟩
  rangeLimit := 2048
  scanLimit := 100000
  hasAllowedValue _ := true
  record _ := .ok ()

/-- A wallet that has nothing and asks for one row at a time. -/
def branchRequest : SyncRequest where
  ownerAddress := "owner"
  knownTokenSequences := []
  knownDisplayRanges := []
  afterUpdatedAt := none
  beforeUpdatedAt := none
  direction := some "newer"
  limit := 1

/-- The page ends between the two branches, and the second one is lost. -/
theorem not_syncPages_complete : ¬ ∀ (Record : Type) (server : SyncServer Record) (request : SyncRequest)
    (cursor : Option CursorRequest), ∃ fuel, syncPages server request fuel cursor =
      some (Paging.itemsOf (syncRecord server request) (rowsAfter server request cursor)) := by
  intro hall
  obtain ⟨fuel, hfuel⟩ := hall Unit branchServer branchRequest none
  have hfirst : walletBillSyncPage branchServer branchRequest none =
      ⟨[(branchRow "a", ())], true, some (cursorOf (branchRow "a")), .newer⟩ := by rfl
  have hsecond : walletBillSyncPage branchServer branchRequest (some (cursorOf (branchRow "a"))) =
      ⟨[], false, none, .newer⟩ := by rfl
  have heligible : Paging.itemsOf (syncRecord branchServer branchRequest)
      (rowsAfter branchServer branchRequest none) = [(branchRow "a", ()), (branchRow "b", ())] := by rfl
  rw [heligible] at hfuel
  cases fuel with
  | zero => exact nomatch hfuel
  | succ fuel =>
    unfold syncPages at hfuel
    simp only [hfirst, if_true] at hfuel
    cases fuel with
    | zero => exact nomatch hfuel
    | succ fuel =>
      unfold syncPages at hfuel
      simp only [hsecond] at hfuel
      have hlength : some 1 = some 2 := congrArg (Option.map List.length) hfuel
      exact absurd hlength (by decide)

end WalletSync
