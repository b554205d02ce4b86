import InternationalDollar.Lib.Select
import Mathlib.Data.List.Infix

set_option autoImplicit false

/-! # Paging by a cursor

A reader asks for a sorted list page by page. A page holds the next items, up to a limit, and the reader
continues behind the key of the last one. The server scans batches of rows, reads an item from the rows that
have one, and gives up a page when it has scanned many rows. `allPages_eq_iff` says when nothing is lost: no
page ends between two items with one key, and no page is given up too early. -/

namespace Paging

variable {α β κ : Type}

/-- The items of some rows, each with its row. -/
def itemsOf (read : α → Option β) (rows : List α) : List (α × β) :=
  rows.filterMap fun row => (read row).map fun item => (row, item)

/-! ## One page -/

/-- The loop over a batch, which ends when there are enough items. -/
def readBatch (read : α → Option β) (limit : Nat) (items : List (α × β)) : List α → List (α × β)
  | [] => items
  | row :: rest =>
    match read row with
    | none => readBatch read limit items rest
    | some item =>
      if limit ≤ (items ++ [(row, item)]).length then items ++ [(row, item)]
      else readBatch read limit (items ++ [(row, item)]) rest

/-- The loop over the batches, with a bound on their number. -/
def scanBatches (read : α → Option β) (limit batchSize scanLimit : Nat) :
    Nat → List α → Nat → List (α × β) → List (α × β)
  | 0, _, _, items => items
  | fuel + 1, rows, scanned, items =>
    if items.length < limit ∧ scanned < scanLimit then
      match rows.take batchSize with
      | [] => items
      | batch => scanBatches read limit batchSize scanLimit fuel (rows.drop batchSize)
          (scanned + batch.length) (readBatch read limit items batch)
    else items

/-- The items of a page: there are no more batches than rows. -/
def scanPage (read : α → Option β) (limit batchSize scanLimit : Nat) (rows : List α) : List (α × β) :=
  scanBatches read limit batchSize scanLimit (rows.length + 1) rows 0 []

/-- The number of rows that are scanned at most: the scan limit, rounded up to whole batches. -/
def window (batchSize scanLimit : Nat) : Nat :=
  batchSize * ((scanLimit + batchSize - 1) / batchSize)

/-! ## All pages -/

variable [LinearOrder κ]

/-- The rows behind a key. -/
def behind (key : α → κ) (cursor : κ) (rows : List α) : List α :=
  rows.filter fun row => cursor < key row

/-- The pages one after the other, with a bound on their number: `none` if there are more. A page ends the
    reading if it is not full. -/
def allPages (key : α → κ) (page : List α → List (α × β)) (limit : Nat) :
    Nat → List α → Option (List (α × β))
  | 0, _ => none
  | fuel + 1, rows =>
    match (page rows).getLast? with
    | none => some []
    | some last =>
      if limit ≤ (page rows).length then
        (allPages key page limit fuel (behind key (key last.1) rows)).map (page rows ++ ·)
      else some (page rows)

/-! ## A page is a front of the items -/

section Page

variable {read : α → Option β} {limit batchSize scanLimit : Nat}

theorem readBatch_eq (items : List (α × β)) (rows : List α) (h : items.length < limit) :
    readBatch read limit items rows = items ++ (itemsOf read rows).take (limit - items.length) := by
  induction rows generalizing items with
  | nil => simp [readBatch, itemsOf]
  | cons row rest ih =>
    unfold readBatch
    cases hread : read row with
    | none =>
      have hskip : itemsOf read (row :: rest) = itemsOf read rest := by simp [itemsOf, hread]
      rw [hskip]
      exact ih items h
    | some item =>
      have hhead : itemsOf read (row :: rest) = (row, item) :: itemsOf read rest := by
        simp [itemsOf, hread]
      have hlength : (items ++ [(row, item)]).length = items.length + 1 := by simp
      simp only
      rw [hhead, hlength]
      obtain ⟨room, hroom⟩ : ∃ room, limit - items.length = room + 1 :=
        ⟨limit - items.length - 1, by omega⟩
      rw [hroom, List.take_succ_cons]
      by_cases hfull : limit ≤ items.length + 1
      · have hzero : room = 0 := by omega
        simp only [if_pos hfull, hzero, List.take_zero]
      · simp only [if_neg hfull]
        rw [ih _ (by rw [hlength]; omega), hlength, List.append_assoc, List.singleton_append]
        congr 3
        omega

theorem itemsOf_append (read : α → Option β) (front back : List α) :
    itemsOf read (front ++ back) = itemsOf read front ++ itemsOf read back :=
  List.filterMap_append

/-- As long as rows are scanned, the next batch is, and then the batches after it. -/
theorem window_step (hbatch : 0 < batchSize) {left : Nat} (hleft : 0 < left) :
    window batchSize left = batchSize + window batchSize (left - batchSize) := by
  unfold window
  have hdiv : (left + batchSize - 1) / batchSize = (left - batchSize + batchSize - 1) / batchSize + 1 := by
    by_cases hle : batchSize ≤ left
    · rw [← Nat.add_div_right _ hbatch]
      congr 1
      omega
    · have hlast : left - batchSize = 0 := by omega
      rw [hlast, Nat.zero_add, Nat.div_eq_of_lt (by omega : batchSize - 1 < batchSize)]
      exact Nat.div_eq_of_lt_le (by omega) (by omega)
  rw [hdiv, Nat.mul_add, Nat.mul_one, Nat.add_comm]

/-- The rows that are scanned are the next batch and those of the batches after it. -/
theorem take_window (hbatch : 0 < batchSize) (rows : List α) {scanned : Nat} (h : scanned < scanLimit) :
    rows.take (window batchSize (scanLimit - scanned)) = rows.take batchSize ++
      (rows.drop batchSize).take
        (window batchSize (scanLimit - (scanned + (rows.take batchSize).length))) := by
  rw [window_step hbatch (by omega), List.take_add]
  congr 1
  by_cases hfull : batchSize ≤ rows.length
  · rw [List.length_take, Nat.min_eq_left hfull, Nat.sub_sub]
  · rw [List.drop_eq_nil_of_le (by omega), List.take_nil, List.take_nil]

/-- What the loop over the batches finds: the items of the rows that are left to scan, up to the limit. -/
theorem scanBatches_eq (hbatch : 0 < batchSize) (fuel : Nat) (rows : List α) (scanned : Nat)
    (items : List (α × β)) (hfuel : rows.length < fuel) :
    scanBatches read limit batchSize scanLimit fuel rows scanned items =
      items ++ (itemsOf read (rows.take (window batchSize (scanLimit - scanned)))).take
        (limit - items.length) := by
  induction fuel generalizing rows scanned items with
  | zero => omega
  | succ fuel ih =>
    unfold scanBatches
    by_cases hgo : items.length < limit ∧ scanned < scanLimit
    · rw [if_pos hgo]
      cases rows with
      | nil => simp [itemsOf]
      | cons row rest =>
        obtain ⟨size, rfl⟩ : ∃ size, batchSize = size + 1 := ⟨batchSize - 1, by omega⟩
        have hstep : (match (row :: rest).take (size + 1) with
            | [] => items
            | batch => scanBatches read limit (size + 1) scanLimit fuel ((row :: rest).drop (size + 1))
                (scanned + batch.length) (readBatch read limit items batch)) =
            scanBatches read limit (size + 1) scanLimit fuel ((row :: rest).drop (size + 1))
              (scanned + ((row :: rest).take (size + 1)).length)
              (readBatch read limit items ((row :: rest).take (size + 1))) := by
          rw [List.take_succ_cons]
        rw [hstep, ih _ _ _ (by rw [List.length_drop]; simp only [List.length_cons] at hfuel ⊢; omega),
          readBatch_eq items _ hgo.1, take_window hbatch (row :: rest) hgo.2, itemsOf_append,
          List.take_append, List.append_assoc, List.length_append, List.length_take]
        congr 3
        omega
    · rw [if_neg hgo]
      rcases not_and_or.1 hgo with hfull | hdone
      · have hzero : limit - items.length = 0 := by omega
        rw [hzero, List.take_zero, List.append_nil]
      · have hzero : scanLimit - scanned = 0 := by omega
        have hwindow : window batchSize 0 = 0 := by
          unfold window
          rw [Nat.zero_add, Nat.div_eq_of_lt (by omega), Nat.mul_zero]
        rw [hzero, hwindow]
        simp [itemsOf]

/-- A page has the first items of the rows that are scanned at most. -/
theorem scanPage_eq (hbatch : 0 < batchSize) (rows : List α) :
    scanPage read limit batchSize scanLimit rows =
      (itemsOf read (rows.take (window batchSize scanLimit))).take limit := by
  unfold scanPage
  rw [scanBatches_eq hbatch _ rows 0 [] (Nat.lt_succ_self _), List.nil_append, List.length_nil, Nat.sub_zero,
    Nat.sub_zero]

end Page

/-! ## The rows behind a page -/

section Behind

variable {key : α → κ} {read : α → Option β} {rows : List α}

theorem itemsOf_behind (cursor : κ) :
    itemsOf read (behind key cursor rows) = (itemsOf read rows).filter fun item => cursor < key item.1 := by
  induction rows with
  | nil => rfl
  | cons row rest ih =>
    unfold itemsOf behind at ih ⊢
    by_cases hrow : cursor < key row
    · cases hread : read row with
      | none => simpa [List.filter_cons, List.filterMap_cons, hread, hrow] using ih
      | some item => simpa [List.filter_cons, List.filterMap_cons, hread, hrow] using ih
    · cases hread : read row with
      | none => simpa [List.filter_cons, List.filterMap_cons, hread, hrow] using ih
      | some item => simpa [List.filter_cons, List.filterMap_cons, hread, hrow] using ih

theorem sorted_itemsOf (h : rows.Pairwise fun a b => key a ≤ key b) :
    (itemsOf read rows).Pairwise fun a b => key a.1 ≤ key b.1 := by
  refine h.filterMap _ fun a b hab item hitem item' hitem' => ?_
  obtain ⟨x, -, rfl⟩ := Option.map_eq_some_iff.1 hitem
  obtain ⟨y, -, rfl⟩ := Option.map_eq_some_iff.1 hitem'
  exact hab

/-- Of sorted items those behind the last of a page are all after the page. -/
theorem filter_behind_eq {items : List (α × β)} (hsorted : items.Pairwise fun a b => key a.1 ≤ key b.1)
    {n : Nat} {last : α × β} (hlast : items[n]? = some last) :
    (items.filter fun item => key last.1 < key item.1) =
      (items.drop (n + 1)).filter fun item => key last.1 < key item.1 := by
  obtain ⟨hlt, hget⟩ := List.getElem?_eq_some_iff.1 hlast
  have hsplit : items = items.take n ++ last :: items.drop (n + 1) := by
    rw [← hget, ← List.drop_eq_getElem_cons hlt, List.take_append_drop]
  have hbefore : (items.take n ++ [last]).filter (fun item => key last.1 < key item.1) = [] := by
    rw [hsplit, List.pairwise_append] at hsorted
    refine List.filter_eq_nil_iff.2 fun item hitem => ?_
    rw [decide_eq_true_iff, not_lt]
    rcases List.mem_append.1 hitem with h | h
    · exact hsorted.2.2 item h last List.mem_cons_self
    · exact (List.mem_singleton.1 h ▸ le_rfl)
  calc items.filter (fun item => key last.1 < key item.1)
      = ((items.take n ++ [last]) ++ items.drop (n + 1)).filter (fun item => key last.1 < key item.1) := by
        rw [List.append_assoc, List.singleton_append, ← hsplit]
    _ = (items.drop (n + 1)).filter fun item => key last.1 < key item.1 := by
        rw [List.filter_append, hbefore, List.nil_append]

/-- If the next item has another key, those behind the last of a page are all that follow. -/
theorem filter_behind_eq_drop {items : List (α × β)} (hsorted : items.Pairwise fun a b => key a.1 ≤ key b.1)
    {n : Nat} {last next : α × β} (hlast : items[n]? = some last) (hnext : items[n + 1]? = some next)
    (hne : key last.1 ≠ key next.1) :
    (items.filter fun item => key last.1 < key item.1) = items.drop (n + 1) := by
  rw [filter_behind_eq hsorted hlast]
  obtain ⟨hlt, hget⟩ := List.getElem?_eq_some_iff.1 hlast
  obtain ⟨hlt', hget'⟩ := List.getElem?_eq_some_iff.1 hnext
  have hle : key last.1 ≤ key next.1 := by
    rw [← hget, ← hget']
    exact List.pairwise_iff_getElem.1 hsorted n (n + 1) hlt hlt' (Nat.lt_succ_self n)
  refine List.filter_eq_self.2 fun item hitem => decide_eq_true ?_
  refine (lt_of_le_of_ne hle hne).trans_le ?_
  rw [List.drop_eq_getElem_cons hlt', hget'] at hitem
  rcases List.mem_cons.1 hitem with rfl | hitem
  · exact le_rfl
  · have hdrop := hsorted.sublist (List.drop_sublist (n + 1) items)
    rw [List.drop_eq_getElem_cons hlt', hget', List.pairwise_cons] at hdrop
    exact hdrop.1 item hitem

/-- If the next item has the same key, it is lost. -/
theorem length_filter_behind_lt {items : List (α × β)}
    (hsorted : items.Pairwise fun a b => key a.1 ≤ key b.1) {n : Nat} {last next : α × β}
    (hlast : items[n]? = some last) (hnext : items[n + 1]? = some next) (heq : key last.1 = key next.1) :
    (items.filter fun item => key last.1 < key item.1).length < (items.drop (n + 1)).length := by
  rw [filter_behind_eq hsorted hlast]
  obtain ⟨hlt', hget'⟩ := List.getElem?_eq_some_iff.1 hnext
  refine List.length_filter_lt_length_iff_exists.2 ⟨next, ?_, ?_⟩
  · rw [List.drop_eq_getElem_cons hlt', hget']
    exact List.mem_cons_self
  · rw [heq]
    simp

/-- Rows behind a later key are behind an earlier one. -/
theorem behind_behind {cursor cursor' : κ} (h : cursor ≤ cursor') :
    behind key cursor' (behind key cursor rows) = behind key cursor' rows := by
  unfold behind
  rw [List.filter_filter]
  refine List.filter_congr fun row _ => ?_
  rw [← Bool.decide_and, decide_eq_decide]
  exact ⟨And.left, fun hlt => ⟨hlt, h.trans_lt hlt⟩⟩

end Behind

/-! ## When nothing is lost -/

/-- The rows that are left for a page: all for the first one, and for the others those behind the last item
    before it, if every page is full. -/
def rowsOfPage (key : α → κ) (read : α → Option β) (limit : Nat) (rows : List α) : Nat → List α
  | 0 => rows
  | k + 1 =>
    match (itemsOf read rows)[(k + 1) * limit - 1]? with
    | none => []
    | some last => behind key (key last.1) rows

/-- Cut the items into pages of `limit`. Nothing is lost at a page if its first item has another key than the
    last item before it, and if its items are among the first `scanned` rows that are left for it. -/
structure PageFits (key : α → κ) (read : α → Option β) (limit scanned : Nat) (rows : List α) (k : Nat) :
    Prop where
  apart : ∀ last next, 0 < k → (itemsOf read rows)[k * limit - 1]? = some last →
    (itemsOf read rows)[k * limit]? = some next → key last.1 ≠ key next.1
  reached : min limit ((itemsOf read rows).length - k * limit) ≤
    (itemsOf read ((rowsOfPage key read limit rows k).take scanned)).length

/-- Nothing is lost at any page that has items. -/
def Fits (key : α → κ) (read : α → Option β) (limit scanned : Nat) (rows : List α) : Prop :=
  ∀ k, k * limit < (itemsOf read rows).length → PageFits key read limit scanned rows k

section AllPages

variable {key : α → κ} {read : α → Option β} {limit scanned : Nat} {rows : List α}

/-- The pages behind the first one are those of the rows that are left. -/
theorem pageFits_succ_iff (hlimit : 0 < limit) (hsorted : rows.Pairwise fun a b => key a ≤ key b)
    {last next : α × β} (hlast : (itemsOf read rows)[limit - 1]? = some last)
    (hnext : (itemsOf read rows)[limit]? = some next) (hne : key last.1 ≠ key next.1) (k : Nat) :
    PageFits key read limit scanned rows (k + 1) ↔
      PageFits key read limit scanned (behind key (key last.1) rows) k := by
  have hindex : limit - 1 + 1 = limit := by omega
  have hrest : itemsOf read (behind key (key last.1) rows) = (itemsOf read rows).drop limit := by
    rw [itemsOf_behind, filter_behind_eq_drop (sorted_itemsOf hsorted) hlast (hindex ▸ hnext) hne, hindex]
  have hmul : (k + 1) * limit = limit + k * limit := by rw [Nat.succ_mul, Nat.add_comm]
  have hrows : rowsOfPage key read limit rows (k + 1) =
      rowsOfPage key read limit (behind key (key last.1) rows) k := by
    cases k with
    | zero =>
      have hstart : (itemsOf read rows)[(0 + 1) * limit - 1]? = some last := by
        rwa [Nat.zero_add, Nat.one_mul]
      rw [rowsOfPage, rowsOfPage, hstart]
    | succ j =>
      have hle : limit ≤ (j + 1) * limit := Nat.le_mul_of_pos_left limit (Nat.succ_pos j)
      have hmul' : (j + 1 + 1) * limit = limit + (j + 1) * limit := hmul
      have hshift : (itemsOf read (behind key (key last.1) rows))[(j + 1) * limit - 1]? =
          (itemsOf read rows)[(j + 1 + 1) * limit - 1]? := by
        rw [hrest, List.getElem?_drop]
        congr 1
        omega
      rw [rowsOfPage, rowsOfPage, hshift]
      cases hitem : (itemsOf read rows)[(j + 1 + 1) * limit - 1]? with
      | none => rfl
      | some item =>
        refine (behind_behind ?_).symm
        obtain ⟨hlt, hget⟩ := List.getElem?_eq_some_iff.1 hlast
        obtain ⟨hlt', hget'⟩ := List.getElem?_eq_some_iff.1 hitem
        rw [← hget, ← hget']
        refine List.pairwise_iff_getElem.1 (sorted_itemsOf hsorted) _ _ hlt hlt' ?_
        omega
  have hfirst : (itemsOf read rows)[(k + 1) * limit]? =
      (itemsOf read (behind key (key last.1) rows))[k * limit]? := by
    rw [hrest, List.getElem?_drop, hmul]
  have hlength : (itemsOf read rows).length - (k + 1) * limit =
      (itemsOf read (behind key (key last.1) rows)).length - k * limit := by
    rw [hrest, List.length_drop, hmul, Nat.sub_sub]
  constructor
  · intro h
    refine ⟨fun last' next' hk hlast' hnext' => ?_, ?_⟩
    · refine h.apart last' next' (Nat.succ_pos k) ?_ (hfirst.trans hnext')
      rw [hrest, List.getElem?_drop] at hlast'
      rw [← hlast', hmul]
      congr 1
      have hle : limit ≤ k * limit := Nat.le_mul_of_pos_left limit hk
      omega
    · have hreached := h.reached
      rwa [hrows, hlength] at hreached
  · intro h
    refine ⟨fun last' next' _ hlast' hnext' => ?_, ?_⟩
    · rcases Nat.eq_zero_or_pos k with rfl | hk
      · rw [Nat.zero_add, Nat.one_mul] at hlast' hnext'
        obtain rfl := Option.some.inj (hlast.symm.trans hlast')
        obtain rfl := Option.some.inj (hnext.symm.trans hnext')
        exact hne
      · refine h.apart last' next' hk ?_ (hfirst.symm.trans hnext')
        rw [hrest, List.getElem?_drop, ← hlast', hmul]
        congr 1
        have hle : limit ≤ k * limit := Nat.le_mul_of_pos_left limit hk
        omega
    · rw [hrows, hlength]
      exact h.reached

/-- If the first page is full, the pages fit exactly if the others fit the rows that are left. -/
theorem fits_iff_of_full (hlimit : 0 < limit) (hsorted : rows.Pairwise fun a b => key a ≤ key b)
    (hfull : limit ≤ (itemsOf read (rows.take scanned)).length) {last next : α × β}
    (hlast : (itemsOf read rows)[limit - 1]? = some last)
    (hnext : (itemsOf read rows)[limit]? = some next) (hne : key last.1 ≠ key next.1) :
    Fits key read limit scanned rows ↔ Fits key read limit scanned (behind key (key last.1) rows) := by
  have hindex : limit - 1 + 1 = limit := by omega
  have hlength : (itemsOf read (behind key (key last.1) rows)).length =
      (itemsOf read rows).length - limit := by
    rw [itemsOf_behind, filter_behind_eq_drop (sorted_itemsOf hsorted) hlast (hindex ▸ hnext) hne, hindex,
      List.length_drop]
  constructor
  · intro h k hk
    refine (pageFits_succ_iff hlimit hsorted hlast hnext hne k).1 (h (k + 1) ?_)
    rw [Nat.succ_mul]
    omega
  · intro h k hk
    cases k with
    | zero =>
      refine ⟨fun _ _ hpos => absurd hpos (Nat.lt_irrefl 0), ?_⟩
      exact (Nat.min_le_left _ _).trans hfull
    | succ j =>
      refine (pageFits_succ_iff hlimit hsorted hlast hnext hne j).2 (h j ?_)
      rw [Nat.succ_mul] at hk
      omega

/-- The reading ends after at most as many pages as there are rows; what it returns is a part of the items in
    their order. **It returns all of them exactly if the pages fit.** -/
theorem allPages_spec (hlimit : 0 < limit) (hsorted : rows.Pairwise fun a b => key a ≤ key b) {fuel : Nat}
    (hfuel : rows.length < fuel) :
    ∃ items, allPages key (fun rows => (itemsOf read (rows.take scanned)).take limit) limit fuel rows =
        some items ∧ items.Sublist (itemsOf read rows) ∧
      (items = itemsOf read rows ↔ Fits key read limit scanned rows) := by
  induction fuel generalizing rows with
  | zero => omega
  | succ fuel ih =>
    have hsplit : itemsOf read rows =
        itemsOf read (rows.take scanned) ++ itemsOf read (rows.drop scanned) := by
      rw [← itemsOf_append, List.take_append_drop]
    have hpart : itemsOf read (rows.take scanned) <+: itemsOf read rows :=
      ⟨_, hsplit.symm⟩
    by_cases hfull : limit ≤ (itemsOf read (rows.take scanned)).length
    · -- the first page is full
      have hpage : (itemsOf read (rows.take scanned)).take limit = (itemsOf read rows).take limit := by
        rw [hsplit, List.take_append_of_le_length hfull]
      have hmany : limit ≤ (itemsOf read rows).length := hfull.trans hpart.length_le
      obtain ⟨last, hlast⟩ : ∃ last, (itemsOf read rows)[limit - 1]? = some last :=
        ⟨_, List.getElem?_eq_getElem (by omega)⟩
      have hlastPage : ((itemsOf read (rows.take scanned)).take limit).getLast? = some last := by
        rw [hpage, List.getLast?_eq_getElem?, List.length_take, Nat.min_eq_left hmany, List.getElem?_take,
          if_pos (by omega), hlast]
      have hlength : ((itemsOf read (rows.take scanned)).take limit).length = limit := by
        rw [List.length_take, Nat.min_eq_left hfull]
      have hmem : last.1 ∈ rows := by
        obtain ⟨row, hrow, hitem⟩ := List.mem_filterMap.1 (List.mem_of_getElem? hlast)
        obtain ⟨value, -, rfl⟩ := Option.map_eq_some_iff.1 hitem
        exact hrow
      have hfewer : (behind key (key last.1) rows).length < fuel := by
        have hlt : (behind key (key last.1) rows).length < rows.length :=
          List.length_filter_lt_length_iff_exists.2 ⟨last.1, hmem, by simp⟩
        omega
      have hsortedRest : (behind key (key last.1) rows).Pairwise fun a b => key a ≤ key b :=
        hsorted.sublist List.filter_sublist
      obtain ⟨items, hitems, hsub, hiff⟩ := ih hsortedRest hfewer
      have hindex : limit - 1 + 1 = limit := by omega
      have hbehind : (itemsOf read (behind key (key last.1) rows)).Sublist ((itemsOf read rows).drop limit) := by
        rw [itemsOf_behind, filter_behind_eq (sorted_itemsOf hsorted) hlast, hindex]
        exact List.filter_sublist
      refine ⟨(itemsOf read rows).take limit ++ items, ?_, ?_, ?_⟩
      · unfold allPages
        simp only [hlastPage, hlength, if_pos le_rfl, hitems, Option.map_some]
        rw [hpage]
      · have happend := (List.Sublist.refl ((itemsOf read rows).take limit)).append (hsub.trans hbehind)
        rwa [List.take_append_drop] at happend
      · have hcancel : (itemsOf read rows).take limit ++ items = itemsOf read rows ↔
            items = (itemsOf read rows).drop limit := by
          constructor
          · intro h
            refine List.append_cancel_left (h.trans ?_)
            rw [List.take_append_drop]
          · rintro rfl
            exact List.take_append_drop _ _
        rw [hcancel]
        cases hnext : (itemsOf read rows)[limit]? with
        | none =>
          -- there is no second page
          have hall : (itemsOf read rows).length ≤ limit := List.getElem?_eq_none_iff.1 hnext
          rw [List.drop_eq_nil_of_le hall] at hbehind ⊢
          refine iff_of_true (List.sublist_nil.1 (hsub.trans hbehind)) fun k hk => ?_
          have hzero : k = 0 := by
            by_contra hpos
            have hle : limit ≤ k * limit := Nat.le_mul_of_pos_left limit (Nat.pos_of_ne_zero hpos)
            omega
          subst hzero
          exact ⟨fun _ _ hpos => absurd hpos (Nat.lt_irrefl 0), (Nat.min_le_left _ _).trans hfull⟩
        | some next =>
          have hmore : limit < (itemsOf read rows).length := (List.getElem?_eq_some_iff.1 hnext).1
          by_cases hkey : key last.1 = key next.1
          · -- the next item is lost, and the second page does not fit
            have hlost := length_filter_behind_lt (sorted_itemsOf hsorted) hlast (hindex ▸ hnext) hkey
            rw [← itemsOf_behind, hindex] at hlost
            refine iff_of_false (fun h => ?_) fun h => ?_
            · have hle := hsub.length_le
              rw [h] at hle
              omega
            · refine (h 1 (by omega)).apart last next Nat.one_pos ?_ ?_ hkey
              · rwa [Nat.one_mul]
              · rwa [Nat.one_mul]
          · rw [fits_iff_of_full hlimit hsorted hfull hlast hnext hkey, ← hiff, itemsOf_behind,
              filter_behind_eq_drop (sorted_itemsOf hsorted) hlast (hindex ▸ hnext) hkey, hindex]
    · -- the first page is the last one
      have hpage : (itemsOf read (rows.take scanned)).take limit = itemsOf read (rows.take scanned) :=
        List.take_of_length_le (by omega)
      refine ⟨itemsOf read (rows.take scanned), ?_, hpart.sublist, ?_⟩
      · unfold allPages
        simp only [hpage]
        cases hlast : (itemsOf read (rows.take scanned)).getLast? with
        | none => rw [List.getLast?_eq_none_iff.1 hlast]
        | some last => simp only [if_neg hfull]
      · constructor
        · intro h k hk
          rw [h] at hfull
          have hzero : k = 0 := by
            by_contra hpos
            have hle : limit ≤ k * limit := Nat.le_mul_of_pos_left limit (Nat.pos_of_ne_zero hpos)
            omega
          subst hzero
          refine ⟨fun _ _ hpos => absurd hpos (Nat.lt_irrefl 0), ?_⟩
          show min limit _ ≤ (itemsOf read (rows.take scanned)).length
          rw [h]
          omega
        · intro h
          refine hpart.eq_of_length ?_
          by_contra hne
          have hlt := lt_of_le_of_ne hpart.length_le hne
          have hreached : min limit _ ≤ (itemsOf read (rows.take scanned)).length := (h 0 (by omega)).reached
          omega

end AllPages

end Paging
