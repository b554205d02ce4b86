import InternationalDollar.BillState
import InternationalDollar.CancelledSend
import InternationalDollar.Lib.AssocList
import InternationalDollar.Lib.Spans
import InternationalDollar.Lib.StableSort
import InternationalDollar.LocalStore
import Mathlib.Data.List.Infix

set_option autoImplicit false

/-! # Known display ranges

When a wallet syncs it tells the server which bills it has, as ranges of serials. The store makes ranges of
its rows, the sender merges the ranges of the wallet's lines into them, and the server skips a bill whose
serial lies in a range with its sequence or a larger one. A range never covers a serial that no row and no
line has, so nothing is skipped that the wallet does not have. -/

/-- A range of display ids: the serials from `first` to `last` of a value and a sequence. -/
abbrev DisplayRange := Span (Int ×ₗ Int)

namespace DisplayRange

/-- The range `[value, start, end, sequence]`. -/
def make (value start stop sequence : Int) : DisplayRange :=
  ⟨toLex (value, sequence), start, stop⟩

/-- The denomination of a range. -/
def value (range : DisplayRange) : Int := (ofLex range.key).1

/-- The sequence of a range. -/
def sequence (range : DisplayRange) : Int := (ofLex range.key).2

/-- The range as it is sent. -/
def toJson (range : DisplayRange) : Json :=
  .arr [.int range.value, .int range.first, .int range.last, .int range.sequence]

/-- The sort key `(item[0], item[3], item[1], item[2])`. -/
def position (range : DisplayRange) : (Int ×ₗ Int) ×ₗ Int ×ₗ Int :=
  toLex (range.key, toLex (range.first, range.last))

/-- The sort key that puts the widest ranges first. -/
def width (range : DisplayRange) : Int ×ₗ (Int ×ₗ Int) ×ₗ Int :=
  toLex (-(range.last - range.first + 1), toLex (range.key, range.first))

end DisplayRange

/-- The budgets for ranges, as the store, the sender and the server read them from the environment. -/
structure RangeBudgets where
  storeRanges : Int
  storeBytes : Int
  senderRanges : Int
  senderBytes : Int
  serverRanges : Nat

namespace KnownRanges

/-! ## Budgets -/

/-- `json.dumps(ranges, separators=(",", ":"))`. -/
def encoded (ranges : List DisplayRange) : List Char :=
  Json.render (.arr (ranges.map DisplayRange.toJson))

/-- The loop that selects ranges until the next one does not fit. -/
def fitBudget (maxRanges maxBytes : Int) (selected : List DisplayRange) (usedBytes : Int) :
    List DisplayRange → List DisplayRange
  | [] => selected
  | item :: rest =>
    let extra := (Json.render item.toJson).length + (if selected = [] then 0 else 1)
    if maxRanges ≤ selected.length ∨ maxBytes < usedBytes + extra then selected
    else fitBudget maxRanges maxBytes (selected ++ [item]) (usedBytes + extra) rest

/-! ## The ranges of the store -/

variable (crypto : Crypto) (int : String → Option Int) (store : LocalStore)

/-- `bill_v3_metadata_records_for_owner` without a limit. -/
def billV3MetadataRecordsForOwner (ownerAddress : String) (statuses : List BillStatus) : List BillRow :=
  let rows := store.bills.filter fun row => row.bill.ownerAddress = ownerAddress ∧ row.status ∈ statuses
  (Select.orderBy (fun row => -row.updatedAt) rows).filter fun row =>
    Check.returns (parseDisplayId crypto row.bill.displayId "display id") &&
      !((row.status = .settled ∨ row.status = .verified) &&
        store.hasMaterializedNewerV3Branch row.bill.tokenId row.bill.sequence)

/-- The point of a row, as a range of one serial. -/
def rowPoint (row : BillRow) : Option DisplayRange :=
  match parseDisplayId crypto row.bill.displayId "display id" with
  | .error _ => none
  | .ok (value, serial) =>
    if row.bill.sequence ≤ 0 then none
    else some (DisplayRange.make value serial serial row.bill.sequence)

/-- `wallet_known_display_ranges` for settled and verified rows. -/
def walletKnownDisplayRanges (ownerAddress : String) (maxRanges maxBytes : Int) : List DisplayRange :=
  if maxRanges ≤ 0 ∨ maxBytes ≤ 0 then []
  else
    let points := (billV3MetadataRecordsForOwner crypto store ownerAddress [.settled, .verified]).filterMap
      (rowPoint crypto)
    let ranges := Span.mergeAdjacent
      (Select.orderBy (fun point => toLex (point.key, point.first)) points)
    Select.orderBy DisplayRange.position
      (fitBudget maxRanges maxBytes [] 2 (Select.orderBy DisplayRange.width ranges))

/-! ## The ranges of the wallet's lines -/

/-- `_compact_wallet_sync_display_ranges`. -/
def compactWalletSyncDisplayRanges (maxRanges maxBytes : Int) (ranges : List DisplayRange) :
    List DisplayRange :=
  let normalized := ranges.filter fun range => ¬ (range.last < range.first ∨ range.sequence ≤ 0)
  fitBudget maxRanges maxBytes [] 2
    (Span.mergeAdjacent (Select.orderBy DisplayRange.position normalized))

/-- `is_wallet_bill_line`. -/
def isWalletBillLine (line : String) : Bool :=
  !(Text.words line).isEmpty &&
    Check.returns (parseDisplayId crypto (CancelledSend.lineDisplayId line) "wallet bill display id")

/-- `wallet_bill_lines`. -/
def walletBillLines (lines : List String) : List String :=
  match lines[3]? with
  | none => []
  | some line => lines.drop (if isWalletBillLine crypto line then 3 else 4)

/-- `_wallet_display_ids_from_lines`. -/
def walletDisplayIdsFromLines (lines : List String) : List String :=
  ((walletBillLines crypto lines).map CancelledSend.lineDisplayId).filter fun displayId => displayId ≠ ""

/-- `spendable_wallet_display_ids`, as `_spendable_wallet_display_ids_for_ranges` calls it. -/
def spendableWalletDisplayIds (address : String) (lines : List String) : List String :=
  if isAddress crypto address = true then
    store.spendableBillV3DisplayIds address (walletDisplayIdsFromLines crypto lines)
  else []

/-- The sequence of a wallet line: `int(parts[1])`. -/
def lineSequence (line : String) : Option Int :=
  match Text.words line with
  | _ :: second :: _ => int second
  | _ => none

/-- The point `(value, serial)` of a wallet line, and its sequence. -/
def linePoint (knownDisplayIds : List String) (line : String) : Option ((Int × Int) × Int) :=
  if CancelledSend.lineDisplayId line ∉ knownDisplayIds then none
  else
    match parseDisplayId crypto (CancelledSend.lineDisplayId line) "wallet bill display id",
        lineSequence int line with
    | .ok point, some sequence => if sequence ≤ 0 then none else some (point, sequence)
    | _, _ => none

/-- `known_points[point] = max(known_points.get(point, 0), sequence)`. -/
def addPoint (known : List ((Int × Int) × Int)) (entry : (Int × Int) × Int) : List ((Int × Int) × Int) :=
  AssocList.put entry.1 (max ((AssocList.get? entry.1 known).getD 0) entry.2) known

/-- `_wallet_known_display_ranges_from_lines`. -/
def walletKnownDisplayRangesFromLines (maxRanges maxBytes : Int) (lines : List String)
    (knownDisplayIds : List String) : List DisplayRange :=
  if knownDisplayIds = [] then []
  else
    let entries := (walletBillLines crypto lines).filterMap (linePoint crypto int knownDisplayIds)
    let known := entries.foldl addPoint []
    compactWalletSyncDisplayRanges maxRanges maxBytes
      (known.map fun entry => DisplayRange.make entry.1.1 entry.1.2 entry.1.2 entry.2)

/-- `_wallet_sync_request_with_wallet_ranges`: the `known_display_ranges` of the request that is sent, where
    the request of the store has `existing`. No ranges stand for a request without the member. -/
def walletSyncRequestWithWalletRanges (budgets : RangeBudgets) (existing : List DisplayRange)
    (address : String) (lines : List String) : List DisplayRange :=
  let spendable := spendableWalletDisplayIds crypto store address lines
  let walletRanges := walletKnownDisplayRangesFromLines crypto int budgets.senderRanges
    budgets.senderBytes lines spendable
  if walletRanges = [] then existing
  else
    let merged := compactWalletSyncDisplayRanges budgets.senderRanges budgets.senderBytes
      (existing ++ walletRanges)
    if merged = [] then existing else merged

/-- The `known_display_ranges` that a client sends. -/
def sentRanges (budgets : RangeBudgets) (address : String) (lines : List String) : List DisplayRange :=
  walletSyncRequestWithWalletRanges crypto int store budgets
    (walletKnownDisplayRanges crypto store address budgets.storeRanges budgets.storeBytes) address lines

/-! ## The server -/

/-- The checks of `_parse_known_display_ranges_v3` on one range. -/
def acceptsRange (range : DisplayRange) : Bool :=
  !(range.last < range.first || range.sequence ≤ 0) &&
    Check.returns (do
      let value ← validateBillValue range.value "display id value"
      let _ ← validateBillSerial value range.first "display id issue index"
      validateBillSerial value range.last "display id issue index")

/-- `_parse_known_display_ranges_v3`: the ranges of a value, sorted. -/
def parseKnownDisplayRanges (limit : Nat) (ranges : List DisplayRange) (value : Int) : List DisplayRange :=
  Select.orderBy (fun range => toLex (range.first, toLex (range.last, range.sequence)))
    (((ranges.take limit).filter acceptsRange).filter fun range => range.value = value)

/-- The loop of `_display_id_covered_by_known_ranges_v3`. -/
def coveredBy (serial sequence : Int) : List DisplayRange → Bool
  | [] => false
  | range :: rest =>
    if serial < range.first then false
    else if serial ≤ range.last ∧ sequence ≤ range.sequence then true
    else coveredBy serial sequence rest

/-- `_display_id_covered_by_known_ranges_v3`. -/
def displayIdCoveredByKnownRanges (displayId : String) (sequence : Int)
    (known : Int → List DisplayRange) : Bool :=
  match parseDisplayId crypto displayId "display id" with
  | .error _ => false
  | .ok (value, serial) => coveredBy serial sequence (known value)

/-! ## Budgets are kept -/

section Budget

variable {maxRanges maxBytes : Int} {ranges selected items : List DisplayRange}

/-- The ranges are no more than the budget allows, and neither are the bytes of their text. -/
def FitsBudget (maxRanges maxBytes : Int) (ranges : List DisplayRange) : Prop :=
  ranges = [] ∨ (ranges.length : Int) ≤ maxRanges ∧ ((encoded ranges).length : Int) ≤ maxBytes

theorem length_renderMoreItems (values : List Json) :
    (Json.renderMoreItems values).length =
      (values.map fun value => (Json.render value).length + 1).sum + 1 := by
  induction values with
  | nil => rfl
  | cons value rest ih =>
    simp only [Json.renderMoreItems, List.length_cons, List.length_append, List.map_cons, List.sum_cons, ih]
    omega

/-- A text of ranges is as long as their texts, a separator or bracket behind each, and a bracket. -/
theorem length_encoded (h : ranges ≠ []) :
    (encoded ranges).length = (ranges.map fun range => (Json.render range.toJson).length + 1).sum + 1 := by
  cases ranges with
  | nil => exact absurd rfl h
  | cons range rest =>
    simp only [encoded, List.map_cons, Json.render, Json.renderItems, List.length_cons, List.length_append,
      length_renderMoreItems, List.map_map, Function.comp_def, List.sum_cons]
    omega

theorem length_encoded_concat (ranges : List DisplayRange) (item : DisplayRange) :
    (encoded (ranges ++ [item])).length =
      (encoded ranges).length + ((Json.render item.toJson).length + if ranges = [] then 0 else 1) := by
  rw [length_encoded (by simp)]
  by_cases h : ranges = []
  · subst h
    simp [encoded, Json.render, Json.renderItems]
    omega
  · rw [length_encoded h, if_neg h, List.map_append, List.sum_append]
    simp only [List.map_cons, List.map_nil, List.sum_cons, List.sum_nil]
    omega

/-- What is selected is a part of the ranges from their front, and it fits. -/
theorem fitBudget_spec (hfits : FitsBudget maxRanges maxBytes selected) :
    (∃ front, front <+: items ∧
      fitBudget maxRanges maxBytes selected (encoded selected).length items = selected ++ front) ∧
    FitsBudget maxRanges maxBytes
      (fitBudget maxRanges maxBytes selected (encoded selected).length items) := by
  induction items generalizing selected with
  | nil => exact ⟨⟨[], List.prefix_rfl, (List.append_nil _).symm⟩, hfits⟩
  | cons item rest ih =>
    have hstep : fitBudget maxRanges maxBytes selected (encoded selected).length (item :: rest) =
        if maxRanges ≤ selected.length ∨ maxBytes < (encoded (selected ++ [item])).length then selected
        else fitBudget maxRanges maxBytes (selected ++ [item]) (encoded (selected ++ [item])).length rest := by
      rw [length_encoded_concat, Nat.cast_add]
      rfl
    rw [hstep]
    by_cases hroom : maxRanges ≤ selected.length ∨ maxBytes < (encoded (selected ++ [item])).length
    · rw [if_pos hroom]
      exact ⟨⟨[], List.nil_prefix, (List.append_nil _).symm⟩, hfits⟩
    · rw [if_neg hroom]
      have hnext : FitsBudget maxRanges maxBytes (selected ++ [item]) := by
        refine Or.inr ⟨?_, by omega⟩
        rw [List.length_append, List.length_singleton]
        omega
      obtain ⟨⟨front, hfront, heq⟩, hkept⟩ := ih hnext
      refine ⟨⟨item :: front, (List.prefix_cons_inj item).2 hfront, ?_⟩, hkept⟩
      rw [heq, List.append_assoc, List.singleton_append]

/-- The loop from its start. -/
theorem fitBudget_nil (maxRanges maxBytes : Int) (items : List DisplayRange) :
    fitBudget maxRanges maxBytes [] 2 items <+: items ∧
      FitsBudget maxRanges maxBytes (fitBudget maxRanges maxBytes [] 2 items) := by
  have hspec := @fitBudget_spec maxRanges maxBytes [] items (Or.inl rfl)
  have hstart : ((encoded []).length : Int) = 2 := rfl
  rw [hstart] at hspec
  obtain ⟨⟨front, hfront, heq⟩, hfits⟩ := hspec
  rw [List.nil_append] at heq
  exact ⟨heq ▸ hfront, hfits⟩

/-- The order does not matter to a budget. -/
theorem FitsBudget.perm {ranges' : List DisplayRange} (h : FitsBudget maxRanges maxBytes ranges)
    (hperm : ranges.Perm ranges') : FitsBudget maxRanges maxBytes ranges' := by
  rcases h with rfl | ⟨hlength, hbytes⟩
  · exact Or.inl (List.nil_perm.1 hperm)
  · by_cases hnil : ranges' = []
    · exact Or.inl hnil
    · have hnil' : ranges ≠ [] := by
        rintro rfl
        exact hnil (List.nil_perm.1 hperm)
      have hsum := (hperm.map fun range => (Json.render range.toJson).length + 1).sum_eq
      rw [length_encoded hnil'] at hbytes
      rw [hperm.length_eq] at hlength
      refine Or.inr ⟨hlength, ?_⟩
      rw [length_encoded hnil, ← hsum]
      exact hbytes

end Budget

/-! ## What the ranges cover -/

section Cover

variable {crypto : Crypto} {int : String → Option Int} {store : LocalStore}

/-- The point of a display id: its serial, in the class of its value and a sequence. -/
def pointOf (value serial sequence : Int) : (Int ×ₗ Int) × Int :=
  (toLex (value, sequence), serial)

theorem rowPoint_eq_some {row : BillRow} {range : DisplayRange} :
    rowPoint crypto row = some range ↔ ∃ value serial,
      parseDisplayId crypto row.bill.displayId "display id" = .ok (value, serial) ∧
        0 < row.bill.sequence ∧ DisplayRange.make value serial serial row.bill.sequence = range := by
  unfold rowPoint
  cases parseDisplayId crypto row.bill.displayId "display id" with
  | error e => simp
  | ok parsed =>
    obtain ⟨value, serial⟩ := parsed
    by_cases hsequence : row.bill.sequence ≤ 0
    · simp [hsequence]
    · have hpos : 0 < row.bill.sequence := by omega
      simp [hsequence, hpos]

/-- The ranges of the store cover only points of its rows. -/
theorem exists_row_of_covered {ownerAddress : String} {maxRanges maxBytes : Int} {range : DisplayRange}
    {value serial sequence : Int}
    (hrange : range ∈ walletKnownDisplayRanges crypto store ownerAddress maxRanges maxBytes)
    (hpoint : pointOf value serial sequence ∈ range.points) :
    ∃ row ∈ store.bills, row.bill.ownerAddress = ownerAddress ∧
      (row.status = .settled ∨ row.status = .verified) ∧
      parseDisplayId crypto row.bill.displayId "display id" = .ok (value, serial) ∧
      row.bill.sequence = sequence := by
  unfold walletKnownDisplayRanges at hrange
  split at hrange
  · exact nomatch hrange
  · have hselected := (fitBudget_nil _ _ _).1.subset (Select.mem_orderBy.1 hrange)
    obtain ⟨point, hmem, hin⟩ := Span.exists_mem_of_mergeAdjacent (Select.mem_orderBy.1 hselected) hpoint
    obtain ⟨row, hrow, hsome⟩ := List.mem_filterMap.1 (Select.mem_orderBy.1 hmem)
    obtain ⟨rowValue, rowSerial, hparse, -, rfl⟩ := rowPoint_eq_some.1 hsome
    obtain ⟨hkey, hfirst, hlast⟩ := Span.mem_points.1 hin
    have hpair : (value, sequence) = (rowValue, row.bill.sequence) := congrArg ofLex hkey
    obtain ⟨rfl, rfl⟩ := Prod.mk.inj hpair
    have hserial : serial = rowSerial := le_antisymm hlast hfirst
    subst hserial
    obtain ⟨hstored, howner, hstatus⟩ : row ∈ store.bills ∧ row.bill.ownerAddress = ownerAddress ∧
        row.status ∈ [BillStatus.settled, .verified] := by
      have hselectedRow := Select.mem_orderBy.1 (List.mem_of_mem_filter hrow)
      simpa using hselectedRow
    refine ⟨row, hstored, howner, ?_, hparse, rfl⟩
    simpa using hstatus

/-- Compacting covers only what the ranges cover. -/
theorem exists_mem_of_compact {maxRanges maxBytes : Int} {ranges : List DisplayRange}
    {range : DisplayRange} {point : (Int ×ₗ Int) × Int}
    (hrange : range ∈ compactWalletSyncDisplayRanges maxRanges maxBytes ranges)
    (hpoint : point ∈ range.points) : ∃ r ∈ ranges, point ∈ r.points := by
  have hmerged := (fitBudget_nil _ _ _).1.subset hrange
  obtain ⟨r, hr, hin⟩ := Span.exists_mem_of_mergeAdjacent hmerged hpoint
  exact ⟨r, List.mem_of_mem_filter (Select.mem_orderBy.1 hr), hin⟩

theorem linePoint_eq_some {knownDisplayIds : List String} {line : String} {point : Int × Int}
    {sequence : Int} :
    linePoint crypto int knownDisplayIds line = some (point, sequence) ↔
      CancelledSend.lineDisplayId line ∈ knownDisplayIds ∧
        parseDisplayId crypto (CancelledSend.lineDisplayId line) "wallet bill display id" = .ok point ∧
        lineSequence int line = some sequence ∧ 0 < sequence := by
  unfold linePoint
  by_cases hknown : CancelledSend.lineDisplayId line ∈ knownDisplayIds
  · rw [if_neg (not_not.2 hknown)]
    cases parseDisplayId crypto (CancelledSend.lineDisplayId line) "wallet bill display id" with
    | error e => simp
    | ok parsed =>
      cases lineSequence int line with
      | none => simp
      | some q =>
        by_cases hq : q ≤ 0
        · simp only [if_pos hq]
          constructor
          · exact fun h => (nomatch h)
          · rintro ⟨-, -, hsame, hpos⟩
            cases hsame
            omega
        · simp only [if_neg hq, Option.some.injEq, Prod.mk.injEq, Except.ok.injEq]
          constructor
          · rintro ⟨rfl, rfl⟩
            exact ⟨hknown, rfl, rfl, by omega⟩
          · rintro ⟨-, rfl, rfl, -⟩
            exact ⟨rfl, rfl⟩
  · simp [hknown]

/-- A point that is known has the sequence of one of its entries. -/
theorem mem_of_mem_foldl_addPoint {entries known : List ((Int × Int) × Int)} {entry : (Int × Int) × Int}
    (hpos : ∀ e ∈ entries, 0 < e.2) (h : entry ∈ entries.foldl addPoint known) :
    entry ∈ known ∨ entry ∈ entries := by
  induction entries generalizing known with
  | nil => exact Or.inl h
  | cons first rest ih =>
    have hfirst := hpos first List.mem_cons_self
    rcases ih (fun e he => hpos e (List.mem_cons_of_mem _ he)) h with hstep | hrest
    · unfold addPoint at hstep
      rcases AssocList.mem_of_mem_put hstep with hold | rfl
      · exact Or.inl hold
      · cases hget : AssocList.get? first.1 known with
        | none =>
          refine Or.inr (List.mem_cons.2 (Or.inl (Prod.ext rfl ?_)))
          exact max_eq_right hfirst.le
        | some old =>
          rcases le_total old first.2 with hle | hle
          · refine Or.inr (List.mem_cons.2 (Or.inl (Prod.ext rfl ?_)))
            exact max_eq_right hle
          · refine Or.inl ?_
            rw [Option.getD_some, max_eq_left hle]
            exact AssocList.mem_of_get? hget
    · exact Or.inr (List.mem_cons_of_mem _ hrest)

/-- The ranges of the wallet's lines cover only points of lines with a known display id. -/
theorem exists_line_of_covered {maxRanges maxBytes : Int} {lines knownDisplayIds : List String}
    {range : DisplayRange} {value serial sequence : Int}
    (hrange : range ∈ walletKnownDisplayRangesFromLines crypto int maxRanges maxBytes lines knownDisplayIds)
    (hpoint : pointOf value serial sequence ∈ range.points) :
    ∃ line ∈ walletBillLines crypto lines, CancelledSend.lineDisplayId line ∈ knownDisplayIds ∧
      parseDisplayId crypto (CancelledSend.lineDisplayId line) "wallet bill display id" =
        .ok (value, serial) ∧
      lineSequence int line = some sequence := by
  unfold walletKnownDisplayRangesFromLines at hrange
  split at hrange
  · exact nomatch hrange
  · obtain ⟨r, hr, hin⟩ := exists_mem_of_compact hrange hpoint
    obtain ⟨entry, hentry, rfl⟩ := List.mem_map.1 hr
    have hcollected := mem_of_mem_foldl_addPoint ?_ hentry
    · rcases hcollected with hnil | hmem
      · exact nomatch hnil
      · obtain ⟨line, hline, hsome⟩ := List.mem_filterMap.1 hmem
        obtain ⟨⟨entryValue, entrySerial⟩, entrySequence⟩ := entry
        obtain ⟨hknown, hparse, hsequence, -⟩ := linePoint_eq_some.1 hsome
        obtain ⟨hkey, hfirst, hlast⟩ := Span.mem_points.1 hin
        have hpair : (value, sequence) = (entryValue, entrySequence) := congrArg ofLex hkey
        obtain ⟨rfl, rfl⟩ := Prod.mk.inj hpair
        have hserial : serial = entrySerial := le_antisymm hlast hfirst
        subst hserial
        exact ⟨line, hline, hknown, hparse, hsequence⟩
    · intro e he
      obtain ⟨line, -, hsome⟩ := List.mem_filterMap.1 he
      exact (linePoint_eq_some.1 hsome).2.2.2

/-! ## No two ranges overlap -/

theorem apart_compact (maxRanges maxBytes : Int) (ranges : List DisplayRange) :
    (compactWalletSyncDisplayRanges maxRanges maxBytes ranges).Pairwise Span.Apart := by
  refine List.Pairwise.sublist (fitBudget_nil _ _ _).1.sublist (Span.pairwise_apart_mergeAdjacent ?_ ?_)
  · refine (Select.sorted_orderBy _ _).imp fun {a b} hle => ?_
    refine (Prod.Lex.toLex_le_toLex.1 hle).imp_right fun h => ⟨h.1, ?_⟩
    rcases Prod.Lex.toLex_le_toLex.1 h.2 with hlt | heq
    · exact hlt.le
    · exact heq.1.le
  · intro range hrange
    have hkept := (List.mem_filter.1 (Select.mem_orderBy.1 hrange)).2
    rw [decide_eq_true_iff, not_or] at hkept
    exact not_lt.1 hkept.1

theorem apart_walletKnownDisplayRanges (ownerAddress : String) (maxRanges maxBytes : Int) :
    (walletKnownDisplayRanges crypto store ownerAddress maxRanges maxBytes).Pairwise Span.Apart := by
  unfold walletKnownDisplayRanges
  split
  · exact .nil
  · -- neither the widest first nor the final order changes which ranges there are
    refine ((List.perm_insertionSort _ _).pairwise_iff fun h => Span.Apart.symm h).2 ?_
    refine List.Pairwise.sublist (fitBudget_nil _ _ _).1.sublist ?_
    refine ((List.perm_insertionSort _ _).pairwise_iff fun h => Span.Apart.symm h).2 ?_
    refine Span.pairwise_apart_mergeAdjacent ?_ ?_
    · exact (Select.sorted_orderBy (fun point : DisplayRange => toLex (point.key, point.first)) _).imp
        fun {a b} hle => Prod.Lex.toLex_le_toLex.1 hle
    · intro range hrange
      obtain ⟨row, -, hsome⟩ := List.mem_filterMap.1 (Select.mem_orderBy.1 hrange)
      obtain ⟨value, serial, -, -, rfl⟩ := rowPoint_eq_some.1 hsome
      exact le_rfl

/-! ## The hints of a client -/

/-- The client has the bill with a display id at a sequence or a larger one: as a settled or verified row of
    the owner, or as a line of the wallet whose bill is spendable. -/
def Holds (crypto : Crypto) (int : String → Option Int) (store : LocalStore) (address : String)
    (lines : List String) (displayId : String) (sequence : Int) : Prop :=
  (∃ row ∈ store.bills, row.bill.displayId = displayId ∧ row.bill.ownerAddress = address ∧
    (row.status = .settled ∨ row.status = .verified) ∧ sequence ≤ row.bill.sequence) ∨
  ∃ line ∈ walletBillLines crypto lines, CancelledSend.lineDisplayId line = displayId ∧
    displayId ∈ spendableWalletDisplayIds crypto store address lines ∧
    ∃ known, lineSequence int line = some known ∧ sequence ≤ known

/-- A bill that is covered lies in one of the ranges, whose sequence is at least as large. -/
theorem exists_mem_of_coveredBy {ranges : List DisplayRange} {serial sequence : Int}
    (h : coveredBy serial sequence ranges = true) :
    ∃ range ∈ ranges, range.first ≤ serial ∧ serial ≤ range.last ∧ sequence ≤ range.sequence := by
  induction ranges with
  | nil => exact nomatch h
  | cons range rest ih =>
    unfold coveredBy at h
    split at h
    · exact nomatch h
    · next hfirst =>
      split at h
      · next hcovers => exact ⟨range, List.mem_cons_self, not_lt.1 hfirst, hcovers⟩
      · obtain ⟨r, hr, hcovers⟩ := ih h
        exact ⟨r, List.mem_cons_of_mem _ hr, hcovers⟩

/-- What is sent are the ranges of the store, or those that the sender has compacted from them and from the
    wallet's lines. -/
theorem sentRanges_cases (crypto : Crypto) (int : String → Option Int) (store : LocalStore)
    (budgets : RangeBudgets) (address : String) (lines : List String) :
    let existing := walletKnownDisplayRanges crypto store address budgets.storeRanges budgets.storeBytes
    sentRanges crypto int store budgets address lines = existing ∨
      sentRanges crypto int store budgets address lines =
        compactWalletSyncDisplayRanges budgets.senderRanges budgets.senderBytes
          (existing ++ walletKnownDisplayRangesFromLines crypto int budgets.senderRanges
            budgets.senderBytes lines (spendableWalletDisplayIds crypto store address lines)) := by
  intro existing
  unfold sentRanges walletSyncRequestWithWalletRanges
  by_cases hnone : walletKnownDisplayRangesFromLines crypto int budgets.senderRanges budgets.senderBytes
      lines (spendableWalletDisplayIds crypto store address lines) = []
  · exact Or.inl (if_pos hnone)
  · simp only [if_neg hnone]
    split
    · exact Or.inl rfl
    · exact Or.inr rfl

/-- The client has every point that its ranges cover. -/
theorem holds_of_covered {budgets : RangeBudgets} {address : String} {lines : List String}
    {range : DisplayRange} {displayId : String} {value serial sequence : Int}
    (hrange : range ∈ sentRanges crypto int store budgets address lines)
    (hparse : parseDisplayId crypto displayId "display id" = .ok (value, serial))
    (hpoint : pointOf value serial range.sequence ∈ range.points) (hsequence : sequence ≤ range.sequence) :
    Holds crypto int store address lines displayId sequence := by
  have hdisplay := eq_formatDisplayId_of_parse hparse
  have hrow : ∀ r ∈ walletKnownDisplayRanges crypto store address budgets.storeRanges budgets.storeBytes,
      pointOf value serial range.sequence ∈ r.points →
        Holds crypto int store address lines displayId sequence := by
    intro r hr hin
    obtain ⟨row, hstored, howner, hstatus, hparse', hrowSequence⟩ := exists_row_of_covered hr hin
    refine Or.inl ⟨row, hstored, ?_, howner, hstatus, by omega⟩
    rw [hdisplay]
    exact eq_formatDisplayId_of_parse hparse'
  rcases sentRanges_cases crypto int store budgets address lines with heq | heq
  · rw [heq] at hrange
    exact hrow range hrange hpoint
  · rw [heq] at hrange
    obtain ⟨r, hr, hin⟩ := exists_mem_of_compact hrange hpoint
    rcases List.mem_append.1 hr with hr | hr
    · exact hrow r hr hin
    · obtain ⟨line, hline, hknown, hparse', hlineSequence⟩ := exists_line_of_covered hr hin
      have hsame : CancelledSend.lineDisplayId line = displayId := by
        rw [hdisplay]
        exact eq_formatDisplayId_of_parse hparse'
      exact Or.inr ⟨line, hline, hsame, hsame ▸ hknown, range.sequence, hlineSequence, hsequence⟩

/-- **A server that skips a bill for the ranges of a client skips one that the client has**, for every display
    id and sequence. The ranges that a client sends do not overlap within a denomination and a sequence, and
    they are within the budgets of the store or the sender that made them. -/
theorem covered_sentRanges (crypto : Crypto) (int : String → Option Int) (store : LocalStore)
    (budgets : RangeBudgets) (address : String) (lines : List String) :
    let sent := sentRanges crypto int store budgets address lines
    (∀ displayId sequence, displayIdCoveredByKnownRanges crypto displayId sequence
        (parseKnownDisplayRanges budgets.serverRanges sent) = true →
      Holds crypto int store address lines displayId sequence) ∧
    sent.Pairwise Span.Apart ∧
    (FitsBudget budgets.storeRanges budgets.storeBytes sent ∨
      FitsBudget budgets.senderRanges budgets.senderBytes sent) := by
  intro sent
  refine ⟨?_, ?_⟩
  · intro displayId sequence hcovered
    unfold displayIdCoveredByKnownRanges at hcovered
    cases hparse : parseDisplayId crypto displayId "display id" with
    | error e =>
      rw [hparse] at hcovered
      exact nomatch hcovered
    | ok parsed =>
      obtain ⟨value, serial⟩ := parsed
      rw [hparse] at hcovered
      obtain ⟨range, hrange, hfirst, hlast, hsequence⟩ := exists_mem_of_coveredBy hcovered
      obtain ⟨haccepted, hvalue⟩ := List.mem_filter.1 (Select.mem_orderBy.1 hrange)
      have hsent : range ∈ sent := List.mem_of_mem_take (List.mem_of_mem_filter haccepted)
      refine holds_of_covered hsent hparse (Span.mem_points.2 ⟨?_, hfirst, hlast⟩) hsequence
      rw [decide_eq_true_iff] at hvalue
      rw [← hvalue]
      rfl
  · rcases sentRanges_cases crypto int store budgets address lines with heq | heq
    · refine ⟨?_, Or.inl ?_⟩
      · rw [show sent = _ from heq]
        exact apart_walletKnownDisplayRanges address _ _
      · rw [show sent = _ from heq]
        unfold walletKnownDisplayRanges
        split
        · exact Or.inl rfl
        · exact (fitBudget_nil _ _ _).2.perm (List.perm_insertionSort _ _).symm
    · refine ⟨?_, Or.inr ?_⟩
      · rw [show sent = _ from heq]
        exact apart_compact _ _ _
      · rw [show sent = _ from heq]
        exact (fitBudget_nil _ _ _).2

end Cover

end KnownRanges
