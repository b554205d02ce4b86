import InternationalDollar.GenesisManifest
import InternationalDollar.Lib.Spans
import Mathlib.Algebra.BigOperators.Ring.Finset

set_option autoImplicit false

/-! # The supply of a genesis manifest

The validation of the ranges compares neighbours after sorting and counts serials, and the full supply
is required as a number only. Both are enough: the ranges that pass share no serial, so the number is
that of the bills they cover, and a manifest with as many bills as there are covers them all. -/

namespace GenesisManifest

/-! ## Ranges one by one -/

/-- A range within the serials of its denomination, with an owner and a seed. -/
structure RangeValid (crypto : Crypto) (range : ManifestRange) : Prop where
  start_valid : IsBillSerial range.value range.startSerial
  count_pos : 1 ≤ range.count
  end_valid : IsBillSerial range.value (range.startSerial + range.count - 1)
  owner_valid : isAddress crypto range.ownerAddress = true
  seed_valid : IsHex32 range.nonceSeed

/-- What the loop appends for a range. -/
def normalizedRange (range : ManifestRange) : NormalizedRange where
  value := range.value
  startSerial := range.startSerial
  endSerial := range.startSerial + range.count - 1
  count := range.count
  ownerAddress := range.ownerAddress
  nonceSeed := Text.lower range.nonceSeed

theorem validateRange_eq_ok {crypto : Crypto} {range : ManifestRange} {normalized : NormalizedRange} :
    validateRange crypto range = .ok normalized ↔
      RangeValid crypto range ∧ normalizedRange range = normalized := by
  simp only [validateRange, validateAddress, Check.bind_eq_ok, validateBillValue_eq_ok,
    validateBillSerial_eq_ok, requireMin_eq_ok, Check.require_eq_ok, Check.pure_eq_ok, hex32_eq_ok]
  constructor
  · rintro ⟨_, ⟨-, rfl⟩, _, ⟨hstart, rfl⟩, _, hcount, _, ⟨hend, rfl⟩, _, ⟨_, howner, rfl⟩, _,
      ⟨hseed, rfl⟩, rfl⟩
    exact ⟨⟨hstart, hcount, hend, howner, hseed⟩, rfl⟩
  · rintro ⟨h, rfl⟩
    exact ⟨_, ⟨h.start_valid.1, rfl⟩, _, ⟨h.start_valid, rfl⟩, (), h.count_pos, _, ⟨h.end_valid, rfl⟩,
      _, ⟨(), h.owner_valid, rfl⟩, _, ⟨h.seed_valid, rfl⟩, rfl⟩

theorem validateRangeList_eq_ok {crypto : Crypto} {ranges : List ManifestRange}
    {checked : List NormalizedRange} :
    validateRangeList crypto ranges = .ok checked ↔
      (∀ range ∈ ranges, RangeValid crypto range) ∧ ranges.map normalizedRange = checked := by
  induction ranges generalizing checked with
  | nil => simp [validateRangeList]
  | cons range rest ih =>
    simp only [validateRangeList, Check.bind_eq_ok, validateRange_eq_ok, ih, Check.pure_eq_ok,
      List.forall_mem_cons, List.map_cons]
    constructor
    · rintro ⟨_, ⟨hrange, rfl⟩, _, ⟨hrest, rfl⟩, rfl⟩
      exact ⟨⟨hrange, hrest⟩, rfl⟩
    · rintro ⟨⟨hrange, hrest⟩, rfl⟩
      exact ⟨_, ⟨hrange, rfl⟩, _, ⟨hrest, rfl⟩, rfl⟩

/-! ## Serials in common -/

/-- The serials of a range, in its denomination. -/
def span (range : ManifestRange) : Span Int :=
  ⟨range.value, range.startSerial, range.startSerial + range.count - 1⟩

/-- The serials of a normalized range. -/
def normalizedSpan (range : NormalizedRange) : Span Int :=
  ⟨range.value, range.startSerial, range.endSerial⟩

/-- The bills of a list of ranges: pairs of a denomination and a serial. -/
def coveredBills (ranges : List ManifestRange) : Finset (Int × Int) :=
  Span.cover (ranges.map span)

/-- No two ranges of a denomination share a serial. -/
def NoSharedSerial (ranges : List ManifestRange) : Prop :=
  ranges.Pairwise fun a b => ∀ value serial, ¬ ((value, serial) ∈ (span a).points ∧
    (value, serial) ∈ (span b).points)

theorem map_normalizedSpan (ranges : List ManifestRange) :
    (ranges.map normalizedRange).map normalizedSpan = ranges.map span := by
  rw [List.map_map]
  rfl

theorem noSharedSerial_iff {ranges : List ManifestRange} :
    NoSharedSerial ranges ↔ (ranges.map span).Pairwise Span.Apart := by
  simp only [NoSharedSerial, List.pairwise_map, Span.apart_iff, Prod.forall]

/-- A list in the order of the sort key. -/
def Sorted (ranges : List NormalizedRange) : Prop :=
  ranges.Pairwise fun a b => rangeLe a b = true

theorem rangeLe_iff {a b : NormalizedRange} :
    rangeLe a b = true ↔ a.value < b.value ∨ a.value = b.value ∧ a.startSerial ≤ b.startSerial := by
  simp [rangeLe]

instance : Std.Total fun a b : NormalizedRange => rangeLe a b = true :=
  ⟨fun a b => by simp only [rangeLe_iff]; omega⟩

instance : IsTrans NormalizedRange fun a b => rangeLe a b = true :=
  ⟨fun a b c => by simp only [rangeLe_iff]; omega⟩

/-- In a sorted list the comparison of neighbours finds every shared serial. -/
theorem overlaps_eq_false_iff {ranges : List NormalizedRange} (hsorted : Sorted ranges)
    (hnonempty : ∀ range ∈ ranges, range.startSerial ≤ range.endSerial) :
    overlaps ranges = false ↔ (ranges.map normalizedSpan).Pairwise Span.Apart := by
  constructor
  · intro h
    refine Span.pairwise_apart_of_isChain ((List.isChain_map _).2 ?_)
    -- every range lies before its neighbour, by the order and by the comparison
    induction ranges with
    | nil => exact .nil
    | cons a rest ih =>
      obtain ⟨ha, hrest⟩ := List.pairwise_cons.1 hsorted
      cases rest with
      | nil => exact .singleton a
      | cons b rest =>
        simp only [overlaps, Bool.or_eq_false_iff, Bool.and_eq_false_iff, decide_eq_false_iff_not] at h
        have hle := rangeLe_iff.1 (ha b List.mem_cons_self)
        have hb := hnonempty b (by simp)
        refine .cons_cons ⟨hb, ?_⟩ (ih hrest (fun range hrange => hnonempty range (by simp [hrange])) h.2)
        simp only [normalizedSpan]
        omega
  · intro h
    induction ranges with
    | nil => rfl
    | cons a rest ih =>
      obtain ⟨ha, hrest⟩ := List.pairwise_cons.1 hsorted
      cases rest with
      | nil => rfl
      | cons b rest =>
        obtain ⟨happart, htail⟩ := List.pairwise_cons.1 h
        have hle := rangeLe_iff.1 (ha b List.mem_cons_self)
        have hb := hnonempty b (by simp)
        have hnot := Span.apart_iff.1 (happart (normalizedSpan b) (by simp)) (b.value, b.startSerial)
        simp only [Span.mem_points, normalizedSpan, not_and] at hnot
        have hhead : (decide (a.value = b.value) && decide (b.startSerial ≤ a.endSerial)) = false := by
          simp only [Bool.and_eq_false_iff, decide_eq_false_iff_not]
          by_contra hmeet
          obtain ⟨hvalue, hserial⟩ : a.value = b.value ∧ b.startSerial ≤ a.endSerial := by tauto
          exact hnot ⟨hvalue.symm, by omega, hserial⟩ trivial le_rfl hb
        rw [overlaps, hhead, Bool.false_or]
        exact ih hrest (fun range hrange => hnonempty range (by simp [hrange])) htail

/-! ## What the validation establishes -/

/-- The lists of ranges that pass. -/
structure RangesValid (crypto : Crypto) (ranges : List ManifestRange) : Prop where
  ne_nil : ranges ≠ []
  valid : ∀ range ∈ ranges, RangeValid crypto range
  noSharedSerial : NoSharedSerial ranges

/-- The ranges in the order in which they are returned. -/
def normalizedRanges (ranges : List ManifestRange) : List NormalizedRange :=
  (ranges.map normalizedRange).insertionSort fun a b => rangeLe a b = true

theorem perm_normalizedRanges (ranges : List ManifestRange) :
    (normalizedRanges ranges).Perm (ranges.map normalizedRange) :=
  List.perm_insertionSort _ _

theorem sorted_normalizedRanges (ranges : List ManifestRange) : Sorted (normalizedRanges ranges) :=
  List.pairwise_insertionSort _ _

/-- The returned ranges cover the same bills. -/
theorem perm_span_normalizedRanges (ranges : List ManifestRange) :
    ((normalizedRanges ranges).map normalizedSpan).Perm (ranges.map span) := by
  rw [← map_normalizedSpan]
  exact (perm_normalizedRanges ranges).map _

theorem RangeValid.start_le_end {crypto : Crypto} {range : ManifestRange}
    (h : RangeValid crypto range) :
    range.startSerial ≤ range.startSerial + range.count - 1 := by
  have := h.count_pos
  omega

theorem overlaps_normalizedRanges {crypto : Crypto} {ranges : List ManifestRange}
    (hvalid : ∀ range ∈ ranges, RangeValid crypto range) :
    overlaps (normalizedRanges ranges) = false ↔ NoSharedSerial ranges := by
  have hnonempty : ∀ range ∈ normalizedRanges ranges, range.startSerial ≤ range.endSerial := by
    intro range hrange
    obtain ⟨given, hgiven, rfl⟩ := List.mem_map.1 ((perm_normalizedRanges ranges).mem_iff.1 hrange)
    exact (hvalid given hgiven).start_le_end
  rw [overlaps_eq_false_iff (sorted_normalizedRanges ranges) hnonempty, noSharedSerial_iff]
  exact (perm_span_normalizedRanges ranges).pairwise_iff fun h => h.symm

/-- All bills that there can be. -/
def allBills : Finset (Int × Int) :=
  Span.cover (denominationSerialCaps.map fun entry => ⟨entry.1, 1, entry.2⟩)

theorem mem_allBills {value serial : Int} :
    (value, serial) ∈ allBills ↔ ∃ entry ∈ denominationSerialCaps,
      value = entry.1 ∧ 1 ≤ serial ∧ serial ≤ entry.2 := by
  simp only [allBills, Span.mem_cover, List.mem_map, Span.mem_points]
  constructor
  · rintro ⟨_, ⟨entry, hentry, rfl⟩, hpoint⟩
    exact ⟨entry, hentry, hpoint⟩
  · rintro ⟨entry, hentry, hpoint⟩
    exact ⟨_, ⟨entry, hentry, rfl⟩, hpoint⟩

/-- The caps of the denominations add up to the supply. -/
theorem card_allBills : (allBills.card : Int) = totalSupply := by
  have happart : (denominationSerialCaps.map fun entry => (⟨entry.1, 1, entry.2⟩ : Span Int)).Pairwise
      Span.Apart := by
    rw [List.pairwise_map]
    have hdistinct : denominationSerialCaps.Pairwise fun a b => a.1 ≠ b.1 := by decide
    refine hdistinct.imp fun hne => Span.apart_iff.2 fun point hpoint => ?_
    obtain ⟨⟨hkey, -⟩, hkey', -⟩ := hpoint.imp Span.mem_points.1 Span.mem_points.1
    exact hne (hkey.symm.trans hkey')
  have hpos : ∀ entry ∈ denominationSerialCaps, (1 : Int) ≤ entry.2 + 1 := by decide
  have hsum : (denominationSerialCaps.map Prod.snd).sum = totalSupply := by decide
  rw [allBills, Span.card_cover happart, ← hsum, Nat.cast_list_sum, List.map_map, List.map_map]
  refine congrArg List.sum (List.map_congr_left fun entry hentry => ?_)
  have hcard := Span.card_points (s := ⟨entry.1, 1, entry.2⟩) (hpos entry hentry)
  simpa using hcard

theorem IsBillSerial.mem_allBills {value serial : Int} (h : IsBillSerial value serial) :
    (value, serial) ∈ allBills := by
  obtain ⟨⟨-, hvalue⟩, hpos, hcap⟩ := h
  have hlookup : ∀ v ∈ denominationSerialCaps.map Prod.fst,
      (v, (denominationSerialCaps.lookup v).getD 0) ∈ denominationSerialCaps := by decide
  exact GenesisManifest.mem_allBills.2 ⟨_, hlookup value hvalue, rfl, hpos, hcap⟩

/-- A range that passes covers bills that there can be. -/
theorem coveredBills_subset {crypto : Crypto} {ranges : List ManifestRange}
    (hvalid : ∀ range ∈ ranges, RangeValid crypto range) : coveredBills ranges ⊆ allBills := by
  rintro ⟨value, serial⟩ hbill
  obtain ⟨_, hspan, hpoint⟩ := Span.mem_cover.1 hbill
  obtain ⟨range, hrange, rfl⟩ := List.mem_map.1 hspan
  obtain ⟨hvalue, hfirst, hlast⟩ := Span.mem_points.1 hpoint
  have hr := hvalid range hrange
  have hserial : IsBillSerial range.value serial :=
    ⟨hr.start_valid.1, hr.start_valid.2.1.trans hfirst, hlast.trans hr.end_valid.2.2⟩
  have hvalue : value = range.value := hvalue
  rw [hvalue]
  exact IsBillSerial.mem_allBills hserial

/-- The count of the ranges that pass is the number of the bills they cover. -/
theorem RangesValid.card_coveredBills {crypto : Crypto} {ranges : List ManifestRange}
    (h : RangesValid crypto ranges) :
    (((ranges.map normalizedRange).map NormalizedRange.count).sum : Int)
      = (coveredBills ranges).card := by
  rw [coveredBills, Span.card_cover (noSharedSerial_iff.1 h.noSharedSerial), Nat.cast_list_sum,
    List.map_map, List.map_map, List.map_map]
  refine congrArg List.sum (List.map_congr_left fun range hrange => ?_)
  have hr := (h.valid range hrange).start_le_end
  have hcard : ((span range).points.card : Int)
      = range.startSerial + range.count - 1 - range.startSerial + 1 :=
    Span.card_points (by simp only [span]; omega)
  simp only [Function.comp_apply, normalizedRange, hcard]
  omega

/-- The supply is never exceeded, so the check for it always passes. -/
theorem RangesValid.card_le {crypto : Crypto} {ranges : List ManifestRange}
    (h : RangesValid crypto ranges) : ((coveredBills ranges).card : Int) ≤ totalSupply := by
  have hle := Finset.card_le_card (coveredBills_subset h.valid)
  have hall := card_allBills
  omega

/-- What `_validate_ranges` accepts, and what it returns. -/
theorem validateRanges_eq_ok {crypto : Crypto} {ranges : List ManifestRange}
    {answer : List NormalizedRange × Int × Int} :
    validateRanges crypto ranges = .ok answer ↔ RangesValid crypto ranges ∧
      answer = (normalizedRanges ranges, ((coveredBills ranges).card : Int),
        ((ranges.map normalizedRange).map fun range => range.count * range.value).sum) := by
  simp only [validateRanges, Check.bind_eq_ok, Check.require_eq_ok, validateRangeList_eq_ok,
    Check.pure_eq_ok]
  constructor
  · rintro ⟨_, hne, _, ⟨hvalid, rfl⟩, _, hoverlaps, _, -, rfl⟩
    have h : RangesValid crypto ranges :=
      ⟨hne, hvalid, (overlaps_normalizedRanges hvalid).1 hoverlaps⟩
    exact ⟨h, by rw [h.card_coveredBills]; rfl⟩
  · rintro ⟨h, rfl⟩
    refine ⟨(), h.ne_nil, _, ⟨h.valid, rfl⟩, (), (overlaps_normalizedRanges h.valid).2 h.noSharedSerial,
      (), ?_, ?_⟩
    · rw [h.card_coveredBills]
      exact h.card_le
    · rw [h.card_coveredBills]
      rfl

/-! ## Finding a bill -/

/-- The ranges that `_range_for_serial` may return for a bill. -/
def rangesOfBill (ranges : List NormalizedRange) (value serial : Int) : List NormalizedRange :=
  ranges.filter fun range => decide (range.value = value) && decide (range.startSerial ≤ serial) &&
    decide (serial ≤ range.endSerial)

theorem map_normalizedSpan_rangesOfBill (ranges : List NormalizedRange) (value serial : Int) :
    (rangesOfBill ranges value serial).map normalizedSpan
      = (ranges.map normalizedSpan).filter fun s => (value, serial) ∈ s.points := by
  rw [rangesOfBill, List.filter_map]
  refine congrArg _ (List.filter_congr fun range _ => ?_)
  simp only [Function.comp_apply, Span.mem_points, normalizedSpan, Bool.decide_and, Bool.and_assoc]
  exact congrArg (· && _) (decide_eq_decide.2 eq_comm)

/-- A covered bill lies in exactly one of the returned ranges, and that one is found. -/
theorem RangesValid.exists_rangesOfBill {crypto : Crypto} {ranges : List ManifestRange}
    (h : RangesValid crypto ranges) {value serial : Int} (hbill : (value, serial) ∈ coveredBills ranges) :
    ∃ range, rangesOfBill (normalizedRanges ranges) value serial = [range] ∧
      rangeForSerial (normalizedRanges ranges) value serial = .ok range := by
  have happart : ((normalizedRanges ranges).map normalizedSpan).Pairwise Span.Apart :=
    ((perm_span_normalizedRanges ranges).pairwise_iff fun h => h.symm).2
      (noSharedSerial_iff.1 h.noSharedSerial)
  have hcover : (value, serial) ∈ Span.cover ((normalizedRanges ranges).map normalizedSpan) := by
    rw [Span.cover_perm (perm_span_normalizedRanges ranges)]
    exact hbill
  obtain ⟨s, hs⟩ := Span.exists_filter_eq happart hcover
  rw [← map_normalizedSpan_rangesOfBill] at hs
  obtain ⟨range, hrange, -⟩ := List.map_eq_singleton_iff.1 hs
  refine ⟨range, hrange, ?_⟩
  obtain ⟨entry, hentry, hvalue, hpos, hcap⟩ := mem_allBills.1 (coveredBills_subset h.valid hbill)
  have hserial : IsBillSerial value serial := by
    have hcaps : ∀ entry ∈ denominationSerialCaps, 1 ≤ entry.1 ∧
        (denominationSerialCaps.lookup entry.1).getD 0 = entry.2 := by decide
    obtain ⟨hone, hlookup⟩ := hcaps entry hentry
    rw [hvalue]
    exact ⟨⟨hone, List.mem_map_of_mem hentry⟩, hpos, hlookup ▸ hcap⟩
  have hfind := List.head?_filter (p := fun range : NormalizedRange => decide (range.value = value) &&
    decide (range.startSerial ≤ serial) && decide (serial ≤ range.endSerial))
    (l := normalizedRanges ranges)
  rw [← rangesOfBill, hrange, List.head?_cons] at hfind
  simp only [rangeForSerial, Check.bind_eq_ok, validateBillValue_eq_ok, validateBillSerial_eq_ok,
    Check.ofOption_eq_ok]
  exact ⟨_, ⟨hserial.1, rfl⟩, _, ⟨hserial, rfl⟩, hfind.symm⟩

/-! ## The manifest -/

/-- The ranges of a manifest that verifies. -/
theorem validateRanges_of_verifyManifest {crypto : Crypto} {manifest : GenesisManifest}
    {req : ManifestRequirements} {verified : VerifiedManifest}
    (h : verifyManifest crypto manifest req = .ok verified) :
    (∃ value, validateRanges crypto manifest.ranges
      = .ok (verified.ranges, verified.totalTokenCount, value)) ∧
      manifest.totalTokenCount = verified.totalTokenCount ∧
      (req.requireFullSupply = true → verified.totalTokenCount = totalSupply) := by
  unfold verifyManifest at h
  -- the checks before the ranges: the header, the issuer, the time and the metadata
  iterate 13 obtain ⟨_, -, h⟩ := Check.bind_eq_ok.1 h
  obtain ⟨⟨normalized, totalCount, totalValue⟩, hranges, h⟩ := Check.bind_eq_ok.1 h
  simp only [Check.bind_eq_ok, Check.require_eq_ok, Check.pure_eq_ok] at h
  obtain ⟨_, -, _, hcount, _, -, _, -, _, hfull, _, -, _, -, _, -, _, -, _, -, _, -, _, -, _, -, rfl⟩ := h
  exact ⟨⟨totalValue, hranges⟩, hcount, hfull⟩

/-- The ranges of a manifest that verifies pass, and its counts are those of the bills. -/
theorem rangesValid_of_verifyManifest {crypto : Crypto} {manifest : GenesisManifest}
    {req : ManifestRequirements} {verified : VerifiedManifest}
    (h : verifyManifest crypto manifest req = .ok verified) :
    RangesValid crypto manifest.ranges ∧ verified.ranges = normalizedRanges manifest.ranges ∧
      manifest.totalTokenCount = ((coveredBills manifest.ranges).card : Int) ∧
      (req.requireFullSupply = true →
        ((coveredBills manifest.ranges).card : Int) = totalSupply) := by
  obtain ⟨⟨_, hranges⟩, hcount, hfull⟩ := validateRanges_of_verifyManifest h
  obtain ⟨hvalid, heq⟩ := validateRanges_eq_ok.1 hranges
  obtain ⟨hnormalized, heq⟩ := Prod.mk.inj heq
  obtain ⟨htotal, -⟩ := Prod.mk.inj heq
  rw [htotal] at hcount hfull
  exact ⟨hvalid, hnormalized, hcount, hfull⟩

/-- Ranges that pass and are as many bills as there are cover them all. -/
theorem RangesValid.coveredBills_eq {crypto : Crypto} {ranges : List ManifestRange}
    (h : RangesValid crypto ranges) (hcount : ((coveredBills ranges).card : Int) = totalSupply) :
    coveredBills ranges = allBills := by
  refine Finset.eq_of_subset_of_card_le (coveredBills_subset h.valid) ?_
  have hall := card_allBills
  omega

/-- One range for each denomination, with all its serials. -/
def fullSupplyRanges (owner seed : String) : List ManifestRange :=
  denominationSerialCaps.map fun entry => ⟨entry.1, 1, entry.2, owner, seed⟩

/-- The full supply can be issued to one owner. -/
theorem rangesValid_fullSupply {crypto : Crypto} {owner seed : String}
    (howner : isAddress crypto owner = true) (hseed : IsHex32 seed) :
    RangesValid crypto (fullSupplyRanges owner seed) ∧
      coveredBills (fullSupplyRanges owner seed) = allBills := by
  have hcaps : ∀ entry ∈ denominationSerialCaps, 1 ≤ entry.1 ∧ 1 ≤ entry.2 ∧
      (denominationSerialCaps.lookup entry.1).getD 0 = entry.2 := by decide
  have hdistinct : denominationSerialCaps.Pairwise fun a b => a.1 ≠ b.1 := by decide
  refine ⟨⟨List.cons_ne_nil _ _, ?_, ?_⟩, ?_⟩
  · intro range hrange
    obtain ⟨entry, hentry, rfl⟩ := List.mem_map.1 hrange
    obtain ⟨hvalue, hcap, hlookup⟩ := hcaps entry hentry
    have hbill : IsBillValue entry.1 := ⟨hvalue, List.mem_map_of_mem hentry⟩
    refine ⟨⟨hbill, le_rfl, hlookup ▸ hcap⟩, hcap, ⟨hbill, ?_, ?_⟩, howner, hseed⟩
    · show (1 : Int) ≤ 1 + entry.2 - 1
      omega
    · show 1 + entry.2 - 1 ≤ (denominationSerialCaps.lookup entry.1).getD 0
      omega
  · refine List.pairwise_map.2 (hdistinct.imp fun hne value serial hboth => ?_)
    obtain ⟨⟨hkey, -⟩, hkey', -⟩ := hboth.imp Span.mem_points.1 Span.mem_points.1
    exact hne (hkey.symm.trans hkey')
  · rw [coveredBills, fullSupplyRanges, List.map_map, allBills]
    refine congrArg Span.cover (List.map_congr_left fun entry _ => ?_)
    simp only [Function.comp_apply, span, Span.mk.injEq, true_and]
    omega

/-- **The supply accounting is exact.** The lists of ranges that pass are those of valid ranges without
    a shared serial; the count is the number of the bills they cover, each of which is found in exactly
    one range; and a manifest of the full supply covers every serial of every denomination. -/
theorem supplyAccounting_exact (crypto : Crypto) :
    (∀ ranges, (∃ answer, validateRanges crypto ranges = .ok answer) ↔ RangesValid crypto ranges) ∧
    (∀ ranges normalized count value,
      validateRanges crypto ranges = .ok (normalized, count, value) →
        count = ((coveredBills ranges).card : Int) ∧
        ∀ value serial, (value, serial) ∈ coveredBills ranges →
          ∃ range, rangesOfBill normalized value serial = [range] ∧
            rangeForSerial normalized value serial = .ok range) ∧
    (∀ manifest req verified, verifyManifest crypto manifest req = .ok verified →
      manifest.totalTokenCount = ((coveredBills manifest.ranges).card : Int) ∧
      (req.requireFullSupply = true → ∀ entry ∈ denominationSerialCaps, ∀ serial,
        1 ≤ serial → serial ≤ entry.2 → (entry.1, serial) ∈ coveredBills manifest.ranges ∧
          ∃ range, rangeForSerial verified.ranges entry.1 serial = .ok range)) := by
  refine ⟨fun ranges => ⟨?_, fun h => ⟨_, validateRanges_eq_ok.2 ⟨h, rfl⟩⟩⟩, ?_, ?_⟩
  · rintro ⟨answer, h⟩
    exact (validateRanges_eq_ok.1 h).1
  · intro ranges normalized count total h
    obtain ⟨hvalid, heq⟩ := validateRanges_eq_ok.1 h
    cases heq
    exact ⟨rfl, fun value serial hbill => hvalid.exists_rangesOfBill hbill⟩
  · intro manifest req verified h
    obtain ⟨hvalid, hnormalized, hcount, hfull⟩ := rangesValid_of_verifyManifest h
    refine ⟨hcount, fun hreq entry hentry serial hpos hcap => ?_⟩
    have hbill : (entry.1, serial) ∈ coveredBills manifest.ranges := by
      rw [hvalid.coveredBills_eq (hfull hreq)]
      exact mem_allBills.2 ⟨entry, hentry, rfl, hpos, hcap⟩
    obtain ⟨range, -, hfind⟩ := hvalid.exists_rangesOfBill hbill
    rw [hnormalized]
    exact ⟨hbill, range, hfind⟩

end GenesisManifest
