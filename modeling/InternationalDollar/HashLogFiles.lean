import InternationalDollar.HashLogArchive

set_option autoImplicit false

/-! # Segment files of an honest log (`hash_log_exporter`)

An archive is consistent with a log if each of its files holds entries of the log, of consecutive leaves and under the
name that tells which, or no entries. Then no call of the exporter on the files raises by itself: the covered range,
the segments of a manifest and the next start are those of the ranges of the files. -/

namespace HashLogArchive

/-- A row of the log. Its leaf index is its position. -/
structure LogRow where
  entryHash : String
  submittedAt : Int
  isHex : IsHex32 entryHash
  bounded : submittedAt.natAbs ≤ jsonLimits.maxIntegerAbs

/-- The entry that is served for a row. -/
def LogRow.toJson (row : LogRow) (index : Int) : Json :=
  .obj [("entry_hash", .str row.entryHash), ("leaf_index", .int index), ("submitted_at", .int row.submittedAt)]

/-- The entries of rows from a leaf on. -/
def entriesFrom : Int → List LogRow → List Json
  | _, [] => []
  | index, row :: rest => row.toJson index :: entriesFrom (index + 1) rest

/-- The entries of a number of leaves. -/
def slice (log : List LogRow) (first count : Nat) : List Json :=
  entriesFrom first ((log.drop first).take count)

/-- `/v3/entries`. -/
def servedEntries (log : List LogRow) (start stop limit : Int) : List Json :=
  let start := max 0 start
  let stop := max start stop
  let maxCount := max 1 limit
  let count := min maxCount (stop - start + 1)
  slice log start.toNat count.toNat

/-! ## Entries -/

variable {log rows : List LogRow} {row : LogRow} {index : Int} {entry : Json}

@[simp] theorem leafIndex_toJson : leafIndex (row.toJson index) = .ok index := rfl

@[simp] theorem entryHash_toJson : entryHash (row.toJson index) = .ok row.entryHash := rfl

theorem sorted_toJson : (row.toJson index).Sorted := by
  refine ⟨?_, ?_⟩
  · show ["entry_hash", "leaf_index", "submitted_at"].Pairwise (· < ·)
    decide
  · exact ⟨trivial, trivial, trivial, trivial⟩

@[simp] theorem length_entriesFrom : (entriesFrom index rows).length = rows.length := by
  induction rows generalizing index with
  | nil => rfl
  | cons row rest ih => rw [entriesFrom, List.length_cons, List.length_cons, ih]

theorem mem_entriesFrom (h : entry ∈ entriesFrom index rows) :
    ∃ k : Nat, ∃ row, rows[k]? = some row ∧ entry = row.toJson (index + k) := by
  induction rows generalizing index with
  | nil => exact absurd h List.not_mem_nil
  | cons row rest ih =>
    rcases List.mem_cons.1 h with rfl | h
    · exact ⟨0, row, rfl, by rw [Nat.cast_zero, add_zero]⟩
    · obtain ⟨k, found, hfound, rfl⟩ := ih h
      refine ⟨k + 1, found, hfound, ?_⟩
      rw [show index + ((k + 1 : Nat) : Int) = index + 1 + k by omega]

theorem getElem?_entriesFrom (k : Nat) :
    (entriesFrom index rows)[k]? = rows[k]?.map fun row => row.toJson (index + k) := by
  induction rows generalizing index k with
  | nil => rfl
  | cons row rest ih =>
    cases k with
    | zero => simp [entriesFrom]
    | succ k =>
      rw [entriesFrom, List.getElem?_cons_succ, List.getElem?_cons_succ, ih,
        show index + 1 + (k : Int) = index + ((k + 1 : Nat) : Int) by omega]

theorem validateFrom_entriesFrom : validateFrom index (entriesFrom index rows) = .ok () := by
  induction rows generalizing index with
  | nil => rfl
  | cons row rest ih =>
    obtain ⟨hlength, hhex⟩ := row.isHex
    obtain ⟨raw, hraw⟩ := Option.isSome_iff_exists.1 hhex
    rw [entriesFrom, validateFrom, leafIndex_toJson, Check.ok_bind, Check.require_of rfl, Check.ok_bind,
      entryHash_toJson, Check.ok_bind, Check.require_of hlength, Check.ok_bind, hraw]
    exact ih

theorem validateEntries_entriesFrom : validateEntries (entriesFrom index rows) = .ok () := by
  cases rows with
  | nil => rfl
  | cons row rest =>
    rw [entriesFrom, validateEntries, leafIndex_toJson, Check.ok_bind]
    show validateFrom index (entriesFrom index (row :: rest)) = .ok ()
    exact validateFrom_entriesFrom

theorem head?_entriesFrom (index : Int) (h : rows ≠ []) : ∃ head, (entriesFrom index rows).head? = some head ∧
    leafIndex head = .ok index := by
  obtain ⟨row, rest, rfl⟩ := List.exists_cons_of_ne_nil h
  exact ⟨_, rfl, rfl⟩

theorem getLast?_entriesFrom (index : Int) (h : rows ≠ []) : ∃ final, (entriesFrom index rows).getLast? = some final ∧
    leafIndex final = .ok (index + rows.length - 1) := by
  have hpos : 0 < rows.length := List.length_pos_iff.2 h
  obtain ⟨row, hrow⟩ : ∃ row, rows[rows.length - 1]? = some row := ⟨_, List.getElem?_eq_getElem (by omega)⟩
  refine ⟨row.toJson (index + (rows.length - 1 : Nat)), ?_, ?_⟩
  · rw [List.getLast?_eq_getElem?, length_entriesFrom, getElem?_entriesFrom, hrow]
    rfl
  · rw [leafIndex_toJson]
    exact congrArg Except.ok (by omega)

/-- Files with the entries of rows are read as their segment. -/
theorem readSegment_of_entries {reader : JsonReader} {file : String × Bytes} (hrows : rows ≠ [])
    (h : entriesFromSegmentBytes reader file.2 = .ok (entriesFrom index rows)) :
    readSegment reader file
      = .ok (some ⟨file.1, file.2, entriesFrom index rows, index, index + rows.length - 1⟩) := by
  obtain ⟨head, hhead, hfirst⟩ := head?_entriesFrom index hrows
  obtain ⟨final, hfinal, hlast⟩ := getLast?_entriesFrom index hrows
  rw [readSegment, h, Check.ok_bind, hhead, hfinal]
  dsimp only
  rw [hfirst, hlast]
  rfl

theorem readSegment_of_empty {reader : JsonReader} {file : String × Bytes}
    (h : entriesFromSegmentBytes reader file.2 = .ok []) : readSegment reader file = .ok none := by
  rw [readSegment, h]
  rfl

/-! ## Written files -/

/-- What is written for entries is read back. -/
theorem entriesFromSegmentBytes_linesText (reader : JsonReader) :
    entriesFromSegmentBytes reader (Text.utf8 (JsonReader.linesText (entriesFrom index rows)))
      = .ok (entriesFrom index rows) := by
  have hsorted : ∀ entry ∈ entriesFrom index rows, entry.Sorted := by
    intro entry hentry
    obtain ⟨k, row, -, rfl⟩ := mem_entriesFrom hentry
    exact sorted_toJson
  rw [entriesFromSegmentBytes, Text.utf8Decode_utf8, Check.ofOption, Check.ok_bind,
    JsonReader.readLines_linesText hsorted, Check.ofOption, Check.ok_bind, validateEntries_entriesFrom]
  rfl

/-- An entry within the limits of canonical JSON. -/
theorem validate_toJson (hindex : index.natAbs ≤ jsonLimits.maxIntegerAbs) :
    (row.toJson index).validate jsonLimits "protocol object" 0 = .ok () := by
  have hhash : (Json.str row.entryHash).validate jsonLimits "protocol object" (0 + 1) = .ok () := by
    refine validate_text (by decide) ?_
    rw [row.isHex.1]
    decide
  refine Json.validate_obj.2 ⟨by decide, show 3 ≤ 1024 by decide, ?_⟩
  simp only [List.forall_mem_cons]
  exact ⟨⟨by decide, hhash⟩, ⟨by decide, validate_number (by decide) hindex⟩,
    ⟨by decide, validate_number (by decide) row.bounded⟩, by simp⟩

/-- The length of a line. -/
theorem length_render_toJson (hindex : index.natAbs ≤ jsonLimits.maxIntegerAbs) :
    (row.toJson index).render.length ≤ 1999 := by
  have hdigits : ∀ {n : Int}, n.natAbs ≤ jsonLimits.maxIntegerAbs → (Json.renderInt n).length ≤ 21 := by
    intro n hn
    refine Json.length_renderInt_le (by decide) (lt_of_le_of_lt hn ?_)
    show 9223372036854775807 < 10 ^ 20
    decide
  have hhash := Json.length_renderString_le row.entryHash
  have hhash' : row.entryHash.length = 64 := row.isHex.1
  have hindex' := hdigits hindex
  have htime := hdigits row.bounded
  have hname := Json.length_renderString_le "entry_hash"
  have hname' := Json.length_renderString_le "leaf_index"
  have hname'' := Json.length_renderString_le "submitted_at"
  have hten : "entry_hash".length = 10 ∧ "leaf_index".length = 10 ∧ "submitted_at".length = 12 := by decide
  simp only [LogRow.toJson, Json.render, Json.renderMembers, Json.renderMoreMembers, List.length_cons,
    List.length_append, List.length_nil]
  omega

/-! ## Consistent archives -/

variable {reader : JsonReader} {file : String × Bytes} {files : List (String × Bytes)} {first count : Nat}

/-- A file holds the entries of `count` leaves from `first` on, under their name. -/
structure Holds (reader : JsonReader) (log : List LogRow) (file : String × Bytes) (first count : Nat) : Prop where
  pos : 0 < count
  le : first + count ≤ log.length
  name : file.1 = segmentName first (first + count - 1)
  read : entriesFromSegmentBytes reader file.2 = .ok (slice log first count)
  size : file.2.length ≤ jsonLimits.maxIntegerAbs

/-- The files of an archive hold entries of the log, or no entries. -/
structure Consistent (reader : JsonReader) (log : List LogRow) (files : List (String × Bytes)) : Prop where
  nodup : (files.map Prod.fst).Nodup
  holds : ∀ file ∈ files, entriesFromSegmentBytes reader file.2 = .ok [] ∨
    ∃ first count, Holds reader log file first count

/-- The segment of a file. -/
def heldSegment (log : List LogRow) (file : String × Bytes) (first count : Nat) : Segment :=
  ⟨file.1, file.2, slice log first count, first, first + count - 1⟩

theorem length_rows (h : first + count ≤ log.length) : ((log.drop first).take count).length = count := by
  rw [List.length_take, List.length_drop]
  omega

theorem slice_ne_nil (hpos : 0 < count) (h : first + count ≤ log.length) :
    (log.drop first).take count ≠ [] := by
  rw [← List.length_pos_iff, length_rows h]
  exact hpos

theorem Holds.readSegment (h : Holds reader log file first count) :
    HashLogArchive.readSegment reader file = .ok (some (heldSegment log file first count)) := by
  rw [readSegment_of_entries (slice_ne_nil h.pos h.le) h.read, length_rows h.le]
  rfl

theorem mem_slice {entry : Json} (h : entry ∈ slice log first count) :
    ∃ k : Nat, ∃ row, log[k]? = some row ∧ entry = row.toJson k := by
  obtain ⟨k, row, hrow, rfl⟩ := mem_entriesFrom h
  rw [List.getElem?_take] at hrow
  split at hrow
  · rw [List.getElem?_drop] at hrow
    exact ⟨first + k, row, hrow, by rw [Nat.cast_add]⟩
  · cases hrow

/-- What is written for entries of the log. -/
theorem writeSegment_slice (hpos : 0 < count) (h : first + count ≤ log.length) (hlog : log.length ≤ 10 ^ 12) :
    writeSegment files (slice log first count) = .ok (AssocList.put (segmentName first (first + count - 1))
      (Text.utf8 (JsonReader.linesText (slice log first count))) files) := by
  obtain ⟨head, hhead, hfirst⟩ := head?_entriesFrom first (slice_ne_nil hpos h)
  obtain ⟨final, hfinal, hlast⟩ := getLast?_entriesFrom first (slice_ne_nil hpos h)
  rw [length_rows h] at hlast
  have hvalid : Check.requireAll (fun entry => entry.validate jsonLimits "protocol object" 0) (slice log first count)
      = .ok () := by
    refine Check.requireAll_eq_ok.2 fun entry hentry => ?_
    obtain ⟨k, row, hrow, rfl⟩ := mem_slice hentry
    obtain ⟨hk, -⟩ := List.getElem?_eq_some_iff.1 hrow
    refine validate_toJson ?_
    show k ≤ 9223372036854775807
    omega
  unfold slice at *
  rw [writeSegment, hhead, hfinal]
  dsimp only
  rw [validateEntries_entriesFrom, Check.ok_bind, hfirst, Check.ok_bind, hlast, Check.ok_bind, hvalid]
  rfl

/-- The file that is written holds the entries. -/
theorem holds_slice (hpos : 0 < count) (h : first + count ≤ log.length) (hlog : log.length ≤ 10 ^ 12) :
    Holds reader log (segmentName first (first + count - 1),
      Text.utf8 (JsonReader.linesText (slice log first count))) first count where
  pos := hpos
  le := h
  name := rfl
  read := entriesFromSegmentBytes_linesText reader
  size := by
    have hlines : ∀ entry ∈ slice log first count, entry.render.length ≤ 1999 := by
      intro entry hentry
      obtain ⟨k, row, hrow, rfl⟩ := mem_slice hentry
      obtain ⟨hk, -⟩ := List.getElem?_eq_some_iff.1 hrow
      refine length_render_toJson ?_
      show k ≤ 9223372036854775807
      omega
    have hle := JsonReader.length_linesText_le hlines
    have hlength : (slice log first count).length = count := by
      rw [slice, length_entriesFrom, length_rows h]
    rw [hlength] at hle
    show (Text.utf8 (JsonReader.linesText (slice log first count))).length ≤ 9223372036854775807
    omega

/-- A readable file is empty or a segment. -/
theorem exists_readSegments (h : ∀ file ∈ files, ∃ segment, readSegment reader file = .ok segment) :
    ∃ segments, readSegments reader files = .ok segments ∧
      ∀ s, s ∈ segments ↔ ∃ file ∈ files, readSegment reader file = .ok (some s) := by
  induction files with
  | nil => exact ⟨[], rfl, fun s => by simp⟩
  | cons file rest ih =>
    rw [List.forall_mem_cons] at h
    obtain ⟨⟨segment, hsegment⟩, hrest⟩ := h
    obtain ⟨segments, hsegments, hmem⟩ := ih hrest
    refine ⟨segment.toList ++ segments, ?_, fun s => ?_⟩
    · rw [readSegments, hsegment, Check.ok_bind, hsegments]
      rfl
    · rw [List.mem_append, hmem, List.exists_mem_cons_iff, hsegment, Option.mem_toList, Except.ok.injEq]

/-- Entries of one log do not conflict. -/
theorem overlapFrom_eq_ok {seen : List (Int × Json)} {entries : List Json}
    (hseen : ∀ i e, AssocList.get? i seen = some e → ∃ k : Nat, ∃ row, log[k]? = some row ∧ e = row.toJson k ∧ i = k)
    (h : ∀ e ∈ entries, ∃ k : Nat, ∃ row, log[k]? = some row ∧ e = row.toJson k) :
    overlapFrom seen entries = .ok () := by
  induction entries generalizing seen with
  | nil => rfl
  | cons entry rest ih =>
    rw [List.forall_mem_cons] at h
    obtain ⟨⟨k, row, hrow, rfl⟩, hrest⟩ := h
    have hsame : ∀ previous ∈ AssocList.get? (k : Int) seen, previous.numeric = (row.toJson k).numeric := by
      intro previous hprevious
      obtain ⟨k', row', hrow', rfl, hk⟩ := hseen _ _ hprevious
      obtain rfl : k = k' := by exact_mod_cast hk
      obtain rfl : row = row' := Option.some.inj (hrow.symm.trans hrow')
      rfl
    rw [overlapFrom, leafIndex_toJson, Check.ok_bind, Check.require_of hsame, Check.ok_bind]
    refine ih (fun i e hget => ?_) hrest
    rw [AssocList.get?_put] at hget
    split at hget
    · next hi =>
      cases hget
      exact ⟨k, row, hrow, rfl, hi⟩
    · exact hseen i e hget

/-- What the exporter reads from files. -/
structure Reads (reader : JsonReader) (log : List LogRow) (files : List (String × Bytes))
    (segments : List Segment) : Prop where
  entrySegments : entrySegments reader files = .ok segments
  mem : ∀ s, s ∈ segments ↔ ∃ file ∈ files, readSegment reader file = .ok (some s)
  holds : ∀ s ∈ segments, ∃ file ∈ files, ∃ first count, Holds reader log file first count ∧
    s = heldSegment log file first count
  overlap : validateOverlapConsistency segments = .ok ()

theorem Consistent.exists_readSegment (h : Consistent reader log files) (hfile : file ∈ files) :
    ∃ segment, HashLogArchive.readSegment reader file = .ok segment := by
  rcases h.holds file hfile with hempty | ⟨first, count, hholds⟩
  · exact ⟨none, readSegment_of_empty hempty⟩
  · exact ⟨_, hholds.readSegment⟩

theorem Consistent.exists_reads (h : Consistent reader log files) :
    ∃ segments, Reads reader log files segments := by
  have hsorted : ∀ file ∈ sortedFiles files, ∃ segment, HashLogArchive.readSegment reader file = .ok segment :=
    fun file hfile => h.exists_readSegment (Select.mem_orderBy.1 hfile)
  obtain ⟨segments, hsegments, hmem⟩ := exists_readSegments hsorted
  have hmem' : ∀ s, s ∈ segments ↔ ∃ file ∈ files, HashLogArchive.readSegment reader file = .ok (some s) := by
    intro s
    rw [hmem]
    exact exists_congr fun file => and_congr_left fun _ => Select.mem_orderBy
  have hholds : ∀ s ∈ segments, ∃ file ∈ files, ∃ first count, Holds reader log file first count ∧
      s = heldSegment log file first count := by
    intro s hs
    obtain ⟨file, hfile, hread⟩ := (hmem' s).1 hs
    rcases h.holds file hfile with hempty | ⟨first, count, hholds⟩
    · rw [readSegment_of_empty hempty] at hread
      cases hread
    · rw [hholds.readSegment, Except.ok.injEq, Option.some.injEq] at hread
      exact ⟨file, hfile, first, count, hholds, hread.symm⟩
  have hentries : ∀ entry ∈ segments.flatMap Segment.entries,
      ∃ k : Nat, ∃ row, log[k]? = some row ∧ entry = row.toJson k := by
    intro entry hentry
    obtain ⟨s, hs, hentry⟩ := List.mem_flatMap.1 hentry
    obtain ⟨file, -, first, count, -, rfl⟩ := hholds s hs
    exact mem_slice hentry
  exact ⟨segments, hsegments, hmem', hholds, overlapFrom_eq_ok (fun _ _ hget => nomatch hget) hentries⟩

/-! ## The next start -/

/-- Names stand in the order of the first leaves. -/
theorem segmentName_lt (last last' : Int) {first first' : Nat} (h : first < first') (hlt : first' < 10 ^ 12) :
    segmentName first last < segmentName first' last' :=
  Text.name_lt_name "entries_".toList (by decide) h hlt

/-- What a search among files finds: the least start after a leaf. -/
structure FindsStart (reader : JsonReader) (files : List (String × Bytes)) (e : Int) (result : Option Int) : Prop where
  nothing : result = none → ∀ file ∈ files, ∀ s, readSegment reader file = .ok (some s) → s.first ≤ e
  found : ∀ start, result = some start →
    (∃ file ∈ files, ∃ s, readSegment reader file = .ok (some s) ∧ s.first = start) ∧ e < start ∧
      ∀ file ∈ files, ∀ s, readSegment reader file = .ok (some s) → e < s.first → start ≤ s.first

/-- A file that does not start after the leaf is passed over. -/
theorem FindsStart.cons {e : Int} {result : Option Int} (h : FindsStart reader files e result)
    (hfile : ∀ s, readSegment reader file = .ok (some s) → s.first ≤ e) :
    FindsStart reader (file :: files) e result where
  nothing hresult := List.forall_mem_cons.2 ⟨hfile, h.nothing hresult⟩
  found start hresult := by
    obtain ⟨⟨other, hother, hstart⟩, hlt, hmin⟩ := h.found start hresult
    refine ⟨⟨other, List.mem_cons_of_mem _ hother, hstart⟩, hlt, List.forall_mem_cons.2 ⟨?_, hmin⟩⟩
    exact fun s hs hafter => absurd (hfile s hs) (not_le.2 hafter)

/-- The search in files that stand in the order of their first leaves. -/
theorem exists_nextSegmentStart {e : Int} (hread : ∀ file ∈ files, ∃ segment, readSegment reader file = .ok segment)
    (hsorted : files.Pairwise fun a b => ∀ s t, readSegment reader a = .ok (some s) →
      readSegment reader b = .ok (some t) → s.first ≤ t.first) :
    ∃ result, nextSegmentStart reader e files = .ok result ∧ FindsStart reader files e result := by
  induction files with
  | nil => exact ⟨none, rfl, fun _ file hfile => absurd hfile List.not_mem_nil, fun _ h => (nomatch h)⟩
  | cons file rest ih =>
    rw [List.forall_mem_cons] at hread
    rw [List.pairwise_cons] at hsorted
    obtain ⟨⟨segment, hsegment⟩, hrest⟩ := hread
    obtain ⟨result, hresult, hfinds⟩ := ih hrest hsorted.2
    rw [nextSegmentStart, hsegment, Check.ok_bind]
    cases segment with
    | none =>
      refine ⟨result, hresult, hfinds.cons fun s hs => ?_⟩
      rw [hsegment] at hs
      cases hs
    | some s =>
      dsimp only
      have honly : ∀ t, readSegment reader file = .ok (some t) → s = t := by
        intro t ht
        rwa [hsegment, Except.ok.injEq, Option.some.injEq] at ht
      by_cases hlt : e < s.first
      · rw [if_pos hlt]
        refine ⟨some s.first, rfl, fun h => (nomatch h), ?_⟩
        rintro start ⟨⟩
        refine ⟨⟨file, List.mem_cons_self, s, hsegment, rfl⟩, hlt, List.forall_mem_cons.2 ⟨?_, ?_⟩⟩
        · exact fun t ht _ => (congrArg Segment.first (honly t ht)).le
        · exact fun other hother t ht _ => hsorted.1 other hother s t hsegment ht
      · rw [if_neg hlt]
        exact ⟨result, hresult, hfinds.cons fun t ht => honly t ht ▸ not_lt.1 hlt⟩

namespace Reads

variable {segments : List Segment} {n : Int} (h : Reads reader log files segments)
include h

theorem valid : ∀ s ∈ segments, s.first ≤ s.last := by
  intro s hs
  obtain ⟨file, -, first, count, hholds, rfl⟩ := h.holds s hs
  have hpos := hholds.pos
  show (first : Int) ≤ first + count - 1
  omega

theorem first_nonneg : ∀ s ∈ segments, 0 ≤ s.first := by
  intro s hs
  obtain ⟨file, -, first, count, -, rfl⟩ := h.holds s hs
  exact Int.natCast_nonneg first

/-- The covered range is that of the ranges of the files. -/
theorem contiguousPrefix_eq (hn : 0 ≤ n) : contiguousPrefix reader files n
    = .ok (Tiling.prefixFrom Segment.first Segment.last n segments n.toNat 0) := by
  unfold contiguousPrefix
  by_cases hzero : n ≤ 0
  · obtain rfl : n = 0 := le_antisymm hzero hn
    rfl
  · rw [if_neg hzero, h.entrySegments, Check.ok_bind, h.overlap, Check.ok_bind]
    rfl

/-- A manifest lists the tiles among the segments. -/
theorem segmentManifestEntries_eq_ok (crypto : Crypto) {records : List SegmentRecord} :
    segmentManifestEntries crypto reader files n = .ok records ↔
      ∃ tiles, Tiling.tilesFrom Segment.first Segment.last n segments n.toNat 0 = some tiles ∧
        tiles.map (Segment.record crypto) = records := by
  unfold segmentManifestEntries
  by_cases hzero : n = 0
  · subst hzero
    rw [if_pos rfl]
    show Except.ok [] = Except.ok records ↔ ∃ tiles, some [] = some tiles ∧ _
    simp
  · rw [if_neg hzero, h.entrySegments, Check.ok_bind, h.overlap, Check.ok_bind]
    simp

/-- The next start is the least, as the names stand in the order of the first leaves. -/
theorem nextSegmentStartAfter_eq (hconsistent : Consistent reader log files) (hlog : log.length ≤ 10 ^ 12)
    (e : Int) : nextSegmentStartAfter reader files e = .ok (Tiling.nextStart Segment.first segments e) := by
  have hfiles : ∀ file, file ∈ sortedFiles files ↔ file ∈ files := fun file => Select.mem_orderBy
  have hsorted : (sortedFiles files).Pairwise fun a b => ∀ s t, readSegment reader a = .ok (some s) →
      readSegment reader b = .ok (some t) → s.first ≤ t.first := by
    refine (Select.sorted_orderBy Prod.fst files).imp_of_mem ?_
    intro a b ha hb hle s t hs ht
    have hnamed : ∀ file ∈ files, ∀ s, readSegment reader file = .ok (some s) →
        ∃ first count : Nat, s.first = first ∧ first < 10 ^ 12 ∧ file.1 = segmentName first (first + count - 1) := by
      intro file hfile s hs
      rcases hconsistent.holds file hfile with hempty | ⟨first, count, hholds⟩
      · rw [readSegment_of_empty hempty] at hs
        cases hs
      · rw [hholds.readSegment, Except.ok.injEq, Option.some.injEq] at hs
        have hpos := hholds.pos
        have hle := hholds.le
        exact ⟨first, count, hs ▸ rfl, by omega, hholds.name⟩
    obtain ⟨first, count, hfirst, hlt, hname⟩ := hnamed a ((hfiles a).1 ha) s hs
    obtain ⟨first', count', hfirst', -, hname'⟩ := hnamed b ((hfiles b).1 hb) t ht
    by_contra hnot
    have hbefore : first' < first := by omega
    have hnames := segmentName_lt (first' + count' - 1) (first + count - 1) hbefore hlt
    rw [← hname, ← hname'] at hnames
    exact absurd hle (not_le.2 hnames)
  have hread : ∀ file ∈ sortedFiles files, ∃ segment, readSegment reader file = .ok segment :=
    fun file hfile => hconsistent.exists_readSegment ((hfiles file).1 hfile)
  obtain ⟨result, hresult, hnone, hsome⟩ := @exists_nextSegmentStart _ _ e hread hsorted
  rw [nextSegmentStartAfter, hresult]
  refine congrArg Except.ok ?_
  cases result with
  | none =>
    refine (Tiling.nextStart_eq_none_iff.2 fun s hs => ?_).symm
    obtain ⟨file, hfile, hs⟩ := (h.mem s).1 hs
    exact hnone rfl file ((hfiles file).2 hfile) s hs
  | some start =>
    obtain ⟨⟨file, hfile, s, hs, hstart⟩, hlt, hmin⟩ := hsome start rfl
    refine (Tiling.nextStart_eq_of ((h.mem s).2 ⟨file, (hfiles file).1 hfile, hs⟩) hstart hlt fun t ht hafter => ?_).symm
    obtain ⟨other, hother, ht⟩ := (h.mem t).1 ht
    exact hmin other ((hfiles other).2 hother) t ht hafter

end Reads

end HashLogArchive
