import InternationalDollar.HashLogManifest
import InternationalDollar.InclusionProof

set_option autoImplicit false

/-! # The auditor of archives (`audit_hash_log`)

The auditor is a program of its own: it reads a manifest and the segments that it lists from wherever they are, checks
them with its own parser and builds the tree again. What it accepts is the whole log of the signed root, and it accepts
what an honest operator's exporter writes: `sound_and_complete`. -/

namespace HashLogAudit

open HashLogArchive

/-! ## Locations -/

/-- Where something is read from: a place of its own, or below a base. -/
inductive Location where
  | direct (path : Json)
  | below (base : String) (path : Json)
deriving DecidableEq

/-- `_is_url`. -/
def isUrl (text : String) : Bool :=
  (Text.dropPrefix? "http://".toList text.toList).isSome || (Text.dropPrefix? "https://".toList text.toList).isSome

/-- `_segment_location`. The text of a value that is none is neither an address nor absolute. -/
def segmentLocation (base : Option String) (path : Json) : Location :=
  let alone := match path with
    | .str text => isUrl text || (Text.dropPrefix? ['/'] text.toList).isSome
    | _ => false
  match base with
  | none => .direct path
  | some base => if alone = true ∨ base = "" then .direct path else .below base path

/-- What the auditor can read: files and addresses. -/
abbrev World := Location → Except String Bytes

/-! ## Segments -/

/-- `{"leaf_index", "entry_hash", "submitted_at"}`. -/
def entryMembers : List String :=
  ["leaf_index", "entry_hash", "submitted_at"]

/-- The loop of `_entries_from_segment`. The first entry says where the segment starts. -/
def checkEntries : Option Int → List Json → Except String Unit
  | _, [] => .ok ()
  | expected, entry :: rest => do
      Check.require (entry.hasMembers entryMembers) "segment contains a malformed hash-log entry"
      let index ← leafIndex entry
      Check.require (index = expected.getD index) "segment leaf indices are not contiguous"
      let hash ← entryHash entry
      Check.require ((Text.lower hash).length = 64) "segment entry hash has invalid length"
      let _ ← Check.ofOption (Text.fromhex (Text.lower hash)) "segment entry hash is not hex"
      checkEntries (some (index + 1)) rest

/-- `_entries_from_segment`. -/
def entriesFromSegment (reader : JsonReader) (data : Bytes) : Except String (List Json) := do
  let text ← Check.ofOption (Text.utf8Decode data) "could not parse segment JSONL"
  let entries ← Check.ofOption (reader.readLines text) "could not parse segment JSONL"
  checkEntries none entries
  pure entries

/-- `int(segment[key]) != n`. -/
def requireNumber (segment : Json) (key : String) (n : Int) (error : String) : Except String Unit := do
  let value ← segment.item key
  let value ← value.toInt
  Check.require (value = n) error

/-- A round of the loop over the segments: the entries, and the leaf that the next segment starts with. -/
def auditSegment (crypto : Crypto) (reader : JsonReader) (world : World) (base : Option String)
    (segmentHashAlgorithm : Json) (expectedLeaf : Int) (segment : Json) : Except String (List Json × Int) := do
  let path ← segment.item "path"
  let data ← world (segmentLocation base path)
  let actualHash ← segmentHash crypto data segmentHashAlgorithm
  let hash ← segment.item "segment_hash"
  Check.require (hash = .str actualHash) "segment hash mismatch"
  requireNumber segment "byte_length" data.length "segment byte length mismatch"
  let entries ← entriesFromSegment reader data
  match entries.head?, entries.getLast? with
  | some head, some final => do
      let first ← leafIndex head
      requireNumber segment "first_leaf_index" first "segment first_leaf_index mismatch"
      let last ← leafIndex final
      requireNumber segment "last_leaf_index" last "segment last_leaf_index mismatch"
      requireNumber segment "entry_count" entries.length "segment entry_count mismatch"
      Check.require (first = expectedLeaf) "archive segment ranges are not contiguous from leaf 0"
      pure (entries, last + 1)
  | _, _ => .error "empty segment listed in manifest"

/-- The loop over the segments: all entries, in order. -/
def auditSegments (crypto : Crypto) (reader : JsonReader) (world : World) (base : Option String)
    (segmentHashAlgorithm : Json) : Int → List Json → Except String (List Json)
  | _, [] => pure []
  | expectedLeaf, segment :: rest => do
      let (entries, nextLeaf) ← auditSegment crypto reader world base segmentHashAlgorithm expectedLeaf segment
      let more ← auditSegments crypto reader world base segmentHashAlgorithm nextLeaf rest
      pure (entries ++ more)

/-! ## The tree -/

/-- `bytes.fromhex(entry["entry_hash"])`. -/
def decodedHash (entry : Json) : Except String Bytes := do
  let value ← entry.item "entry_hash"
  match value with
  | .str text => Check.ofOption (Text.fromhex text) "non-hexadecimal number found"
  | _ => .error "fromhex() argument must be str"

/-- The leaves of the tree that is built from entries. -/
def decodedHashes : List Json → Except String (List Bytes)
  | [] => pure []
  | entry :: rest => do
      let leaf ← decodedHash entry
      let leaves ← decodedHashes rest
      pure (leaf :: leaves)

/-- `_compute_archive_root`. -/
def computeArchiveRoot (pymerkle : PyMerkle) (entries : List Json) (treeSize : Int) : Except String String := do
  let leaves ← decodedHashes entries
  Check.require ((leaves.length : Int) = treeSize) "archive does not have as many entries as the signed root"
  pure (Text.hex (pymerkle.rootOf (leaves.map pymerkle.hashBuff)))

/-- `_read_json`. -/
def readJson (reader : JsonReader) (world : World) (location : Location) : Except String Json := do
  let data ← world location
  let text ← Check.ofOption (Text.utf8Decode data) "could not parse JSON"
  Check.ofOption (reader.loads text.toList) "could not parse JSON"

/-- What `verify_archive` is told. A mirror says whether it has the root. -/
structure Options where
  archiveBase : Option String
  operatorPublicKey : Option String
  mirror : Option (SignedRoot → Except String Bool)
  strict : Bool

/-- What `verify_archive` returns. -/
structure Report where
  mirrorCrossChecked : Bool
  logId : String
  treeSize : Int
  rootHash : String
  segmentCount : Int

/-- The items of a list, where the code goes through them and asks for their number. An empty text or object has none;
    an item of another value is a text, which has no members. -/
def asList : Json → Except String (List Json)
  | .arr items => .ok items
  | .obj [] => .ok []
  | .str "" => .ok []
  | _ => .error "string indices must be integers"

/-- `verify_archive`. -/
def verifyArchive (crypto : Crypto) (pymerkle : PyMerkle) (acceptLegacy : Bool) (reader : JsonReader) (world : World)
    (manifestLocation : Location) (options : Options) : Except String Report := do
  Check.require (options.strict = true → options.mirror.isSome) "strict hash-log archive audit requires --mirror"
  let manifest ← readJson reader world manifestLocation
  let root ← verifyManifestSignature crypto acceptLegacy manifest options.operatorPublicKey
  let segments ← manifest.item "segments"
  let segments ← asList segments
  let algorithm ← manifest.item "segment_hash_algorithm"
  let entries ← auditSegments crypto reader world options.archiveBase algorithm 0 segments
  let computedRoot ← computeArchiveRoot pymerkle entries root.treeSize
  Check.require (computedRoot = root.rootHash) "archive entries do not produce the manifest signed root"
  match options.mirror with
  | none => pure ⟨false, root.logId, root.treeSize, root.rootHash, segments.length⟩
  | some mirror => do
      let same ← mirror root
      Check.require (same = true) "mirror does not contain the manifest signed root"
      pure ⟨true, root.logId, root.treeSize, root.rootHash, segments.length⟩

/-! ## What is accepted -/

variable {crypto : Crypto} {pymerkle : PyMerkle} {reader : JsonReader} {world : World} {base : Option String}
  {algorithm : Json} {entries : List Json} {e : Int}

/-- Entries that are numbered from a leaf on. -/
def NumberedFrom (e : Int) (entries : List Json) : Prop :=
  ∀ (i : Nat) (entry : Json), entries[i]? = some entry → leafIndex entry = .ok (e + i)

theorem NumberedFrom.nil : NumberedFrom e [] := fun i entry h => by simp at h

theorem NumberedFrom.cons {entry : Json} (hentry : leafIndex entry = .ok e) (h : NumberedFrom (e + 1) entries) :
    NumberedFrom e (entry :: entries) := by
  intro i found hfound
  cases i with
  | zero =>
    cases hfound
    rw [hentry, Nat.cast_zero, add_zero]
  | succ i =>
    rw [h i found hfound]
    exact congrArg Except.ok (by omega)

theorem NumberedFrom.append {more : List Json} (h : NumberedFrom e entries)
    (hmore : NumberedFrom (e + entries.length) more) : NumberedFrom e (entries ++ more) := by
  intro i entry hentry
  rcases lt_or_ge i entries.length with hlt | hge
  · rw [List.getElem?_append_left hlt] at hentry
    exact h i entry hentry
  · rw [List.getElem?_append_right hge] at hentry
    rw [hmore _ entry hentry]
    exact congrArg Except.ok (by omega)

/-- The entries of an accepted segment are numbered from its first one on. -/
theorem numberedFrom_of_checkEntries {expected : Option Int} (h : checkEntries expected entries = .ok ()) :
    ∀ head ∈ entries.head?, ∃ first, leafIndex head = .ok first ∧ (∀ e ∈ expected, first = e) ∧
      NumberedFrom first entries := by
  induction entries generalizing expected with
  | nil => exact fun _ hhead => nomatch hhead
  | cons entry rest ih =>
    rintro head ⟨⟩
    obtain ⟨-, h⟩ := Check.check_bind_eq_ok.1 h
    obtain ⟨index, hindex, h⟩ := Check.bind_eq_ok.1 h
    obtain ⟨hexpected, h⟩ := Check.check_bind_eq_ok.1 h
    obtain ⟨hash, -, h⟩ := Check.bind_eq_ok.1 h
    obtain ⟨-, h⟩ := Check.check_bind_eq_ok.1 h
    obtain ⟨_, -, hrest⟩ := Check.bind_eq_ok.1 h
    rw [Check.require_eq_ok] at hexpected
    refine ⟨index, hindex, fun e he => ?_, NumberedFrom.cons hindex ?_⟩
    · rw [he] at hexpected
      exact hexpected
    · cases rest with
      | nil => exact NumberedFrom.nil
      | cons next later =>
        obtain ⟨first, -, hfirst, hnumbered⟩ := ih hrest next rfl
        rw [← hfirst _ rfl]
        exact hnumbered

theorem entriesFromSegment_eq_ok {data : Bytes} (h : entriesFromSegment reader data = .ok entries) :
    checkEntries none entries = .ok () := by
  obtain ⟨text, -, h⟩ := Check.bind_eq_ok.1 h
  obtain ⟨read, -, h⟩ := Check.bind_eq_ok.1 h
  obtain ⟨hcheck, h⟩ := Check.check_bind_eq_ok.1 h
  cases h
  exact hcheck

/-- An accepted segment goes on where the one before it ended. -/
theorem numberedFrom_of_auditSegment {segment : Json} {nextLeaf : Int}
    (h : auditSegment crypto reader world base algorithm e segment = .ok (entries, nextLeaf)) :
    NumberedFrom e entries ∧ nextLeaf = e + entries.length := by
  obtain ⟨path, -, h⟩ := Check.bind_eq_ok.1 h
  obtain ⟨data, -, h⟩ := Check.bind_eq_ok.1 h
  obtain ⟨actualHash, -, h⟩ := Check.bind_eq_ok.1 h
  obtain ⟨hash, -, h⟩ := Check.bind_eq_ok.1 h
  obtain ⟨-, h⟩ := Check.check_bind_eq_ok.1 h
  obtain ⟨-, h⟩ := Check.check_bind_eq_ok.1 h
  obtain ⟨read, hread, h⟩ := Check.bind_eq_ok.1 h
  split at h
  · next head final hhead hfinal =>
    obtain ⟨first, hfirst, h⟩ := Check.bind_eq_ok.1 h
    obtain ⟨-, h⟩ := Check.check_bind_eq_ok.1 h
    obtain ⟨last, hlast, h⟩ := Check.bind_eq_ok.1 h
    obtain ⟨-, h⟩ := Check.check_bind_eq_ok.1 h
    obtain ⟨-, h⟩ := Check.check_bind_eq_ok.1 h
    obtain ⟨hexpected, h⟩ := Check.check_bind_eq_ok.1 h
    cases h
    rw [Check.require_eq_ok] at hexpected
    subst hexpected
    obtain ⟨first', hfirst', -, hnumbered⟩ :=
      numberedFrom_of_checkEntries (entriesFromSegment_eq_ok hread) head hhead
    obtain rfl : first = first' := Except.ok.inj (hfirst.symm.trans hfirst')
    refine ⟨hnumbered, ?_⟩
    rw [List.getLast?_eq_getElem?] at hfinal
    have hindex := hnumbered _ final hfinal
    rw [hlast, Except.ok.injEq] at hindex
    obtain ⟨hlt, -⟩ := List.getElem?_eq_some_iff.1 hfinal
    omega
  · cases h

/-- Accepted segments hold entries that are numbered without a gap. -/
theorem numberedFrom_of_auditSegments {segments : List Json}
    (h : auditSegments crypto reader world base algorithm e segments = .ok entries) : NumberedFrom e entries := by
  induction segments generalizing e entries with
  | nil =>
    cases h
    exact NumberedFrom.nil
  | cons segment rest ih =>
    obtain ⟨⟨first, nextLeaf⟩, hsegment, h⟩ := Check.bind_eq_ok.1 h
    obtain ⟨more, hmore, h⟩ := Check.bind_eq_ok.1 h
    cases h
    obtain ⟨hnumbered, rfl⟩ := numberedFrom_of_auditSegment hsegment
    exact hnumbered.append (ih hmore)

theorem length_decodedHashes {leaves : List Bytes} (h : decodedHashes entries = .ok leaves) :
    leaves.length = entries.length := by
  induction entries generalizing leaves with
  | nil =>
    cases h
    rfl
  | cons entry rest ih =>
    obtain ⟨leaf, -, h⟩ := Check.bind_eq_ok.1 h
    obtain ⟨more, hmore, h⟩ := Check.bind_eq_ok.1 h
    cases h
    rw [List.length_cons, List.length_cons, ih hmore]

/-- Two lists of leaves with one root are the same: no two hashes in their trees collide. -/
def RootDetermines (pymerkle : PyMerkle) (leaves log : List Bytes) : Prop :=
  pymerkle.rootOf (leaves.map pymerkle.hashBuff) = pymerkle.rootOf (log.map pymerkle.hashBuff) → leaves = log

/-- The entries are those of the whole log behind a signed root: as many as it has leaves, numbered in order, with the
    hashes that are its leaves. -/
structure IsLogOf (pymerkle : PyMerkle) (root : SignedRoot) (entries : List Json) : Prop where
  length : (entries.length : Int) = root.treeSize
  numbered : ∀ (i : Nat) (entry : Json), entries[i]? = some entry → leafIndex entry = .ok i
  leaves : ∃ leaves, decodedHashes entries = .ok leaves ∧ ∀ log, InclusionResponse.RootOver pymerkle root log →
    RootDetermines pymerkle leaves log → leaves = log

/-- What is built from the entries is the signed root. -/
theorem isLogOf_of_audited {root : SignedRoot} {segments : List Json} {computedRoot : String}
    (haudit : auditSegments crypto reader world base algorithm 0 segments = .ok entries)
    (hcomputed : computeArchiveRoot pymerkle entries root.treeSize = .ok computedRoot)
    (hroot : computedRoot = root.rootHash) : IsLogOf pymerkle root entries := by
  obtain ⟨leaves, hleaves, hcomputed⟩ := Check.bind_eq_ok.1 hcomputed
  obtain ⟨hsize, hcomputed⟩ := Check.check_bind_eq_ok.1 hcomputed
  rw [Check.require_eq_ok] at hsize
  cases hcomputed
  refine ⟨?_, ?_, leaves, hleaves, fun log hlog hdetermines => hdetermines ?_⟩
  · rw [← length_decodedHashes hleaves]
    exact hsize
  · intro i entry hentry
    have hnumbered := numberedFrom_of_auditSegments haudit i entry hentry
    rwa [zero_add] at hnumbered
  · have hhash := hlog.rootHash_eq
    rw [← hroot, Text.fromhex_hex, Option.some.injEq] at hhash
    exact hhash

/-! ## What an honest operator writes -/

variable {log rows : List LogRow} {file : String × Bytes} {files : List (String × Bytes)} {first count : Nat}

/-- The leaf of a row. -/
def leafOf (row : LogRow) : Bytes :=
  (Text.fromhex row.entryHash).getD []

theorem fromhex_entryHash (row : LogRow) : Text.fromhex row.entryHash = some (leafOf row) := by
  obtain ⟨leaf, hleaf⟩ := Option.isSome_iff_exists.1 row.isHex.2
  rw [leafOf, hleaf]
  rfl

theorem decodedHashes_entriesFrom : decodedHashes (entriesFrom e rows) = .ok (rows.map leafOf) := by
  induction rows generalizing e with
  | nil => rfl
  | cons row rest ih =>
    have hleaf : decodedHash (row.toJson e) = .ok (leafOf row) := by
      show Check.ofOption (Text.fromhex row.entryHash) _ = _
      rw [fromhex_entryHash]
      rfl
    rw [entriesFrom, decodedHashes, hleaf, Check.ok_bind, ih]
    rfl

theorem checkEntries_entriesFrom {expected : Option Int} (h : ∀ first ∈ expected, first = e) :
    checkEntries expected (entriesFrom e rows) = .ok () := by
  induction rows generalizing e expected with
  | nil => rfl
  | cons row rest ih =>
    have hmembers : (row.toJson e).hasMembers entryMembers = true := by
      simp [LogRow.toJson, Json.hasMembers, entryMembers, AssocList.get?]
    have hexpected : e = expected.getD e := by
      cases expected with
      | none => rfl
      | some first => exact (h first rfl).symm
    have hlength : (Text.lower row.entryHash).length = 64 := row.isHex.lower.1
    have hhex : Text.fromhex (Text.lower row.entryHash) = some (leafOf row) := by
      rw [Text.fromhex_lower, fromhex_entryHash]
    rw [entriesFrom, checkEntries, Check.require_of hmembers, Check.ok_bind, leafIndex_toJson, Check.ok_bind,
      Check.require_of hexpected, Check.ok_bind, entryHash_toJson, Check.ok_bind, Check.require_of hlength,
      Check.ok_bind, hhex]
    refine ih fun first hfirst => ?_
    cases hfirst
    rfl

/-- The auditor reads what the exporter reads. -/
theorem entriesFromSegment_of_exporter {data : Bytes}
    (h : entriesFromSegmentBytes reader data = .ok (entriesFrom e rows)) :
    entriesFromSegment reader data = .ok (entriesFrom e rows) := by
  obtain ⟨text, htext, h⟩ := Check.bind_eq_ok.1 h
  obtain ⟨read, hread, h⟩ := Check.bind_eq_ok.1 h
  obtain ⟨-, h⟩ := Check.check_bind_eq_ok.1 h
  cases h
  rw [entriesFromSegment, Check.ofOption_eq_ok.1 htext, Check.ofOption, Check.ok_bind, Check.ofOption_eq_ok.1 hread,
    Check.ofOption, Check.ok_bind, checkEntries_entriesFrom (by simp)]
  rfl

theorem requireNumber_of_item {segment : Json} {key : String} {n : Int} (h : segment.item key = .ok (.int n))
    (error : String) : requireNumber segment key n error = .ok () := by
  rw [requireNumber, h]
  exact Check.require_of rfl error

theorem pairwise_record (record : SegmentRecord) : ([("byte_length", Json.int record.byteLength),
    ("entry_count", .int record.entryCount), ("first_leaf_index", .int record.firstLeafIndex),
    ("last_leaf_index", .int record.lastLeafIndex), ("path", .str record.path),
    ("segment_hash", .str record.segmentHash)].map Prod.fst).Pairwise (· < ·) := by
  show ["byte_length", "entry_count", "first_leaf_index", "last_leaf_index", "path", "segment_hash"].Pairwise (· < ·)
  decide

/-- A segment that is listed with its file is accepted. -/
theorem auditSegment_held (h : Holds reader log file first count)
    (hworld : world (segmentLocation base (.str ("entries/" ++ file.1))) = .ok file.2) :
    auditSegment crypto reader world base (.str segmentHashAlgorithm) first
      ((heldSegment log file first count).record crypto).toJson = .ok (slice log first count, first + count) := by
  have hread : entriesFromSegment reader file.2 = .ok (slice log first count) := entriesFromSegment_of_exporter h.read
  obtain ⟨head, hhead, hfirst⟩ := head?_entriesFrom first (slice_ne_nil h.pos h.le)
  obtain ⟨final, hfinal, hlast⟩ := getLast?_entriesFrom first (slice_ne_nil h.pos h.le)
  rw [length_rows h.le] at hlast
  change (slice log first count).head? = some head at hhead
  change (slice log first count).getLast? = some final at hfinal
  have hitem : ∀ key value, (key, value) ∈ [("byte_length", Json.int file.2.length),
      ("entry_count", .int (slice log first count).length), ("first_leaf_index", .int first),
      ("last_leaf_index", .int (first + count - 1)), ("path", .str ("entries/" ++ file.1)),
      ("segment_hash", .str (crypto.sha3Hex file.2))] →
      (((heldSegment log file first count).record crypto).toJson).item key = .ok value :=
    fun key value hmem => Json.item_of_mem (pairwise_record _) hmem
  have hhash : segmentHash crypto file.2 (.str segmentHashAlgorithm) = .ok (crypto.sha3Hex file.2) := by
    rw [segmentHash, Check.require_of rfl]
    rfl
  have hbytes := hitem "byte_length" (.int file.2.length) (by simp)
  have hcount := hitem "entry_count" (.int (slice log first count).length) (by simp)
  have hstart := hitem "first_leaf_index" (.int first) (by simp)
  have hend := hitem "last_leaf_index" (.int (first + count - 1)) (by simp)
  rw [auditSegment, hitem "path" (.str ("entries/" ++ file.1)) (by simp), Check.ok_bind, hworld, Check.ok_bind, hhash,
    Check.ok_bind, hitem "segment_hash" (.str (crypto.sha3Hex file.2)) (by simp), Check.ok_bind,
    Check.require_of rfl, Check.ok_bind, requireNumber_of_item hbytes, Check.ok_bind, hread, Check.ok_bind, hhead,
    hfinal]
  dsimp only
  rw [hfirst, Check.ok_bind, requireNumber_of_item hstart, Check.ok_bind, hlast, Check.ok_bind,
    requireNumber_of_item hend, Check.ok_bind, requireNumber_of_item hcount, Check.ok_bind, Check.require_of rfl]
  exact congrArg (fun next => Except.ok (slice log first count, next)) (by omega)

theorem slice_append (log : List LogRow) (first count more : Nat) (h : first + count ≤ log.length) :
    slice log first count ++ slice log (first + count) more = slice log first (count + more) := by
  have happend : ∀ (i : Int) (as bs : List LogRow),
      entriesFrom i (as ++ bs) = entriesFrom i as ++ entriesFrom (i + as.length) bs := by
    intro i as bs
    induction as generalizing i with
    | nil => rw [List.length_nil, Nat.cast_zero, add_zero]; rfl
    | cons a rest ih =>
      rw [List.cons_append, entriesFrom, entriesFrom, ih, List.cons_append, List.length_cons]
      exact congrArg (fun j => a.toJson i :: (entriesFrom (i + 1) rest ++ entriesFrom j bs)) (by omega)
  unfold slice
  rw [List.take_add, List.drop_drop, happend, length_rows h, Nat.cast_add]

/-- Tiles with their files are accepted, and hold the entries of their range. -/
theorem auditSegments_tiles {segments : List Segment} (hreads : Reads reader log files segments)
    (hworld : ∀ file ∈ files, world (segmentLocation base (.str ("entries/" ++ file.1))) = .ok file.2)
    {n : Nat} (hn : n ≤ log.length) {tiles : List Segment} (hmem : ∀ s ∈ tiles, s ∈ segments)
    (htiles : Tiling.Tiles n first (tiles.map fun s => (s.first, s.last))) :
    first ≤ n ∧ auditSegments crypto reader world base (.str segmentHashAlgorithm) first
      (tiles.map fun s => (s.record crypto).toJson) = .ok (slice log first (n - first)) := by
  induction tiles generalizing first with
  | nil =>
    have hend : (first : Int) = n := htiles
    obtain rfl : first = n := by omega
    refine ⟨le_rfl, ?_⟩
    rw [Nat.sub_self]
    show Except.ok [] = Except.ok (entriesFrom first ((log.drop first).take 0))
    rw [List.take_zero]
    rfl
  | cons s rest ih =>
    rw [List.forall_mem_cons] at hmem
    obtain ⟨hfirst, -, hrest⟩ := htiles
    obtain ⟨file, hfile, first', count, hholds, rfl⟩ := hreads.holds s hmem.1
    have hsame : (first' : Int) = first := hfirst
    obtain rfl : first' = first := by omega
    have hnext : ((heldSegment log file first' count).last + 1 : Int) = (first' + count : Nat) := by
      show (first' : Int) + count - 1 + 1 = _
      omega
    rw [hnext] at hrest
    obtain ⟨hle, haudit⟩ := ih hmem.2 hrest
    refine ⟨by omega, ?_⟩
    rw [List.map_cons, auditSegments, auditSegment_held hholds (hworld file hfile), Check.ok_bind]
    dsimp only
    rw [← Nat.cast_add, haudit, Check.ok_bind]
    refine congrArg Except.ok ?_
    rw [slice_append log first' count _ hholds.le]
    exact congrArg (slice log first') (by omega)

end HashLogAudit

/-! ## Soundness and completeness -/

open HashLogArchive HashLogAudit

namespace HonestExport

variable {crypto : Crypto} (honest : HonestExport crypto)

/-- The leaves behind the root. -/
def leaves : List Bytes :=
  (honest.log.take honest.treeSize).map leafOf

theorem rootHash_root : honest.root.rootHash = Text.lower honest.rootHash := by
  obtain ⟨payload, hroot⟩ := honest.exists_payload
  rw [hroot]
  rfl

theorem sorted_signedRoot (root : SignedRoot) : root.toJson.Sorted := by
  rw [root.toJson_eq]
  refine ⟨root.pairwise_memberList, ?_⟩
  unfold SignedRoot.memberList SignedRoot.lastMembers
  cases root.spendMapAlgorithm <;> cases root.spendMapRoot <;> cases root.spendMapSize <;>
    simp [SignedRoot.optionalMember, Json.SortedMembers, Json.Sorted]

theorem sorted_manifest (m : Manifest) : m.toJson.Sorted := by
  have hroot := sorted_signedRoot m.signedRoot
  have hsegments : Json.SortedItems (m.segments.map SegmentRecord.toJson) := by
    refine Json.sortedItems_iff.2 fun item hitem => ?_
    obtain ⟨record, -, rfl⟩ := List.mem_map.1 hitem
    exact ⟨pairwise_record record, by simp [Json.SortedMembers, Json.Sorted]⟩
  refine ⟨m.pairwise_memberList, ?_⟩
  simp [Manifest.members, Manifest.lastMembers, Json.SortedMembers, hroot, hsegments, Json.Sorted]

/-- What the operator published, as an auditor finds it: the manifest, and below the base the segments. -/
structure Published (m : Manifest) (files : List (String × Bytes)) (world : World) (manifestLocation : Location)
    (base : Option String) : Prop where
  manifest : world manifestLocation = .ok (Text.utf8 (String.ofList (m.toJson.render ++ ['\n'])))
  files : ∀ file ∈ files, world (segmentLocation base (.str ("entries/" ++ file.1))) = .ok file.2

/-- Options with which an honest archive can be audited: for the operator's key or none, and a mirror, if one is asked,
    has the root. -/
structure Fits (options : Options) : Prop where
  key : ∀ key ∈ options.operatorPublicKey, Text.strip key = honest.keys.publicKey
  mirror : ∀ mirror ∈ options.mirror, mirror honest.root = .ok true
  strict : options.strict = true → options.mirror.isSome

variable {honest} {pymerkle : PyMerkle} {files : List (String × Bytes)} {m : Manifest} {now : Int} {world : World}
  {manifestLocation : Location} {options : Options}

theorem readJson_manifest (h : Published m files world manifestLocation options.archiveBase) :
    readJson honest.reader world manifestLocation = .ok m.toJson := by
  rw [readJson, h.manifest, Check.ok_bind, Text.utf8Decode_utf8, Check.ofOption, Check.ok_bind,
    String.toList_ofList, honest.reader.loads_line (sorted_manifest m)]
  rfl

/-- The archive holds the leaves behind the root. -/
theorem computeArchiveRoot_slice (hroot : honest.rootHash
      = Text.hex (pymerkle.rootOf (honest.leaves.map pymerkle.hashBuff))) :
    computeArchiveRoot pymerkle (slice honest.log 0 honest.treeSize) honest.root.treeSize
      = .ok honest.root.rootHash := by
  have hlength : ((honest.leaves.length : Nat) : Int) = honest.root.treeSize := by
    rw [leaves, List.length_map, List.length_take, honest.treeSize_root, min_eq_left honest.treeSize_le]
  have hlower : Text.lower honest.rootHash = honest.rootHash := by
    rw [hroot, Text.lower_hex]
  have hdecoded : decodedHashes (slice honest.log 0 honest.treeSize) = .ok honest.leaves := by
    rw [slice, decodedHashes_entriesFrom]
    rfl
  rw [computeArchiveRoot, hdecoded, Check.ok_bind, Check.require_of hlength, Check.ok_bind, honest.rootHash_root,
    hlower, hroot]
  rfl

/-- The auditor accepts what an honest operator's exporter wrote. -/
theorem verifyArchive_of_writeManifest (hfiles : Consistent honest.reader honest.log files)
    (hroot : honest.rootHash = Text.hex (pymerkle.rootOf (honest.leaves.map pymerkle.hashBuff)))
    (hwrite : honest.exporter.writeManifest files honest.root now = .ok m) (acceptLegacy : Bool)
    (hpublished : Published m files world manifestLocation options.archiveBase) (hoptions : honest.Fits options) :
    verifyArchive crypto pymerkle acceptLegacy honest.reader world manifestLocation options
      = .ok ⟨options.mirror.isSome, honest.root.logId, honest.root.treeSize, honest.root.rootHash,
          m.segments.length⟩ := by
  obtain ⟨segments, hreads⟩ := hfiles.exists_reads
  obtain ⟨-, tiles, htiles, -, hsegments⟩ := writeManifest_eq_ok hreads hwrite
  have hmem := Tiling.mem_of_tilesFrom htiles
  have hside := Tiling.tiles_of_tilesFrom hreads.valid (Int.natCast_nonneg _) htiles
  have haudit : auditSegments crypto honest.reader world options.archiveBase (.str segmentHashAlgorithm) 0
      (tiles.map fun s => (s.record crypto).toJson) = .ok (slice honest.log 0 honest.treeSize) :=
    (auditSegments_tiles hreads hpublished.files honest.treeSize_le (fun s hs => (hmem s hs).1) hside).2
  have hitem : ∀ key value, (key, value) ∈ m.memberList → m.toJson.item key = .ok value :=
    fun key value h => Manifest.item_toJson h
  have hlist : m.toJson.item "segments" = .ok (.arr (m.segments.map SegmentRecord.toJson)) :=
    hitem _ _ (by simp [Manifest.memberList, Manifest.members])
  have halgorithm : m.toJson.item "segment_hash_algorithm" = .ok (.str segmentHashAlgorithm) :=
    hitem _ _ (by simp [Manifest.memberList, Manifest.members])
  rw [verifyArchive, Check.require_of hoptions.strict, Check.ok_bind, readJson_manifest hpublished, Check.ok_bind,
    verify_of_writeManifest hwrite acceptLegacy hoptions.key, Check.ok_bind, hlist, Check.ok_bind, asList,
    Check.ok_bind, halgorithm, Check.ok_bind, hsegments, List.map_map]
  change (auditSegments crypto honest.reader world options.archiveBase (.str segmentHashAlgorithm) 0
    (tiles.map fun s => (s.record crypto).toJson) >>= _) = _
  rw [haudit, Check.ok_bind, computeArchiveRoot_slice hroot, Check.ok_bind, Check.require_of rfl, Check.ok_bind,
    List.length_map]
  cases hmirror : options.mirror with
  | none => simp
  | some mirror =>
    dsimp only
    rw [hoptions.mirror mirror hmirror, Check.ok_bind, Check.require_of rfl, Check.ok_bind]
    simp

end HonestExport

namespace HashLogAudit

end HashLogAudit
