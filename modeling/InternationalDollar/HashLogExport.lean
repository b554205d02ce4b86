import InternationalDollar.HashLogManifest
import InternationalDollar.Lib.Effect

set_option autoImplicit false

/-! # Exporting the hash log (`hash_log_exporter`, `export_once`)

A call of the exporter measures the covered range of the archive. Where leaves are missing it fetches a page of them, up to
the next segment, and where none are it writes the manifest. What is missing is measured by going to the end of the
farthest segment again and again, while a manifest needs each segment to start where the one before it ended and to end below
the size of the root. So the archive may be covered and have no manifest.

`converges_iff` says which archives get one: those in which the walk along the longest segments, with pages in the gaps,
reaches the size of the root. -/

namespace HashLogArchive

variable {crypto : Crypto}

/-- The operator as the exporter sees it. -/
structure OperatorEntrySource where
  latestRoot : SignedRoot
  entries : Int → Int → Int → List Json

/-- The files of the exporter. `manifests` are the contents that `manifest.json` was given, the newest first. -/
structure ExportFiles where
  entryFiles : List (String × Bytes)
  stateFile : Option Bytes
  manifests : List Manifest

/-- `load_state`. -/
def loadState (reader : JsonReader) : Option Bytes → Except String Json
  | none => pure (.obj [("next_leaf_index", .int 0)])
  | some data => do
      let text ← Check.ofOption (Text.utf8Decode data) "invalid start byte"
      Check.ofOption (reader.loads text.toList) "Expecting value"

/-- The members of the state, and `int(state.get("next_leaf_index", 0))`. -/
def stateLeaf (state : Json) : Except String (List (String × Json) × Int) :=
  match state with
  | .obj members =>
      match AssocList.get? "next_leaf_index" members with
      | none => pure (members, 0)
      | some value => do
          let leaf ← value.toInt
          pure (members, leaf)
  | _ => .error "object has no attribute 'get'"

/-- What is noted where the state is not that of the archive. -/
def repairedState (members : List (String × Json)) (leaf start now : Int) : List (String × Json) :=
  if leaf ≠ start then
    Json.putMember "repaired_next_leaf_index_at" (.int now)
      (Json.putMember "repaired_next_leaf_index_from" (.int leaf) members)
  else members

/-- The state at the end of a call. -/
def updatedState (members : List (String × Json)) (nextLeaf now : Int) : List (String × Json) :=
  Json.putMember "updated_at" (.int now) (Json.putMember "next_leaf_index" (.int nextLeaf) members)

/-- `save_state`. -/
def saveState (members : List (String × Json)) : Effect ExportFiles String Unit := do
  Effect.lift ((Json.obj members).validate jsonLimits "protocol object" 0)
  Effect.write fun files =>
    { files with stateFile := some (Text.utf8 (String.ofList ((Json.obj members).render ++ ['\n']))) }

/-- The end of the range that is fetched. -/
def fetchEnd (start pageSize treeSize : Int) : Option Int → Int
  | none => min (start + pageSize - 1) (treeSize - 1)
  | some next => min (min (start + pageSize - 1) (treeSize - 1)) (next - 1)

namespace Exporter

/-- `archive.write_manifest`. -/
def putManifest (exporter : Exporter crypto) (root : SignedRoot) (now : Int) : Effect ExportFiles String Unit := do
  let entryFiles ← Effect.read ExportFiles.entryFiles
  let manifest ← Effect.lift (exporter.writeManifest entryFiles root now)
  Effect.write fun files => { files with manifests := manifest :: files.manifests }

/-- `archive.write_segment`. -/
def putSegment (entries : List Json) : Effect ExportFiles String Unit := do
  let entryFiles ← Effect.read ExportFiles.entryFiles
  let written ← Effect.lift (writeSegment entryFiles entries)
  Effect.write fun files => { files with entryFiles := written }

/-- The part of `export_once` where the archive covers the root. -/
def finish (exporter : Exporter crypto) (root : SignedRoot) (members : List (String × Json)) (now : Int) :
    Effect ExportFiles String Int := do
  exporter.putManifest root now
  saveState (updatedState members root.treeSize now)
  pure 0

/-- The part of `export_once` where leaves from `start` on are missing. -/
def fetch (exporter : Exporter crypto) (source : OperatorEntrySource) (root : SignedRoot)
    (members : List (String × Json)) (start pageSize now : Int) : Effect ExportFiles String Int := do
  let entryFiles ← Effect.read ExportFiles.entryFiles
  let next ← Effect.lift (nextSegmentStartAfter exporter.reader entryFiles start)
  let entries := source.entries start (fetchEnd start pageSize root.treeSize next) pageSize
  let final ← Effect.lift (Check.ofOption entries.getLast?
    "operator did not return entries required for signed root archive")
  putSegment entries
  let last ← Effect.lift (leafIndex final)
  if root.treeSize ≤ last + 1 then exporter.putManifest root now else pure ()
  saveState (updatedState members (last + 1) now)
  pure entries.length

/-- `export_once`. The clock is read once. -/
def exportOnce (exporter : Exporter crypto) (source : OperatorEntrySource) (pageSize now : Int) :
    Effect ExportFiles String Int := do
  let stateFile ← Effect.read ExportFiles.stateFile
  let state ← Effect.lift (loadState exporter.reader stateFile)
  let root := source.latestRoot
  Effect.lift (root.verifySignedRoot crypto exporter.acceptLegacy exporter.operatorPublicKey)
  let entryFiles ← Effect.read ExportFiles.entryFiles
  let start ← Effect.lift (contiguousPrefix exporter.reader entryFiles root.treeSize)
  let (members, leaf) ← Effect.lift (stateLeaf state)
  let members := repairedState members leaf start now
  if root.treeSize ≤ start then exporter.finish root members now
  else exporter.fetch source root members start pageSize now

/-- Calls one after the other, each at its own time. A call that raises is followed by the next. -/
def calls (exporter : Exporter crypto) (source : OperatorEntrySource) (pageSize : Int) (clock : Nat → Int)
    (files : ExportFiles) : Nat → ExportFiles
  | 0 => files
  | k + 1 => (exporter.exportOnce source pageSize (clock k) (exporter.calls source pageSize clock files k)).2

end Exporter

/-! ## The state file -/

/-- A state file that `export_once` can use. -/
def Loadable (reader : JsonReader) (stateFile : Option Bytes) : Prop :=
  ∃ state members leaf, loadState reader stateFile = .ok state ∧ stateLeaf state = .ok (members, leaf)

variable {reader : JsonReader} {stateFile : Option Bytes} {members : List (String × Json)}

theorem sorted_of_loadState {state : Json} (h : loadState reader stateFile = .ok state) : state.Sorted := by
  cases stateFile with
  | none =>
    cases h
    exact ⟨List.pairwise_singleton _ _, trivial, trivial⟩
  | some data =>
    obtain ⟨text, -, hloads⟩ := Check.bind_eq_ok.1 h
    exact reader.sorted_of_loads (Check.ofOption_eq_ok.1 hloads)

theorem eq_obj_of_stateLeaf {state : Json} {leaf : Int} (h : stateLeaf state = .ok (members, leaf)) :
    state = .obj members := by
  cases state with
  | obj all =>
    unfold stateLeaf at h
    dsimp only at h
    split at h
    · cases h
      rfl
    · obtain ⟨_, -, heq⟩ := Check.bind_eq_ok.1 h
      cases heq
      rfl
  | null | bool | int | str | arr => exact nomatch h

theorem sorted_repairedState {leaf start now : Int} (h : (Json.obj members).Sorted) :
    (Json.obj (repairedState members leaf start now)).Sorted := by
  unfold repairedState
  split
  · exact Json.sorted_putMember (Json.sorted_putMember h trivial) trivial
  · exact h

theorem sorted_updatedState {nextLeaf now : Int} (h : (Json.obj members).Sorted) :
    (Json.obj (updatedState members nextLeaf now)).Sorted :=
  Json.sorted_putMember (Json.sorted_putMember h trivial) trivial

theorem get?_updatedState {nextLeaf now : Int} (h : (Json.obj members).Sorted) :
    AssocList.get? "next_leaf_index" (updatedState members nextLeaf now) = some (.int nextLeaf) := by
  have hsorted := @Json.sorted_putMember "next_leaf_index" (.int nextLeaf) members h trivial
  rw [updatedState, Json.get?_putMember hsorted.1, if_neg (by decide), Json.get?_putMember h.1, if_pos rfl]

/-- Saving the state touches the state file only, and leaves one that can be used. -/
theorem saveState_spec (nextLeaf now : Int) (files : ExportFiles) (h : (Json.obj members).Sorted)
    (hload : Loadable reader files.stateFile) :
    (saveState (updatedState members nextLeaf now) files).2.entryFiles = files.entryFiles ∧
      (saveState (updatedState members nextLeaf now) files).2.manifests = files.manifests ∧
      Loadable reader (saveState (updatedState members nextLeaf now) files).2.stateFile := by
  have hsorted := @sorted_updatedState _ nextLeaf now h
  have hget := @get?_updatedState _ nextLeaf now h
  generalize updatedState members nextLeaf now = updated at hsorted hget ⊢
  unfold saveState
  cases hvalid : (Json.obj updated).validate jsonLimits "protocol object" 0 with
  | error e => exact ⟨rfl, rfl, hload⟩
  | ok u =>
    refine ⟨rfl, rfl, .obj updated, updated, nextLeaf, ?_, ?_⟩
    · show loadState reader (some (Text.utf8 (String.ofList ((Json.obj updated).render ++ ['\n'])))) = _
      rw [loadState, Text.utf8Decode_utf8, Check.ofOption, Check.ok_bind, String.toList_ofList,
        reader.loads_line hsorted]
      rfl
    · show (match AssocList.get? "next_leaf_index" updated with
        | none => _
        | some value => _) = _
      rw [hget]
      rfl

/-! ## Pieces -/

variable {log : List LogRow} {entryFiles : List (String × Bytes)} {segments : List Segment}

/-- The range that is fetched is the piece for the gap. -/
theorem fetchEnd_eq (start pageSize treeSize : Int) :
    fetchEnd start pageSize treeSize (Tiling.nextStart Segment.first segments start)
      = Tiling.pieceEnd Segment.first treeSize pageSize segments start := by
  unfold fetchEnd Tiling.pieceEnd
  cases Tiling.nextStart Segment.first segments start <;> rfl

/-- What is served for a range that a page holds. -/
theorem servedEntries_eq {first last : Nat} {limit : Int} (hle : first ≤ last) (hpage : (last : Int) < first + limit) :
    servedEntries log first last limit = slice log first (last - first + 1) := by
  unfold servedEntries
  dsimp only
  rw [max_eq_right (Int.natCast_nonneg first), max_eq_right (show (first : Int) ≤ last by omega),
    max_eq_right (show (1 : Int) ≤ limit by omega), min_eq_right (show (last : Int) - first + 1 ≤ limit by omega),
    Int.toNat_natCast]
  exact congrArg (slice log first) (by omega)

/-- The files with a piece that fills a gap. -/
theorem Reads.exists_fills {n pageSize : Int} {first last : Nat} (h : Reads reader log entryFiles segments)
    (hconsistent : Consistent reader log entryFiles) (hlog : log.length ≤ 10 ^ 12) (hn : n ≤ log.length)
    (hpage : 1 ≤ pageSize) (hlt : (first : Int) < n)
    (hgap : ¬ Tiling.Covered Segment.first Segment.last segments first)
    (hcovered : ∀ x, 0 ≤ x → x < (first : Int) → Tiling.Covered Segment.first Segment.last segments x)
    (hlast : (last : Int) = Tiling.pieceEnd Segment.first n pageSize segments first) :
    ∃ filled segments', writeSegment entryFiles (slice log first (last - first + 1)) = .ok filled ∧
      Consistent reader log filled ∧ Reads reader log filled segments' ∧
        Tiling.Fills Segment.first Segment.last n pageSize segments segments' first := by
  obtain ⟨hge, hend, -, -⟩ := Tiling.pieceEnd_spec Segment.first segments hlt hpage
  rw [← hlast] at hge hend
  have hpos : 0 < last - first + 1 := Nat.succ_pos _
  have hle : first + (last - first + 1) ≤ log.length := by omega
  have hlastName : (first : Int) + (last - first + 1 : Nat) - 1 = last := by omega
  have hwrite := @writeSegment_slice log entryFiles first (last - first + 1) hpos hle hlog
  have hholds := @holds_slice log reader first (last - first + 1) hpos hle hlog
  generalize Text.utf8 (JsonReader.linesText (slice log first (last - first + 1))) = data at hwrite hholds
  set name := segmentName first ((first : Int) + (last - first + 1 : Nat) - 1)
  have hconsistent' : Consistent reader log (AssocList.put name data entryFiles) := by
    refine ⟨AssocList.nodup_put hconsistent.nodup, fun file hfile => ?_⟩
    rcases AssocList.mem_of_mem_put hfile with hfile | rfl
    · exact hconsistent.holds file hfile
    · exact .inr ⟨first, _, hholds⟩
  obtain ⟨segments', hreads'⟩ := hconsistent'.exists_reads
  refine ⟨_, segments', hwrite, hconsistent', hreads', hlt, hpage, h.valid, hgap, hcovered, ?_⟩
  refine ⟨heldSegment log (name, data) first (last - first + 1), rfl, ?_, fun s => ?_⟩
  · show (first : Int) + (last - first + 1 : Nat) - 1 = _
    rw [hlastName, hlast]
  · have hlookup : ∀ {items : List (String × Bytes)}, (items.map Prod.fst).Nodup → ∀ file,
        file ∈ items ↔ AssocList.get? file.1 items = some file.2 := fun hnodup file =>
      ⟨AssocList.get?_eq_some_of_mem hnodup, AssocList.mem_of_get?⟩
    rw [hreads'.mem]
    constructor
    · rintro ⟨file, hfile, hread⟩
      rcases AssocList.mem_of_mem_put hfile with hfile | rfl
      · exact .inr ((h.mem s).2 ⟨file, hfile, hread⟩)
      · rw [hholds.readSegment, Except.ok.injEq, Option.some.injEq] at hread
        exact .inl hread.symm
    · rintro (rfl | hs)
      · refine ⟨(name, data), (hlookup hconsistent'.nodup _).2 ?_, hholds.readSegment⟩
        rw [AssocList.get?_put, if_pos rfl]
      · obtain ⟨file, hfile, first', count', hholds', rfl⟩ := h.holds s hs
        have hpos' := hholds'.pos
        have hle' := hholds'.le
        -- a file of this name would cover the gap
        have hne : file.1 ≠ name := by
          intro heq
          rw [hholds'.name] at heq
          have hsame : first' = first := by
            rcases Nat.lt_trichotomy first' first with hless | heq' | hmore
            · exact absurd heq (ne_of_lt (segmentName_lt _ _ hless (by omega)))
            · exact heq'
            · exact absurd heq.symm (ne_of_lt (segmentName_lt _ _ hmore (by omega)))
          refine hgap ⟨_, hs, ?_, ?_⟩
          · exact (congrArg Nat.cast hsame).le
          · show (first : Int) ≤ first' + count' - 1
            omega
        refine ⟨file, (hlookup hconsistent'.nodup file).2 ?_, hholds'.readSegment⟩
        rw [AssocList.get?_put, if_neg hne]
        exact (hlookup hconsistent.nodup file).1 hfile

end HashLogArchive

/-! ## One call -/

open HashLogArchive

namespace HonestExport

variable {crypto : Crypto} (honest : HonestExport crypto)

/-- The operator serves its log. -/
def source : OperatorEntrySource :=
  ⟨honest.root, servedEntries honest.log⟩

/-- The files after a call. -/
def call (pageSize now : Int) (files : ExportFiles) : ExportFiles :=
  (honest.exporter.exportOnce honest.source pageSize now files).2

/-- The manifest that an attempt writes, if it does. -/
def written (entryFiles : List (String × Bytes)) (now : Int) : List Manifest :=
  match honest.exporter.writeManifest entryFiles honest.root now with
  | .ok m => [m]
  | .error _ => []

/-- What a call leaves. -/
structure Leaves (files files' : ExportFiles) (entryFiles : List (String × Bytes)) (new : List Manifest) : Prop where
  entryFiles : files'.entryFiles = entryFiles
  manifests : files'.manifests = new ++ files.manifests
  loadable : Loadable honest.reader files'.stateFile

variable {honest} {pageSize now : Int} {files : ExportFiles} {segments : List Segment}

/-- An attempt to write a manifest, and the state after it. -/
theorem leaves_putManifest {α : Type} {members : List (String × Json)} {nextLeaf : Int} (value : α)
    (hsorted : (Json.obj members).Sorted) (hload : Loadable honest.reader files.stateFile) :
    honest.Leaves files ((do
      honest.exporter.putManifest honest.root now
      saveState (updatedState members nextLeaf now)
      pure value : Effect ExportFiles String α) files).2 files.entryFiles (honest.written files.entryFiles now) := by
  unfold written
  cases hwrite : honest.exporter.writeManifest files.entryFiles honest.root now with
  | error e =>
    have hput : honest.exporter.putManifest honest.root now files = (.error e, files) := by
      rw [Exporter.putManifest, Effect.read_bind, hwrite, Effect.lift_error_bind]
    rw [Effect.bind_of_error hput]
    exact ⟨rfl, rfl, hload⟩
  | ok m =>
    have hput : honest.exporter.putManifest honest.root now files
        = (.ok (), { files with manifests := m :: files.manifests }) := by
      rw [Exporter.putManifest, Effect.read_bind, hwrite, Effect.lift_ok_bind]
      rfl
    rw [Effect.bind_of_ok hput, Effect.snd_bind_pure]
    obtain ⟨hfiles, hmanifests, hload'⟩ := saveState_spec nextLeaf now
      { files with manifests := m :: files.manifests } hsorted hload
    exact ⟨hfiles, hmanifests, hload'⟩

/-- The state after a call that writes no manifest. -/
theorem leaves_saveState {α : Type} {members : List (String × Json)} {nextLeaf : Int} (value : α)
    (hsorted : (Json.obj members).Sorted) (hload : Loadable honest.reader files.stateFile) :
    honest.Leaves files ((do
      saveState (updatedState members nextLeaf now)
      pure value : Effect ExportFiles String α) files).2 files.entryFiles [] := by
  rw [Effect.snd_bind_pure]
  obtain ⟨hfiles, hmanifests, hload'⟩ := saveState_spec nextLeaf now files hsorted hload
  exact ⟨hfiles, hmanifests, hload'⟩

/-- A call that cannot read the state changes nothing. -/
theorem call_of_not_loadable (h : ¬ Loadable honest.reader files.stateFile) :
    honest.call pageSize now files = files := by
  rw [call, Exporter.exportOnce, Effect.read_bind]
  cases hstate : loadState honest.exporter.reader files.stateFile with
  | error e => rfl
  | ok state =>
    rw [Effect.lift_ok_bind]
    dsimp only
    cases honest.source.latestRoot.verifySignedRoot crypto honest.exporter.acceptLegacy
        honest.exporter.operatorPublicKey with
    | error e => rfl
    | ok u =>
      rw [Effect.lift_ok_bind, Effect.read_bind]
      cases contiguousPrefix honest.exporter.reader files.entryFiles honest.source.latestRoot.treeSize with
      | error e => rfl
      | ok start =>
        rw [Effect.lift_ok_bind]
        cases hleaf : stateLeaf state with
        | error e => rfl
        | ok value => exact absurd ⟨state, value.1, value.2, hstate, hleaf⟩ h

/-- A call that can read the state goes by the covered range. -/
theorem exportOnce_eq (hreads : Reads honest.reader honest.log files.entryFiles segments)
    (hload : Loadable honest.reader files.stateFile) : ∃ members, (Json.obj members).Sorted ∧
      honest.exporter.exportOnce honest.source pageSize now files
        = (if honest.root.treeSize ≤ Tiling.prefixFrom Segment.first Segment.last honest.treeSize segments
              honest.treeSize 0 then
            honest.exporter.finish honest.root members now
          else honest.exporter.fetch honest.source honest.root members
            (Tiling.prefixFrom Segment.first Segment.last honest.treeSize segments honest.treeSize 0) pageSize now)
            files := by
  obtain ⟨state, members, leaf, hstate, hleaf⟩ := hload
  have hsorted := sorted_of_loadState hstate
  rw [eq_obj_of_stateLeaf hleaf] at hsorted
  have hrange := hreads.contiguousPrefix_eq (Int.natCast_nonneg honest.treeSize)
  rw [Int.toNat_natCast] at hrange
  have hverify : honest.root.verifySignedRoot crypto honest.exporter.acceptLegacy honest.exporter.operatorPublicKey
      = .ok () := honest.verify_root honest.expects
  have hstate' : loadState honest.exporter.reader files.stateFile = .ok state := hstate
  have hrange' : contiguousPrefix honest.exporter.reader files.entryFiles honest.root.treeSize = .ok
      (Tiling.prefixFrom Segment.first Segment.last honest.treeSize segments honest.treeSize 0) := by
    rw [honest.treeSize_root]
    exact hrange
  generalize Tiling.prefixFrom Segment.first Segment.last honest.treeSize segments honest.treeSize 0 = start at *
  refine ⟨repairedState members leaf start now, sorted_repairedState hsorted, ?_⟩
  rw [Exporter.exportOnce, Effect.read_bind, hstate', Effect.lift_ok_bind]
  dsimp only [source]
  rw [hverify, Effect.lift_ok_bind, Effect.read_bind, hrange', Effect.lift_ok_bind, hleaf, Effect.lift_ok_bind]
  rfl

/-- The covered range of an archive. -/
def coveredTo (honest : HonestExport crypto) (segments : List Segment) : Int :=
  Tiling.prefixFrom Segment.first Segment.last honest.treeSize segments honest.treeSize 0

theorem coveredTo_spec : 0 ≤ honest.coveredTo segments ∧ honest.coveredTo segments ≤ honest.treeSize ∧
    (∀ x, 0 ≤ x → x < honest.coveredTo segments → Tiling.Covered Segment.first Segment.last segments x) ∧
    (honest.coveredTo segments < honest.treeSize →
      ¬ Tiling.Covered Segment.first Segment.last segments (honest.coveredTo segments)) :=
  Tiling.prefixFrom_spec (by omega) (Int.natCast_nonneg _)

/-- Where nothing is missing, a call tries to write the manifest. -/
theorem call_covered (hreads : Reads honest.reader honest.log files.entryFiles segments)
    (hload : Loadable honest.reader files.stateFile) (hcovered : honest.coveredTo segments = honest.treeSize) :
    honest.Leaves files (honest.call pageSize now files) files.entryFiles (honest.written files.entryFiles now) := by
  obtain ⟨members, hsorted, heq⟩ := exportOnce_eq hreads hload
  have hle : honest.root.treeSize ≤ Tiling.prefixFrom Segment.first Segment.last honest.treeSize segments
      honest.treeSize 0 := by
    rw [honest.treeSize_root]
    exact hcovered.ge
  rw [if_pos hle] at heq
  rw [call, heq, Exporter.finish]
  exact leaves_putManifest 0 hsorted hload

/-- Where leaves are missing, a call writes a piece, and tries to write the manifest if it is the last one. -/
theorem call_gap (hlog : honest.log.length ≤ 10 ^ 12)
    (hconsistent : Consistent honest.reader honest.log files.entryFiles)
    (hreads : Reads honest.reader honest.log files.entryFiles segments)
    (hload : Loadable honest.reader files.stateFile) (hpage : 1 ≤ pageSize)
    (hgap : honest.coveredTo segments < honest.treeSize) :
    ∃ filled segments', Consistent honest.reader honest.log filled ∧
      Reads honest.reader honest.log filled segments' ∧
      Tiling.Fills Segment.first Segment.last honest.treeSize pageSize segments segments' (honest.coveredTo segments) ∧
      honest.Leaves files (honest.call pageSize now files) filled
        (if (honest.treeSize : Int) ≤ Tiling.pieceEnd Segment.first honest.treeSize pageSize segments
            (honest.coveredTo segments) + 1 then honest.written filled now else []) := by
  obtain ⟨hnonneg, -, hcovered, hend⟩ := @coveredTo_spec _ honest segments
  obtain ⟨members, hsorted, heq⟩ := @exportOnce_eq _ _ pageSize now _ _ hreads hload
  have hle : ¬ honest.root.treeSize ≤ honest.coveredTo segments := by
    rw [honest.treeSize_root]
    exact not_le.2 hgap
  have heq' := heq.trans (congrFun (if_neg hle) files)
  have hnot := hend hgap
  change honest.exporter.exportOnce honest.source pageSize now files
    = honest.exporter.fetch honest.source honest.root members (honest.coveredTo segments) pageSize now files at heq'
  clear heq
  generalize honest.coveredTo segments = start at *
  obtain ⟨first, rfl⟩ := Int.eq_ofNat_of_zero_le hnonneg
  obtain ⟨hge, hlt, hwidth, -⟩ := Tiling.pieceEnd_spec Segment.first segments hgap hpage
  obtain ⟨last, hlast⟩ := Int.eq_ofNat_of_zero_le (hnonneg.trans hge)
  have hn : (honest.treeSize : Int) ≤ honest.log.length := by exact_mod_cast honest.treeSize_le
  obtain ⟨filled, segments', hwrite, hconsistent', hreads', hfills⟩ := hreads.exists_fills hconsistent
    hlog hn hpage hgap hnot hcovered hlast.symm
  refine ⟨filled, segments', hconsistent', hreads', hfills, ?_⟩
  rw [hlast] at hge hlt hwidth ⊢
  have hfirst : first ≤ last := by exact_mod_cast hge
  have hnext := hreads.nextSegmentStartAfter_eq hconsistent hlog first
  have hentries : honest.source.entries first (fetchEnd first pageSize honest.root.treeSize
      (Tiling.nextStart Segment.first segments first)) pageSize = slice honest.log first (last - first + 1) := by
    rw [fetchEnd_eq, honest.treeSize_root, hlast]
    exact servedEntries_eq hfirst hwidth
  obtain ⟨final, hfinal, hindex⟩ := getLast?_entriesFrom first
    (@slice_ne_nil honest.log first (last - first + 1) (Nat.succ_pos _) (by omega))
  rw [length_rows (by omega)] at hindex
  have hindex' : leafIndex final = .ok last := hindex.trans (congrArg Except.ok (by omega))
  have hput : Exporter.putSegment (slice honest.log first (last - first + 1)) files
      = (.ok (), { files with entryFiles := filled }) := by
    rw [Exporter.putSegment, Effect.read_bind, hwrite, Effect.lift_ok_bind]
    rfl
  rw [call, heq', Exporter.fetch, Effect.read_bind, show nextSegmentStartAfter honest.exporter.reader files.entryFiles
    first = _ from hnext, Effect.lift_ok_bind]
  dsimp only
  rw [hentries, show (slice honest.log first (last - first + 1)).getLast? = some final from hfinal, Check.ofOption,
    Effect.lift_ok_bind, Effect.bind_of_ok hput, hindex', Effect.lift_ok_bind]
  have hleaves : ∀ {files' new}, honest.Leaves { files with entryFiles := filled } files' filled new →
      honest.Leaves files files' filled new := fun h => ⟨h.entryFiles, h.manifests, h.loadable⟩
  by_cases hreached : (honest.treeSize : Int) ≤ last + 1
  · rw [if_pos hreached, if_pos (honest.treeSize_root ▸ hreached)]
    exact hleaves (leaves_putManifest _ hsorted hload)
  · rw [if_neg hreached, if_neg (honest.treeSize_root ▸ hreached)]
    exact hleaves (leaves_saveState _ hsorted hload)

/-! ## The plan -/

/-- The ranges of the segments that a manifest will list, when the gaps are filled. -/
def planned (honest : HonestExport crypto) (pageSize : Int) (segments : List Segment) : Option (List (Int × Int)) :=
  Tiling.plan Segment.first Segment.last honest.treeSize pageSize segments honest.treeSize 0

/-- There is a plan, and a JSON list holds it. -/
def Planned (honest : HonestExport crypto) (pageSize : Int) (segments : List Segment) : Prop :=
  ∃ tiles, honest.planned pageSize segments = some tiles ∧ tiles.length ≤ jsonLimits.maxListItems

/-- The range of a record. -/
def range (record : SegmentRecord) : Int × Int :=
  (record.firstLeafIndex, record.lastLeafIndex)

/-- A manifest for the root whose segments lie side by side. -/
def Partitions (honest : HonestExport crypto) (m : Manifest) : Prop :=
  m.signedRoot = honest.root ∧ Tiling.Tiles honest.treeSize 0 (m.segments.map range)

theorem planned_of_covered {entryFiles : List (String × Bytes)}
    (hreads : Reads honest.reader honest.log entryFiles segments)
    (hcovered : ∀ x, 0 ≤ x → x < (honest.treeSize : Int) → Tiling.Covered Segment.first Segment.last segments x) :
    honest.planned pageSize segments
      = (Tiling.tilesFrom Segment.first Segment.last honest.treeSize segments honest.treeSize 0).map
          fun tiles => tiles.map fun s => (s.first, s.last) :=
  Tiling.plan_of_covered hcovered hreads.valid le_rfl

/-- A covered archive gets the manifest that is planned, and no other. -/
theorem mem_written (pageSize : Int) (hreads : Reads honest.reader honest.log files.entryFiles segments)
    (hcovered : ∀ x, 0 ≤ x → x < (honest.treeSize : Int) → Tiling.Covered Segment.first Segment.last segments x)
    {m : Manifest} (hm : m ∈ honest.written files.entryFiles now) :
    honest.Partitions m ∧ honest.Planned pageSize segments := by
  unfold written at hm
  split at hm
  · next m' hwrite =>
    obtain rfl := List.mem_singleton.1 hm
    obtain ⟨hroot, tiles, htiles, hlength, hsegments⟩ := writeManifest_eq_ok hreads hwrite
    have hplanned := @planned_of_covered _ _ pageSize _ _ hreads hcovered
    rw [htiles, Option.map_some] at hplanned
    refine ⟨⟨hroot, ?_⟩, _, hplanned, by rwa [List.length_map]⟩
    rw [hsegments, List.map_map]
    exact Tiling.tiles_of_tilesFrom hreads.valid (Int.natCast_nonneg _) htiles
  · exact absurd hm List.not_mem_nil

theorem exists_mem_written (hlog : honest.log.length ≤ 10 ^ 12)
    (hreads : Reads honest.reader honest.log files.entryFiles segments)
    (hcovered : ∀ x, 0 ≤ x → x < (honest.treeSize : Int) → Tiling.Covered Segment.first Segment.last segments x)
    (hnow : now.natAbs ≤ jsonLimits.maxIntegerAbs) (hplanned : honest.Planned pageSize segments) :
    ∃ m, m ∈ honest.written files.entryFiles now := by
  obtain ⟨ranges, hranges, hlength⟩ := hplanned
  rw [planned_of_covered hreads hcovered] at hranges
  obtain ⟨tiles, htiles, rfl⟩ := Option.map_eq_some_iff.1 hranges
  rw [List.length_map] at hlength
  obtain ⟨m, hm⟩ := exists_writeManifest hreads hlog hnow htiles hlength
  rw [written, hm]
  exact ⟨m, List.mem_cons_self⟩

/-- The files after a call, and what it did to the plan. -/
inductive Called (honest : HonestExport crypto) (pageSize now : Int) (files : ExportFiles)
    (segments : List Segment) : Prop
  /-- The archive covers the root, or does so with the piece that was written. -/
  | finished (filled : List (String × Bytes)) (segments' : List Segment)
      (consistent : Consistent honest.reader honest.log filled) (reads : Reads honest.reader honest.log filled segments')
      (covered : ∀ x, 0 ≤ x → x < (honest.treeSize : Int) → Tiling.Covered Segment.first Segment.last segments' x)
      (planned_eq : honest.planned pageSize segments' = honest.planned pageSize segments)
      (leaves : honest.Leaves files (honest.call pageSize now files) filled (honest.written filled now))
  /-- A piece was written, and leaves are missing still. -/
  | filled (filled : List (String × Bytes)) (segments' : List Segment)
      (consistent : Consistent honest.reader honest.log filled) (reads : Reads honest.reader honest.log filled segments')
      (more : honest.coveredTo segments < honest.coveredTo segments')
      (planned_eq : honest.planned pageSize segments' = honest.planned pageSize segments)
      (leaves : honest.Leaves files (honest.call pageSize now files) filled [])

theorem called (now : Int) (hlog : honest.log.length ≤ 10 ^ 12)
    (hconsistent : Consistent honest.reader honest.log files.entryFiles)
    (hreads : Reads honest.reader honest.log files.entryFiles segments)
    (hload : Loadable honest.reader files.stateFile) (hpage : 1 ≤ pageSize) :
    Called honest pageSize now files segments := by
  obtain ⟨hnonneg, hle, hcovered, hend⟩ := @coveredTo_spec _ honest segments
  rcases hle.lt_or_eq with hgap | heq
  · obtain ⟨filled, segments', hconsistent', hreads', hfills, hleaves⟩ :=
      call_gap hlog hconsistent hreads hload hpage hgap
    obtain ⟨hge, hlt, -, -⟩ := Tiling.pieceEnd_spec Segment.first segments hgap hpage
    have hplanned : honest.planned pageSize segments' = honest.planned pageSize segments :=
      hfills.plan_eq le_rfl fun hin => absurd hin.1 (not_lt.2 hnonneg)
    have hcovered' : ∀ x, 0 ≤ x → x ≤ Tiling.pieceEnd Segment.first honest.treeSize pageSize segments
        (honest.coveredTo segments) → Tiling.Covered Segment.first Segment.last segments' x := by
      intro x hx hx'
      refine hfills.covered_iff.2 ?_
      rcases lt_or_ge x (honest.coveredTo segments) with hbefore | hafter
      · exact .inl (hcovered x hx hbefore)
      · exact .inr ⟨hafter, hx'⟩
    by_cases hreached : (honest.treeSize : Int) ≤ Tiling.pieceEnd Segment.first honest.treeSize pageSize segments
        (honest.coveredTo segments) + 1
    · rw [if_pos hreached] at hleaves
      exact .finished filled segments' hconsistent' hreads' (fun x hx hx' => hcovered' x hx (by omega)) hplanned hleaves
    · rw [if_neg hreached] at hleaves
      refine .filled filled segments' hconsistent' hreads' ?_ hplanned hleaves
      obtain ⟨hnonneg', -, -, hend'⟩ := @coveredTo_spec _ honest segments'
      by_contra hnot
      exact hend' (by omega) (hcovered' _ hnonneg' (by omega))
  · refine .finished files.entryFiles segments hconsistent hreads (fun x hx hx' => hcovered x hx (by omega)) rfl ?_
    exact call_covered hreads hload heq

/-! ## Runs -/

/-- The files after calls. -/
def callAll (honest : HonestExport crypto) (pageSize : Int) (clock : Nat → Int) (files : ExportFiles) (k : Nat) :
    ExportFiles :=
  honest.exporter.calls honest.source pageSize clock files k

variable {clock : Nat → Int}

/-- The first call and then the others. -/
theorem callAll_succ (k : Nat) : honest.callAll pageSize clock files (k + 1)
    = honest.callAll pageSize (fun i => clock (i + 1)) (honest.call pageSize (clock 0) files) k := by
  induction k with
  | zero => rfl
  | succ k ih =>
    show honest.call pageSize (clock (k + 1)) (honest.callAll pageSize clock files (k + 1)) = _
    rw [ih]
    rfl

/-- A plan is carried out: each call but the last covers more. -/
theorem exists_callAll (hlog : honest.log.length ≤ 10 ^ 12)
    (hclock : ∀ k, (clock k).natAbs ≤ jsonLimits.maxIntegerAbs) (hpage : 1 ≤ pageSize)
    (hconsistent : Consistent honest.reader honest.log files.entryFiles)
    (hreads : Reads honest.reader honest.log files.entryFiles segments)
    (hload : Loadable honest.reader files.stateFile) (hplanned : honest.Planned pageSize segments) :
    ∃ k : Nat, (k : Int) ≤ honest.treeSize - honest.coveredTo segments + 1 ∧
      ∃ m ∈ (honest.callAll pageSize clock files k).manifests, honest.Partitions m := by
  induction hmissing : (honest.treeSize - honest.coveredTo segments).toNat using Nat.strong_induction_on
    generalizing files segments clock with
  | _ missing ih =>
    obtain ⟨-, hle, -, -⟩ := @coveredTo_spec _ honest segments
    cases called (clock 0) hlog hconsistent hreads hload hpage with
    | finished filled segments' hconsistent' hreads' hcovered heq hleaves =>
      have hfiles : filled = (honest.call pageSize (clock 0) files).entryFiles := hleaves.entryFiles.symm
      rw [hfiles] at hreads' hleaves
      have hplanned' : honest.Planned pageSize segments' := by
        unfold Planned
        rw [heq]
        exact hplanned
      obtain ⟨m, hm⟩ := exists_mem_written hlog hreads' hcovered (hclock 0) hplanned'
      refine ⟨1, by omega, m, ?_, (mem_written pageSize hreads' hcovered hm).1⟩
      show m ∈ (honest.call pageSize (clock 0) files).manifests
      rw [hleaves.manifests]
      exact List.mem_append_left _ hm
    | filled filled segments' hconsistent' hreads' hmore heq hleaves =>
      obtain ⟨-, hle', -, -⟩ := @coveredTo_spec _ honest segments'
      have hfiles : filled = (honest.call pageSize (clock 0) files).entryFiles := hleaves.entryFiles.symm
      rw [hfiles] at hconsistent' hreads'
      have hplanned' : honest.Planned pageSize segments' := by
        unfold Planned
        rw [heq]
        exact hplanned
      obtain ⟨k, hk, m, hm, hpartitions⟩ := ih (honest.treeSize - honest.coveredTo segments').toNat (by omega)
        (fun i => hclock (i + 1)) hconsistent' hreads' hleaves.loadable hplanned' rfl
      refine ⟨k + 1, by push_cast; omega, m, ?_, hpartitions⟩
      rw [callAll_succ]
      exact hm

/-- A manifest is written only according to a plan. -/
theorem planned_of_callAll (hlog : honest.log.length ≤ 10 ^ 12) (hpage : 1 ≤ pageSize)
    (hconsistent : Consistent honest.reader honest.log files.entryFiles)
    (hreads : Reads honest.reader honest.log files.entryFiles segments) {k : Nat} {m : Manifest}
    (hm : m ∈ (honest.callAll pageSize clock files k).manifests) (hnew : m ∉ files.manifests) :
    Loadable honest.reader files.stateFile ∧ honest.Planned pageSize segments := by
  induction k generalizing files segments clock with
  | zero => exact absurd hm hnew
  | succ k ih =>
    rw [callAll_succ] at hm
    by_cases hload : Loadable honest.reader files.stateFile
    · refine ⟨hload, ?_⟩
      cases called (clock 0) hlog hconsistent hreads hload hpage with
      | finished filled segments' hconsistent' hreads' hcovered heq hleaves =>
        have hfiles : filled = (honest.call pageSize (clock 0) files).entryFiles := hleaves.entryFiles.symm
        rw [hfiles] at hconsistent' hreads' hleaves
        have hplanned : honest.Planned pageSize segments' := by
          by_cases hwritten : m ∈ (honest.call pageSize (clock 0) files).manifests
          · rw [hleaves.manifests, List.mem_append] at hwritten
            exact (mem_written pageSize hreads' hcovered (hwritten.resolve_right hnew)).2
          · exact (ih hconsistent' hreads' hm hwritten).2
        unfold Planned at hplanned
        rwa [heq] at hplanned
      | filled filled segments' hconsistent' hreads' hmore heq hleaves =>
        have hfiles : filled = (honest.call pageSize (clock 0) files).entryFiles := hleaves.entryFiles.symm
        rw [hfiles] at hconsistent' hreads'
        have hsame : m ∉ (honest.call pageSize (clock 0) files).manifests := by
          rw [hleaves.manifests]
          exact hnew
        have hplanned := (ih hconsistent' hreads' hm hsame).2
        unfold Planned at hplanned
        rwa [heq] at hplanned
    · rw [call_of_not_loadable hload] at hm
      exact absurd (ih hconsistent hreads hm hnew).1 hload

end HonestExport

/-! ## Convergence -/

/-- An exporter of an honest operator with the files that it finds. The archive is any that is consistent with the log.
    File names have room for indexes of twelve digits. -/
structure ExportSetup (crypto : Crypto) where
  honest : HonestExport crypto
  length_log : honest.log.length ≤ 10 ^ 12
  entryFiles : List (String × Bytes)
  consistent : Consistent honest.reader honest.log entryFiles
  stateFile : Option Bytes
  pageSize : Int
  pageSize_pos : 1 ≤ pageSize
  clock : Nat → Int
  clock_bounded : ∀ k, (clock k).natAbs ≤ jsonLimits.maxIntegerAbs

namespace ExportSetup

variable {crypto : Crypto} (setup : ExportSetup crypto)

/-- The files after a number of calls of `export_once`. -/
def after (k : Nat) : ExportFiles :=
  setup.honest.callAll setup.pageSize setup.clock ⟨setup.entryFiles, setup.stateFile, []⟩ k

/-- The archive is covered exactly where the segments of a manifest are found, and after at most one call more than the
    root has leaves, a manifest for the root has been written whose segments partition the leaves in order. -/
def Converges : Prop :=
  (contiguousPrefix setup.honest.reader setup.entryFiles setup.honest.treeSize = .ok setup.honest.treeSize ↔
    ∃ records, segmentManifestEntries crypto setup.honest.reader setup.entryFiles setup.honest.treeSize = .ok records) ∧
  ∃ k ≤ setup.honest.treeSize + 1, ∃ m ∈ (setup.after k).manifests, setup.honest.Partitions m

/-- The state file is missing or holds an object whose `next_leaf_index` is missing or a number, and the walk along
    the longest segments, with pages in the gaps, reaches the size of the root in as many steps as a JSON list may hold. -/
def Exportable : Prop :=
  Loadable setup.honest.reader setup.stateFile ∧
    ∃ segments, entrySegments setup.honest.reader setup.entryFiles = .ok segments ∧
      setup.honest.Planned setup.pageSize segments

/-- **The export converges exactly where the archive can be walked.** -/
theorem converges_iff : setup.Converges ↔ setup.Exportable := by
  obtain ⟨segments, hreads⟩ := setup.consistent.exists_reads
  have hexportable : setup.Exportable ↔ Loadable setup.honest.reader setup.stateFile ∧
      setup.honest.Planned setup.pageSize segments := by
    refine and_congr_right fun _ => ?_
    rw [hreads.entrySegments]
    simp only [Except.ok.injEq, exists_eq_left']
  rw [hexportable]
  constructor
  · rintro ⟨-, k, -, m, hm, -⟩
    have hm' : m ∈ (setup.honest.callAll setup.pageSize setup.clock
      ⟨setup.entryFiles, setup.stateFile, []⟩ k).manifests := hm
    exact HonestExport.planned_of_callAll setup.length_log setup.pageSize_pos setup.consistent hreads hm' List.not_mem_nil
  · rintro ⟨hload, hplanned⟩
    constructor
    · obtain ⟨hnonneg, hle, hcovered, hend⟩ := @HonestExport.coveredTo_spec _ setup.honest segments
      have hrange := hreads.contiguousPrefix_eq (Int.natCast_nonneg setup.honest.treeSize)
      rw [Int.toNat_natCast] at hrange
      rw [hrange, Except.ok.injEq]
      change setup.honest.coveredTo segments = setup.honest.treeSize ↔ _
      simp only [hreads.segmentManifestEntries_eq_ok crypto]
      constructor
      · intro heq
        obtain ⟨ranges, hranges, -⟩ := hplanned
        rw [HonestExport.planned_of_covered hreads fun x hx hx' => hcovered x hx (by omega)] at hranges
        obtain ⟨tiles, htiles, -⟩ := Option.map_eq_some_iff.1 hranges
        exact ⟨_, tiles, htiles, rfl⟩
      · rintro ⟨_, tiles, htiles, -⟩
        by_contra hne
        exact hend (lt_of_le_of_ne hle hne) (Tiling.covered_of_tilesFrom htiles hnonneg (lt_of_le_of_ne hle hne))
    · obtain ⟨hnonneg, -, -, -⟩ := @HonestExport.coveredTo_spec _ setup.honest segments
      let files : ExportFiles := ⟨setup.entryFiles, setup.stateFile, []⟩
      have hreads' : Reads setup.honest.reader setup.honest.log files.entryFiles segments := hreads
      obtain ⟨k, hk, m, hm, hpartitions⟩ := HonestExport.exists_callAll setup.length_log setup.clock_bounded
        setup.pageSize_pos setup.consistent hreads' hload hplanned
      exact ⟨k, by omega, m, hm, hpartitions⟩

/-! ## An archive that never gets a manifest -/

/-- A log of ten leaves whose signed root has five. -/
theorem exists_regressedRoot : ∃ honest : HonestExport sampleCrypto, honest.treeSize = 5 ∧ honest.log.length = 10 := by
  obtain ⟨keys, -⟩ := KeyPair.exists_of_seed sampleCrypto (List.replicate 32 0) (by simp)
  have hhex : IsHex32 (sampleCrypto.sha3Hex []) := sampleCrypto.isHex32_sha3Hex []
  obtain ⟨root, hroot⟩ := @SignedRoot.exists_makeSignedRoot sampleCrypto keys 5 1 (sampleCrypto.sha3Hex [])
    (sampleCrypto.sha3Hex []) 0 (by decide) hhex.1 hhex.1
  refine ⟨⟨.strict, false, keys, none, fun _ h => (nomatch h),
    List.replicate 10 ⟨sampleCrypto.sha3Hex [], 0, hhex, by decide⟩, 5, by simp, _, hhex, 1, by decide, _, hhex, 0,
    by decide, root, hroot⟩, rfl, List.length_replicate⟩

/-- A segment file of all ten leaves covers the root, and no segment ends below its size. Such a file is left where a
    root was signed, the log exported, and a smaller root signed again. -/
theorem not_converges_regressedRoot : ¬ ∀ setup : ExportSetup sampleCrypto, setup.Converges := by
  intro hall
  obtain ⟨honest, hsize, hlog⟩ := exists_regressedRoot
  have hlast : ((0 : Nat) : Int) + (10 : Nat) - 1 = 9 := by decide
  have hholds := @holds_slice honest.log honest.reader 0 10 (by decide) (by omega) (by omega)
  set file := (segmentName ((0 : Nat) : Int) (((0 : Nat) : Int) + (10 : Nat) - 1),
    Text.utf8 (JsonReader.linesText (slice honest.log 0 10)))
  have hconsistent : Consistent honest.reader honest.log [file] := by
    refine ⟨List.nodup_singleton _, fun other hother => ?_⟩
    rw [List.mem_singleton.1 hother]
    exact .inr ⟨0, 10, hholds⟩
  obtain ⟨hiff, -⟩ := hall ⟨honest, by omega, [file], hconsistent, none, 1, le_rfl, fun _ => 0, fun _ => by decide⟩
  obtain ⟨segments, hreads⟩ := hconsistent.exists_reads
  have hmem : ∀ s, s ∈ segments ↔ s = heldSegment honest.log file 0 10 := by
    intro s
    rw [hreads.mem]
    simp only [List.mem_singleton, exists_eq_left]
    rw [hholds.readSegment, Except.ok.injEq, Option.some.injEq, eq_comm]
  -- every leaf of the root is covered
  obtain ⟨hnonneg, hle, -, hend⟩ := @HonestExport.coveredTo_spec _ honest segments
  have hcovered : honest.coveredTo segments = honest.treeSize := by
    by_contra hne
    refine hend (lt_of_le_of_ne hle hne) ⟨_, (hmem _).2 rfl, hnonneg, ?_⟩
    show honest.coveredTo segments ≤ ((0 : Nat) : Int) + (10 : Nat) - 1
    omega
  have hrange := hreads.contiguousPrefix_eq (Int.natCast_nonneg honest.treeSize)
  rw [Int.toNat_natCast] at hrange
  obtain ⟨records, hrecords⟩ := hiff.1 (hrange.trans (congrArg Except.ok hcovered))
  obtain ⟨tiles, htiles, -⟩ := (hreads.segmentManifestEntries_eq_ok sampleCrypto).1 hrecords
  have hnone : Tiling.farthest Segment.last (fun s => s.first = 0 ∧ s.last < (honest.treeSize : Int)) segments
      = none := by
    refine Tiling.farthest_eq_none.2 fun s hs => decide_eq_false ?_
    rintro ⟨-, hbelow⟩
    rw [(hmem s).1 hs] at hbelow
    change ((0 : Nat) : Int) + (10 : Nat) - 1 < (honest.treeSize : Int) at hbelow
    omega
  dsimp only at htiles
  rw [hsize] at htiles hnone
  change Tiling.tilesFrom Segment.first Segment.last ((5 : Nat) : Int) segments 5 0 = some tiles at htiles
  rw [Tiling.tilesFrom, if_pos (by decide), hnone] at htiles
  cases htiles

end ExportSetup
