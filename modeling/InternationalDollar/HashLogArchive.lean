import InternationalDollar.Lib.JsonLines
import InternationalDollar.Lib.PaddedNames
import InternationalDollar.Lib.Tiling
import InternationalDollar.SignedRootJson
import InternationalDollar.WireJson

set_option autoImplicit false

/-! # The archive of the hash log (`hash_log_exporter`)

Auditors get the log as files. A segment file holds the entries of consecutive leaves, one JSON object on a line, and
a signed manifest lists the segments that make up the log of a signed root. Segments may overlap: crashes and
changes of the page size leave files behind, and nothing is deleted. -/

namespace HashLogArchive

/-! ## Entries -/

/-- `int(entry["leaf_index"])`. -/
def leafIndex (entry : Json) : Except String Int := do
  let value ← entry.item "leaf_index"
  value.toInt

/-- `str(entry["entry_hash"])`, where this may be a hash. The text of a list, an object or a constant is none. -/
def entryHash (entry : Json) : Except String String := do
  let value ← entry.item "entry_hash"
  match value with
  | .str s => pure s
  | .int n => pure (Text.decimal n)
  | _ => .error "hash log entry has invalid hash length"

/-- The loop of `_validate_entries`. -/
def validateFrom : Int → List Json → Except String Unit
  | _, [] => .ok ()
  | expected, entry :: rest => do
      let index ← leafIndex entry
      Check.require (index = expected) "hash log entries are not contiguous"
      let hash ← entryHash entry
      Check.require (hash.length = 64) "hash log entry has invalid hash length"
      let _ ← Check.ofOption (Text.fromhex hash) "non-hexadecimal number found"
      validateFrom (expected + 1) rest

/-- `StaticHashLogArchive._validate_entries`, which is called where there are entries. -/
def validateEntries : List Json → Except String Unit
  | [] => .ok ()
  | entry :: rest => do
      let expected ← leafIndex entry
      validateFrom expected (entry :: rest)

/-- `_entries_from_segment_bytes`. -/
def entriesFromSegmentBytes (reader : JsonReader) (data : Bytes) : Except String (List Json) := do
  let text ← Check.ofOption (Text.utf8Decode data) "invalid start byte"
  let entries ← Check.ofOption (reader.readLines text) "Expecting value"
  validateEntries entries
  pure entries

/-! ## Segments -/

/-- `f"{n:012d}"`. -/
def paddedIndex : Int → List Char
  | .ofNat n => Text.padded 12 n
  | .negSucc n => '-' :: Text.padded 11 (n + 1)

/-- The name of the file of a segment. -/
def segmentName (first last : Int) : String :=
  String.ofList ("entries_".toList ++
    (paddedIndex first ++ '_' :: (paddedIndex last ++ ".jsonl".toList)))

/-- A segment on disk. -/
structure Segment where
  path : String
  data : Bytes
  entries : List Json
  first : Int
  last : Int

/-- The segment in a file, if it has entries. -/
def readSegment (reader : JsonReader) (file : String × Bytes) : Except String (Option Segment) := do
  let entries ← entriesFromSegmentBytes reader file.2
  match entries.head?, entries.getLast? with
  | some head, some final => do
      let first ← leafIndex head
      let last ← leafIndex final
      pure (some ⟨file.1, file.2, entries, first, last⟩)
  | _, _ => pure none

/-- The segments in files, in the order of the files. -/
def readSegments (reader : JsonReader) : List (String × Bytes) → Except String (List Segment)
  | [] => pure []
  | file :: rest => do
      let segment ← readSegment reader file
      let segments ← readSegments reader rest
      pure (segment.toList ++ segments)

/-- `sorted(entries_dir.glob("entries_*.jsonl"))`. Only the files that this pattern matches are listed. -/
def sortedFiles (files : List (String × Bytes)) : List (String × Bytes) :=
  Select.orderBy Prod.fst files

/-- `_entry_segments`. -/
def entrySegments (reader : JsonReader) (files : List (String × Bytes)) : Except String (List Segment) :=
  readSegments reader (sortedFiles files)

/-- The loop of `_validate_overlap_consistency`. -/
def overlapFrom : List (Int × Json) → List Json → Except String Unit
  | _, [] => .ok ()
  | seen, entry :: rest => do
      let index ← leafIndex entry
      Check.require (∀ previous ∈ AssocList.get? index seen, previous.numeric = entry.numeric)
        "hash log archive contains conflicting overlapping segments"
      overlapFrom (AssocList.put index entry seen) rest

/-- `_validate_overlap_consistency`. -/
def validateOverlapConsistency (segments : List Segment) : Except String Unit :=
  overlapFrom [] (segments.flatMap Segment.entries)

/-- What a manifest says about a segment. -/
structure SegmentRecord where
  path : String
  firstLeafIndex : Int
  lastLeafIndex : Int
  entryCount : Int
  segmentHash : String
  byteLength : Int

/-- `SEGMENT_HASH_ALGORITHM`. -/
def segmentHashAlgorithm : String := "sha3_256"

/-- `segment_hash`. -/
def segmentHash (crypto : Crypto) (data : Bytes) (algorithm : Json) : Except String String := do
  Check.require (algorithm = .str segmentHashAlgorithm) "unsupported segment hash algorithm"
  pure (crypto.sha3Hex data)

/-- The record of a segment in `segment_manifest_entries`. -/
def Segment.record (crypto : Crypto) (segment : Segment) : SegmentRecord where
  path := "entries/" ++ segment.path
  firstLeafIndex := segment.first
  lastLeafIndex := segment.last
  entryCount := segment.entries.length
  segmentHash := crypto.sha3Hex segment.data
  byteLength := segment.data.length

/-- `segment_manifest_entries`. A round of the loop passes at least one leaf. -/
def segmentManifestEntries (crypto : Crypto) (reader : JsonReader) (files : List (String × Bytes)) (treeSize : Int) :
    Except String (List SegmentRecord) :=
  if treeSize = 0 then pure []
  else do
    let segments ← entrySegments reader files
    validateOverlapConsistency segments
    let tiles ← Check.ofOption
      (Tiling.tilesFrom Segment.first Segment.last treeSize segments treeSize.toNat 0)
      "hash log archive segments are not contiguous from leaf 0"
    pure (tiles.map (Segment.record crypto))

/-- `contiguous_prefix`. -/
def contiguousPrefix (reader : JsonReader) (files : List (String × Bytes)) (treeSize : Int) : Except String Int :=
  if treeSize ≤ 0 then pure 0
  else do
    let segments ← entrySegments reader files
    validateOverlapConsistency segments
    pure (Tiling.prefixFrom Segment.first Segment.last treeSize segments treeSize.toNat 0)

/-- The loop of `next_segment_start_after`. The files after the one that is found are not read. -/
def nextSegmentStart (reader : JsonReader) (index : Int) : List (String × Bytes) → Except String (Option Int)
  | [] => pure none
  | file :: rest => do
      let segment ← readSegment reader file
      match segment with
      | none => nextSegmentStart reader index rest
      | some segment =>
          if index < segment.first then pure (some segment.first) else nextSegmentStart reader index rest

/-- `next_segment_start_after`. -/
def nextSegmentStartAfter (reader : JsonReader) (files : List (String × Bytes)) (index : Int) :
    Except String (Option Int) :=
  nextSegmentStart reader index (sortedFiles files)

/-- `write_segment`: the files after it. -/
def writeSegment (files : List (String × Bytes)) (entries : List Json) : Except String (List (String × Bytes)) :=
  match entries.head?, entries.getLast? with
  | some head, some final => do
      validateEntries entries
      let first ← leafIndex head
      let last ← leafIndex final
      Check.requireAll (fun entry => entry.validate jsonLimits "protocol object" 0) entries
      pure (AssocList.put (segmentName first last) (Text.utf8 (JsonReader.linesText entries)) files)
  | _, _ => pure files

/-! ## Manifests -/

/-- `ARCHIVE_MANIFEST_TYPE`. -/
def archiveManifestType : String := "ind.transparency_hash_log_archive_manifest.v3"

/-- `ARCHIVE_MANIFEST_SIGNATURE_DOMAIN`. -/
def archiveManifestSignatureDomain : String := "IND_TRANSPARENCY_HASH_LOG_ARCHIVE_MANIFEST_V3"

/-- The record as a JSON object. -/
def SegmentRecord.toJson (record : SegmentRecord) : Json :=
  .obj [("byte_length", .int record.byteLength), ("entry_count", .int record.entryCount),
    ("first_leaf_index", .int record.firstLeafIndex), ("last_leaf_index", .int record.lastLeafIndex),
    ("path", .str record.path), ("segment_hash", .str record.segmentHash)]

/-- A manifest as `write_manifest` makes it. The other members repeat the signed root or are constants. -/
structure Manifest where
  archiveId : String
  signedRoot : SignedRoot
  segments : List SegmentRecord
  manifestTimestamp : Int
  signature : String

namespace Manifest

/-- The members of a manifest before `signature`. -/
def members (m : Manifest) : List (String × Json) :=
  [("archive_id", .str m.archiveId), ("archived_entry_count", .int m.signedRoot.treeSize),
    ("hash_algorithm", .str m.signedRoot.hashAlgorithm), ("log_id", .str m.signedRoot.logId),
    ("manifest_timestamp", .int m.manifestTimestamp),
    ("operator_public_key", .str m.signedRoot.operatorPublicKey),
    ("segment_hash_algorithm", .str segmentHashAlgorithm),
    ("segments", .arr (m.segments.map SegmentRecord.toJson))]

/-- The members of a manifest after `signature`. -/
def lastMembers (m : Manifest) : List (String × Json) :=
  [("signature_algorithm", .str logSignatureAlgorithm), ("signed_root", m.signedRoot.toJson),
    ("signed_root_hash", .str m.signedRoot.rootHash), ("signed_root_timestamp", .int m.signedRoot.timestamp),
    ("signed_root_tree_size", .int m.signedRoot.treeSize), ("tree_algorithm", .str m.signedRoot.treeAlgorithm),
    ("type", .str archiveManifestType), ("version", .int 1)]

/-- The manifest as a JSON object. -/
def toJson (m : Manifest) : Json :=
  .obj (m.members ++ [("signature", .str m.signature)] ++ m.lastMembers)

/-- The manifest before it is signed. -/
def unsigned (m : Manifest) : Json :=
  .obj (m.members ++ m.lastMembers)

end Manifest

/-- `manifest_signature_payload`. -/
def manifestSignaturePayload (manifest : Json) : Except String Bytes :=
  match manifest with
  | .obj members => signaturePayload archiveManifestSignatureDomain (.obj (Json.popMember "signature" members))
  | _ => .error "object is not a mapping"

/-- `archive_id_for`. -/
def archiveIdFor (crypto : Crypto) (logId : Json) (signedRootTreeSize : Int)
    (signedRootHash segments algorithm : Json) : Except String String :=
  sha3Json crypto (.obj [("log_id", logId), ("segment_hash_algorithm", algorithm), ("segments", segments),
    ("signed_root_hash", signedRootHash), ("signed_root_tree_size", .int signedRootTreeSize)])

/-- The members that a manifest must have. -/
def requiredMembers : List String :=
  ["type", "version", "archive_id", "log_id", "operator_public_key", "tree_algorithm", "hash_algorithm",
    "segment_hash_algorithm", "signature_algorithm", "signed_root", "signed_root_tree_size", "signed_root_hash",
    "signed_root_timestamp", "archived_entry_count", "segments", "manifest_timestamp", "signature"]

/-- The part of `verify_manifest_signature` before the signed root: the public key and the log id. -/
def verifyManifestHeader (crypto : Crypto) (manifest : Json) (operatorPublicKey : Option String) :
    Except String (String × Json) := do
  Check.require (manifest.hasMembers requiredMembers) "malformed hash-log archive manifest"
  let type ← manifest.item "type"
  Check.require (type = .str archiveManifestType) "unsupported hash-log archive manifest version"
  let version ← manifest.item "version"
  let version ← version.toInt
  Check.require (version = 1) "unsupported hash-log archive manifest version"
  let algorithm ← manifest.item "segment_hash_algorithm"
  Check.require (algorithm = .str segmentHashAlgorithm) "unsupported segment hash algorithm"
  let signatureAlgorithm ← manifest.item "signature_algorithm"
  Check.require (signatureAlgorithm = .str logSignatureAlgorithm) "unsupported manifest signature algorithm"
  let publicKey ← manifest.item "operator_public_key"
  let publicKey ← publicKey.asText
  let publicKey := Text.strip publicKey
  Check.require (∀ expected ∈ operatorPublicKey, expected = "" ∨ publicKey = Text.strip expected)
    "archive manifest was signed by an unexpected operator"
  let logId ← manifest.item "log_id"
  Check.require (logId = .str (logIdFromPublicKey crypto publicKey))
    "archive manifest log id does not match operator key"
  pure (publicKey, logId)

/-- `int(manifest[key]) != n`. -/
def requireNumber (manifest : Json) (key : String) (n : Int) (error : String) : Except String Unit := do
  let value ← manifest.item key
  let value ← value.toInt
  Check.require (value = n) error

/-- `manifest[key] != text`. -/
def requireText (manifest : Json) (key text error : String) : Except String Unit := do
  let value ← manifest.item key
  Check.require (value = .str text) error

/-- The part of `verify_manifest_signature` about the members that repeat the signed root. -/
def verifyManifestRoot (crypto : Crypto) (acceptLegacy : Bool) (manifest : Json) (publicKey : String) :
    Except String SignedRoot := do
  let signedRoot ← manifest.item "signed_root"
  let root ← SignedRoot.ofJson signedRoot
  root.verifySignedRoot crypto acceptLegacy (some publicKey)
  requireText manifest "log_id" root.logId "archive manifest log id does not match embedded signed root"
  Check.require (publicKey = Text.strip root.operatorPublicKey)
    "archive manifest operator key does not match embedded signed root"
  requireText manifest "tree_algorithm" root.treeAlgorithm
    "archive manifest tree_algorithm does not match embedded signed root"
  requireText manifest "hash_algorithm" root.hashAlgorithm
    "archive manifest hash_algorithm does not match embedded signed root"
  requireNumber manifest "signed_root_tree_size" root.treeSize
    "archive manifest signed_root_tree_size does not match embedded signed root"
  requireText manifest "signed_root_hash" root.rootHash
    "archive manifest signed_root_hash does not match embedded signed root"
  requireNumber manifest "signed_root_timestamp" root.timestamp
    "archive manifest signed_root_timestamp does not match embedded signed root"
  requireNumber manifest "archived_entry_count" root.treeSize
    "archive manifest entry count does not match signed root tree size"
  pure root

/-- `verify_manifest_signature`. What it returns is the signed root of the manifest. -/
def verifyManifestSignature (crypto : Crypto) (acceptLegacy : Bool) (manifest : Json)
    (operatorPublicKey : Option String) : Except String SignedRoot := do
  let (publicKey, logId) ← verifyManifestHeader crypto manifest operatorPublicKey
  let root ← verifyManifestRoot crypto acceptLegacy manifest publicKey
  let segments ← manifest.item "segments"
  -- the size and the hash are those of the root by now
  let expectedId ← archiveIdFor crypto logId root.treeSize (.str root.rootHash) segments (.str segmentHashAlgorithm)
  requireText manifest "archive_id" expectedId "archive manifest archive_id does not match signed root and segments"
  let signature ← manifest.item "signature"
  let signature ← signature.asText
  let payload ← manifestSignaturePayload manifest
  let valid ← verifyOperatorPayload crypto publicKey signature payload logSignatureAlgorithm
  Check.require (valid = true) "invalid archive manifest signature"
  pure root

/-- An exporter: the keys and the setting that admits the former name of the tree algorithm. -/
structure Exporter (crypto : Crypto) where
  reader : JsonReader
  acceptLegacy : Bool
  operatorPrivateKey : String
  operatorPublicKey : Option String

namespace Exporter

variable {crypto : Crypto}

/-- `sign_manifest`. -/
def signManifest (exporter : Exporter crypto) (m : Manifest) : Except String Manifest := do
  Check.require (exporter.operatorPrivateKey ≠ "") "operator private key is required to sign archive manifest"
  let payload ← manifestSignaturePayload m.unsigned
  let signature ← signOperatorPayload crypto exporter.operatorPrivateKey payload
  pure { m with signature := signature }

/-- `write_manifest`: the manifest that is written to `manifest.json`. -/
def writeManifest (exporter : Exporter crypto) (files : List (String × Bytes)) (root : SignedRoot)
    (manifestTimestamp : Int) : Except String Manifest := do
  root.verifySignedRoot crypto exporter.acceptLegacy exporter.operatorPublicKey
  let segments ← segmentManifestEntries crypto exporter.reader files root.treeSize
  Check.require ((segments.map SegmentRecord.entryCount).sum = root.treeSize)
    "hash log archive does not cover the signed root tree size"
  let archiveId ← archiveIdFor crypto (.str root.logId) root.treeSize (.str root.rootHash)
    (.arr (segments.map SegmentRecord.toJson)) (.str segmentHashAlgorithm)
  let manifest ← exporter.signManifest ⟨archiveId, root, segments, manifestTimestamp, ""⟩
  let _ ← verifyManifestSignature crypto exporter.acceptLegacy manifest.toJson exporter.operatorPublicKey
  manifest.toJson.validate jsonLimits "protocol object" 0
  pure manifest

end Exporter

end HashLogArchive

