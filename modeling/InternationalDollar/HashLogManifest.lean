import InternationalDollar.HashLogFiles
import InternationalDollar.KeyRecords

set_option autoImplicit false

/-! # Manifests of an honest operator (`hash_log_exporter`)

The exporter of an operator that signed a root of its log writes a manifest exactly where its segments tile the range of
the root and are not more than a JSON list may hold: `exists_writeManifest_iff`. Whatever it writes verifies. -/

namespace HashLogArchive

/-! ## Sizes -/

variable {crypto : Crypto} {label : String} {depth : Nat}

theorem validate_small {v : Json} (h : IsSmall v) (hdepth : depth ≤ 64) :
    v.validate jsonLimits label depth = .ok () := by
  cases v with
  | str s => exact validate_text hdepth h
  | int n => exact validate_number hdepth h
  | null | bool | arr | obj => exact h.elim

theorem utf8ByteSize_of_isShort {text : String} (h : IsShort text) :
    text.utf8ByteSize ≤ jsonLimits.maxStringBytes := by
  have hsize := Json.utf8ByteSize_le text
  unfold IsShort at h
  show text.utf8ByteSize ≤ 65536
  omega

/-- An object of small members is within the limits. -/
theorem validate_smallMembers {members : List (String × Json)} (hlength : members.length ≤ 1024)
    (h : ∀ m ∈ members, IsShort m.1 ∧ IsSmall m.2) (hdepth : depth < 64) :
    (Json.obj members).validate jsonLimits label depth = .ok () :=
  Json.validate_obj.2 ⟨hdepth.le, hlength, fun m hm =>
    ⟨utf8ByteSize_of_isShort (h m hm).1, validate_small (h m hm).2 hdepth⟩⟩

/-- A record within the limits. -/
structure SegmentRecord.Bounded (record : SegmentRecord) : Prop where
  path : IsShort record.path
  hash : IsShort record.segmentHash
  numbers : ∀ n ∈ [record.firstLeafIndex, record.lastLeafIndex, record.entryCount, record.byteLength],
    n.natAbs ≤ jsonLimits.maxIntegerAbs

theorem SegmentRecord.Bounded.validate {record : SegmentRecord} (h : record.Bounded) (hdepth : depth < 64) :
    record.toJson.validate jsonLimits label depth = .ok () := by
  obtain ⟨hfirst, hlast, hcount, hbytes, -⟩ := by simpa only [List.forall_mem_cons] using h.numbers
  refine validate_smallMembers (show 6 ≤ 1024 by decide) ?_ hdepth
  simp only [List.forall_mem_cons]
  exact ⟨⟨by decide, hbytes⟩, ⟨by decide, hcount⟩, ⟨by decide, hfirst⟩, ⟨by decide, hlast⟩,
    ⟨by decide, h.path⟩, ⟨by decide, h.hash⟩, by simp⟩

/-- The list of the records is within the limits if it is not too long. -/
theorem validate_records {records : List SegmentRecord} (h : ∀ record ∈ records, record.Bounded)
    (hdepth : depth < 63) :
    (Json.arr (records.map SegmentRecord.toJson)).validate jsonLimits label depth = .ok () ↔
      records.length ≤ jsonLimits.maxListItems := by
  rw [Json.validate_arr, List.length_map]
  constructor
  · exact fun hvalid => hvalid.2.1
  · refine fun hlength => ⟨(show depth ≤ 64 by omega), hlength, fun item hitem => ?_⟩
    obtain ⟨record, hrecord, rfl⟩ := List.mem_map.1 hitem
    exact (h record hrecord).validate (by omega)

theorem length_paddedIndex {n : Nat} (h : n < 10 ^ 12) : (paddedIndex n).length = 12 := by
  show (Text.padded 12 n).length = 12
  exact Text.length_padded (by decide) h

theorem length_segmentName {first last : Nat} (hfirst : first < 10 ^ 12) (hlast : last < 10 ^ 12) :
    (segmentName first last).length = 39 := by
  have hlength := length_paddedIndex hfirst
  have hlength' := length_paddedIndex hlast
  have hstem : "entries_".toList.length = 8 := by decide
  have hend : ".jsonl".toList.length = 6 := by decide
  unfold segmentName
  rw [String.length_ofList, List.length_append, hstem, List.length_append, hlength, List.length_cons,
    List.length_append, hlength', hend]

/-- What is recorded of the segments of a log. -/
theorem Reads.bounded {reader : JsonReader} {log : List LogRow} {files : List (String × Bytes)}
    {segments : List Segment} (h : Reads reader log files segments) (hlog : log.length ≤ 10 ^ 12) {s : Segment}
    (hs : s ∈ segments) :
    (s.record crypto).Bounded ∧ (s.record crypto).entryCount = s.last - s.first + 1 := by
  obtain ⟨file, -, first, count, hholds, rfl⟩ := h.holds s hs
  have hpos := hholds.pos
  have hle := hholds.le
  have hsize := hholds.size
  have hlast : (first : Int) + count - 1 = (first + count - 1 : Nat) := by omega
  have hname : file.1.length = 39 := by
    rw [hholds.name, hlast]
    exact length_segmentName (by omega) (by omega)
  have hcount : (slice log first count).length = count := by
    rw [slice, length_entriesFrom, length_rows hle]
  refine ⟨⟨?_, (crypto.isHex32_sha3Hex _).isShort, ?_⟩, ?_⟩
  · show ("entries/" ++ file.1).length ≤ 16384
    have hdir : "entries/".length = 8 := by decide
    rw [String.length_append, hname, hdir]
    decide
  · simp only [List.forall_mem_cons]
    refine ⟨?_, ?_, ?_, hsize, by simp⟩
    · show first ≤ 9223372036854775807
      omega
    · show ((first : Int) + count - 1).natAbs ≤ 9223372036854775807
      omega
    · show (slice log first count).length ≤ 9223372036854775807
      omega
  · show ((slice log first count).length : Int) = (first : Int) + count - 1 - first + 1
    rw [hcount]
    omega

/-! ## Members -/

namespace Manifest

variable {m : Manifest} {key : String} {value : Json}

/-- All members of a manifest. -/
def memberList (m : Manifest) : List (String × Json) :=
  m.members ++ [("signature", .str m.signature)] ++ m.lastMembers

theorem toJson_eq (m : Manifest) : m.toJson = .obj m.memberList := rfl

theorem pairwise_memberList (m : Manifest) : (m.memberList.map Prod.fst).Pairwise (· < ·) := by
  show ["archive_id", "archived_entry_count", "hash_algorithm", "log_id", "manifest_timestamp",
    "operator_public_key", "segment_hash_algorithm", "segments", "signature", "signature_algorithm", "signed_root",
    "signed_root_hash", "signed_root_timestamp", "signed_root_tree_size", "tree_algorithm", "type",
    "version"].Pairwise (· < ·)
  decide

theorem item_toJson (h : (key, value) ∈ m.memberList) : m.toJson.item key = .ok value :=
  Json.item_of_mem m.pairwise_memberList h

theorem hasMembers_toJson (m : Manifest) : m.toJson.hasMembers requiredMembers = true := by
  have hnames : ∀ name ∈ requiredMembers, name ∈ m.memberList.map Prod.fst := by
    show ∀ name ∈ requiredMembers, name ∈ ["archive_id", "archived_entry_count", "hash_algorithm", "log_id",
      "manifest_timestamp", "operator_public_key", "segment_hash_algorithm", "segments", "signature",
      "signature_algorithm", "signed_root", "signed_root_hash", "signed_root_timestamp", "signed_root_tree_size",
      "tree_algorithm", "type", "version"]
    decide
  refine List.all_eq_true.2 fun name hname => ?_
  obtain ⟨⟨_, value⟩, hmem, rfl⟩ := List.mem_map.1 (hnames name hname)
  obtain ⟨_, heq, hget⟩ := Json.item_eq_ok.1 (item_toJson hmem)
  cases heq
  exact Option.isSome_of_eq_some hget

theorem popMember_of_not_mem {members : List (String × Json)} (h : key ∉ members.map Prod.fst) :
    Json.popMember key members = members := by
  refine List.filter_eq_self.2 fun member hmember => decide_eq_true ?_
  rintro rfl
  exact h (List.mem_map_of_mem hmember)

theorem not_mem_members (m : Manifest) : "signature" ∉ m.members.map Prod.fst := by
  show "signature" ∉ ["archive_id", "archived_entry_count", "hash_algorithm", "log_id", "manifest_timestamp",
    "operator_public_key", "segment_hash_algorithm", "segments"]
  decide

theorem not_mem_lastMembers (m : Manifest) : "signature" ∉ m.lastMembers.map Prod.fst := by
  show "signature" ∉ ["signature_algorithm", "signed_root", "signed_root_hash", "signed_root_timestamp",
    "signed_root_tree_size", "tree_algorithm", "type", "version"]
  decide

theorem manifestSignaturePayload_unsigned (m : Manifest) :
    manifestSignaturePayload m.unsigned = signaturePayload archiveManifestSignatureDomain m.unsigned := by
  have hnot : "signature" ∉ (m.members ++ m.lastMembers).map Prod.fst := by
    rw [List.map_append, List.mem_append, not_or]
    exact ⟨m.not_mem_members, m.not_mem_lastMembers⟩
  rw [unsigned, manifestSignaturePayload, popMember_of_not_mem hnot]

/-- The signature is over the manifest without it. -/
theorem manifestSignaturePayload_toJson (m : Manifest) :
    manifestSignaturePayload m.toJson = signaturePayload archiveManifestSignatureDomain m.unsigned := by
  have hmembers := popMember_of_not_mem m.not_mem_members
  have hlast := popMember_of_not_mem m.not_mem_lastMembers
  have hpop : Json.popMember "signature" m.memberList = m.members ++ m.lastMembers := by
    unfold Json.popMember at *
    rw [memberList, List.filter_append, List.filter_append, hmembers, hlast, List.filter_cons_of_neg (by simp),
      List.filter_nil, List.append_nil]
  rw [toJson_eq, manifestSignaturePayload, hpop, unsigned]

end Manifest

end HashLogArchive

/-! ## An honest operator -/

open HashLogArchive

/-- An operator that signed a root of its log, and the exporter that runs beside it. -/
structure HonestExport (crypto : Crypto) where
  reader : JsonReader
  acceptLegacy : Bool
  keys : KeyPair crypto
  operatorPublicKey : Option String
  expects : ∀ key ∈ operatorPublicKey, Text.strip key = keys.publicKey
  log : List LogRow
  treeSize : Nat
  treeSize_le : treeSize ≤ log.length
  rootHash : String
  rootHash_hex : IsHex32 rootHash
  timestamp : Int
  timestamp_nonneg : 0 ≤ timestamp
  spendMapRoot : String
  spendMapRoot_hex : IsHex32 spendMapRoot
  spendMapSize : Int
  spendMapSize_nonneg : 0 ≤ spendMapSize
  root : SignedRoot
  made : SignedRoot.makeSignedRoot crypto treeSize rootHash timestamp keys.privateKey keys.publicKey
    spendMapRoot spendMapSize = .ok root

namespace HonestExport

variable {crypto : Crypto} (honest : HonestExport crypto)

/-- The exporter with the operator's keys. -/
def exporter : Exporter crypto :=
  ⟨honest.reader, honest.acceptLegacy, honest.keys.privateKey, honest.operatorPublicKey⟩

/-- The root with its signature. -/
theorem exists_payload : ∃ payload, honest.root = { SignedRoot.unsigned crypto honest.treeSize honest.rootHash
    honest.timestamp honest.keys.publicKey honest.spendMapRoot honest.spendMapSize with
      signature := String.ofList (Base85.b85encode (crypto.sign honest.keys.seed payload)) } := by
  obtain ⟨payload, -, hmade⟩ := Check.bind_eq_ok.1 honest.made
  obtain ⟨signature, hsignature, hmade⟩ := Check.bind_eq_ok.1 hmade
  rw [signOperatorPayload_eq] at hsignature
  cases hsignature
  exact ⟨payload, (Except.ok.inj hmade).symm⟩

theorem treeSize_root : honest.root.treeSize = honest.treeSize := by
  obtain ⟨payload, hroot⟩ := honest.exists_payload
  rw [hroot]
  rfl

theorem logId_root : honest.root.logId = logIdFromPublicKey crypto honest.keys.publicKey := by
  obtain ⟨payload, hroot⟩ := honest.exists_payload
  rw [hroot]
  rfl

theorem operatorPublicKey_root : honest.root.operatorPublicKey = honest.keys.publicKey := by
  obtain ⟨payload, hroot⟩ := honest.exists_payload
  rw [hroot]
  rfl

/-- The root verifies. -/
theorem verify_root {expected : Option String}
    (hexpected : ∀ key ∈ expected, Text.strip key = honest.keys.publicKey) :
    honest.root.verifySignedRoot crypto honest.acceptLegacy expected = .ok () :=
  SignedRoot.verify_makeSignedRoot honest.keys honest.made (Int.natCast_nonneg _) honest.timestamp_nonneg
    honest.rootHash_hex honest.spendMapRoot_hex honest.spendMapSize_nonneg _ hexpected

/-- The members of the root are small. -/
theorem isSmall_root : ∀ m ∈ honest.root.memberList, IsShort m.1 ∧ IsSmall m.2 := by
  obtain ⟨payload, hroot⟩ := honest.exists_payload
  obtain ⟨_, hpayload, -⟩ := Check.bind_eq_ok.1 honest.made
  obtain ⟨_, hbytes, -⟩ := Check.bind_eq_ok.1 hpayload
  obtain ⟨-, -, hmembers⟩ := Json.validate_obj.1 (canonicalBytes_eq_ok.1 hbytes).1
  have hnumbers : ∀ key n, (key, Json.int n) ∈ (SignedRoot.unsigned crypto honest.treeSize honest.rootHash
      honest.timestamp honest.keys.publicKey honest.spendMapRoot honest.spendMapSize).lastMembers →
      n.natAbs ≤ jsonLimits.maxIntegerAbs := by
    intro key n hmem
    exact (Json.validate_int.1 (hmembers _ (List.mem_append_right _ hmem)).2).2
  have hlog : IsShort (logIdFromPublicKey crypto honest.keys.publicKey) := (crypto.isHex32_sha3Hex _).isShort
  have hkey := honest.keys.isShort_publicKey
  have hhash := honest.rootHash_hex.lower.isShort
  have hmap := honest.spendMapRoot_hex.lower.isShort
  have hsignature := isShort_signature honest.keys payload
  rw [hroot]
  simp only [SignedRoot.memberList, SignedRoot.lastMembers, SignedRoot.unsigned, SignedRoot.optionalMember,
    Option.map_some, List.cons_append, List.nil_append, List.forall_mem_cons] at hnumbers ⊢
  refine ⟨⟨by decide, show IsShort _ by decide⟩, ⟨by decide, hlog⟩, ⟨by decide, hkey⟩, ⟨by decide, hhash⟩,
    ⟨by decide, hsignature⟩, ⟨by decide, show IsShort _ by decide⟩, ⟨by decide, show IsShort _ by decide⟩,
    ⟨by decide, hmap⟩, ⟨by decide, hnumbers "spend_map_size" _ (by simp)⟩,
    ⟨by decide, hnumbers "timestamp" _ (by simp)⟩, ⟨by decide, show IsShort _ by decide⟩,
    ⟨by decide, hnumbers "tree_size" _ (by simp)⟩, ⟨by decide, show IsShort _ by decide⟩,
    ⟨by decide, hnumbers "version" _ (by simp)⟩, by simp⟩

/-! ## Verification -/

variable {honest} {m : Manifest}

theorem verifyManifestHeader_toJson (hroot : m.signedRoot = honest.root) :
    verifyManifestHeader crypto m.toJson honest.operatorPublicKey
      = .ok (honest.keys.publicKey, .str honest.root.logId) := by
  have hitem : ∀ key value, (key, value) ∈ m.memberList → m.toJson.item key = .ok value :=
    fun key value h => Manifest.item_toJson h
  simp only [Manifest.memberList, Manifest.members, Manifest.lastMembers, hroot, List.cons_append, List.nil_append,
    List.mem_cons, List.not_mem_nil, or_false] at hitem
  have hkey : Text.strip honest.root.operatorPublicKey = honest.keys.publicKey := by
    rw [honest.operatorPublicKey_root, honest.keys.strip_publicKey]
  have hexpected : ∀ expected ∈ honest.operatorPublicKey,
      expected = "" ∨ honest.keys.publicKey = Text.strip expected :=
    fun expected h => .inr (honest.expects expected h).symm
  rw [verifyManifestHeader, Check.require_of m.hasMembers_toJson, Check.ok_bind,
    hitem "type" (.str archiveManifestType) (by simp), Check.ok_bind, Check.require_of rfl, Check.ok_bind,
    hitem "version" (.int 1) (by simp), Check.ok_bind, Json.toInt, Check.ok_bind, Check.require_of rfl, Check.ok_bind,
    hitem "segment_hash_algorithm" (.str segmentHashAlgorithm) (by simp), Check.ok_bind, Check.require_of rfl,
    Check.ok_bind, hitem "signature_algorithm" (.str logSignatureAlgorithm) (by simp), Check.ok_bind,
    Check.require_of rfl, Check.ok_bind,
    hitem "operator_public_key" (.str honest.root.operatorPublicKey) (by simp), Check.ok_bind, Json.asText,
    Check.ok_bind]
  dsimp only
  rw [hkey, Check.require_of hexpected, Check.ok_bind, hitem "log_id" (.str honest.root.logId) (by simp),
    Check.ok_bind, Check.require_of (congrArg Json.str honest.logId_root)]
  rfl

theorem verifyManifestRoot_toJson (hroot : m.signedRoot = honest.root) :
    verifyManifestRoot crypto honest.acceptLegacy m.toJson honest.keys.publicKey = .ok honest.root := by
  have hitem : ∀ key value, (key, value) ∈ m.memberList → m.toJson.item key = .ok value :=
    fun key value h => Manifest.item_toJson h
  simp only [Manifest.memberList, Manifest.members, Manifest.lastMembers, hroot, List.cons_append, List.nil_append,
    List.mem_cons, List.not_mem_nil, or_false] at hitem
  have htext : ∀ key text error, m.toJson.item key = .ok (.str text) →
      requireText m.toJson key text error = .ok () := by
    intro key text error h
    rw [requireText, h]
    exact Check.require_of rfl error
  have hnumber : ∀ key n error, m.toJson.item key = .ok (.int n) →
      requireNumber m.toJson key n error = .ok () := by
    intro key n error h
    rw [requireNumber, h]
    exact Check.require_of rfl error
  have hkey : honest.keys.publicKey = Text.strip honest.root.operatorPublicKey := by
    rw [honest.operatorPublicKey_root, honest.keys.strip_publicKey]
  have hexpected : ∀ key ∈ some honest.keys.publicKey, Text.strip key = honest.keys.publicKey := by
    rintro key ⟨⟩
    exact honest.keys.strip_publicKey
  have hverify := honest.verify_root hexpected
  rw [verifyManifestRoot, hitem "signed_root" honest.root.toJson (by simp), Check.ok_bind, SignedRoot.ofJson_toJson,
    Check.ok_bind, hverify, Check.ok_bind, htext "log_id" _ _ (hitem _ _ (by simp)), Check.ok_bind,
    Check.require_of hkey, Check.ok_bind, htext "tree_algorithm" _ _ (hitem _ _ (by simp)), Check.ok_bind,
    htext "hash_algorithm" _ _ (hitem _ _ (by simp)), Check.ok_bind,
    hnumber "signed_root_tree_size" _ _ (hitem _ _ (by simp)), Check.ok_bind,
    htext "signed_root_hash" _ _ (hitem _ _ (by simp)), Check.ok_bind,
    hnumber "signed_root_timestamp" _ _ (hitem _ _ (by simp)), Check.ok_bind,
    hnumber "archived_entry_count" _ _ (hitem _ _ (by simp)), Check.ok_bind]
  rfl

/-- A manifest with the right id and signature verifies. -/
theorem verifyManifestSignature_toJson (hroot : m.signedRoot = honest.root)
    (hid : archiveIdFor crypto (.str honest.root.logId) honest.root.treeSize (.str honest.root.rootHash)
      (.arr (m.segments.map SegmentRecord.toJson)) (.str segmentHashAlgorithm) = .ok m.archiveId)
    {payload : Bytes} (hpayload : signaturePayload archiveManifestSignatureDomain m.unsigned = .ok payload)
    (hsignature : m.signature = String.ofList (Base85.b85encode (crypto.sign honest.keys.seed payload))) :
    verifyManifestSignature crypto honest.acceptLegacy m.toJson honest.operatorPublicKey = .ok honest.root := by
  have hitem : ∀ key value, (key, value) ∈ m.memberList → m.toJson.item key = .ok value :=
    fun key value h => Manifest.item_toJson h
  simp only [Manifest.memberList, Manifest.members, Manifest.lastMembers, List.cons_append, List.nil_append,
    List.mem_cons, List.not_mem_nil, or_false] at hitem
  have hverify := verifyOperatorPayload_sign honest.keys payload
  rw [← hsignature] at hverify
  rw [verifyManifestSignature, verifyManifestHeader_toJson hroot, Check.ok_bind]
  dsimp only
  rw [verifyManifestRoot_toJson hroot, Check.ok_bind,
    hitem "segments" (.arr (m.segments.map SegmentRecord.toJson)) (by simp), Check.ok_bind, hid, Check.ok_bind,
    requireText, hitem "archive_id" (.str m.archiveId) (by simp), Check.ok_bind, Check.require_of rfl, Check.ok_bind,
    hitem "signature" (.str m.signature) (by simp), Check.ok_bind, Json.asText, Check.ok_bind,
    m.manifestSignaturePayload_toJson, hpayload, Check.ok_bind, hverify, Check.ok_bind, Check.require_of rfl]
  rfl

/-! ## Writing -/

variable {files : List (String × Bytes)} {segments : List Segment} {now : Int}

/-- What is written is signed for the root and lists the tiles. -/
theorem writeManifest_eq_ok (h : Reads honest.reader honest.log files segments)
    (hwrite : honest.exporter.writeManifest files honest.root now = .ok m) :
    m.signedRoot = honest.root ∧ ∃ tiles, Tiling.tilesFrom Segment.first Segment.last honest.treeSize segments
      honest.treeSize 0 = some tiles ∧ tiles.length ≤ jsonLimits.maxListItems ∧
        m.segments = tiles.map (Segment.record crypto) := by
  obtain ⟨-, hwrite⟩ := Check.check_bind_eq_ok.1 hwrite
  obtain ⟨records, hrecords, hwrite⟩ := Check.bind_eq_ok.1 hwrite
  obtain ⟨-, hwrite⟩ := Check.check_bind_eq_ok.1 hwrite
  obtain ⟨archiveId, hid, hwrite⟩ := Check.bind_eq_ok.1 hwrite
  obtain ⟨signed, hsign, hwrite⟩ := Check.bind_eq_ok.1 hwrite
  obtain ⟨-, -, hwrite⟩ := Check.bind_eq_ok.1 hwrite
  obtain ⟨-, hwrite⟩ := Check.check_bind_eq_ok.1 hwrite
  obtain ⟨-, hsign⟩ := Check.check_bind_eq_ok.1 hsign
  obtain ⟨payload, -, hsign⟩ := Check.bind_eq_ok.1 hsign
  obtain ⟨signature, -, hsign⟩ := Check.bind_eq_ok.1 hsign
  cases hsign
  cases hwrite
  obtain ⟨tiles, htiles, rfl⟩ := (h.segmentManifestEntries_eq_ok crypto).1 hrecords
  rw [honest.treeSize_root] at htiles
  refine ⟨rfl, tiles, htiles, ?_, rfl⟩
  -- the id is made of a list that passed the limits
  obtain ⟨raw, hraw, -⟩ := Check.bind_eq_ok.1 hid
  obtain ⟨-, -, hmembers⟩ := Json.validate_obj.1 (canonicalBytes_eq_ok.1 hraw).1
  simp only [List.forall_mem_cons] at hmembers
  obtain ⟨-, hlength, -⟩ := Json.validate_arr.1 hmembers.2.2.1.2
  rwa [List.length_map, List.length_map] at hlength

/-- What is written verifies, for whoever expects the operator's key or none. -/
theorem verify_of_writeManifest (hwrite : honest.exporter.writeManifest files honest.root now = .ok m)
    (acceptLegacy : Bool) {expected : Option String}
    (hexpected : ∀ key ∈ expected, Text.strip key = honest.keys.publicKey) :
    verifyManifestSignature crypto acceptLegacy m.toJson expected = .ok honest.root := by
  obtain ⟨-, hwrite⟩ := Check.check_bind_eq_ok.1 hwrite
  obtain ⟨records, -, hwrite⟩ := Check.bind_eq_ok.1 hwrite
  obtain ⟨-, hwrite⟩ := Check.check_bind_eq_ok.1 hwrite
  obtain ⟨archiveId, hid, hwrite⟩ := Check.bind_eq_ok.1 hwrite
  obtain ⟨signed, hsign, hwrite⟩ := Check.bind_eq_ok.1 hwrite
  obtain ⟨-, -, hwrite⟩ := Check.bind_eq_ok.1 hwrite
  obtain ⟨-, hwrite⟩ := Check.check_bind_eq_ok.1 hwrite
  obtain ⟨-, hsign⟩ := Check.check_bind_eq_ok.1 hsign
  obtain ⟨payload, hpayload, hsign⟩ := Check.bind_eq_ok.1 hsign
  obtain ⟨signature, hsignature, hsign⟩ := Check.bind_eq_ok.1 hsign
  cases hsign
  cases hwrite
  have hsignature' := (signOperatorPayload_eq honest.keys payload).symm.trans hsignature
  cases hsignature'
  rw [Manifest.manifestSignaturePayload_unsigned] at hpayload
  -- the auditor's settings are those of another exporter of the same operator
  let auditor : HonestExport crypto :=
    { honest with acceptLegacy := acceptLegacy, operatorPublicKey := expected, expects := hexpected }
  exact @verifyManifestSignature_toJson crypto auditor _ rfl hid payload hpayload rfl

/-- The counts of the tiles add up to the size of the root. -/
theorem sum_entryCount (h : Reads honest.reader honest.log files segments) (hlog : honest.log.length ≤ 10 ^ 12)
    {tiles : List Segment}
    (htiles : Tiling.tilesFrom Segment.first Segment.last honest.treeSize segments honest.treeSize 0 = some tiles) :
    ((tiles.map (Segment.record crypto)).map SegmentRecord.entryCount).sum = honest.root.treeSize := by
  have hsum := Tiling.sum_of_tilesFrom htiles (Int.natCast_nonneg _)
  have hcounts : (tiles.map (Segment.record crypto)).map SegmentRecord.entryCount
      = tiles.map fun s => s.last - s.first + 1 := by
    rw [List.map_map]
    exact List.map_congr_left fun s hs => (h.bounded hlog (Tiling.mem_of_tilesFrom htiles s hs).1).2
  rw [hcounts, hsum, honest.treeSize_root, sub_zero]

/-- Manifests are within the limits. -/
theorem validate_manifest (hroot : m.signedRoot = honest.root) (hnow : m.manifestTimestamp.natAbs ≤ jsonLimits.maxIntegerAbs)
    (hid : IsShort m.archiveId) (hrecords : ∀ record ∈ m.segments, record.Bounded)
    (hlength : m.segments.length ≤ jsonLimits.maxListItems) {signature : List (String × Json)}
    (hsignature : signature.length ≤ 1 ∧ ∀ member ∈ signature, IsShort member.1 ∧ IsSmall member.2) :
    (Json.obj (m.members ++ signature ++ m.lastMembers)).validate jsonLimits "protocol object" 0 = .ok () := by
  have hsmall := honest.isSmall_root
  have hrootJson : honest.root.toJson.validate jsonLimits "protocol object" (0 + 1) = .ok () := by
    have hmax : honest.root.memberList.length ≤ 1024 := by
      have hlast := SignedRoot.length_optionalMember_le "spend_map_algorithm"
        (honest.root.spendMapAlgorithm.map Json.str)
      have hroot' := SignedRoot.length_optionalMember_le "spend_map_root" (honest.root.spendMapRoot.map Json.str)
      have hsize := SignedRoot.length_optionalMember_le "spend_map_size" (honest.root.spendMapSize.map Json.int)
      simp only [SignedRoot.memberList, SignedRoot.lastMembers, List.length_append, List.length_cons, List.length_nil]
      omega
    exact validate_smallMembers hmax hsmall (by decide)
  have hmember : ∀ key value, (key, value) ∈ [("hash_algorithm", Json.str honest.root.hashAlgorithm),
      ("log_id", .str honest.root.logId), ("operator_public_key", .str honest.root.operatorPublicKey),
      ("root_hash", .str honest.root.rootHash), ("signature", .str honest.root.signature),
      ("signature_algorithm", .str honest.root.signatureAlgorithm), ("timestamp", .int honest.root.timestamp),
      ("tree_algorithm", .str honest.root.treeAlgorithm), ("tree_size", .int honest.root.treeSize),
      ("type", .str honest.root.type), ("version", .int honest.root.version)] →
      value.validate jsonLimits "protocol object" (0 + 1) = .ok () :=
    fun key value h => validate_small (hsmall _ (SignedRoot.mem_memberList.2 (.inl h))).2 (by decide)
  have hsize := hmember "tree_size" (.int honest.root.treeSize) (by simp)
  have hhashAlgorithm := hmember "hash_algorithm" (.str honest.root.hashAlgorithm) (by simp)
  have hlogId := hmember "log_id" (.str honest.root.logId) (by simp)
  have hkey := hmember "operator_public_key" (.str honest.root.operatorPublicKey) (by simp)
  have hhash := hmember "root_hash" (.str honest.root.rootHash) (by simp)
  have htime := hmember "timestamp" (.int honest.root.timestamp) (by simp)
  have htree := hmember "tree_algorithm" (.str honest.root.treeAlgorithm) (by simp)
  have hsegments : (Json.arr (m.segments.map SegmentRecord.toJson)).validate jsonLimits "protocol object" (0 + 1)
      = .ok () := (validate_records hrecords (by decide)).2 hlength
  have htext : ∀ {text : String}, IsShort text →
      (Json.str text).validate jsonLimits "protocol object" (0 + 1) = .ok () :=
    fun h => validate_small (show IsSmall (.str _) from h) (by decide)
  refine Json.validate_obj.2 ⟨by decide, ?_, ?_⟩
  · have hmax : 17 ≤ jsonLimits.maxObjectKeys := by decide
    simp only [Manifest.members, Manifest.lastMembers, List.length_append, List.length_cons, List.length_nil]
    omega
  · simp only [Manifest.members, Manifest.lastMembers, hroot, List.forall_mem_append, List.forall_mem_cons]
    refine ⟨⟨⟨⟨by decide, htext hid⟩, ⟨by decide, hsize⟩, ⟨by decide, hhashAlgorithm⟩, ⟨by decide, hlogId⟩,
      ⟨by decide, validate_number (by decide) hnow⟩, ⟨by decide, hkey⟩, ⟨by decide, htext (by decide)⟩,
      ⟨by decide, hsegments⟩, by simp⟩, ?_⟩, ⟨by decide, htext (by decide)⟩, ⟨by decide, hrootJson⟩,
      ⟨by decide, hhash⟩, ⟨by decide, htime⟩, ⟨by decide, hsize⟩, ⟨by decide, htree⟩,
      ⟨by decide, htext (by decide)⟩, ⟨by decide, validate_number (by decide) (by decide)⟩, by simp⟩
    exact fun member hmem => ⟨utf8ByteSize_of_isShort (hsignature.2 member hmem).1,
      validate_small (hsignature.2 member hmem).2 (by decide)⟩

/-- Tiles that a JSON list holds are enough for a manifest. -/
theorem exists_writeManifest (h : Reads honest.reader honest.log files segments)
    (hlog : honest.log.length ≤ 10 ^ 12) (hnow : now.natAbs ≤ jsonLimits.maxIntegerAbs) {tiles : List Segment}
    (htiles : Tiling.tilesFrom Segment.first Segment.last honest.treeSize segments honest.treeSize 0 = some tiles)
    (hlength : tiles.length ≤ jsonLimits.maxListItems) :
    ∃ m, honest.exporter.writeManifest files honest.root now = .ok m := by
  have hverify := honest.verify_root honest.expects
  have hrecords : segmentManifestEntries crypto honest.reader files honest.root.treeSize
      = .ok (tiles.map (Segment.record crypto)) := by
    refine (h.segmentManifestEntries_eq_ok crypto).2 ⟨tiles, ?_, rfl⟩
    rw [honest.treeSize_root]
    exact htiles
  have hsum := sum_entryCount h hlog htiles
  have hbounded : ∀ record ∈ tiles.map (Segment.record crypto), record.Bounded := by
    intro record hrecord
    obtain ⟨s, hs, rfl⟩ := List.mem_map.1 hrecord
    exact (h.bounded hlog (Tiling.mem_of_tilesFrom htiles s hs).1).1
  have hlength' : (tiles.map (Segment.record crypto)).length ≤ jsonLimits.maxListItems := by
    rwa [List.length_map]
  -- the id
  have hsmall : ∀ {key value}, (key, value) ∈ [("hash_algorithm", Json.str honest.root.hashAlgorithm),
      ("log_id", .str honest.root.logId), ("operator_public_key", .str honest.root.operatorPublicKey),
      ("root_hash", .str honest.root.rootHash), ("signature", .str honest.root.signature),
      ("signature_algorithm", .str honest.root.signatureAlgorithm), ("timestamp", .int honest.root.timestamp),
      ("tree_algorithm", .str honest.root.treeAlgorithm), ("tree_size", .int honest.root.treeSize),
      ("type", .str honest.root.type), ("version", .int honest.root.version)] → IsSmall value :=
    fun h => (honest.isSmall_root _ (SignedRoot.mem_memberList.2 (.inl h))).2
  have hid : ∃ id, archiveIdFor crypto (.str honest.root.logId) honest.root.treeSize (.str honest.root.rootHash)
      (.arr ((tiles.map (Segment.record crypto)).map SegmentRecord.toJson)) (.str segmentHashAlgorithm)
        = .ok id ∧ IsShort id := by
    refine ⟨_, Check.bind_eq_ok.2 ⟨_, canonicalBytes_eq_ok.2 ⟨?_, rfl⟩, rfl⟩, (crypto.isHex32_sha3Hex _).isShort⟩
    have hlogId : IsSmall (.str honest.root.logId) := @hsmall "log_id" _ (by simp)
    have hhash : IsSmall (.str honest.root.rootHash) := @hsmall "root_hash" _ (by simp)
    have hsize : IsSmall (.int honest.root.treeSize) := @hsmall "tree_size" _ (by simp)
    refine Json.validate_obj.2 ⟨by decide, show 5 ≤ 1024 by decide, ?_⟩
    simp only [List.forall_mem_cons]
    exact ⟨⟨by decide, validate_small hlogId (by decide)⟩, ⟨by decide, validate_text (by decide) (by decide)⟩,
      ⟨by decide, (validate_records hbounded (by decide)).2 hlength'⟩, ⟨by decide, validate_small hhash (by decide)⟩,
      ⟨by decide, validate_small hsize (by decide)⟩, by simp⟩
  obtain ⟨id, hid, hshort⟩ := hid
  -- the signature
  have hvalid : ∀ (m : Manifest) (signature : List (String × Json)), m.signedRoot = honest.root →
      m.manifestTimestamp = now → m.archiveId = id → m.segments = tiles.map (Segment.record crypto) →
      (signature.length ≤ 1 ∧ ∀ member ∈ signature, IsShort member.1 ∧ IsSmall member.2) →
      (Json.obj (m.members ++ signature ++ m.lastMembers)).validate jsonLimits "protocol object" 0 = .ok () := by
    intro m signature hroot htime hid hsegments hsignature
    exact validate_manifest hroot (htime ▸ hnow) (hid ▸ hshort) (hsegments ▸ hbounded) (hsegments ▸ hlength') hsignature
  let unsigned : Manifest := ⟨id, honest.root, tiles.map (Segment.record crypto), now, ""⟩
  have hpayload : ∃ payload, signaturePayload archiveManifestSignatureDomain unsigned.unsigned = .ok payload := by
    have hmembers := hvalid unsigned [] rfl rfl rfl rfl ⟨Nat.zero_le 1, by simp⟩
    rw [List.append_nil] at hmembers
    exact ⟨_, Check.bind_eq_ok.2 ⟨_, canonicalBytes_eq_ok.2 ⟨hmembers, rfl⟩, rfl⟩⟩
  obtain ⟨payload, hpayload⟩ := hpayload
  have hprivate : honest.keys.privateKey ≠ "" := by
    intro hempty
    have hlength := congrArg String.length hempty
    have hprefix : 0 < honest.keys.privateKey.length := by
      rw [KeyPair.privateKey, encodePrivateKey, String.length_ofList, List.length_append]
      exact Nat.add_pos_left (by decide) _
    rw [hempty] at hprefix
    exact absurd hprefix (by decide)
  let m : Manifest := { unsigned with
    signature := String.ofList (Base85.b85encode (crypto.sign honest.keys.seed payload)) }
  have hsign : honest.exporter.signManifest unsigned = .ok m := by
    refine Check.check_bind_eq_ok.2 ⟨Check.require_of hprivate _,
      Check.bind_eq_ok.2 ⟨payload, unsigned.manifestSignaturePayload_unsigned.trans hpayload, ?_⟩⟩
    exact Check.bind_eq_ok.2 ⟨_, signOperatorPayload_eq honest.keys payload, rfl⟩
  have hself : verifyManifestSignature crypto honest.acceptLegacy m.toJson honest.operatorPublicKey
      = .ok honest.root := verifyManifestSignature_toJson rfl hid hpayload rfl
  have hwritten : m.toJson.validate jsonLimits "protocol object" 0 = .ok () := by
    refine hvalid m [("signature", .str m.signature)] rfl rfl rfl rfl ⟨le_rfl, ?_⟩
    rw [List.forall_mem_singleton]
    exact ⟨show IsShort "signature" by decide, isShort_signature honest.keys payload⟩
  refine ⟨m, Check.check_bind_eq_ok.2 ⟨hverify, Check.bind_eq_ok.2 ⟨_, hrecords, ?_⟩⟩⟩
  refine Check.check_bind_eq_ok.2 ⟨Check.require_of hsum _, Check.bind_eq_ok.2 ⟨id, hid, ?_⟩⟩
  refine Check.bind_eq_ok.2 ⟨m, hsign, Check.bind_eq_ok.2 ⟨_, hself, ?_⟩⟩
  exact Check.check_bind_eq_ok.2 ⟨hwritten, rfl⟩

end HonestExport
