import InternationalDollar.Lib.JsonRoundTrip
import InternationalDollar.WireJson
import InternationalDollar.Keys

set_option autoImplicit false

/-! # Packing messages (`protocol`, `pack_wire_message`)

Messages travel and records are stored as compressed canonical JSON in base 85. The decompressor is
called twice, with a limit each time, so `zlib` is a parameter with both calls; `inflate_spec` shows that
the reader of the other modules, which knows one function from streams to all that they expand to, is
this one. -/

/-- A decompression object after its first call. -/
structure Decompressed where
  result : Bytes
  unconsumedTail : Bytes
  /-- `flush(length)`; `none` where it raises. -/
  flush : Nat → Option Bytes

/-- `zlib`. Input is left over only where the output has grown as long as it may. -/
structure Zlib where
  compress : Bytes → Bytes
  /-- `decompressobj().decompress(data, max_length)`; `none` where it raises. -/
  decompress : Bytes → Nat → Option Decompressed
  unconsumedTail_eq_nil : ∀ data limit d, decompress data limit = some d → d.result.length < limit →
    d.unconsumedTail = []

namespace Zlib

/-- A stream expands to what was compressed, if the limit leaves room for one more byte. -/
def RoundTrips (z : Zlib) : Prop :=
  ∀ raw limit, raw.length < limit → ∃ d, z.decompress (z.compress raw) limit = some d ∧
    d.result = raw ∧ d.unconsumedTail = [] ∧ ∀ n, 0 < n → d.flush n = some []

variable (z : Zlib)

open WireJson

/-- `_safe_zlib_decompress`. -/
def safeZlibDecompress (data : Bytes) : Except String Bytes := do
  let d ← Check.ofOption (z.decompress data (maxWireDecompressedBytes + 1))
    "invalid compressed wire payload"
  Check.require (d.unconsumedTail = [] ∧ d.result.length ≤ maxWireDecompressedBytes)
    "wire message expands beyond safety limit"
  let rest ← Check.ofOption (d.flush (maxWireDecompressedBytes + 1 - d.result.length))
    "invalid compressed wire payload"
  Check.require ((d.result ++ rest).length ≤ maxWireDecompressedBytes)
    "wire message expands beyond safety limit"
  pure (d.result ++ rest)

/-- The packed form after its prefix, up to the JSON text. -/
def unpackedText (packed : List Char) : Except String (List Char) := do
  Check.require (packed.length ≤ maxB85EncodedSize maxWireCompressedBytes)
    "compressed wire message is too large"
  let compressed ← Check.ofOption (Base85.b85decode packed) "invalid packed wire payload"
  Check.require (compressed.length ≤ maxWireCompressedBytes) "compressed wire message is too large"
  let decompressed ← z.safeZlibDecompress compressed
  let text ← Check.ofOption (Text.utf8Decode decompressed) "invalid compressed wire payload encoding"
  pure text.toList

/-- The JSON text of a text on the wire. -/
def wireText (raw : String) : Except String (List Char) := do
  let text := Text.trim Text.isSpace raw.toList
  Check.require ((String.ofList text).utf8ByteSize ≤ maxWireDecompressedBytes)
    "wire message is too large"
  match Text.dropPrefix? wirePackedPrefix text with
  | some packed => z.unpackedText packed
  | none => pure text

/-- `_unpacked_json` of a text; both of its ways end in the strict reader. -/
def unpackedJson (raw : String) : Except String Json := do
  let text ← z.wireText raw
  jsonLoadsStrict text

/-- `_packed_json`. -/
def packedJson (data : Json) : Except String String := do
  let raw ← canonicalBytes data
  Check.require (raw.length ≤ maxWireDecompressedBytes) "wire message is too large"
  let compressed := z.compress raw
  Check.require (compressed.length ≤ maxWireCompressedBytes) "compressed wire message is too large"
  pure (String.ofList (wirePackedPrefix ++ Base85.b85encode compressed))

end Zlib

/-- What the two functions are called with. A text is at the same time a JSON value. -/
inductive WireMessage where
  | bytes (raw : Bytes)
  | value (data : Json)

namespace WireMessage

open WireJson

/-- `type(value).__name__`. -/
def typeName : Json → String
  | .null => "NoneType"
  | .bool _ => "bool"
  | .int _ => "int"
  | .str _ => "str"
  | .arr _ => "list"
  | .obj _ => "dict"

/-- `pack_wire_message` of a text. -/
def packText (z : Zlib) (message : String) : Except String String :=
  if (Text.dropPrefix? wirePackedPrefix (Text.strip message).toList).isSome then
    .ok (Text.strip message)
  else do
    let data ← jsonLoadsStrict message.toList
    z.packedJson data

/-- `pack_wire_message`. -/
def packWireMessage (z : Zlib) : WireMessage → Except String String
  | .bytes raw => do
      let message ← Check.ofOption (Text.utf8Decode raw) "invalid start byte"
      packText z message
  | .value (.str message) => packText z message
  | .value data => z.packedJson data

/-- `unpack_wire_message`. -/
def unpackWireMessage (z : Zlib) : WireMessage → Except String Json
  | .value (.obj members) => .ok (.obj members)
  | .bytes raw => do
      let text ← Check.ofOption (Text.utf8Decode raw) "invalid wire payload encoding"
      z.unpackedJson text
  | .value (.str raw) => z.unpackedJson raw
  | .value data => .error ("'" ++ typeName data ++ "' object has no attribute 'strip'")

end WireMessage

/-! ## ASCII texts as bytes -/

theorem utf8EncodeChar_of_lt {c : Char} (h : c.toNat < 128) :
    String.utf8EncodeChar c = [UInt8.ofNat c.toNat] := by
  have hsize : c.utf8Size = 1 := Char.utf8Size_eq_one_iff.2 (UInt32.le_iff_toNat_le.2 (by
    change c.toNat ≤ 127
    omega))
  rw [String.utf8EncodeChar_eq_singleton hsize]
  rfl

theorem utf8_of_isAscii {cs : List Char} (h : Json.IsAscii cs) :
    Text.utf8 (String.ofList cs) = Json.asciiBytes cs := by
  have hencode : cs.flatMap String.utf8EncodeChar = Json.asciiBytes cs := by
    induction cs with
    | nil => rfl
    | cons c cs ih =>
      rw [List.flatMap_cons, utf8EncodeChar_of_lt (h c List.mem_cons_self),
        ih fun d hd => h d (List.mem_cons_of_mem c hd)]
      rfl
  rw [← hencode]
  exact congrArg Array.toList List.data_toByteArray

namespace Zlib

open WireJson

variable {z : Zlib}

/-! ## Decompression in two calls -/

/-- All that a stream expands to, or as much of it as shows that it is too long. -/
def inflate (z : Zlib) (data : Bytes) : Option Bytes :=
  (z.decompress data (maxWireDecompressedBytes + 1)).bind fun d =>
    if d.result.length ≤ maxWireDecompressedBytes then
      (d.flush (maxWireDecompressedBytes + 1 - d.result.length)).map (d.result ++ ·)
    else some d.result

theorem inflate_spec (data : Bytes) :
    z.safeZlibDecompress data = WireJson.safeZlibDecompress z.inflate data := by
  unfold safeZlibDecompress WireJson.safeZlibDecompress inflate
  cases hd : z.decompress data (maxWireDecompressedBytes + 1) with
  | none => rfl
  | some d =>
    have htail := z.unconsumedTail_eq_nil _ _ _ hd
    simp only [Check.ofOption, Check.ok_bind, Option.bind_some]
    by_cases hlen : d.result.length ≤ maxWireDecompressedBytes
    · rw [if_pos hlen, Check.require_of ⟨htail (by omega), hlen⟩, Check.ok_bind]
      cases d.flush (maxWireDecompressedBytes + 1 - d.result.length) <;> rfl
    · -- the first call says it
      have hfirst : ¬ (d.unconsumedTail = [] ∧ d.result.length ≤ maxWireDecompressedBytes) :=
        fun h => hlen h.2
      rw [if_neg hlen, Check.ok_bind, Check.require, Check.require, if_neg hfirst, if_neg hlen]
      rfl

/-- The reader of the other modules is the one that decompresses in two calls. -/
theorem unpackedJson_eq (raw : String) : z.unpackedJson raw = WireJson.unpackedJson z.inflate raw := by
  unfold unpackedJson wireText WireJson.unpackedJson
  simp only [bind_assoc]
  congr 1
  funext _
  cases Text.dropPrefix? wirePackedPrefix (Text.trim Text.isSpace raw.toList) with
  | none => rfl
  | some packed =>
    simp only [unpackedText, WireJson.unpack, bind_assoc, pure_bind, inflate_spec]

theorem safeZlibDecompress_compress (hz : z.RoundTrips) {raw : Bytes}
    (h : raw.length ≤ maxWireDecompressedBytes) : z.safeZlibDecompress (z.compress raw) = .ok raw := by
  obtain ⟨d, hd, hresult, htail, hflush⟩ := hz raw (maxWireDecompressedBytes + 1) (by omega)
  have hrest := hflush (maxWireDecompressedBytes + 1 - raw.length) (by omega)
  rw [safeZlibDecompress, hd]
  simp [hrest, hresult, htail, h]

/-! ## The packed form -/

theorem isAscii_packed (compressed : Bytes) :
    Json.IsAscii (wirePackedPrefix ++ Base85.b85encode compressed) := by
  have hpart : Json.IsAscii wirePackedPrefix := by decide
  have halphabet : Json.IsAscii Base85.alphabet := by decide
  exact Json.isAscii_append hpart fun c hc => halphabet c (Base85.b85encode_mem _ c hc)

theorem isSpace_of_mem_packed (compressed : Bytes) :
    ∀ c ∈ wirePackedPrefix ++ Base85.b85encode compressed, Text.isSpace c = false := by
  have hpart : wirePackedPrefix.any Text.isSpace = false := by decide
  intro c hc
  rcases List.mem_append.1 hc with hc | hc
  · simpa using List.any_eq_false.1 hpart c hc
  · exact isSpace_of_mem_base85 c (Base85.b85encode_mem _ c hc)

theorem length_b85encode_le {compressed : Bytes} (h : compressed.length ≤ maxWireCompressedBytes) :
    (Base85.b85encode compressed).length ≤ maxB85EncodedSize maxWireCompressedBytes := by
  have hmax : maxB85EncodedSize maxWireCompressedBytes = 524288 * 5 := rfl
  have hchars := Base85.length_encodeGroups compressed
  rw [maxWireCompressedBytes] at h
  rw [Base85.b85encode, List.length_take, hmax]
  omega

/-- A packed text is short enough, and it is read as what was compressed. -/
theorem wireText_packed {compressed : Bytes} (h : compressed.length ≤ maxWireCompressedBytes) :
    z.wireText (String.ofList (wirePackedPrefix ++ Base85.b85encode compressed)) = (do
      let decompressed ← z.safeZlibDecompress compressed
      let text ← Check.ofOption (Text.utf8Decode decompressed)
        "invalid compressed wire payload encoding"
      pure text.toList) := by
  have hascii := isAscii_packed compressed
  have htrim := Text.trim_eq_self _ _ (isSpace_of_mem_packed compressed)
  have hlen := length_b85encode_le h
  have hsize : (String.ofList (wirePackedPrefix ++ Base85.b85encode compressed)).utf8ByteSize
      ≤ maxWireDecompressedBytes := by
    have hbytes := congrArg List.length (utf8_of_isAscii hascii)
    have hpart : wirePackedPrefix.length = 6 := rfl
    have hmax : maxB85EncodedSize maxWireCompressedBytes = 524288 * 5 := rfl
    rw [Json.asciiBytes, List.length_map, List.length_append, hpart] at hbytes
    have hutf8 : (Text.utf8 (String.ofList (wirePackedPrefix ++ Base85.b85encode compressed))).length
      = (String.ofList (wirePackedPrefix ++ Base85.b85encode compressed)).utf8ByteSize := rfl
    rw [maxWireDecompressedBytes]
    omega
  rw [wireText, String.toList_ofList, htrim, Check.require_of hsize]
  simp only [Check.ok_bind, dropPrefix?_append, unpackedText, Check.require_of hlen,
    Base85.b85decode_b85encode, Check.ofOption, Check.require_of h]

theorem packedJson_eq_ok {data : Json} {packed : String} : z.packedJson data = .ok packed ↔
    data.validate jsonLimits "protocol object" 0 = .ok () ∧
      data.bytes.length ≤ maxWireDecompressedBytes ∧
      (z.compress data.bytes).length ≤ maxWireCompressedBytes ∧
      String.ofList (wirePackedPrefix ++ Base85.b85encode (z.compress data.bytes)) = packed := by
  simp [packedJson, canonicalBytes]

/-- What was packed is unpacked to the value that was packed. -/
theorem unpackedJson_packedJson (hz : z.RoundTrips) {data : Json} (hdata : data.Sorted)
    {packed : String} (h : z.packedJson data = .ok packed) : z.unpackedJson packed = .ok data := by
  obtain ⟨-, hlen, hcompressed, rfl⟩ := packedJson_eq_ok.1 h
  have htext : Text.utf8Decode data.bytes = some (String.ofList data.render) := by
    rw [Json.bytes, ← utf8_of_isAscii (Json.isAscii_render data), Text.utf8Decode_utf8]
  rw [unpackedJson, wireText_packed hcompressed, safeZlibDecompress_compress hz hlen]
  simp [htext, jsonLoadsStrict, Json.parse_render hdata]

theorem packText_packedJson {data : Json} {packed : String} (h : z.packedJson data = .ok packed) :
    WireMessage.packText z packed = .ok packed := by
  obtain ⟨-, -, -, rfl⟩ := packedJson_eq_ok.1 h
  have hstrip : Text.strip (String.ofList (wirePackedPrefix ++ Base85.b85encode (z.compress data.bytes)))
      = String.ofList (wirePackedPrefix ++ Base85.b85encode (z.compress data.bytes)) := by
    rw [Text.strip, String.toList_ofList, Text.trim_eq_self _ _ (isSpace_of_mem_packed _)]
  rw [WireMessage.packText, hstrip, String.toList_ofList, dropPrefix?_append]
  rfl

/-! ## What is accepted -/

theorem utf8ByteSize_of_utf8Decode {raw : Bytes} {text : String}
    (h : Text.utf8Decode raw = some text) : text.utf8ByteSize = raw.length := by
  unfold Text.utf8Decode String.fromUTF8? at h
  split at h
  · cases h
    rfl
  · cases h

/-- No text that is read is longer than the limit, packed or not. -/
theorem utf8ByteSize_wireText {raw : String} {text : List Char} (h : z.wireText raw = .ok text) :
    (String.ofList text).utf8ByteSize ≤ maxWireDecompressedBytes := by
  simp only [wireText, Check.check_bind_eq_ok, Check.require_eq_ok] at h
  obtain ⟨hsize, h⟩ := h
  split at h
  · next packed hpacked =>
    simp only [unpackedText, safeZlibDecompress, Check.require_eq_ok, Check.bind_eq_ok,
      Check.ofOption_eq_ok] at h
    obtain ⟨_, -, compressed, -, _, -, decompressed, ⟨d, -, _, -, rest, -, _, hlen, hdecompressed⟩,
      decoded, hdecoded, htext⟩ := h
    cases hdecompressed
    cases htext
    rw [String.ofList_toList, utf8ByteSize_of_utf8Decode hdecoded]
    exact hlen
  · cases h
    exact hsize

theorem unpackedJson_eq_ok {raw : String} {data : Json} : z.unpackedJson raw = .ok data ↔
    ∃ text, z.wireText raw = .ok text ∧ Json.parse text = some data := by
  simp [unpackedJson, jsonLoadsStrict]

end Zlib

namespace WireMessage

open WireJson

variable {z : Zlib}

theorem packWireMessage_of_ne {data : Json} (h : ∀ text, data ≠ .str text) :
    packWireMessage z (.value data) = z.packedJson data := by
  cases data with
  | str text => exact absurd rfl (h text)
  | null | bool b | int n | arr items | obj members => rfl

/-- A text is packed already, or it is packed as the value that it writes. -/
theorem packText_eq_ok {message packed : String} (h : packText z message = .ok packed) :
    ((Text.dropPrefix? wirePackedPrefix (Text.strip message).toList).isSome ∧
        packed = Text.strip message) ∨
      ∃ data, Json.parse message.toList = some data ∧ z.packedJson data = .ok packed := by
  unfold packText at h
  split at h
  · next hpart => exact Or.inl ⟨hpart, (Except.ok.inj h).symm⟩
  · obtain ⟨data, hdata, h⟩ := Check.bind_eq_ok.1 h
    exact Or.inr ⟨data, Check.ofOption_eq_ok.1 hdata, h⟩

/-- **Packing and unpacking.** Every value but a text is unpacked as it was packed, and packing the packed
    form changes nothing. A text stands for the JSON it writes, unless it is a packed form already. What
    is unpacked was written in a text within the limit and repeats no key (floating-point numbers and the
    numeric constants are no values of `Json`: the reader refuses them), and as long as its own canonical
    text and what this is compressed to are within the limits, it can be packed and unpacked again. -/
theorem packing_roundTrip (z : Zlib) (hz : z.RoundTrips) :
    (∀ (data : Json) packed, data.Sorted → (∀ text, data ≠ .str text) →
      packWireMessage z (.value data) = .ok packed →
        unpackWireMessage z (.value (.str packed)) = .ok data ∧
          packWireMessage z (.value (.str packed)) = .ok packed) ∧
    (∀ message packed, packWireMessage z (.value (.str message)) = .ok packed →
      ((Text.dropPrefix? wirePackedPrefix (Text.strip message).toList).isSome ∧
          packed = Text.strip message) ∨
        ∃ data, Json.parse message.toList = some data ∧
          unpackWireMessage z (.value (.str packed)) = .ok data ∧
          packWireMessage z (.value (.str packed)) = .ok packed) ∧
    (∀ raw data, unpackWireMessage z (.value (.str raw)) = .ok data →
      (∃ text, z.wireText raw = .ok text ∧ Json.parse text = some data ∧
        (String.ofList text).utf8ByteSize ≤ maxWireDecompressedBytes) ∧ data.Sorted ∧
      ∀ canonical, (∀ text, data ≠ .str text) → canonicalBytes data = .ok canonical →
        canonical.length ≤ maxWireDecompressedBytes →
        (z.compress canonical).length ≤ maxWireCompressedBytes →
          ∃ packed, packWireMessage z (.value data) = .ok packed ∧
            unpackWireMessage z (.value (.str packed)) = .ok data) := by
  refine ⟨?_, ?_, ?_⟩
  · intro data packed hsorted hne hpack
    rw [packWireMessage_of_ne hne] at hpack
    exact ⟨Zlib.unpackedJson_packedJson hz hsorted hpack, Zlib.packText_packedJson hpack⟩
  · intro message packed hpack
    rcases packText_eq_ok hpack with h | ⟨data, hdata, hpack⟩
    · exact Or.inl h
    · exact Or.inr ⟨data, hdata, Zlib.unpackedJson_packedJson hz (Json.sorted_of_parse hdata) hpack,
        Zlib.packText_packedJson hpack⟩
  · intro raw data hunpack
    obtain ⟨text, htext, hparse⟩ := Zlib.unpackedJson_eq_ok.1 hunpack
    have hsorted := Json.sorted_of_parse hparse
    refine ⟨⟨text, htext, hparse, Zlib.utf8ByteSize_wireText htext⟩, hsorted, ?_⟩
    intro canonical hne hcanonical hlen hcompressed
    obtain ⟨hvalid, rfl⟩ := canonicalBytes_eq_ok.1 hcanonical
    have hpack : z.packedJson data = .ok _ := Zlib.packedJson_eq_ok.2 ⟨hvalid, hlen, hcompressed, rfl⟩
    exact ⟨_, (packWireMessage_of_ne hne).trans hpack, Zlib.unpackedJson_packedJson hz hsorted hpack⟩

/-! ## One stream -/

/-- `{"a":5}`. -/
def sampleData : Json := .obj [("a", .int 5)]

/-- What `zlib.compress` makes of the canonical text of the sample. -/
def sampleStream : Bytes :=
  [0x78, 0xda, 0xab, 0x56, 0x4a, 0x54, 0xb2, 0x32, 0xad, 0x05, 0x00, 0x08, 0x32, 0x02, 0x0d]

/-- A decompression object with the whole output. -/
def sampleDecompressed (raw : Bytes) (limit : Nat) : Decompressed where
  result := raw.take limit
  unconsumedTail := raw.drop limit
  flush := fun _ => some (raw.drop limit)

/-- The sample for its stream, and what stands behind a mark. -/
def sampleDecompress (data : Bytes) (limit : Nat) : Option Decompressed :=
  if data = sampleStream then some (sampleDecompressed sampleData.bytes limit)
  else
    match data with
    | [] => none
    | mark :: raw => if mark = 0 then some (sampleDecompressed raw limit) else none

theorem unconsumedTail_sampleDecompress (data : Bytes) (limit : Nat) (d : Decompressed)
    (hd : sampleDecompress data limit = some d) (hlen : d.result.length < limit) : d.unconsumedTail = [] := by
  have hshort : ∀ raw : Bytes, (raw.take limit).length < limit → raw.drop limit = [] := by
    intro raw h
    rw [List.length_take] at h
    exact List.drop_eq_nil_of_le (by omega)
  unfold sampleDecompress at hd
  split at hd
  · cases hd
    exact hshort _ hlen
  · split at hd
    · cases hd
    · split at hd
      · cases hd
        exact hshort _ hlen
      · cases hd

/-- The true stream for the sample, and every other text behind a mark. -/
def sampleZlib : Zlib where
  compress := fun raw => if raw = sampleData.bytes then sampleStream else 0 :: raw
  decompress := sampleDecompress
  unconsumedTail_eq_nil := unconsumedTail_sampleDecompress

theorem roundTrips_sampleZlib : sampleZlib.RoundTrips := by
  intro raw limit hlen
  have hdecompress : sampleZlib.decompress (sampleZlib.compress raw) limit
      = some (sampleDecompressed raw limit) := by
    by_cases hraw : raw = sampleData.bytes
    · simp only [sampleZlib, sampleDecompress, if_pos hraw, if_true]
      rw [hraw]
    · have hmark : (0 :: raw : Bytes) ≠ sampleStream := fun h => absurd (List.cons.inj h).1 (by decide)
      simp only [sampleZlib, sampleDecompress, if_neg hraw, if_neg hmark, if_true]
  have hrest : raw.drop limit = [] := List.drop_eq_nil_of_le (by omega)
  refine ⟨_, hdecompress, List.take_of_length_le (by omega), hrest, ?_⟩
  intro n _
  exact congrArg some hrest

theorem exists_packedSample : ∃ packed, sampleZlib.packedJson sampleData = .ok packed := by
  have hvalid : sampleData.validate jsonLimits "protocol object" 0 = .ok () := by
    simp only [sampleData, Json.validate_obj, List.forall_mem_singleton, Json.validate_int]
    decide
  refine ⟨_, Zlib.packedJson_eq_ok.2 ⟨hvalid, by decide, ?_, rfl⟩⟩
  simp only [sampleZlib, if_true]
  decide

theorem sorted_sampleData : sampleData.Sorted :=
  ⟨List.pairwise_singleton _ _, trivial, trivial⟩

theorem packing_roundTrip_sampleData : ∃ packed,
    packWireMessage sampleZlib (.value sampleData) = .ok packed ∧
      unpackWireMessage sampleZlib (.value (.str packed)) = .ok sampleData := by
  obtain ⟨packed, hpacked⟩ := exists_packedSample
  obtain ⟨hunpack, -⟩ := (packing_roundTrip sampleZlib roundTrips_sampleZlib).1 sampleData packed
    sorted_sampleData (fun _ h => nomatch h) hpacked
  exact ⟨packed, hpacked, hunpack⟩

/-- **A text is not unpacked as it was packed.** The text of an object is packed as the object. -/
theorem not_packing_roundTrip : ∃ z : Zlib, z.RoundTrips ∧ ∃ (data : Json) (packed : String),
    data.Sorted ∧ packWireMessage z (.value data) = .ok packed ∧
      unpackWireMessage z (.value (.str packed)) ≠ .ok data := by
  obtain ⟨packed, hpacked⟩ := exists_packedSample
  have hunpack := Zlib.unpackedJson_packedJson roundTrips_sampleZlib sorted_sampleData hpacked
  have hpack : packText sampleZlib (String.ofList sampleData.render) = .ok packed := by
    have hstrip : Text.dropPrefix? wirePackedPrefix
        (Text.strip (String.ofList sampleData.render)).toList = none := by
      rw [Text.strip, String.toList_ofList, String.toList_ofList]
      rfl
    rw [packText, hstrip, if_neg (by decide), String.toList_ofList, jsonLoadsStrict,
      Json.parse_render sorted_sampleData]
    exact hpacked
  refine ⟨sampleZlib, roundTrips_sampleZlib, .str (String.ofList sampleData.render), packed, trivial,
    hpack, ?_⟩
  intro h
  cases hunpack.symm.trans h

end WireMessage
