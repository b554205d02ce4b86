import InternationalDollar.Lib.JsonReader
import InternationalDollar.Lib.Base85
import InternationalDollar.Protocol

set_option autoImplicit false

/-! # JSON on the wire (`protocol`, `_load_json`)

The reader that messages and stored records share. It takes plain JSON with blanks around it, or the
packed form: a prefix and the compressed text in base 85. Decompression is a parameter: `inflate` maps
a zlib stream to all that it expands to. -/

namespace Text

/-- `raw.decode("utf-8")`. -/
def utf8Decode (raw : Bytes) : Option String :=
  String.fromUTF8? ⟨raw.toArray⟩

theorem utf8Decode_utf8 (s : String) : utf8Decode (utf8 s) = some s := by
  have hraw : (⟨(utf8 s).toArray⟩ : ByteArray) = s.toUTF8 := by
    simp [utf8]
  rw [utf8Decode, hraw]
  exact dif_pos s.isValidUTF8

end Text

namespace WireJson

/-- `WIRE_PACKED_PREFIX`. -/
def wirePackedPrefix : List Char := "indz1:".toList

/-- `MAX_WIRE_COMPRESSED_BYTES`. -/
def maxWireCompressedBytes : Nat := 2 * 1024 * 1024

/-- `MAX_WIRE_DECOMPRESSED_BYTES`. -/
def maxWireDecompressedBytes : Nat := 8 * 1024 * 1024

/-- `_max_b85_encoded_size`. -/
def maxB85EncodedSize (decodedSize : Nat) : Nat :=
  if decodedSize % 4 = 0 then decodedSize / 4 * 5 else decodedSize / 4 * 5 + decodedSize % 4 + 1

/-- `_json_loads_strict`. -/
def jsonLoadsStrict (text : List Char) : Except String Json :=
  Check.ofOption (Json.parse text) "invalid JSON payload"

/-- `_safe_zlib_decompress`. -/
def safeZlibDecompress (inflate : Bytes → Option Bytes) (data : Bytes) : Except String Bytes := do
  let result ← Check.ofOption (inflate data) "invalid compressed wire payload"
  Check.require (result.length ≤ maxWireDecompressedBytes)
    "wire message expands beyond safety limit"
  pure result

/-- The packed form after its prefix. -/
def unpack (inflate : Bytes → Option Bytes) (packed : List Char) : Except String Json := do
  Check.require (packed.length ≤ maxB85EncodedSize maxWireCompressedBytes)
    "compressed wire message is too large"
  let compressed ← Check.ofOption (Base85.b85decode packed) "invalid packed wire payload"
  Check.require (compressed.length ≤ maxWireCompressedBytes) "compressed wire message is too large"
  let decompressed ← safeZlibDecompress inflate compressed
  let text ← Check.ofOption (Text.utf8Decode decompressed) "invalid compressed wire payload encoding"
  jsonLoadsStrict text.toList

/-- `_unpacked_json`, which is `_load_json` of a text. -/
def unpackedJson (inflate : Bytes → Option Bytes) (raw : String) : Except String Json := do
  let text := Text.trim Text.isSpace raw.toList
  Check.require ((String.ofList text).utf8ByteSize ≤ maxWireDecompressedBytes)
    "wire message is too large"
  match Text.dropPrefix? wirePackedPrefix text with
  | some packed => unpack inflate packed
  | none => jsonLoadsStrict text

/-- `_decode_json_field`: every exception inside is raised again under the label. -/
def decodeJsonField (inflate : Bytes → Option Bytes) (raw : Bytes) (label : String) :
    Except String Json :=
  Check.orRaise (do
    let text ← Check.ofOption (Text.utf8Decode raw) "invalid start byte"
    unpackedJson inflate text) ("invalid " ++ label)

/-- A value that the reader returns from its canonical text: an object whose members stand by key,
    without a repeated key, on every level. -/
def ReadsBack (inflate : Bytes → Option Bytes) (value : Json) : Prop :=
  ∀ label, decodeJsonField inflate value.bytes label = .ok value

/-- A text that is the canonical one of the value it is read as. -/
def IsCanonicalText (inflate : Bytes → Option Bytes) (raw : Bytes) : Prop :=
  ∃ value, decodeJsonField inflate raw "metadata" = .ok value ∧ value.bytes = raw

theorem decodeJsonField_label {inflate : Bytes → Option Bytes} {raw : Bytes} {label label' : String}
    {value : Json} (h : decodeJsonField inflate raw label = .ok value) :
    decodeJsonField inflate raw label' = .ok value := by
  unfold decodeJsonField at h ⊢
  rw [Check.orRaise_eq_ok] at h ⊢
  exact h

/-- Blanks around a text do not change what it is read as. -/
theorem unpackedJson_trim {inflate : Bytes → Option Bytes} {s t : String}
    (h : Text.trim Text.isSpace s.toList = Text.trim Text.isSpace t.toList) :
    unpackedJson inflate s = unpackedJson inflate t := by
  unfold unpackedJson
  rw [h]

end WireJson
