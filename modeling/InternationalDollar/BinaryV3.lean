import InternationalDollar.Lib.Codec
import InternationalDollar.Protocol

set_option autoImplicit false

/-! # Binary primitives (`binary_v3`)

The fields of the canonical binary objects, their hash and the bytes an object signature covers. A
hash field is written as `bytes.fromhex` reads it: its text has 64 characters, but may hold blanks
between the digits and then writes fewer than 32 bytes. -/

namespace BinaryV3

/-- `SIGNATURE_ALGORITHM_ID`. -/
def signatureAlgorithmId : Int := 1

/-- `MAX_BOUNDED_BYTES`. -/
def maxBoundedBytes : Nat := 65536

/-- `MAX_SIGNING_PREIMAGE_OBJECT_BYTES`. -/
def maxSigningPreimageObjectBytes : Nat := 1048576

/-- `_require_uint`. -/
def requireUint (value : Int) (label : String) : Except String Unit := do
  Check.require (0 ≤ value) (labelled label "must be non-negative")
  Check.require (value ≤ maxProtocolTimestamp) (labelled label "exceeds maximum value")

/-- `encode_uvarint`. The largest number takes nine groups of seven bits. -/
def encodeUvarint (value : Int) : Except String Bytes := do
  requireUint value "uvarint"
  pure (Codec.leb128 9 value.toNat)

/-- `encode_bytes`. -/
def encodeBytes (data : Bytes) (maxLength : Nat) : Except String Bytes := do
  Check.require (data.length ≤ maxLength) "bounded bytes exceed maximum length"
  let length ← encodeUvarint data.length
  pure (length ++ data)

/-- `text.encode("ascii")`. -/
def asciiEncode (text : String) : Option Bytes :=
  if text.toList.all (fun c => c.toNat < 128) then some (Json.asciiBytes text.toList) else none

/-- `encode_ascii`. -/
def encodeAscii (text : String) (maxLength : Nat) : Except String Bytes := do
  let raw ← Check.ofOption (asciiEncode text) "ASCII field contains non-ASCII text"
  encodeBytes raw maxLength

/-- `encode_hash_hex`. -/
def encodeHashHex (hexText : String) : Except String Bytes := do
  Check.require (hexText.length = 64) "hash hex must be 64 characters"
  Check.ofOption (Text.fromhex hexText) "invalid hash hex"

/-- `encode_hash_hex_nullable`. -/
def encodeHashHexNullable (hexText : Option String) : Except String Bytes :=
  match hexText with
  | none => .ok [0]
  | some text => do
      let raw ← encodeHashHex text
      pure (1 :: raw)

/-- `object_hash`. -/
def objectHash (crypto : Crypto) (domain : String) (canonical : Bytes) : Except String Bytes := do
  let prefixed ← encodeAscii domain 128
  let body ← encodeBytes canonical maxBoundedBytes
  pure (crypto.sha3_256 (prefixed ++ body))

/-- `signing_preimage`. -/
def signingPreimage (networkId : Int) (objectType : String) (objectVersion signatureAlgorithm : Int)
    (domain : String) (object : Bytes) : Except String Bytes := do
  requireUint networkId "network id"
  requireUint objectVersion "object version"
  requireUint signatureAlgorithm "signature algorithm"
  let network ← encodeUvarint networkId
  let type ← encodeAscii objectType 64
  let version ← encodeUvarint objectVersion
  let algorithm ← encodeUvarint signatureAlgorithm
  let domain ← encodeAscii domain 128
  let body ← encodeBytes object maxSigningPreimageObjectBytes
  pure (Text.utf8 "IND-SIGNATURE-V3\x00" ++ network ++ type ++ version ++ algorithm ++ domain ++
    body)

/-- `_encode_envelope`. -/
def encodeEnvelope (magic : String) (networkId : Int) (body : Bytes) : Except String Bytes := do
  let version ← encodeUvarint 3
  let network ← encodeUvarint networkId
  pure (Text.utf8 magic ++ version ++ network ++ body)

/-! ## Reading fields back -/

@[simp] theorem requireUint_eq_ok {value : Int} {label : String} {u : Unit} :
    requireUint value label = .ok u ↔ 0 ≤ value ∧ value ≤ maxProtocolTimestamp := by
  simp [requireUint]

theorem encodeUvarint_eq_ok {value : Int} {raw : Bytes} :
    encodeUvarint value = .ok raw ↔
      (0 ≤ value ∧ value ≤ maxProtocolTimestamp) ∧ Codec.leb128 9 value.toNat = raw := by
  simp [encodeUvarint]

theorem encodeBytes_eq_ok {data raw : Bytes} {maxLength : Nat} :
    encodeBytes data maxLength = .ok raw ↔
      (data.length ≤ maxLength ∧ (data.length : Int) ≤ maxProtocolTimestamp) ∧
        Codec.sized 9 data = raw := by
  simp [encodeBytes, encodeUvarint, Codec.sized, and_assoc]

theorem networkId_le_of_encodeEnvelope {magic : String} {networkId : Int} {body raw : Bytes}
    (h : encodeEnvelope magic networkId body = .ok raw) : networkId ≤ maxProtocolTimestamp := by
  simp only [encodeEnvelope, Check.bind_eq_ok, encodeUvarint_eq_ok] at h
  obtain ⟨_, -, _, ⟨hnetwork, -⟩, -⟩ := h
  exact hnetwork.2

/-- A number field determines its value and what follows. -/
theorem encodeUvarint_append_inj {m n : Int} {a b s t : Bytes} (ha : encodeUvarint m = .ok a)
    (hb : encodeUvarint n = .ok b) (h : a ++ s = b ++ t) : m = n ∧ s = t := by
  rw [encodeUvarint_eq_ok] at ha hb
  obtain ⟨⟨hm0, hm1⟩, rfl⟩ := ha
  obtain ⟨⟨hn0, hn1⟩, rfl⟩ := hb
  have hbig : maxProtocolTimestamp.toNat < 128 ^ (9 + 1) := by decide
  obtain ⟨hmn, hst⟩ := Codec.leb128_append_inj 9 (m := m.toNat) (n := n.toNat)
    (lt_of_le_of_lt (Int.toNat_le_toNat hm1) hbig) (lt_of_le_of_lt (Int.toNat_le_toNat hn1) hbig) h
  exact ⟨by omega, hst⟩

/-- A length-prefixed field determines its bytes and what follows. -/
theorem encodeBytes_append_inj {c d a b s t : Bytes} {maxC maxD : Nat}
    (ha : encodeBytes c maxC = .ok a) (hb : encodeBytes d maxD = .ok b) (h : a ++ s = b ++ t) :
    c = d ∧ s = t := by
  rw [encodeBytes_eq_ok] at ha hb
  obtain ⟨⟨-, hc⟩, rfl⟩ := ha
  obtain ⟨⟨-, hd⟩, rfl⟩ := hb
  have hbig : maxProtocolTimestamp.toNat < 128 ^ (9 + 1) := by decide
  exact Codec.sized_append_inj 9 (by omega) (by omega) h

theorem asciiEncode_inj {s t : String} {raw : Bytes} (hs : asciiEncode s = some raw)
    (ht : asciiEncode t = some raw) : s = t := by
  unfold asciiEncode at hs ht
  split at hs
  · next hascii =>
    split at ht
    · next hascii' =>
      refine String.ext (Json.asciiBytes_inj ?_ ?_
        ((Option.some.inj hs).trans (Option.some.inj ht).symm))
      · simpa [Json.IsAscii] using hascii
      · simpa [Json.IsAscii] using hascii'
    · exact nomatch ht
  · exact nomatch hs

/-- A text field determines its text and what follows. -/
theorem encodeAscii_append_inj {c d : String} {a b s t : Bytes} {maxC maxD : Nat}
    (ha : encodeAscii c maxC = .ok a) (hb : encodeAscii d maxD = .ok b) (h : a ++ s = b ++ t) :
    c = d ∧ s = t := by
  obtain ⟨raw, hraw, ha⟩ := Check.bind_eq_ok.1 ha
  obtain ⟨raw', hraw', hb⟩ := Check.bind_eq_ok.1 hb
  rw [Check.ofOption_eq_ok] at hraw hraw'
  obtain ⟨rfl, hrest⟩ := encodeBytes_append_inj ha hb h
  exact ⟨asciiEncode_inj hraw hraw', hrest⟩

/-- An envelope determines the network id and the body. -/
theorem encodeEnvelope_inj {magic : String} {m n : Int} {c d raw : Bytes}
    (hc : encodeEnvelope magic m c = .ok raw) (hd : encodeEnvelope magic n d = .ok raw) :
    m = n ∧ c = d := by
  simp only [encodeEnvelope, Check.bind_eq_ok, Check.pure_eq_ok] at hc hd
  obtain ⟨version, hversion, network, hnetwork, rfl⟩ := hc
  obtain ⟨version', hversion', network', hnetwork', heq⟩ := hd
  obtain rfl := Except.ok.inj (hversion.symm.trans hversion')
  simp only [List.append_assoc] at heq
  obtain ⟨hmn, hbody⟩ := encodeUvarint_append_inj hnetwork' hnetwork
    (List.append_cancel_left (List.append_cancel_left heq))
  exact ⟨hmn.symm, hbody.symm⟩

/-- The bytes that an object hash is taken of determine the object. -/
theorem encodeBytes_inj {c d a : Bytes} {maxLength : Nat} (hc : encodeBytes c maxLength = .ok a)
    (hd : encodeBytes d maxLength = .ok a) : c = d := by
  obtain ⟨h, -⟩ := encodeBytes_append_inj hc hd (rfl : a ++ [] = a ++ [])
  exact h

/-! ## Fields that can be written

A field within its limits is written without failing, in a bounded number of bytes. -/

/-- A computation returns at most `n` bytes. -/
def Fits (x : Except String Bytes) (n : Nat) : Prop :=
  ∃ raw, x = .ok raw ∧ raw.length ≤ n

theorem length_leb128_le (fuel n : Nat) : (Codec.leb128 fuel n).length ≤ fuel + 1 := by
  induction fuel generalizing n with
  | zero => exact le_rfl
  | succ fuel ih =>
    rw [Codec.leb128]
    split
    · simp
    · rw [List.length_cons]
      exact Nat.succ_le_succ (ih _)

theorem fits_encodeUvarint (value : Int) (h0 : 0 ≤ value) (h1 : value ≤ maxProtocolTimestamp) :
    Fits (encodeUvarint value) 10 :=
  ⟨_, encodeUvarint_eq_ok.2 ⟨⟨h0, h1⟩, rfl⟩, length_leb128_le 9 _⟩

theorem fits_encodeBytes (data : Bytes) (maxLength : Nat) {n : Nat} (hlen : data.length ≤ n)
    (hn : n ≤ maxLength) (hmax : n ≤ maxBoundedBytes * maxBoundedBytes) :
    Fits (encodeBytes data maxLength) (10 + n) := by
  have hbig : maxBoundedBytes * maxBoundedBytes ≤ maxProtocolTimestamp.toNat := by decide
  have hpos : maxProtocolTimestamp = (maxProtocolTimestamp.toNat : Int) := by decide
  refine ⟨_, encodeBytes_eq_ok.2 ⟨⟨le_trans hlen hn, by omega⟩, rfl⟩, ?_⟩
  rw [Codec.sized, List.length_append]
  exact Nat.add_le_add (length_leb128_le 9 _) hlen

theorem asciiEncode_of_ascii {text : String} (h : Json.IsAscii text.toList) :
    asciiEncode text = some (Json.asciiBytes text.toList) := by
  rw [asciiEncode, if_pos (by simpa [Json.IsAscii] using h)]

theorem fits_encodeAscii (text : String) (maxLength n : Nat)
    (hascii : Json.IsAscii text.toList) (hlen : text.toList.length ≤ n)
    (hn : n ≤ maxLength) (hmax : n ≤ maxBoundedBytes * maxBoundedBytes) :
    Fits (encodeAscii text maxLength) (10 + n) := by
  obtain ⟨raw, hraw, hle⟩ := fits_encodeBytes (Json.asciiBytes text.toList) maxLength
    (by rw [Json.asciiBytes, List.length_map]; exact hlen) hn hmax
  exact ⟨raw, by simp [encodeAscii, asciiEncode_of_ascii hascii, hraw], hle⟩

theorem fits_encodeHashHex {text : String} (h : IsHex32 text) : Fits (encodeHashHex text) 32 := by
  obtain ⟨raw, hraw⟩ := Option.isSome_iff_exists.1 h.2
  refine ⟨raw, by simp [encodeHashHex, h.1, hraw], ?_⟩
  have := Text.length_of_fromhexChars hraw
  rw [String.length_toList, h.1] at this
  omega

theorem fits_encodeHashHexNullable (text : Option String) (h : ∀ t ∈ text, IsHex32 t) :
    Fits (encodeHashHexNullable text) 33 := by
  cases text with
  | none => exact ⟨[0], rfl, by decide⟩
  | some t =>
    obtain ⟨raw, hraw, hle⟩ := fits_encodeHashHex (h t rfl)
    exact ⟨1 :: raw, by simp [encodeHashHexNullable, hraw], by rw [List.length_cons]; omega⟩

theorem fits_encodeEnvelope (magic : String) {networkId : Int} {body : Bytes} {n : Nat}
    (hmagic : (Text.utf8 magic).length = 8) (h0 : 0 ≤ networkId)
    (h1 : networkId ≤ maxProtocolTimestamp) (hlen : body.length ≤ n) :
    Fits (encodeEnvelope magic networkId body) (28 + n) := by
  obtain ⟨version, hversion, hvlen⟩ := fits_encodeUvarint 3 (by decide) (by decide)
  obtain ⟨network, hnetwork, hnlen⟩ := fits_encodeUvarint _ h0 h1
  refine ⟨_, by simp only [encodeEnvelope, hversion, hnetwork]; rfl, ?_⟩
  simp only [List.length_append, hmagic]
  omega

/-- Objects up to the size limit have a hash of 32 bytes. -/
theorem exists_objectHash (crypto : Crypto) (domain : String) (canonical : Bytes)
    (hascii : Json.IsAscii domain.toList) (hdomain : domain.toList.length ≤ 128)
    (hlen : canonical.length ≤ maxBoundedBytes) :
    ∃ digest, objectHash crypto domain canonical = .ok digest ∧ digest.length = 32 := by
  obtain ⟨prefixed, hprefixed, -⟩ := fits_encodeAscii _ _ _ hascii hdomain le_rfl (by decide)
  obtain ⟨body, hbody, -⟩ := fits_encodeBytes canonical _ hlen le_rfl (by decide)
  exact ⟨_, by simp only [objectHash, hprefixed, hbody]; rfl, crypto.length_sha3_256 _⟩

end BinaryV3
