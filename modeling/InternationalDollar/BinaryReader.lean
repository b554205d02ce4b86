import InternationalDollar.Lib.ByteReader
import InternationalDollar.Keys
import InternationalDollar.BinaryV3

set_option autoImplicit false

/-! # Reading binary fields (`binary_v3`, Reader)

Every field reader has one lemma: it returns a value and a rest exactly if the input is the field as
the encoder writes it, followed by the rest. A number in more groups than it needs, a length above
the limit and a presence marker other than zero and one are refused. -/

namespace BinaryV3

/-- An exception while an object is decoded: a `BinaryV3Error` of the reader, which most decoders wrap,
    or an exception of the decoder itself. -/
inductive WireError where
  | binary (message : String)
  | object (message : String)

/-- A reader of binary fields. -/
abbrev Reader (α : Type) := ByteReader WireError α

namespace Reader

/-- `read`. -/
def read (length : Nat) (label : String) : Reader Bytes := do
  ByteReader.require (length ≤ maxBoundedBytes)
    (.binary (labelled "read length" "exceeds maximum value"))
  ByteReader.take length (.binary ("truncated " ++ label))

/-- The loop of `read_uvarint`: the value and the shift so far, and the bytes they were read from. -/
def readUvarintFrom (label : String) (value shift : Nat) (bytes : Bytes) :
    Bytes → Except WireError (Int × Bytes)
  | [] => .error (.binary ("truncated " ++ label))
  | byte :: rest =>
      let value := value ||| ((byte.toNat &&& 0x7f) <<< shift)
      if maxProtocolTimestamp < (value : Int) then
        .error (.binary (labelled label "exceeds maximum value"))
      else if byte.toNat &&& 0x80 = 0 then
        match encodeUvarint value with
        | .error message => .error (.binary message)
        | .ok raw =>
            if raw = bytes ++ [byte] then .ok (value, rest)
            else .error (.binary ("non-minimal " ++ label))
      else if 63 < shift + 7 then .error (.binary (labelled label "is too large"))
      else readUvarintFrom label value (shift + 7) (bytes ++ [byte]) rest

/-- `read_uvarint`. -/
def readUvarint (label : String) : Reader Int :=
  readUvarintFrom label 0 0 []

/-- `read_bytes`. -/
def readBytes (label : String) (maxLength : Nat) : Reader Bytes := do
  let length ← readUvarint (labelled label "length")
  ByteReader.require (length ≤ maxLength) (.binary (labelled label "exceeds maximum length"))
  read length.toNat label

/-- `raw.decode("ascii")`. -/
def asciiDecode (raw : Bytes) : Option String :=
  if raw.all (fun b => b.toNat < 128) then
    some (String.ofList (raw.map (fun b => Char.ofNat b.toNat)))
  else none

/-- `read_ascii`. -/
def readAscii (label : String) (maxLength : Nat) : Reader String := do
  let raw ← readBytes label maxLength
  match asciiDecode raw with
  | some text => pure text
  | none => ByteReader.lift (.error (.binary (labelled label "contains non-ASCII text")))

/-- `read_hash_hex`. -/
def readHashHex (label : String) : Reader String := do
  let raw ← read 32 label
  pure (Text.hex raw)

/-- `read_nullable_hash_hex`. -/
def readNullableHashHex (label : String) : Reader (Option String) := do
  let marker ← read 1 (labelled label "marker")
  if marker = [0] then pure none
  else if marker = [1] then do
    let text ← readHashHex label
    pure (some text)
  else ByteReader.lift (.error (.binary ("invalid " ++ labelled label "marker")))

/-! ## Numbers -/

theorem and_low (n : Nat) : n &&& 0x7f = n % 128 :=
  Nat.and_two_pow_sub_one_eq_mod n 7

theorem and_high {n : Nat} (h : n < 256) : n &&& 0x80 = 0 ↔ n < 128 := by
  have hall : ∀ k : Fin 256, k.val &&& 0x80 = 0 ↔ k.val < 128 := by decide +kernel
  exact hall ⟨n, h⟩

/-- Seven more bits are put above the value so far. -/
theorem or_shiftLeft {value low shift : Nat} (h : value < 2 ^ shift) :
    value ||| (low <<< shift) = value + low * 2 ^ shift := by
  rw [Nat.or_comm, ← Nat.shiftLeft_add_eq_or_of_lt h, Nat.shiftLeft_eq, Nat.add_comm]

variable {label : String} {input rest : Bytes}

/-- The loop accepts the minimal form of a number only. -/
theorem exists_raw_of_readUvarintFrom {value shift : Nat} {bytes : Bytes} {n : Int}
    (h : readUvarintFrom label value shift bytes input = .ok (n, rest)) :
    ∃ raw, encodeUvarint n = .ok (bytes ++ raw) ∧ input = raw ++ rest := by
  induction input generalizing value shift bytes with
  | nil => exact nomatch h
  | cons byte tail ih =>
    rw [readUvarintFrom] at h
    split at h
    · exact nomatch h
    split at h
    · split at h
      · exact nomatch h
      · next raw hraw =>
        split at h
        · next hminimal =>
          obtain ⟨rfl, rfl⟩ := Prod.mk.inj (Except.ok.inj h)
          exact ⟨[byte], by rw [hraw, hminimal], rfl⟩
        · exact nomatch h
    split at h
    · exact nomatch h
    · obtain ⟨raw, hraw, rfl⟩ := ih h
      refine ⟨byte :: raw, ?_, rfl⟩
      rw [hraw, List.append_assoc, List.singleton_append]

/-- The loop ends at the last group of a number. -/
theorem readUvarintFrom_last {value shift k : Nat} {bytes : Bytes} (hk : k < 128)
    (hvalue : value < 2 ^ shift) (hmax : ((value + k * 2 ^ shift : Nat) : Int) ≤ maxProtocolTimestamp)
    (hraw : encodeUvarint ((value + k * 2 ^ shift : Nat) : Int) = .ok (bytes ++ [UInt8.ofNat k])) :
    readUvarintFrom label value shift bytes (UInt8.ofNat k :: rest)
      = .ok (((value + k * 2 ^ shift : Nat) : Int), rest) := by
  have hbyte : (UInt8.ofNat k).toNat = k := Codec.toNat_ofNat_of_lt (by omega)
  simp only [readUvarintFrom, hbyte, and_low, Nat.mod_eq_of_lt hk, or_shiftLeft hvalue,
    if_neg (not_lt.2 hmax), (and_high (by omega : k < 256)).2 hk, hraw, if_true]

/-- The loop reads a number in its minimal form. -/
theorem readUvarintFrom_leb128 (fuel : Nat) {value shift n : Nat} {bytes : Bytes}
    (hn : n < 128 ^ (fuel + 1)) (hshift : shift + 7 * fuel ≤ 63) (hvalue : value < 2 ^ shift)
    (hmax : ((value + n * 2 ^ shift : Nat) : Int) ≤ maxProtocolTimestamp)
    (hraw : encodeUvarint ((value + n * 2 ^ shift : Nat) : Int)
      = .ok (bytes ++ Codec.leb128 fuel n)) :
    readUvarintFrom label value shift bytes (Codec.leb128 fuel n ++ rest)
      = .ok (((value + n * 2 ^ shift : Nat) : Int), rest) := by
  induction fuel generalizing value shift n bytes with
  | zero =>
    rw [zero_add, pow_one] at hn
    rw [Codec.leb128, Nat.mod_eq_of_lt hn] at hraw ⊢
    exact readUvarintFrom_last hn hvalue hmax hraw
  | succ fuel ih =>
    rw [Codec.leb128] at hraw ⊢
    by_cases hsmall : n < 128
    · rw [if_pos hsmall] at hraw ⊢
      exact readUvarintFrom_last hsmall hvalue hmax hraw
    · rw [if_neg hsmall] at hraw ⊢
      have hbyte : (UInt8.ofNat (n % 128 + 128)).toNat = n % 128 + 128 :=
        Codec.toNat_ofNat_of_lt (by omega)
      have hlow : (n % 128 + 128) % 128 = n % 128 := by omega
      have hhigh : ¬ ((n % 128 + 128) &&& 0x80 = 0) := by
        rw [and_high (by omega)]
        omega
      have hpow : 2 ^ (shift + 7) = 2 ^ shift * 128 := pow_add 2 shift 7
      -- What is left of the number after its lowest group stands seven bits higher.
      have hsum : value + n % 128 * 2 ^ shift + n / 128 * 2 ^ (shift + 7) = value + n * 2 ^ shift := by
        calc value + n % 128 * 2 ^ shift + n / 128 * 2 ^ (shift + 7)
            = value + (n % 128 + 128 * (n / 128)) * 2 ^ shift := by rw [hpow]; ring
          _ = value + n * 2 ^ shift := by rw [Nat.mod_add_div]
      have hbound : value + n % 128 * 2 ^ shift < 2 ^ (shift + 7) := by
        have : n % 128 * 2 ^ shift ≤ 127 * 2 ^ shift := Nat.mul_le_mul_right _ (by omega)
        omega
      have hle : value + n % 128 * 2 ^ shift ≤ value + n * 2 ^ shift := by
        rw [← hsum]
        exact Nat.le_add_right _ _
      have hdiv : n / 128 < 128 ^ (fuel + 1) := by
        rw [Nat.div_lt_iff_lt_mul (by decide), ← pow_succ]
        exact hn
      have hmore : ¬ 63 < shift + 7 := by omega
      have hnext := @ih _ (shift + 7) (n / 128) (bytes ++ [UInt8.ofNat (n % 128 + 128)]) hdiv
        (by omega) hbound (by rw [hsum]; exact hmax)
        (by rw [hsum, hraw, List.append_assoc, List.singleton_append])
      rw [hsum] at hnext
      have hlimit : ¬ maxProtocolTimestamp < ((value + n % 128 * 2 ^ shift : Nat) : Int) := by omega
      simp only [List.cons_append, readUvarintFrom, hbyte, and_low, hlow, or_shiftLeft hvalue,
        if_neg hlimit, if_neg hhigh, if_neg hmore]
      exact hnext

/-- **A number is read exactly in the form in which it is written.** -/
theorem readUvarint_eq_ok {n : Int} :
    readUvarint label input = .ok (n, rest) ↔
      ∃ raw, encodeUvarint n = .ok raw ∧ input = raw ++ rest := by
  constructor
  · intro h
    exact exists_raw_of_readUvarintFrom h
  · rintro ⟨raw, hraw, rfl⟩
    obtain ⟨⟨hnonneg, hmax⟩, rfl⟩ := encodeUvarint_eq_ok.1 hraw
    have hbig : maxProtocolTimestamp.toNat < 128 ^ (9 + 1) := by decide +kernel
    obtain ⟨k, rfl⟩ := Int.eq_ofNat_of_zero_le hnonneg
    have hk : 0 + k * 2 ^ 0 = k := by omega
    have hread := @readUvarintFrom_leb128 label rest 9 0 0 k []
      (lt_of_le_of_lt (Int.toNat_le_toNat hmax) hbig) (by decide) (by decide)
      (by rw [hk]; exact hmax) (by rw [hk]; exact hraw)
    rw [hk] at hread
    exact hread

/-! ## Byte strings, texts and hashes -/

theorem read_eq_ok {length : Nat} {raw : Bytes} (h : length ≤ maxBoundedBytes) :
    read length label input = .ok (raw, rest) ↔ raw.length = length ∧ input = raw ++ rest := by
  simp only [read, ByteReader.bind_eq_ok, ByteReader.require_eq_ok, ByteReader.take_eq_ok]
  constructor
  · rintro ⟨_, _, ⟨-, rfl⟩, hraw⟩
    exact hraw
  · intro hraw
    exact ⟨(), input, ⟨h, rfl⟩, hraw⟩

theorem readBytes_eq_ok {maxLength : Nat} {data : Bytes} (h : maxLength ≤ maxBoundedBytes) :
    readBytes label maxLength input = .ok (data, rest) ↔
      ∃ raw, encodeBytes data maxLength = .ok raw ∧ input = raw ++ rest := by
  simp only [readBytes, ByteReader.bind_eq_ok, ByteReader.require_eq_ok, readUvarint_eq_ok,
    encodeBytes, Check.bind_eq_ok, Check.require_eq_ok, Check.pure_eq_ok]
  constructor
  · rintro ⟨length, _, ⟨prefixed, hprefix, rfl⟩, _, _, ⟨hmax, rfl⟩, hread⟩
    have hnonneg := (encodeUvarint_eq_ok.1 hprefix).1.1
    rw [read_eq_ok (by omega)] at hread
    obtain ⟨hlen, rfl⟩ := hread
    have hlength : (data.length : Int) = length := by omega
    refine ⟨prefixed ++ data, ⟨(), by omega, prefixed, ?_, rfl⟩, (List.append_assoc ..).symm⟩
    rw [hlength]
    exact hprefix
  · rintro ⟨_, ⟨_, hmax, prefixed, hprefix, rfl⟩, rfl⟩
    refine ⟨data.length, data ++ rest, ⟨prefixed, hprefix, List.append_assoc ..⟩, (), _,
      ⟨by omega, rfl⟩, ?_⟩
    rw [read_eq_ok (by omega)]
    exact ⟨by omega, rfl⟩

theorem asciiDecode_eq_some {raw : Bytes} {text : String} :
    asciiDecode raw = some text ↔ asciiEncode text = some raw := by
  have hchar : ∀ b : UInt8, b.toNat < 128 → (Char.ofNat b.toNat).toNat = b.toNat := by
    have hall : ∀ k : Fin 128, (Char.ofNat k.val).toNat = k.val := by decide
    intro b hb
    exact hall ⟨b.toNat, hb⟩
  have hbyte : ∀ b : UInt8, UInt8.ofNat b.toNat = b := fun b => UInt8.ofNat_toNat
  unfold asciiDecode asciiEncode
  constructor
  · intro h
    split at h
    · next hall =>
      obtain rfl := Option.some.inj h
      rw [List.all_eq_true] at hall
      have hchars : ∀ b ∈ raw, (Char.ofNat b.toNat).toNat = b.toNat :=
        fun b hb => hchar b (by simpa using hall b hb)
      rw [String.toList_ofList, if_pos, Json.asciiBytes, List.map_map]
      · congr 1
        conv_rhs => rw [← List.map_id raw]
        refine List.map_congr_left ?_
        intro b hb
        simp only [Function.comp_apply, hchars b hb, hbyte, id_eq]
      · rw [List.all_map, List.all_eq_true]
        intro b hb
        simpa [hchars b hb] using hall b hb
    · cases h
  · intro h
    split at h
    · next hall =>
      obtain rfl := Option.some.inj h
      rw [List.all_eq_true] at hall
      have hchars : ∀ c ∈ text.toList, (UInt8.ofNat c.toNat).toNat = c.toNat := by
        intro c hc
        have := hall c hc
        simp only [decide_eq_true_eq] at this
        exact Codec.toNat_ofNat_of_lt (by omega)
      rw [Json.asciiBytes, if_pos]
      · congr 1
        rw [List.map_map]
        conv_rhs => rw [← String.ofList_toList (s := text), ← List.map_id text.toList]
        congr 1
        refine List.map_congr_left ?_
        intro c hc
        simp only [Function.comp_apply, hchars c hc, Char.ofNat_toNat, id_eq]
      · rw [List.all_map, List.all_eq_true]
        intro c hc
        simpa [hchars c hc] using hall c hc
    · cases h

theorem readAscii_eq_ok {maxLength : Nat} {text : String} (h : maxLength ≤ maxBoundedBytes) :
    readAscii label maxLength input = .ok (text, rest) ↔
      ∃ raw, encodeAscii text maxLength = .ok raw ∧ input = raw ++ rest := by
  simp only [readAscii, ByteReader.bind_eq_ok, readBytes_eq_ok h, encodeAscii, Check.bind_eq_ok,
    Check.ofOption_eq_ok, ← asciiDecode_eq_some]
  constructor
  · rintro ⟨data, _, ⟨raw, hraw, rfl⟩, htext⟩
    cases hdecoded : asciiDecode data with
    | none =>
      rw [hdecoded] at htext
      cases htext
    | some decoded =>
      rw [hdecoded] at htext
      obtain ⟨rfl, rfl⟩ := ByteReader.pure_eq_ok.1 htext
      exact ⟨raw, ⟨data, hdecoded, hraw⟩, rfl⟩
  · rintro ⟨raw, ⟨data, hdecoded, hraw⟩, rfl⟩
    refine ⟨data, rest, ⟨raw, hraw, rfl⟩, ?_⟩
    rw [hdecoded]
    exact ByteReader.pure_eq_ok.2 ⟨rfl, rfl⟩

end Reader

/-- The text of a 32-byte hash as the reader returns it: 64 lower-case digits. -/
def IsHashText (text : String) : Prop :=
  ∃ raw : Bytes, raw.length = 32 ∧ Text.hex raw = text

instance (text : String) : Decidable (IsHashText text) :=
  decidable_of_iff (∃ raw ∈ Text.fromhex text, raw.length = 32 ∧ Text.hex raw = text) <| by
    constructor
    · rintro ⟨raw, -, h⟩
      exact ⟨raw, h⟩
    · rintro ⟨raw, hlen, rfl⟩
      exact ⟨raw, Text.fromhex_hex raw, hlen, rfl⟩

/-- A hash text is 64 lower-case digits. -/
theorem isHashText_iff {text : String} :
    IsHashText text ↔ IsHex32 text ∧ (∀ raw ∈ Text.fromhex text, raw.length = 32) ∧
      Text.lower text = text := by
  constructor
  · rintro ⟨raw, hlen, rfl⟩
    refine ⟨isHex32_hex hlen, ?_, Text.lower_hex raw⟩
    intro bytes hbytes
    rw [Text.fromhex_hex] at hbytes
    obtain rfl := Option.some.inj hbytes
    exact hlen
  · rintro ⟨⟨hlen, hsome⟩, hbytes, hlower⟩
    obtain ⟨raw, hraw⟩ := Option.isSome_iff_exists.1 hsome
    have hlength := hbytes raw hraw
    exact ⟨raw, hlength, (Text.eq_hex_of_fromhex hraw (by omega) hlower).symm⟩

theorem IsHashText.encodeHashHex_eq_ok {text : String} (h : IsHashText text) {raw : Bytes} :
    encodeHashHex text = .ok raw ↔ raw.length = 32 ∧ Text.hex raw = text := by
  obtain ⟨digest, hlen, rfl⟩ := h
  have hsixtyfour : (Text.hex digest).length = 64 := by rw [Text.length_hex, hlen]
  simp only [encodeHashHex, Check.check_bind_eq_ok, Check.require_eq_ok, hsixtyfour, true_and,
    Check.ofOption_eq_ok, Text.fromhex_hex, Option.some.injEq]
  constructor
  · rintro rfl
    exact ⟨hlen, rfl⟩
  · rintro ⟨-, heq⟩
    exact (Text.hex_injective heq).symm

namespace Reader

variable {label : String} {input rest : Bytes}

theorem readHashHex_eq_ok {text : String} :
    readHashHex label input = .ok (text, rest) ↔
      IsHashText text ∧ ∃ raw, encodeHashHex text = .ok raw ∧ input = raw ++ rest := by
  simp only [readHashHex, ByteReader.bind_eq_ok, ByteReader.pure_eq_ok,
    read_eq_ok (by decide : 32 ≤ maxBoundedBytes)]
  constructor
  · rintro ⟨raw, _, ⟨hlen, rfl⟩, rfl, rfl⟩
    have htext : IsHashText (Text.hex raw) := ⟨raw, hlen, rfl⟩
    exact ⟨htext, raw, htext.encodeHashHex_eq_ok.2 ⟨hlen, rfl⟩, rfl⟩
  · rintro ⟨htext, raw, hraw, rfl⟩
    obtain ⟨hlen, rfl⟩ := htext.encodeHashHex_eq_ok.1 hraw
    exact ⟨raw, rest, ⟨hlen, rfl⟩, rfl, rfl⟩

theorem readNullableHashHex_eq_ok {text : Option String} :
    readNullableHashHex label input = .ok (text, rest) ↔
      (∀ t ∈ text, IsHashText t) ∧
        ∃ raw, encodeHashHexNullable text = .ok raw ∧ input = raw ++ rest := by
  simp only [readNullableHashHex, ByteReader.bind_eq_ok,
    read_eq_ok (by decide : 1 ≤ maxBoundedBytes)]
  constructor
  · rintro ⟨marker, mid, ⟨-, rfl⟩, h⟩
    split at h
    · next hzero =>
      obtain ⟨rfl, rfl⟩ := ByteReader.pure_eq_ok.1 h
      refine ⟨?_, marker, by rw [hzero]; rfl, rfl⟩
      rintro _ ⟨⟩
    split at h
    · next hone =>
      simp only [ByteReader.bind_eq_ok, readHashHex_eq_ok, ByteReader.pure_eq_ok] at h
      obtain ⟨t, _, ⟨ht, raw, hraw, rfl⟩, rfl, rfl⟩ := h
      refine ⟨?_, 1 :: raw, ?_, ?_⟩
      · rintro _ ⟨⟩
        exact ht
      · rw [encodeHashHexNullable, hraw]
        rfl
      · rw [hone]
        rfl
    · cases h
  · rintro ⟨htext, raw, hraw, rfl⟩
    cases text with
    | none =>
      obtain rfl := Except.ok.inj hraw
      exact ⟨[0], rest, ⟨rfl, rfl⟩, by rw [if_pos rfl]; exact ByteReader.pure_eq_ok.2 ⟨rfl, rfl⟩⟩
    | some t =>
      simp only [encodeHashHexNullable, Check.bind_eq_ok, Check.pure_eq_ok] at hraw
      obtain ⟨digest, hdigest, rfl⟩ := hraw
      refine ⟨[1], digest ++ rest, ⟨rfl, rfl⟩, ?_⟩
      rw [if_neg (by decide), if_pos rfl]
      simp only [ByteReader.bind_eq_ok, readHashHex_eq_ok, ByteReader.pure_eq_ok]
      exact ⟨t, rest, ⟨htext t rfl, digest, hdigest, rfl⟩, rfl, rfl⟩

end Reader

end BinaryV3
