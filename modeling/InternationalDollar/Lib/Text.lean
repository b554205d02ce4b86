import Mathlib.Data.List.DropRight
import Mathlib.Data.List.TakeWhile
import Mathlib.Data.Nat.Digits.Defs
import Mathlib.Tactic.IntervalCases
import Mathlib.Tactic.Ring

set_option autoImplicit false

/-! # Byte strings and the text operations of a scripting standard library

Text is `String`, a byte string is a list of bytes. The operations are the ones a Python program
applies to short protocol texts: `strip`, `lower`, `bytes.fromhex`, `bytes.hex` and `int(text, 16)`.
They follow the documented behaviour, including its slack: `fromhex` passes over ASCII blanks
between two digit pairs, `int` over blanks at both ends. The lemmas say where this slack matters
(`value_eq_of_fromhex`) and where it cannot (`IsHex`). -/

/-- A byte string. -/
abbrev Bytes := List UInt8

namespace Text

/-! ## Blanks and letter case -/

/-- The blanks that `bytes.fromhex` passes over. -/
def isAsciiSpace (c : Char) : Bool :=
  c = ' ' || (9 ≤ c.toNat && c.toNat ≤ 13)

/-- The blanks that `str.strip` removes. -/
def isSpace (c : Char) : Bool :=
  isAsciiSpace c || (28 ≤ c.toNat && c.toNat ≤ 31) || c.toNat = 0x85 || c.toNat = 0xa0 ||
    c.toNat = 0x1680 || (0x2000 ≤ c.toNat && c.toNat ≤ 0x200a) || c.toNat = 0x2028 ||
    c.toNat = 0x2029 || c.toNat = 0x202f || c.toNat = 0x205f || c.toNat = 0x3000

/-- Remove the characters of a class from both ends. -/
def trim (p : Char → Bool) (cs : List Char) : List Char :=
  ((cs.dropWhile p).reverse.dropWhile p).reverse

/-- `str.strip()`. -/
def strip (s : String) : String :=
  String.ofList (trim isSpace s.toList)

/-- `str.split()`. -/
def words (s : String) : List String :=
  ((s.toList.splitOnP isSpace).filter fun cs => !cs.isEmpty).map String.ofList

/-- The lower-case form of an ASCII letter; every other character stays. No other letter of
    Unicode has a lower-case form among the digits and the letters `a` to `f`, so for texts that
    are read as hexadecimal this is `str.lower`. -/
def lowerChar (c : Char) : Char :=
  if 'A' ≤ c ∧ c ≤ 'Z' then Char.ofNat (c.toNat + 32) else c

/-- `str.lower()`. -/
def lower (s : String) : String :=
  String.ofList (s.toList.map lowerChar)

/-! ## Hexadecimal -/

/-- The value of a hexadecimal digit. -/
def hexVal? (c : Char) : Option Nat :=
  if '0' ≤ c ∧ c ≤ '9' then some (c.toNat - 48)
  else if 'a' ≤ c ∧ c ≤ 'f' then some (c.toNat - 87)
  else if 'A' ≤ c ∧ c ≤ 'F' then some (c.toNat - 55)
  else none

/-- The lower-case hexadecimal digit of a value below 16. -/
def hexDigit (n : Nat) : Char :=
  if n < 10 then Char.ofNat (48 + n) else Char.ofNat (87 + n)

/-- `bytes.fromhex` on a list of characters: digit pairs, with ASCII blanks between the pairs. -/
def fromhexChars : List Char → Option Bytes
  | [] => some []
  | [c] => if isAsciiSpace c then some [] else none
  | c :: d :: rest =>
      if isAsciiSpace c then fromhexChars (d :: rest)
      else do
        let hi ← hexVal? c
        let lo ← hexVal? d
        let tail ← fromhexChars rest
        pure (UInt8.ofNat (16 * hi + lo) :: tail)

/-- `bytes.fromhex(text)`; `none` where it raises. -/
def fromhex (s : String) : Option Bytes :=
  fromhexChars s.toList

/-- The two digits of a byte. -/
def byteDigits (b : UInt8) : List Char :=
  [hexDigit (b.toNat / 16), hexDigit (b.toNat % 16)]

/-- The digits of `bytes.hex()`. -/
def hexChars (bs : Bytes) : List Char :=
  bs.flatMap byteDigits

/-- `bytes.hex()`. -/
def hex (bs : Bytes) : String :=
  String.ofList (hexChars bs)

/-- The number a digit list writes in base 16, read after `acc`. -/
def hexValue : List Char → Nat → Option Nat
  | [], acc => some acc
  | c :: cs, acc => do
      let v ← hexVal? c
      hexValue cs (16 * acc + v)

/-- `int(text, 16)` on the texts that `bytes.fromhex` reads, which hold digits and blanks only;
    `none` where it raises. -/
def intBase16 (s : String) : Option Nat :=
  match trim isSpace s.toList with
  | [] => none
  | cs => hexValue cs 0

/-- The number a byte string writes, most significant byte first, read after `acc`. -/
def bytesValue : Bytes → Nat → Nat
  | [], acc => acc
  | b :: bs, acc => bytesValue bs (256 * acc + b.toNat)

/-! ## Encodings and web addresses -/

/-- `text.encode("utf-8")`. -/
def utf8 (s : String) : Bytes :=
  s.toUTF8.data.toList

/-- `text.startswith(prefix)` on character lists, with what follows the prefix. -/
def dropPrefix? : List Char → List Char → Option (List Char)
  | [], cs => some cs
  | _ :: _, [] => none
  | p :: ps, c :: cs => if p = c then dropPrefix? ps cs else none

/-- What follows the first occurrence of a separator. -/
def after? (sep : List Char) : List Char → Option (List Char)
  | [] => dropPrefix? sep []
  | c :: cs => (dropPrefix? sep (c :: cs)).or (after? sep cs)

/-- The host in an address: the part between `://` and the path, without user and port, in lower
    case. It is empty where the address has none. -/
def urlHostname (url : String) : String :=
  match after? "://".toList url.toList with
  | none => ""
  | some rest =>
      let netloc := rest.takeWhile (fun c => c ≠ '/' && c ≠ '?' && c ≠ '#')
      let host := (netloc.reverse.takeWhile (fun c => c ≠ '@')).reverse
      match host with
      | '[' :: inner => String.ofList ((inner.takeWhile (fun c => c ≠ ']')).map lowerChar)
      | _ => String.ofList ((host.takeWhile (fun c => c ≠ ':')).map lowerChar)

/-! ## Digits -/

theorem char_toNat_le_iff (c d : Char) : c ≤ d ↔ c.toNat ≤ d.toNat :=
  Iff.rfl

/-- The digits are exactly the characters in three code ranges. -/
theorem hexVal?_isSome_iff (c : Char) :
    (hexVal? c).isSome ↔ (48 ≤ c.toNat ∧ c.toNat ≤ 57) ∨ (97 ≤ c.toNat ∧ c.toNat ≤ 102) ∨
      (65 ≤ c.toNat ∧ c.toNat ≤ 70) := by
  simp only [hexVal?, char_toNat_le_iff]
  have h0 : ('0').toNat = 48 := rfl
  have h9 : ('9').toNat = 57 := rfl
  have ha : ('a').toNat = 97 := rfl
  have hf : ('f').toNat = 102 := rfl
  have hA : ('A').toNat = 65 := rfl
  have hF : ('F').toNat = 70 := rfl
  rw [h0, h9, ha, hf, hA, hF]
  split
  · simp; omega
  · split
    · simp; omega
    · split
      · simp; omega
      · simp; omega

/-- A digit is not a blank. -/
theorem isSpace_of_hexVal? {c : Char} (h : (hexVal? c).isSome) : isSpace c = false := by
  have hr := (hexVal?_isSome_iff c).1 h
  have hsp : c ≠ ' ' := by
    rintro rfl
    simp at hr
  simp only [isSpace, isAsciiSpace, hsp, decide_false, Bool.false_or, Bool.or_eq_false_iff,
    Bool.and_eq_false_iff, decide_eq_false_iff_not]
  omega

theorem hexVal?_lt {c : Char} {v : Nat} (h : hexVal? c = some v) : v < 16 := by
  simp only [hexVal?, char_toNat_le_iff] at h
  have h9 : ('9').toNat = 57 := rfl
  have hf : ('f').toNat = 102 := rfl
  have hF : ('F').toNat = 70 := rfl
  rw [h9, hf, hF] at h
  split at h
  · cases h; omega
  · split at h
    · cases h; omega
    · split at h
      · cases h; omega
      · cases h

theorem isSpace_of_isAsciiSpace {c : Char} (h : isAsciiSpace c = true) : isSpace c = true := by
  simp [isSpace, h]

theorem hexVal?_hexDigit {n : Nat} (h : n < 16) : hexVal? (hexDigit n) = some n := by
  interval_cases n <;> rfl

theorem isSpace_hexDigit {n : Nat} (h : n < 16) : isSpace (hexDigit n) = false :=
  isSpace_of_hexVal? (by rw [hexVal?_hexDigit h]; rfl)

theorem isAsciiSpace_hexDigit {n : Nat} (h : n < 16) : isAsciiSpace (hexDigit n) = false := by
  by_contra hc
  have := isSpace_of_isAsciiSpace (Bool.eq_true_of_not_eq_false hc)
  rw [isSpace_hexDigit h] at this
  exact Bool.false_ne_true this

theorem lowerChar_hexDigit {n : Nat} (h : n < 16) : lowerChar (hexDigit n) = hexDigit n := by
  interval_cases n <;> rfl

theorem hi_lt (b : UInt8) : b.toNat / 16 < 16 := by
  have := b.toNat_lt
  omega

theorem lo_lt (b : UInt8) : b.toNat % 16 < 16 := by
  omega

/-! ## Hexadecimal round trip -/

theorem hexChars_nil : hexChars [] = [] := rfl

theorem hexChars_cons (b : UInt8) (bs : Bytes) :
    hexChars (b :: bs) = hexDigit (b.toNat / 16) :: hexDigit (b.toNat % 16) :: hexChars bs := rfl

theorem length_hexChars (bs : Bytes) : (hexChars bs).length = 2 * bs.length := by
  induction bs with
  | nil => rfl
  | cons b bs ih =>
    simp only [hexChars_cons, List.length_cons, ih]
    omega

theorem mem_hexChars {bs : Bytes} {c : Char} (h : c ∈ hexChars bs) :
    ∃ n, n < 16 ∧ c = hexDigit n := by
  induction bs with
  | nil => simp [hexChars_nil] at h
  | cons b bs ih =>
    simp only [hexChars_cons, List.mem_cons] at h
    rcases h with rfl | rfl | h
    · exact ⟨_, hi_lt b, rfl⟩
    · exact ⟨_, lo_lt b, rfl⟩
    · exact ih h

/-- `fromhex` reads back the digits that `hex` wrote and goes on with the rest. -/
theorem fromhexChars_hexChars_append (bs : Bytes) (rest : List Char) :
    fromhexChars (hexChars bs ++ rest) = (fromhexChars rest).map (bs ++ ·) := by
  induction bs with
  | nil => simp [hexChars_nil]
  | cons b bs ih =>
    have hb : UInt8.ofNat (16 * (b.toNat / 16) + b.toNat % 16) = b := by
      rw [Nat.div_add_mod]
      exact UInt8.ofNat_toNat
    simp only [hexChars_cons, List.cons_append, fromhexChars, isAsciiSpace_hexDigit (hi_lt b),
      Bool.false_eq_true, if_false, hexVal?_hexDigit (hi_lt b), hexVal?_hexDigit (lo_lt b), ih]
    cases fromhexChars rest with
    | none => rfl
    | some tl =>
      show some (UInt8.ofNat _ :: (bs ++ tl)) = some (b :: (bs ++ tl))
      rw [hb]

@[simp] theorem fromhex_hex (bs : Bytes) : fromhex (hex bs) = some bs := by
  have := fromhexChars_hexChars_append bs []
  simp only [List.append_nil] at this
  simp [fromhex, hex, this, fromhexChars]

theorem utf8_injective : Function.Injective utf8 := by
  intro s t h
  have hdata : s.toUTF8.data = t.toUTF8.data := Array.toList_inj.1 h
  exact String.toByteArray_inj.1 (ByteArray.ext hdata)

theorem hex_injective : Function.Injective hex := fun a b h =>
  Option.some.inj ((fromhex_hex a).symm.trans (by rw [h, fromhex_hex]))

@[simp] theorem length_hex (bs : Bytes) : (hex bs).length = 2 * bs.length := by
  rw [hex, String.length_ofList, length_hexChars]

theorem map_lowerChar_hexChars (bs : Bytes) : (hexChars bs).map lowerChar = hexChars bs := by
  induction bs with
  | nil => rfl
  | cons b bs ih =>
    simp only [hexChars_cons, List.map_cons, lowerChar_hexDigit (hi_lt b),
      lowerChar_hexDigit (lo_lt b), ih]

@[simp] theorem lower_hex (bs : Bytes) : lower (hex bs) = hex bs := by
  simp only [lower, hex, String.toList_ofList, map_lowerChar_hexChars]

/-! ## Trimming -/

/-- What `trim` removes on the left and on the right is all in the class. -/
theorem exists_trim_eq (p : Char → Bool) (cs : List Char) :
    ∃ pre suf, cs = pre ++ trim p cs ++ suf ∧ (∀ c ∈ pre, p c = true) ∧ ∀ c ∈ suf, p c = true := by
  refine ⟨cs.takeWhile p, ((cs.dropWhile p).reverse.takeWhile p).reverse, ?_, ?_, ?_⟩
  · have h := List.takeWhile_append_dropWhile (p := p) (l := (cs.dropWhile p).reverse)
    have h' := congrArg List.reverse h
    rw [List.reverse_append, List.reverse_reverse] at h'
    rw [List.append_assoc, trim, h', List.takeWhile_append_dropWhile]
  · exact fun c hc => List.mem_takeWhile_imp hc
  · exact fun c hc => List.mem_takeWhile_imp (List.mem_reverse.1 hc)

theorem dropWhile_eq_self {α : Type} (p : α → Bool) (cs : List α) (h : ∀ c ∈ cs, p c = false) :
    cs.dropWhile p = cs := by
  cases cs with
  | nil => rfl
  | cons c cs => rw [List.dropWhile_cons, h c List.mem_cons_self]; rfl

theorem trim_eq_self (p : Char → Bool) (cs : List Char) (h : ∀ c ∈ cs, p c = false) :
    trim p cs = cs := by
  rw [trim, dropWhile_eq_self p cs h, dropWhile_eq_self p cs.reverse
    (fun c hc => h c (List.mem_reverse.1 hc)), List.reverse_reverse]

theorem trim_hexChars (bs : Bytes) : trim isSpace (hexChars bs) = hexChars bs := by
  apply trim_eq_self
  intro c hc
  obtain ⟨n, hn, rfl⟩ := mem_hexChars hc
  exact isSpace_hexDigit hn

@[simp] theorem strip_hex (bs : Bytes) : strip (hex bs) = hex bs := by
  simp only [strip, hex, String.toList_ofList, trim_hexChars]

/-! ## Values -/

theorem hexValue_append (cs ds : List Char) (acc : Nat) :
    hexValue (cs ++ ds) acc = (hexValue cs acc).bind (hexValue ds) := by
  induction cs generalizing acc with
  | nil => rfl
  | cons c cs ih =>
    simp only [List.cons_append, hexValue]
    cases hexVal? c with
    | none => rfl
    | some v => exact ih _

theorem hexValue_hexChars (bs : Bytes) (acc : Nat) :
    hexValue (hexChars bs) acc = some (bytesValue bs acc) := by
  induction bs generalizing acc with
  | nil => rfl
  | cons b bs ih =>
    simp only [hexChars_cons, hexValue, hexVal?_hexDigit (hi_lt b), hexVal?_hexDigit (lo_lt b),
      Option.bind_eq_bind, Option.bind_some, ih, bytesValue]
    congr 2
    omega

theorem intBase16_hex {bs : Bytes} (h : bs ≠ []) : intBase16 (hex bs) = some (bytesValue bs 0) := by
  rw [intBase16, hex, String.toList_ofList, trim_hexChars]
  cases bs with
  | nil => exact absurd rfl h
  | cons b bs => exact hexValue_hexChars (b :: bs) 0

theorem bytesValue_acc (bs : Bytes) (acc : Nat) :
    bytesValue bs acc = acc * 256 ^ bs.length + bytesValue bs 0 := by
  induction bs generalizing acc with
  | nil => simp [bytesValue]
  | cons b bs ih =>
    rw [bytesValue, bytesValue, ih, ih (256 * 0 + b.toNat), List.length_cons, pow_succ]
    ring

theorem bytesValue_append (as bs : Bytes) :
    bytesValue (as ++ bs) 0 = bytesValue as 0 * 256 ^ bs.length + bytesValue bs 0 := by
  suffices h : ∀ acc, bytesValue (as ++ bs) acc = bytesValue bs (bytesValue as acc) by
    rw [h, bytesValue_acc]
  induction as with
  | nil => exact fun acc => rfl
  | cons a as ih => exact fun acc => ih _

theorem bytesValue_cons (b : UInt8) (bs : Bytes) :
    bytesValue (b :: bs) 0 = b.toNat * 256 ^ bs.length + bytesValue bs 0 := by
  rw [bytesValue, bytesValue_acc, Nat.mul_zero, Nat.zero_add]

theorem bytesValue_lt (bs : Bytes) : bytesValue bs 0 < 256 ^ bs.length := by
  induction bs with
  | nil => simp [bytesValue]
  | cons b bs ih =>
    have hb : b.toNat + 1 ≤ 256 := b.toNat_lt
    rw [bytesValue_cons, List.length_cons, pow_succ]
    calc b.toNat * 256 ^ bs.length + bytesValue bs 0
        < b.toNat * 256 ^ bs.length + 256 ^ bs.length := by omega
      _ = (b.toNat + 1) * 256 ^ bs.length := by ring
      _ ≤ 256 * 256 ^ bs.length := Nat.mul_le_mul_right _ hb
      _ = 256 ^ bs.length * 256 := by ring

/-- Byte strings of one length are determined by their value. -/
theorem bytesValue_inj {as bs : Bytes} (hlen : as.length = bs.length)
    (h : bytesValue as 0 = bytesValue bs 0) : as = bs := by
  induction as generalizing bs with
  | nil => exact (List.length_eq_zero_iff.1 hlen.symm).symm
  | cons a as ih =>
    cases bs with
    | nil => simp at hlen
    | cons b bs =>
      have hl : as.length = bs.length := by simpa using hlen
      rw [bytesValue_cons, bytesValue_cons, hl] at h
      have hA := bytesValue_lt as
      have hB := bytesValue_lt bs
      rw [hl] at hA
      have hdiv : ∀ x r : Nat, r < 256 ^ bs.length →
          (x * 256 ^ bs.length + r) / 256 ^ bs.length = x := by
        intro x r hr
        rw [Nat.mul_comm, Nat.mul_add_div (by omega), Nat.div_eq_of_lt hr, Nat.add_zero]
      have hab : a.toNat = b.toNat := by rw [← hdiv a.toNat _ hA, h, hdiv b.toNat _ hB]
      have htl : as = bs := ih hl (by rw [hab] at h; omega)
      rw [htl, UInt8.toNat_inj.1 hab]

/-- A longer byte string has a larger value when the bytes it has more begin with a nonzero one. -/
theorem bytesValue_lt_append {as : Bytes} {b : UInt8} (bs : Bytes) (hb : b ≠ 0) :
    bytesValue as 0 < bytesValue (as ++ b :: bs) 0 := by
  have hpos : 0 < b.toNat := by
    rcases Nat.eq_zero_or_pos b.toNat with h | h
    · exact absurd (UInt8.toNat_inj.1 (by rw [h]; rfl)) hb
    · exact h
  rw [bytesValue_append, bytesValue_cons]
  have h1 : 0 < 256 ^ bs.length := Nat.pow_pos (by omega)
  have h2 : 0 < b.toNat * 256 ^ bs.length := Nat.mul_pos hpos h1
  have h3 : bytesValue as 0 ≤ bytesValue as 0 * 256 ^ (b :: bs).length :=
    Nat.le_mul_of_pos_right _ (Nat.pow_pos (by omega))
  omega

theorem lowerChar_of_not_upper {c : Char} (h : ¬ ('A' ≤ c ∧ c ≤ 'Z')) : lowerChar c = c :=
  if_neg h

theorem exists_upper {c : Char} (h : 'A' ≤ c ∧ c ≤ 'Z') :
    ∃ n, n < 26 ∧ c = Char.ofNat (65 + n) := by
  rw [char_toNat_le_iff, char_toNat_le_iff] at h
  have h65 : 'A'.toNat = 65 := rfl
  have h90 : 'Z'.toNat = 90 := rfl
  refine ⟨c.toNat - 65, by omega, ?_⟩
  rw [show 65 + (c.toNat - 65) = c.toNat by omega, Char.ofNat_toNat]

theorem hexVal?_lowerChar (c : Char) : hexVal? (lowerChar c) = hexVal? c := by
  by_cases h : 'A' ≤ c ∧ c ≤ 'Z'
  · obtain ⟨n, hn, rfl⟩ := exists_upper h
    have hall : ∀ m, m < 26 → hexVal? (lowerChar (Char.ofNat (65 + m)))
        = hexVal? (Char.ofNat (65 + m)) := by decide
    exact hall n hn
  · rw [lowerChar_of_not_upper h]

theorem isAsciiSpace_lowerChar (c : Char) : isAsciiSpace (lowerChar c) = isAsciiSpace c := by
  by_cases h : 'A' ≤ c ∧ c ≤ 'Z'
  · obtain ⟨n, hn, rfl⟩ := exists_upper h
    have hall : ∀ m, m < 26 → isAsciiSpace (lowerChar (Char.ofNat (65 + m)))
        = isAsciiSpace (Char.ofNat (65 + m)) := by decide
    exact hall n hn
  · rw [lowerChar_of_not_upper h]

/-- `fromhex` does not see letter case. -/
theorem fromhexChars_map_lowerChar (cs : List Char) :
    fromhexChars (cs.map lowerChar) = fromhexChars cs := by
  induction cs using fromhexChars.induct with
  | case1 => rfl
  | case2 c hc => simp [fromhexChars, isAsciiSpace_lowerChar]
  | case3 c hc => simp [fromhexChars, isAsciiSpace_lowerChar]
  | case4 c d rest hc ih =>
    simp only [List.map_cons] at ih ⊢
    rw [fromhexChars, fromhexChars, isAsciiSpace_lowerChar, if_pos hc, if_pos hc, ih]
  | case5 c d rest hc ih =>
    simp only [List.map_cons]
    rw [fromhexChars, fromhexChars, isAsciiSpace_lowerChar, if_neg hc, if_neg hc, ih,
      hexVal?_lowerChar, hexVal?_lowerChar]

theorem fromhex_lower (s : String) : fromhex (lower s) = fromhex s := by
  rw [fromhex, fromhex, lower, String.toList_ofList, fromhexChars_map_lowerChar]

theorem length_lower (s : String) : (lower s).length = s.length := by
  rw [← String.length_toList, lower, String.toList_ofList, List.length_map, String.length_toList]

theorem trim_trim (p : Char → Bool) (cs : List Char) : trim p (trim p cs) = trim p cs := by
  have htrim : trim p cs = (cs.dropWhile p).rdropWhile p := rfl
  have hhead : (trim p cs).dropWhile p = trim p cs := by
    rw [List.dropWhile_eq_self_iff]
    intro hpos
    have hpre : trim p cs <+: cs.dropWhile p := htrim ▸ List.rdropWhile_prefix p _
    have hzero : 0 < (cs.dropWhile p).length := lt_of_lt_of_le hpos hpre.length_le
    rw [hpre.getElem hpos]
    exact List.dropWhile_eq_self_iff.1 (List.dropWhile_idempotent p _) hzero
  calc trim p (trim p cs) = ((trim p cs).dropWhile p).rdropWhile p := rfl
    _ = trim p cs := by rw [hhead, htrim, List.rdropWhile_idempotent]

@[simp] theorem strip_strip (s : String) : strip (strip s) = strip s := by
  simp only [strip, String.toList_ofList, trim_trim]

theorem lowerChar_lowerChar (c : Char) : lowerChar (lowerChar c) = lowerChar c := by
  by_cases h : 'A' ≤ c ∧ c ≤ 'Z'
  · obtain ⟨n, hn, rfl⟩ := exists_upper h
    have hall : ∀ m, m < 26 → lowerChar (lowerChar (Char.ofNat (65 + m)))
        = lowerChar (Char.ofNat (65 + m)) := by decide
    exact hall n hn
  · rw [lowerChar_of_not_upper h, lowerChar_of_not_upper h]

@[simp] theorem lower_lower (s : String) : lower (lower s) = lower s := by
  rw [lower, lower, String.toList_ofList, List.map_map]
  congr 1
  exact List.map_congr_left fun c _ => lowerChar_lowerChar c

/-! ## Texts that both `fromhex` and `int` read -/

/-- `fromhex` reads digits and ASCII blanks only. -/
theorem mem_of_fromhexChars {cs : List Char} {bs : Bytes} (h : fromhexChars cs = some bs) :
    ∀ c ∈ cs, isAsciiSpace c = true ∨ (hexVal? c).isSome := by
  induction cs using fromhexChars.induct generalizing bs with
  | case1 => simp
  | case2 c hc => simp [hc]
  | case3 c hc => simp [fromhexChars, hc] at h
  | case4 c d rest hc ih =>
    rw [fromhexChars, if_pos hc] at h
    intro e he
    rcases List.mem_cons.1 he with rfl | he
    · exact Or.inl hc
    · exact ih h e he
  | case5 c d rest hc ih =>
    rw [fromhexChars, if_neg hc] at h
    simp only [Option.bind_eq_bind, Option.bind_eq_some_iff] at h
    obtain ⟨hi, hhi, lo, hlo, tl, htl, -⟩ := h
    intro e he
    rcases List.mem_cons.1 he with rfl | he
    · exact Or.inr (by rw [hhi]; rfl)
    · rcases List.mem_cons.1 he with rfl | he
      · exact Or.inr (by rw [hlo]; rfl)
      · exact ih htl e he

/-- Every byte takes two digits of the text. -/
theorem length_of_fromhexChars {cs : List Char} {bs : Bytes} (h : fromhexChars cs = some bs) :
    2 * bs.length ≤ cs.length := by
  induction cs using fromhexChars.induct generalizing bs with
  | case1 => cases h; rfl
  | case2 c hc =>
    rw [fromhexChars, if_pos hc] at h
    cases h
    exact Nat.zero_le _
  | case3 c hc => simp [fromhexChars, hc] at h
  | case4 c d rest hc ih =>
    rw [fromhexChars, if_pos hc] at h
    have := ih h
    rw [List.length_cons]
    omega
  | case5 c d rest hc ih =>
    rw [fromhexChars, if_neg hc] at h
    simp only [Option.bind_eq_bind, Option.bind_eq_some_iff] at h
    obtain ⟨hi, -, lo, -, tl, htl, hbs⟩ := h
    cases hbs
    have := ih htl
    simp only [List.length_cons]
    omega

/-- A digit that is its own lower case is the one `bytes.hex()` writes. -/
theorem eq_hexDigit_of_lower {c : Char} {v : Nat} (h : hexVal? c = some v)
    (hlower : lowerChar c = c) : c = hexDigit v := by
  rcases (hexVal?_isSome_iff c).1 (by rw [h]; rfl) with hc | hc | hc
  · obtain ⟨n, hn, rfl⟩ : ∃ n, n < 10 ∧ c = Char.ofNat (48 + n) :=
      ⟨c.toNat - 48, by omega, by rw [show 48 + (c.toNat - 48) = c.toNat by omega, Char.ofNat_toNat]⟩
    have hall : ∀ m, m < 10 → hexVal? (Char.ofNat (48 + m)) = some m := by decide
    rw [hall n hn] at h
    obtain rfl := Option.some.inj h
    rw [hexDigit, if_pos hn]
  · obtain ⟨n, hn, rfl⟩ : ∃ n, n < 6 ∧ c = Char.ofNat (97 + n) :=
      ⟨c.toNat - 97, by omega, by rw [show 97 + (c.toNat - 97) = c.toNat by omega, Char.ofNat_toNat]⟩
    have hall : ∀ m, m < 6 → hexVal? (Char.ofNat (97 + m)) = some (10 + m) := by decide
    rw [hall n hn] at h
    obtain rfl := Option.some.inj h
    rw [hexDigit, if_neg (by omega), show 87 + (10 + n) = 97 + n by omega]
  · obtain ⟨n, hn, rfl⟩ : ∃ n, n < 6 ∧ c = Char.ofNat (65 + n) :=
      ⟨c.toNat - 65, by omega, by rw [show 65 + (c.toNat - 65) = c.toNat by omega, Char.ofNat_toNat]⟩
    have hall : ∀ m, m < 6 → lowerChar (Char.ofNat (65 + m)) ≠ Char.ofNat (65 + m) := by decide
    exact absurd hlower (hall n hn)

theorem eq_hexChars_of_fromhexChars {cs : List Char} {bs : Bytes}
    (h : fromhexChars cs = some bs) (hlen : cs.length = 2 * bs.length)
    (hlower : ∀ c ∈ cs, lowerChar c = c) : cs = hexChars bs := by
  induction cs using fromhexChars.induct generalizing bs with
  | case1 => cases h; rfl
  | case2 c hc =>
    have := length_of_fromhexChars h
    rw [List.length_singleton] at hlen
    omega
  | case3 c hc => simp [fromhexChars, hc] at h
  | case4 c d rest hc ih =>
    -- a blank leaves fewer than two characters for each byte
    rw [fromhexChars, if_pos hc] at h
    have := length_of_fromhexChars h
    rw [List.length_cons] at hlen
    omega
  | case5 c d rest hc ih =>
    rw [fromhexChars, if_neg hc] at h
    simp only [Option.bind_eq_bind, Option.bind_eq_some_iff] at h
    obtain ⟨hi, hhi, lo, hlo, tl, htl, hbs⟩ := h
    cases hbs
    simp only [List.mem_cons, forall_eq_or_imp] at hlower
    obtain ⟨hc1, hd1, hrest⟩ := hlower
    have hhi16 := hexVal?_lt hhi
    have hlo16 := hexVal?_lt hlo
    have hbyte : (UInt8.ofNat (16 * hi + lo)).toNat = 16 * hi + lo :=
      UInt8.toNat_ofNat_of_lt' (show 16 * hi + lo < 256 by omega)
    have htail := ih htl (by simp only [List.length_cons] at hlen; omega) hrest
    rw [hexChars_cons, hbyte, show (16 * hi + lo) / 16 = hi by omega,
      show (16 * hi + lo) % 16 = lo by omega, ← eq_hexDigit_of_lower hhi hc1,
      ← eq_hexDigit_of_lower hlo hd1, ← htail]

/-- A text is in lower case when each of its characters is. -/
theorem lower_eq_self_iff {s : String} : lower s = s ↔ ∀ c ∈ s.toList, lowerChar c = c := by
  constructor
  · intro h c hc
    have hmap : s.toList.map lowerChar = s.toList := by
      have := congrArg String.toList h
      rwa [lower, String.toList_ofList] at this
    obtain ⟨i, hi, rfl⟩ := List.getElem_of_mem hc
    have := congrArg (fun l => l[i]?) hmap
    simpa [List.getElem?_eq_getElem hi] using this
  · intro h
    rw [lower, List.map_congr_left h, List.map_id', String.ofList_toList]

/-- A lower-case text with two characters for each of its bytes is what `bytes.hex()` writes. -/
theorem eq_hex_of_fromhex {s : String} {bs : Bytes} (h : fromhex s = some bs)
    (hlen : s.length = 2 * bs.length) (hlower : lower s = s) : s = hex bs := by
  rw [hex, ← eq_hexChars_of_fromhexChars h (by rwa [String.length_toList])
    (lower_eq_self_iff.1 hlower), String.ofList_toList]

/-- A text that is given by its digits is the text of bytes. The digits of a literal are found by
    unification, and no text is computed with. -/
theorem exists_hex_of_chars {text : String} {cs : List Char} {n : Nat} (htext : text = String.ofList cs)
    (h : ((fromhexChars cs).any fun bs => bs.length = n && hexChars bs = cs) = true) :
    ∃ bs : Bytes, bs.length = n ∧ hex bs = text := by
  obtain ⟨bs, -, hbs⟩ := (Option.any_eq_true _ _).1 h
  rw [Bool.and_eq_true, decide_eq_true_eq, decide_eq_true_eq] at hbs
  exact ⟨bs, hbs.1, by rw [htext, ← hbs.2]; rfl⟩

theorem fromhexChars_blanks {blanks : List Char} (hblanks : ∀ c ∈ blanks, c = ' ') :
    fromhexChars blanks = some [] := by
  have hspace : isAsciiSpace ' ' = true := by decide
  induction blanks with
  | nil => rfl
  | cons c rest ih =>
    rw [hblanks c List.mem_cons_self]
    cases rest with
    | nil => rw [fromhexChars, if_pos hspace]
    | cons d rest =>
      rw [fromhexChars, if_pos hspace]
      exact ih fun e he => hblanks e (List.mem_cons_of_mem _ he)

/-- Blanks behind a hexadecimal text do not count. -/
theorem fromhexChars_of_append_blanks {cs blanks : List Char} {bs : Bytes}
    (hblanks : ∀ c ∈ blanks, c = ' ') (h : fromhexChars (cs ++ blanks) = some bs) :
    fromhexChars cs = some bs := by
  induction cs using fromhexChars.induct generalizing bs with
  | case1 =>
    rw [List.nil_append, fromhexChars_blanks hblanks] at h
    exact h
  | case2 c hc =>
    cases blanks with
    | nil => exact h
    | cons d rest =>
      rw [List.singleton_append, fromhexChars, if_pos hc, fromhexChars_blanks hblanks] at h
      rw [fromhexChars, if_pos hc]
      exact h
  | case3 c hc =>
    cases blanks with
    | nil => exact h
    | cons d rest =>
      have hd : hexVal? ' ' = none := by decide
      rw [List.singleton_append, fromhexChars, if_neg hc, hblanks d List.mem_cons_self, hd] at h
      simp at h
  | case4 c d rest hc ih =>
    rw [List.cons_append, List.cons_append, fromhexChars, if_pos hc] at h
    rw [fromhexChars, if_pos hc]
    exact ih h
  | case5 c d rest hc ih =>
    rw [List.cons_append, List.cons_append, fromhexChars, if_neg hc] at h
    rw [fromhexChars, if_neg hc]
    simp only [Option.bind_eq_bind, Option.bind_eq_some_iff, Option.pure_def,
      Option.some.injEq] at h ⊢
    obtain ⟨hi, hhi, lo, hlo, tail, htail, rfl⟩ := h
    exact ⟨hi, hhi, lo, hlo, tail, ih htail, rfl⟩

/-- The bytes that `fromhex` returns are written by the digits of the text. -/
theorem hexValue_filter_of_fromhexChars {cs : List Char} {bs : Bytes}
    (h : fromhexChars cs = some bs) (acc : Nat) :
    hexValue (cs.filter (fun c => !isAsciiSpace c)) acc = some (bytesValue bs acc) := by
  induction cs using fromhexChars.induct generalizing bs acc with
  | case1 => cases h; rfl
  | case2 c hc =>
    rw [fromhexChars, if_pos hc] at h
    cases h
    simp [hc, hexValue, bytesValue]
  | case3 c hc => simp [fromhexChars, hc] at h
  | case4 c d rest hc ih =>
    rw [fromhexChars, if_pos hc] at h
    rw [List.filter_cons_of_neg (by simp [hc])]
    exact ih h acc
  | case5 c d rest hc ih =>
    rw [fromhexChars, if_neg hc] at h
    simp only [Option.bind_eq_bind, Option.bind_eq_some_iff] at h
    obtain ⟨hi, hhi, lo, hlo, tl, htl, hbs⟩ := h
    cases hbs
    have hd : isAsciiSpace d = false := by
      by_contra hd
      have h1 := isSpace_of_isAsciiSpace (Bool.eq_true_of_not_eq_false hd)
      rw [isSpace_of_hexVal? (by rw [hlo]; rfl)] at h1
      exact Bool.false_ne_true h1
    rw [List.filter_cons_of_pos (by simp [hc]), List.filter_cons_of_pos (by simp [hd])]
    simp only [hexValue, hhi, hlo, Option.bind_eq_bind, Option.bind_some, ih htl, bytesValue]
    have hhi16 := hexVal?_lt hhi
    have hlo16 := hexVal?_lt hlo
    congr 2
    have hbyte : (UInt8.ofNat (16 * hi + lo)).toNat = 16 * hi + lo :=
      UInt8.toNat_ofNat_of_lt' (show 16 * hi + lo < 256 by omega)
    omega

theorem isSome_of_hexValue {cs : List Char} {acc n : Nat} (h : hexValue cs acc = some n) :
    ∀ c ∈ cs, (hexVal? c).isSome := by
  induction cs generalizing acc with
  | nil => simp
  | cons c cs ih =>
    simp only [hexValue, Option.bind_eq_bind, Option.bind_eq_some_iff] at h
    obtain ⟨v, hv, h⟩ := h
    intro e he
    rcases List.mem_cons.1 he with rfl | he
    · rw [hv]; rfl
    · exact ih h e he

/-- Where `bytes.fromhex` and `int(text, 16)` both read a text, they read the same number. -/
theorem value_eq_of_fromhex {s : String} {bs : Bytes} {n : Nat} (hb : fromhex s = some bs)
    (hn : intBase16 s = some n) : n = bytesValue bs 0 := by
  have hv : hexValue (trim isSpace s.toList) 0 = some n := by
    revert hn
    rw [intBase16]
    split
    · simp
    · exact id
  obtain ⟨pre, suf, hs, hpre, hsuf⟩ := exists_trim_eq isSpace s.toList
  have hmem := mem_of_fromhexChars hb
  have hblank : ∀ cs : List Char, (∀ c ∈ cs, isSpace c = true) → (∀ c ∈ cs, c ∈ s.toList) →
      cs.filter (fun c => !isAsciiSpace c) = [] := by
    intro cs hsp hin
    rw [List.filter_eq_nil_iff]
    intro c hc
    rcases hmem c (hin c hc) with h | h
    · simp [h]
    · have h1 := hsp c hc
      rw [isSpace_of_hexVal? h] at h1
      exact absurd h1 Bool.false_ne_true
  have hdig : (trim isSpace s.toList).filter (fun c => !isAsciiSpace c) = trim isSpace s.toList := by
    rw [List.filter_eq_self]
    intro c hc
    by_contra hsp
    have h1 := isSpace_of_isAsciiSpace (by simpa using hsp)
    rw [isSpace_of_hexVal? (isSome_of_hexValue hv c hc)] at h1
    exact Bool.false_ne_true h1
  have hfil := hexValue_filter_of_fromhexChars hb 0
  have hin : ∀ c, c ∈ pre ∨ c ∈ suf → c ∈ s.toList := by
    intro c hc
    rw [hs]
    simp only [List.mem_append]
    tauto
  rw [hs, List.filter_append, List.filter_append, hblank pre hpre (fun c hc => hin c (Or.inl hc)),
    hblank suf hsuf (fun c hc => hin c (Or.inr hc)), hdig, List.nil_append, List.append_nil] at hfil
  exact Option.some.inj (hv.symm.trans hfil)

end Text
