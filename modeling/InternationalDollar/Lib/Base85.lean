import InternationalDollar.Lib.Text
import Mathlib.Data.List.GetD
import Mathlib.Tactic.NormNum

set_option autoImplicit false

/-! # Base 85

`base64.b85encode` and `base64.b85decode`: four bytes become five digits, a shorter last group is
padded and the padding cut off again. Decoding rejects foreign characters and groups that overflow
32 bits. -/

namespace Base85

/-- The digits of base 85 in order. -/
def alphabet : List Char :=
  "0123456789ABCDEFGHIJKLMNOPQRSTUVWXYZabcdefghijklmnopqrstuvwxyz!#$%&()*+-;<=>?@^_`\x7b|\x7d~".toList

/-- The character of a digit. -/
def digitChar (d : Nat) : Char :=
  alphabet.getD d '0'

/-- The digit of a character. -/
def digitOf (c : Char) : Option Nat :=
  alphabet.idxOf? c

/-- The five digits of a 32-bit number. -/
def groupChars (n : Nat) : List Char :=
  [digitChar (n / 52200625 % 85), digitChar (n / 614125 % 85), digitChar (n / 7225 % 85),
    digitChar (n / 85 % 85), digitChar (n % 85)]

/-- The four bytes of a 32-bit number. -/
def groupBytes (n : Nat) : Bytes :=
  [UInt8.ofNat (n / 16777216), UInt8.ofNat (n / 65536), UInt8.ofNat (n / 256), UInt8.ofNat n]

/-- Encode group by group, padding the last one with zero bytes. -/
def encodeGroups : Bytes → List Char
  | a :: b :: c :: d :: rest => groupChars (Text.bytesValue [a, b, c, d] 0) ++ encodeGroups rest
  | [] => []
  | [a] => groupChars (Text.bytesValue [a, 0, 0, 0] 0)
  | [a, b] => groupChars (Text.bytesValue [a, b, 0, 0] 0)
  | [a, b, c] => groupChars (Text.bytesValue [a, b, c, 0] 0)

/-- `base64.b85encode(data)`. -/
def b85encode (data : Bytes) : List Char :=
  let chars := encodeGroups data
  chars.take (chars.length - (4 - data.length % 4) % 4)

/-- The number five characters write. -/
def groupValue (a b c d e : Char) : Option Nat := do
  let a ← digitOf a
  let b ← digitOf b
  let c ← digitOf c
  let d ← digitOf d
  let e ← digitOf e
  let n := (((a * 85 + b) * 85 + c) * 85 + d) * 85 + e
  if n < 4294967296 then pure n else none

/-- Decode whole groups of five characters. -/
def decodeGroups : List Char → Option Bytes
  | a :: b :: c :: d :: e :: rest => do
      let n ← groupValue a b c d e
      let tail ← decodeGroups rest
      pure (groupBytes n ++ tail)
  | [] => some []
  | _ => none

/-- `base64.b85decode(text)`; `none` where it raises. -/
def b85decode (chars : List Char) : Option Bytes :=
  let padding := (5 - chars.length % 5) % 5
  (decodeGroups (chars ++ List.replicate padding '~')).map (fun data =>
    data.take (data.length - padding))

/-! ## Round trip -/

theorem digitOf_digitChar {d : Nat} (h : d < 85) : digitOf (digitChar d) = some d := by
  have hall : ∀ e : Fin 85, digitOf (digitChar e) = some e.val := by decide +kernel
  exact hall ⟨d, h⟩

theorem groupValue_groupChars {n : Nat} (h : n < 4294967296) :
    groupValue (digitChar (n / 52200625 % 85)) (digitChar (n / 614125 % 85))
      (digitChar (n / 7225 % 85)) (digitChar (n / 85 % 85)) (digitChar (n % 85)) = some n := by
  have hn : (((n / 52200625 % 85 * 85 + n / 614125 % 85) * 85 + n / 7225 % 85) * 85
      + n / 85 % 85) * 85 + n % 85 = n := by omega
  simp only [groupValue, digitOf_digitChar (Nat.mod_lt _ (show 85 > 0 by omega)),
    Option.bind_eq_bind, Option.bind_some, hn, if_pos h]
  rfl

theorem groupBytes_bytesValue (a b c d : UInt8) :
    groupBytes (Text.bytesValue [a, b, c, d] 0) = [a, b, c, d] := by
  have ha := a.toNat_lt
  have hb := b.toNat_lt
  have hc := c.toNat_lt
  have hd := d.toNat_lt
  have hbyte : ∀ (x : UInt8) (n : Nat), n % 256 = x.toNat → UInt8.ofNat n = x := by
    intro x n hx
    rw [← UInt8.toNat_inj, UInt8.toNat_ofNat', hx]
  simp only [groupBytes, Text.bytesValue]
  rw [hbyte a _ (by omega), hbyte b _ (by omega), hbyte c _ (by omega), hbyte d _ (by omega)]

theorem length_groupChars (n : Nat) : (groupChars n).length = 5 := rfl

theorem length_of_decodeGroups {cs : List Char} {data : Bytes} (h : decodeGroups cs = some data) :
    data.length * 5 = cs.length * 4 := by
  induction cs using decodeGroups.induct generalizing data with
  | case1 a b c d e rest ih =>
    simp only [decodeGroups, Option.bind_eq_bind, Option.bind_eq_some_iff, Option.pure_def,
      Option.some.injEq] at h
    obtain ⟨n, -, tail, htail, rfl⟩ := h
    have := ih htail
    simp only [groupBytes, List.length_append, List.length_cons, List.length_nil]
    omega
  | case2 => cases h; rfl
  | case3 cs h1 h2 =>
    rw [decodeGroups.eq_def] at h
    split at h
    · exact absurd rfl (h1 _ _ _ _ _ _)
    · exact absurd rfl h2
    · cases h

/-- A whole group is decoded by itself. -/
theorem b85decode_groupChars {n : Nat} (h : n < 4294967296) (cs : List Char) :
    b85decode (groupChars n ++ cs) = (b85decode cs).map (groupBytes n ++ ·) := by
  have hpad : (5 - (groupChars n ++ cs).length % 5) % 5 = (5 - cs.length % 5) % 5 := by
    rw [List.length_append, length_groupChars]
    omega
  rw [b85decode, b85decode, hpad, List.append_assoc]
  have hgroup : ∀ rest, decodeGroups (groupChars n ++ rest)
      = (decodeGroups rest).map (groupBytes n ++ ·) := by
    intro rest
    simp only [groupChars, List.cons_append, List.nil_append, decodeGroups, groupValue_groupChars h,
      Option.bind_eq_bind, Option.bind_some]
    cases decodeGroups rest <;> rfl
  rw [hgroup]
  cases hrest : decodeGroups (cs ++ List.replicate ((5 - cs.length % 5) % 5) '~') with
  | none => rfl
  | some data =>
    have hlen := length_of_decodeGroups hrest
    have hbytes : (groupBytes n).length = 4 := rfl
    rw [List.length_append, List.length_replicate] at hlen
    simp only [Option.map_some, Option.some.injEq, List.length_append, hbytes]
    rw [Nat.add_sub_assoc (by omega), ← hbytes, List.take_length_add_append]

theorem length_encodeGroups (data : Bytes) :
    (encodeGroups data).length = (data.length + 3) / 4 * 5 := by
  induction data using encodeGroups.induct with
  | case1 a b c d rest ih =>
    rw [encodeGroups, List.length_append, ih, length_groupChars]
    simp only [List.length_cons]
    omega
  | case2 => rfl
  | case3 a | case4 a b | case5 a b c => simp [encodeGroups, groupChars]

theorem b85encode_group (a b c d : UInt8) (rest : Bytes) :
    b85encode (a :: b :: c :: d :: rest)
      = groupChars (Text.bytesValue [a, b, c, d] 0) ++ b85encode rest := by
  have hlen := length_encodeGroups rest
  have hcut : (a :: b :: c :: d :: rest).length % 4 = rest.length % 4 := by
    simp only [List.length_cons]
    omega
  simp only [b85encode, encodeGroups, hcut, List.length_append, length_groupChars]
  rw [Nat.add_sub_assoc (by omega), ← length_groupChars (Text.bytesValue [a, b, c, d] 0),
    List.take_length_add_append]

/-- The padding of the decoder writes another number in the last group, whose first digits are those of
    the encoder. -/
theorem groupChars_padded (n : Nat) :
    (groupChars n).take 2 ++ List.replicate 3 '~' = groupChars (n / 614125 * 614125 + 614124) ∧
      (groupChars n).take 3 ++ List.replicate 2 '~' = groupChars (n / 7225 * 7225 + 7224) ∧
      (groupChars n).take 4 ++ List.replicate 1 '~' = groupChars (n / 85 * 85 + 84) := by
  have htilde : '~' = digitChar 84 := by decide
  simp only [htilde, groupChars, List.take, List.replicate, List.nil_append, List.cons_append,
    List.cons.injEq, and_true]
  refine ⟨⟨?_, ?_, ?_, ?_, ?_⟩, ⟨?_, ?_, ?_, ?_, ?_⟩, ⟨?_, ?_, ?_, ?_, ?_⟩⟩
  all_goals exact congrArg digitChar (by omega)

/-- A last group of fewer bytes: the padded number has the same bytes in front. -/
theorem b85decode_lastGroup {last : Bytes} {m : Nat}
    (hchars : b85encode last ++ List.replicate ((5 - (b85encode last).length % 5) % 5) '~'
      = groupChars m) (hlt : m < 4294967296)
    (hbytes : (groupBytes m).take (4 - (5 - (b85encode last).length % 5) % 5) = last) :
    b85decode (b85encode last) = some last := by
  have hdecode : decodeGroups (groupChars m) = some (groupBytes m) := by
    simp only [groupChars, decodeGroups, groupValue_groupChars hlt, Option.bind_eq_bind,
      Option.bind_some]
    rfl
  rw [b85decode, hchars, hdecode]
  exact congrArg some hbytes

/-- What is encoded is decoded again. -/
theorem b85decode_b85encode (data : Bytes) : b85decode (b85encode data) = some data := by
  have hzero : (0 : UInt8).toNat = 0 := rfl
  have hbyte : ∀ (x : UInt8) (n : Nat), n % 256 = x.toNat → UInt8.ofNat n = x := by
    intro x n hx
    rw [← UInt8.toNat_inj, UInt8.toNat_ofNat', hx]
  have hpadded : ∀ n p : Nat, 0 < p → ∃ m, m = n / p * p + (p - 1) ∧ n ≤ m ∧ m < n + p := by
    intro n p hp
    have hdiv := Nat.div_add_mod' n p
    have hmod := Nat.mod_lt n hp
    exact ⟨_, rfl, by omega, by omega⟩
  induction data using encodeGroups.induct with
  | case1 a b c d rest ih =>
    have hlt : Text.bytesValue [a, b, c, d] 0 < 4294967296 := by
      have := Text.bytesValue_lt [a, b, c, d]
      norm_num at this
      exact this
    rw [b85encode_group, b85decode_groupChars hlt, ih, Option.map_some, groupBytes_bytesValue]
    rfl
  | case2 => rfl
  | case3 a =>
    have ha := a.toNat_lt
    refine b85decode_lastGroup (groupChars_padded (Text.bytesValue [a, 0, 0, 0] 0)).1 ?_ ?_
    · simp only [Text.bytesValue, hzero]
      omega
    · obtain ⟨m, hm, hlow, hhigh⟩ := hpadded (Text.bytesValue [a, 0, 0, 0] 0) 614125 (by omega)
      change List.take 1 (groupBytes _) = [a]
      simp only [Text.bytesValue, hzero] at hlow hhigh
      rw [← hm]
      clear hm
      rw [groupBytes, List.take, List.take, hbyte a _ (by omega)]
  | case4 a b =>
    have ha := a.toNat_lt
    have hb := b.toNat_lt
    refine b85decode_lastGroup (groupChars_padded (Text.bytesValue [a, b, 0, 0] 0)).2.1 ?_ ?_
    · simp only [Text.bytesValue, hzero]
      omega
    · obtain ⟨m, hm, hlow, hhigh⟩ := hpadded (Text.bytesValue [a, b, 0, 0] 0) 7225 (by omega)
      change List.take 2 (groupBytes _) = [a, b]
      simp only [Text.bytesValue, hzero] at hlow hhigh
      rw [← hm]
      clear hm
      rw [groupBytes, List.take, List.take, List.take, hbyte a _ (by omega),
        hbyte b _ (by omega)]
  | case5 a b c =>
    have ha := a.toNat_lt
    have hb := b.toNat_lt
    have hc := c.toNat_lt
    refine b85decode_lastGroup (groupChars_padded (Text.bytesValue [a, b, c, 0] 0)).2.2 ?_ ?_
    · simp only [Text.bytesValue, hzero]
      omega
    · obtain ⟨m, hm, hlow, hhigh⟩ := hpadded (Text.bytesValue [a, b, c, 0] 0) 85 (by omega)
      change List.take 3 (groupBytes _) = [a, b, c]
      simp only [Text.bytesValue, hzero] at hlow hhigh
      rw [← hm]
      clear hm
      rw [groupBytes, List.take, List.take, List.take, List.take, hbyte a _ (by omega),
        hbyte b _ (by omega), hbyte c _ (by omega)]

theorem b85encode_eq {data : Bytes} (h : data.length % 4 = 0) :
    b85encode data = encodeGroups data := by
  simp [b85encode, h]

theorem digitChar_mem (d : Nat) : digitChar d ∈ alphabet := by
  rw [digitChar]
  by_cases h : d < alphabet.length
  · rw [List.getD_eq_getElem _ _ h]
    exact List.getElem_mem h
  · rw [List.getD_eq_default _ _ (by omega)]
    decide +kernel

theorem b85encode_mem (data : Bytes) : ∀ c ∈ b85encode data, c ∈ alphabet := by
  have hgroup : ∀ (n : Nat), ∀ c ∈ groupChars n, c ∈ alphabet := by
    intro n c hc
    simp only [groupChars, List.mem_cons, List.not_mem_nil, or_false] at hc
    rcases hc with rfl | rfl | rfl | rfl | rfl
    all_goals exact digitChar_mem _
  intro c hc
  have hmem := List.mem_of_mem_take hc
  clear hc
  induction data using encodeGroups.induct with
  | case1 a b c' d rest ih =>
    rw [encodeGroups, List.mem_append] at hmem
    rcases hmem with hmem | hmem
    · exact hgroup _ c hmem
    · exact ih hmem
  | case2 => simp [encodeGroups] at hmem
  | case3 a => exact hgroup _ c hmem
  | case4 a b => exact hgroup _ c hmem
  | case5 a b d => exact hgroup _ c hmem

end Base85
