import InternationalDollar.BinaryReader

set_option autoImplicit false

/-! # Minimal numbers (`binary_v3`)

The bounded groups in which the model writes a number are those of the source's loop, and the loops of
the writer and the reader invert each other: no other byte string than the written one is read. -/

namespace BinaryV3

/-- The loop of `encode_uvarint`. -/
def uvarintLoop (value : Nat) : Bytes :=
  let byte := value &&& 0x7f
  let rest := value >>> 7
  if rest ≠ 0 then UInt8.ofNat (byte ||| 0x80) :: uvarintLoop rest
  else [UInt8.ofNat byte]
termination_by value
decreasing_by
  rw [Nat.shiftRight_eq_div_pow] at *
  omega

/-- The bound on the number of groups is never reached: the groups are those of the loop. -/
theorem leb128_eq_uvarintLoop (fuel : Nat) {n : Nat} (hn : n < 128 ^ (fuel + 1)) :
    Codec.leb128 fuel n = uvarintLoop n := by
  induction fuel generalizing n with
  | zero =>
    rw [zero_add, pow_one] at hn
    have hrest : n >>> 7 = 0 := by
      rw [Nat.shiftRight_eq_div_pow]
      omega
    rw [uvarintLoop, Codec.leb128, hrest]
    simp only [ne_eq, not_true_eq_false, if_false, Reader.and_low]
  | succ fuel ih =>
    have hrest : n >>> 7 = n / 128 := Nat.shiftRight_eq_div_pow n 7
    rw [uvarintLoop, Codec.leb128]
    simp only [Reader.and_low, hrest]
    by_cases hsmall : n < 128
    · rw [if_pos hsmall, if_neg (by omega), Nat.mod_eq_of_lt hsmall]
    · -- The marker bit stands above the seven bits of the group.
      have hmarked : n % 128 ||| 0x80 = n % 128 + 128 := by
        have hor := @Reader.or_shiftLeft (n % 128) 1 7 (Nat.mod_lt n (by decide))
        rw [Nat.shiftLeft_eq, one_mul] at hor
        exact hor
      have hdiv : n / 128 < 128 ^ (fuel + 1) := by
        rw [Nat.div_lt_iff_lt_mul (by decide), ← pow_succ]
        exact hn
      rw [if_neg hsmall, if_pos (by omega), hmarked, ih hdiv]

/-- `encode_uvarint` with the loop of the source. -/
theorem encodeUvarint_eq_loop {value : Int} (h0 : 0 ≤ value) (h1 : value ≤ maxProtocolTimestamp) :
    encodeUvarint value = .ok (uvarintLoop value.toNat) := by
  have hbig : maxProtocolTimestamp.toNat < 128 ^ (9 + 1) := by decide +kernel
  rw [encodeUvarint_eq_ok]
  exact ⟨⟨h0, h1⟩, leb128_eq_uvarintLoop 9 (lt_of_le_of_lt (Int.toNat_le_toNat h1) hbig)⟩

namespace Reader

/-- **Numbers have one form.** What is written for a number is read back in front of any bytes, and
what is read is what is written for the number returned. -/
theorem readUvarint_inverts_encodeUvarint (label : String) :
    (∀ n : Int, 0 ≤ n → n ≤ maxProtocolTimestamp →
      encodeUvarint n = .ok (uvarintLoop n.toNat) ∧
      ∀ s : Bytes, readUvarint label (uvarintLoop n.toNat ++ s) = .ok (n, s)) ∧
    ∀ (input rest : Bytes) (n : Int), readUvarint label input = .ok (n, rest) →
      ∃ consumed, input = consumed ++ rest ∧ encodeUvarint n = .ok consumed ∧
        0 ≤ n ∧ n ≤ maxProtocolTimestamp ∧ consumed.length ≤ 10 := by
  refine ⟨fun n h0 h1 => ?_, fun input rest n h => ?_⟩
  · have hraw := encodeUvarint_eq_loop h0 h1
    exact ⟨hraw, fun s => readUvarint_eq_ok.2 ⟨_, hraw, rfl⟩⟩
  · obtain ⟨raw, hraw, rfl⟩ := readUvarint_eq_ok.1 h
    obtain ⟨⟨h0, h1⟩, -⟩ := encodeUvarint_eq_ok.1 hraw
    obtain ⟨_, hfits, hlen⟩ := fits_encodeUvarint n h0 h1
    obtain rfl := Except.ok.inj (hraw.symm.trans hfits)
    exact ⟨_, rfl, hraw, h0, h1, hlen⟩

end Reader

/-- `decode_uvarint`. -/
def decodeUvarint (data : Bytes) : Except WireError Int := do
  let (value, rest) ← Reader.readUvarint "uvarint" data
  if rest = [] then pure value else .error (.binary "trailing bytes")

/-- A whole byte string is read exactly as the number it is the written form of. -/
theorem decodeUvarint_eq_ok {data : Bytes} {n : Int} :
    decodeUvarint data = .ok n ↔ encodeUvarint n = .ok data := by
  unfold decodeUvarint
  constructor
  · intro h
    cases hread : Reader.readUvarint "uvarint" data with
    | error error =>
      rw [hread] at h
      exact nomatch h
    | ok found =>
      obtain ⟨value, rest⟩ := found
      obtain ⟨raw, hraw, rfl⟩ := Reader.readUvarint_eq_ok.1 hread
      rw [hread] at h
      change (if rest = [] then Except.ok value else .error _) = .ok n at h
      by_cases hrest : rest = []
      · rw [if_pos hrest] at h
        obtain rfl := Except.ok.inj h
        rw [hrest, List.append_nil]
        exact hraw
      · rw [if_neg hrest] at h
        exact nomatch h
  · intro h
    have hread := (@Reader.readUvarint_eq_ok "uvarint" data [] n).2
      ⟨data, h, (List.append_nil data).symm⟩
    rw [hread]
    rfl

end BinaryV3
