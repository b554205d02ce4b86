import InternationalDollar.Lib.Text
import Mathlib.Data.List.GetD
import Mathlib.Tactic.NormNum

set_option autoImplicit false

/-! # Base 58

The usual base-58 text of a byte string: a `1` for every leading zero byte, then the digits of the
number the bytes write. Besides the encoder this file bounds the length of the text in both
directions, which is what fixed-width address formats rely on. -/

namespace Base58

/-- The digits of base 58 in order. -/
def alphabet : List Char :=
  "123456789ABCDEFGHJKLMNPQRSTUVWXYZabcdefghijkmnopqrstuvwxyz".toList

/-- The character of a digit. -/
def digitChar (d : Nat) : Char :=
  alphabet.getD d '1'

/-- Put the digits of `n` before `acc`; `fuel` bounds their number. -/
def prependDigits : Nat → Nat → List Char → List Char
  | 0, _, acc => acc
  | fuel + 1, n, acc => if n = 0 then acc else prependDigits fuel (n / 58) (digitChar (n % 58) :: acc)

/-- `base58.b58encode`. Two digits per byte suffice, as `256 < 58 ^ 2`. -/
def b58encode (data : Bytes) : List Char :=
  List.replicate (data.takeWhile (fun b => b = 0)).length '1' ++
    prependDigits (2 * data.length) (Text.bytesValue data 0) []

theorem digitChar_mem {d : Nat} (h : d < 58) : digitChar d ∈ alphabet := by
  have hlen : alphabet.length = 58 := by decide +kernel
  rw [digitChar, List.getD_eq_getElem _ _ (by omega)]
  exact List.getElem_mem _

theorem prependDigits_mem (fuel n : Nat) (acc : List Char) (hacc : ∀ c ∈ acc, c ∈ alphabet) :
    ∀ c ∈ prependDigits fuel n acc, c ∈ alphabet := by
  induction fuel generalizing n acc with
  | zero => exact hacc
  | succ fuel ih =>
    rw [prependDigits]
    split
    · exact hacc
    · refine ih (n / 58) _ (fun c hc => ?_)
      rcases List.mem_cons.1 hc with rfl | hc
      · exact digitChar_mem (Nat.mod_lt n (by omega))
      · exact hacc c hc

theorem b58encode_mem (data : Bytes) : ∀ c ∈ b58encode data, c ∈ alphabet := by
  intro c hc
  rcases List.mem_append.1 hc with hc | hc
  · rw [List.eq_of_mem_replicate hc]
    decide +kernel
  · exact prependDigits_mem _ _ [] (by simp) c hc

/-- A number below `58 ^ k` has at most `k` digits. -/
theorem length_prependDigits_le (fuel k n : Nat) (acc : List Char) (h : n < 58 ^ k) :
    (prependDigits fuel n acc).length ≤ k + acc.length := by
  induction fuel generalizing k n acc with
  | zero => exact Nat.le_add_left _ _
  | succ fuel ih =>
    rw [prependDigits]
    split
    · exact Nat.le_add_left _ _
    · next hn =>
      cases k with
      | zero => omega
      | succ k =>
        have hlt : n / 58 < 58 ^ k := by
          rw [Nat.div_lt_iff_lt_mul (by omega), ← pow_succ]
          exact h
        have := ih k (n / 58) (digitChar (n % 58) :: acc) hlt
        rw [List.length_cons] at this
        omega

/-- A number from `58 ^ k` on has more than `k` digits. -/
theorem lt_length_prependDigits (fuel k n : Nat) (acc : List Char) (hfuel : k < fuel)
    (h : 58 ^ k ≤ n) : k + acc.length < (prependDigits fuel n acc).length := by
  induction fuel generalizing k n acc with
  | zero => omega
  | succ fuel ih =>
    have hn : n ≠ 0 := by
      have : 0 < 58 ^ k := Nat.pow_pos (by omega)
      omega
    rw [prependDigits, if_neg hn]
    cases k with
    | zero =>
      have hgrow : ∀ (f m : Nat) (l : List Char), l.length ≤ (prependDigits f m l).length := by
        intro f
        induction f with
        | zero => exact fun m l => le_rfl
        | succ f ihf =>
          intro m l
          rw [prependDigits]
          split
          · exact le_rfl
          · have := ihf (m / 58) (digitChar (m % 58) :: l)
            rw [List.length_cons] at this
            omega
      have := hgrow fuel (n / 58) (digitChar (n % 58) :: acc)
      rw [List.length_cons] at this
      omega
    | succ k =>
      have hle : 58 ^ k ≤ n / 58 := by
        rw [Nat.le_div_iff_mul_le (by omega), ← pow_succ]
        exact h
      have := ih k (n / 58) (digitChar (n % 58) :: acc) (by omega) hle
      rw [List.length_cons] at this
      omega

/-- A byte string is its leading zeros and the rest, and both write one number. -/
theorem bytesValue_dropWhile (data : Bytes) :
    Text.bytesValue data 0 = Text.bytesValue (data.dropWhile (fun b => b = 0)) 0 := by
  induction data with
  | nil => rfl
  | cons b bs ih =>
    by_cases hb : b = 0
    · subst hb
      rw [List.dropWhile_cons_of_pos (by simp), ← ih]
      rfl
    · rw [List.dropWhile_cons_of_neg (by simpa using hb)]

/-- The text is never shorter than the byte string. -/
theorem length_le_length_b58encode (data : Bytes) : data.length ≤ (b58encode data).length := by
  have hsplit := congrArg List.length
    (List.takeWhile_append_dropWhile (p := fun b => decide (b = 0)) (l := data))
  rw [List.length_append] at hsplit
  rw [b58encode, List.length_append, List.length_replicate, bytesValue_dropWhile]
  cases hrest : data.dropWhile (fun b => decide (b = 0)) with
  | nil =>
    rw [hrest, List.length_nil] at hsplit
    omega
  | cons b rest =>
    have hb : b ≠ 0 := by
      have := List.head_dropWhile_not (p := fun b => decide (b = 0)) (l := data)
        (by rw [hrest]; simp)
      simp only [hrest, List.head_cons, decide_eq_false_iff_not] at this
      exact this
    have hpos : 1 ≤ b.toNat := by
      rcases Nat.eq_zero_or_pos b.toNat with h | h
      · exact absurd (UInt8.toNat_inj.1 (by rw [h]; rfl)) hb
      · exact h
    have hvalue : 58 ^ rest.length ≤ Text.bytesValue (b :: rest) 0 := by
      rw [Text.bytesValue_cons]
      calc 58 ^ rest.length ≤ 256 ^ rest.length := Nat.pow_le_pow_left (by omega) _
        _ ≤ b.toNat * 256 ^ rest.length := Nat.le_mul_of_pos_left _ hpos
        _ ≤ _ := Nat.le_add_right _ _
    rw [hrest, List.length_cons] at hsplit
    have := lt_length_prependDigits (2 * data.length) rest.length _ [] (by omega) hvalue
    rw [List.length_nil] at this
    omega

/-- Four bytes take at most six characters. -/
theorem length_b58encode_le_six {data : Bytes} (h : data.length = 4) :
    (b58encode data).length ≤ 6 := by
  have hsplit := congrArg List.length
    (List.takeWhile_append_dropWhile (p := fun b => decide (b = 0)) (l := data))
  rw [List.length_append, h] at hsplit
  have hlt := Text.bytesValue_lt (data.dropWhile (fun b => decide (b = 0)))
  rw [b58encode, List.length_append, List.length_replicate, bytesValue_dropWhile]
  generalize (data.takeWhile (fun b => decide (b = 0))).length = zeros at *
  generalize data.dropWhile (fun b => decide (b = 0)) = rest at *
  have hbound : ∀ k, 256 ^ rest.length ≤ 58 ^ k → zeros + k ≤ 6 →
      zeros + (prependDigits (2 * data.length) (Text.bytesValue rest 0) []).length ≤ 6 := by
    intro k hk hsum
    have := length_prependDigits_le (2 * data.length) k _ [] (lt_of_lt_of_le hlt hk)
    rw [List.length_nil] at this
    omega
  have hr : rest.length ≤ 4 := by omega
  interval_cases hrest : rest.length
  · exact hbound 0 (by decide) (by omega)
  · exact hbound 2 (by decide) (by omega)
  · exact hbound 3 (by decide) (by omega)
  · exact hbound 5 (by decide) (by omega)
  · exact hbound 6 (by decide) (by omega)

end Base58
