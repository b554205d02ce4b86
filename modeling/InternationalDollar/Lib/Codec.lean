import InternationalDollar.Lib.Text
import Mathlib.Tactic.Ring

set_option autoImplicit false

/-! # Self-delimiting byte codes

Unsigned LEB128 numbers and length-prefixed byte strings. Both can be read off the front of a longer
byte string, so a concatenation of such fields determines each field. -/

namespace Codec

/-- The groups of seven bits of `n`, lowest first; `fuel` bounds their number. -/
def leb128 : Nat → Nat → Bytes
  | 0, n => [UInt8.ofNat (n % 128)]
  | fuel + 1, n =>
      if n < 128 then [UInt8.ofNat n] else UInt8.ofNat (n % 128 + 128) :: leb128 fuel (n / 128)

/-- A byte string after its length. -/
def sized (fuel : Nat) (data : Bytes) : Bytes :=
  leb128 fuel data.length ++ data

theorem toNat_ofNat_of_lt {n : Nat} (h : n < 256) : (UInt8.ofNat n).toNat = n := by
  rw [UInt8.toNat_ofNat', Nat.mod_eq_of_lt h]

theorem ofNat_inj {m n : Nat} (hm : m < 256) (hn : n < 256) (h : UInt8.ofNat m = UInt8.ofNat n) :
    m = n := by
  rw [← toNat_ofNat_of_lt hm, h, toNat_ofNat_of_lt hn]

/-- A number is read off the front of a byte string in one way. -/
theorem leb128_append_inj (fuel : Nat) {m n : Nat} {s t : Bytes} (hm : m < 128 ^ (fuel + 1))
    (hn : n < 128 ^ (fuel + 1)) (h : leb128 fuel m ++ s = leb128 fuel n ++ t) : m = n ∧ s = t := by
  induction fuel generalizing m n with
  | zero =>
    rw [zero_add, pow_one] at hm hn
    simp only [leb128, List.cons_append, List.nil_append, List.cons.injEq] at h
    refine ⟨?_, h.2⟩
    have := ofNat_inj (by omega) (by omega) h.1
    omega
  | succ fuel ih =>
    have hdiv : ∀ {k : Nat}, k < 128 ^ (fuel + 2) → k / 128 < 128 ^ (fuel + 1) := by
      intro k hk
      rw [Nat.div_lt_iff_lt_mul (by decide), ← pow_succ]
      exact hk
    simp only [leb128] at h
    split at h <;> split at h
    · next hm' hn' =>
      simp only [List.cons_append, List.nil_append, List.cons.injEq] at h
      exact ⟨ofNat_inj (by omega) (by omega) h.1, h.2⟩
    · next hm' hn' =>
      -- the first byte tells whether the number goes on
      simp only [List.cons_append, List.nil_append, List.cons.injEq] at h
      have := ofNat_inj (by omega) (by omega) h.1
      omega
    · next hm' hn' =>
      simp only [List.cons_append, List.nil_append, List.cons.injEq] at h
      have := ofNat_inj (by omega) (by omega) h.1
      omega
    · next hm' hn' =>
      simp only [List.cons_append, List.cons.injEq] at h
      have hlow := ofNat_inj (by omega) (by omega) h.1
      obtain ⟨hhigh, hrest⟩ := ih (hdiv hm) (hdiv hn) h.2
      exact ⟨by omega, hrest⟩

/-- A length-prefixed byte string is read off the front in one way. -/
theorem sized_append_inj (fuel : Nat) {a b s t : Bytes} (ha : a.length < 128 ^ (fuel + 1))
    (hb : b.length < 128 ^ (fuel + 1)) (h : sized fuel a ++ s = sized fuel b ++ t) :
    a = b ∧ s = t := by
  rw [sized, sized, List.append_assoc, List.append_assoc] at h
  obtain ⟨hlen, hrest⟩ := leb128_append_inj fuel ha hb h
  exact List.append_inj hrest hlen

end Codec
