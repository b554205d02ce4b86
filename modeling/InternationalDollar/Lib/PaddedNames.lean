import Mathlib.Data.String.Basic
import Mathlib.Tactic.Basic

set_option autoImplicit false

/-! # Numbers in names

Decimal numbers that are filled with zeros to one width: their texts stand in the order of the numbers. So
the names that begin with such a number are sorted by it. -/

namespace Text

/-- `f"{n:0{width}d}"` of a number that is not negative. -/
def padded (width n : Nat) : List Char :=
  List.leftpad width '0' (Nat.toDigits 10 n)

variable {width m n : Nat} {cs ds : List Char}

theorem isDigit_padded : ∀ c ∈ padded width n, c.isDigit = true := by
  intro c hc
  rcases List.mem_append.1 hc with hc | hc
  · rw [(List.mem_replicate.1 hc).2]
    decide
  · exact Nat.isDigit_of_mem_toDigits (by decide) (by decide) hc

theorem length_padded (hpos : 0 < width) (h : n < 10 ^ width) : (padded width n).length = width := by
  have hle : (Nat.toDigits 10 n).length ≤ width := (Nat.length_toDigits_le_iff (by decide) hpos).2 h
  rw [padded, List.length_leftpad]
  exact max_eq_left hle

/-- The number is read back. -/
theorem ofDigitChars_padded : Nat.ofDigitChars 10 (padded width n) 0 = n := by
  rw [padded, List.leftpad, Nat.ofDigitChars_append, Nat.ofDigitChars_replicate_zero, Nat.mul_zero,
    Nat.ofDigitChars_ten_toDigits]

/-- Digits write a number below the power of ten for their count. -/
theorem ofDigitChars_lt (h : ∀ c ∈ cs, c.isDigit = true) : Nat.ofDigitChars 10 cs 0 < 10 ^ cs.length := by
  induction cs with
  | nil => exact Nat.one_pos
  | cons c cs ih =>
    rw [List.forall_mem_cons] at h
    have htail := ih h.2
    have hdigit : c.toNat - '0'.toNat < 10 := by
      have hc := h.1
      simp only [Char.isDigit, Bool.and_eq_true, decide_eq_true_eq, ge_iff_le] at hc
      have hhigh : c.toNat ≤ 57 := UInt32.le_iff_toNat_le.1 hc.2
      have hzero : '0'.toNat = 48 := rfl
      omega
    rw [Nat.ofDigitChars_cons, Nat.ofDigitChars_eq_ofDigitChars_zero, List.length_cons, pow_succ]
    have hmul : 10 ^ cs.length * (10 * 0 + (c.toNat - '0'.toNat)) ≤ 10 ^ cs.length * 9 :=
      Nat.mul_le_mul_left _ (by omega)
    omega

/-- Of texts with as many digits, the smaller one writes the smaller number. -/
theorem ofDigitChars_lt_of_lt (hcs : ∀ c ∈ cs, c.isDigit = true) (hds : ∀ c ∈ ds, c.isDigit = true)
    (hlen : cs.length = ds.length) (h : cs < ds) : Nat.ofDigitChars 10 cs 0 < Nat.ofDigitChars 10 ds 0 := by
  induction cs generalizing ds with
  | nil =>
    cases ds with
    | nil => exact absurd h (List.lt_irrefl [])
    | cons d ds => exact absurd hlen (Nat.succ_ne_zero _).symm
  | cons c cs ih =>
    cases ds with
    | nil => exact absurd hlen (Nat.succ_ne_zero _)
    | cons d ds =>
      rw [List.forall_mem_cons] at hcs hds
      have hlen' : cs.length = ds.length := Nat.succ.inj hlen
      have hdigit : ∀ e : Char, e.isDigit = true → '0'.toNat ≤ e.toNat := by
        intro e he
        simp only [Char.isDigit, Bool.and_eq_true, decide_eq_true_eq, ge_iff_le] at he
        exact UInt32.le_iff_toNat_le.1 he.1
      rw [Nat.ofDigitChars_cons, Nat.ofDigitChars_cons, Nat.ofDigitChars_eq_ofDigitChars_zero (l := cs),
        Nat.ofDigitChars_eq_ofDigitChars_zero (l := ds), hlen']
      rcases List.cons_lt_cons_iff.1 h with hlt | ⟨rfl, hlt⟩
      · -- the first digits differ
        have hfirst : c.toNat < d.toNat := UInt32.lt_iff_toNat_lt.1 hlt
        have hc := hdigit c hcs.1
        have hd := hdigit d hds.1
        have hmul : 10 ^ ds.length * (10 * 0 + (c.toNat - '0'.toNat) + 1)
            ≤ 10 ^ ds.length * (10 * 0 + (d.toNat - '0'.toNat)) := Nat.mul_le_mul_left _ (by omega)
        have htail := ofDigitChars_lt hcs.2
        rw [hlen'] at htail
        rw [Nat.mul_add, Nat.mul_one] at hmul
        omega
      · exact Nat.add_lt_add_left (ih hcs.2 hds.2 hlen' hlt) _

/-- **The texts stand in the order of the numbers.** -/
theorem padded_lt_padded (hpos : 0 < width) (h : m < n) (hn : n < 10 ^ width) :
    padded width m < padded width n := by
  have hlen : (padded width n).length = (padded width m).length := by
    rw [length_padded hpos hn, length_padded hpos (h.trans hn)]
  by_contra hnot
  rcases List.le_iff_lt_or_eq.1 (List.not_lt.1 hnot) with hlt | heq
  · have hback := ofDigitChars_lt_of_lt isDigit_padded isDigit_padded hlen hlt
    rw [ofDigitChars_padded, ofDigitChars_padded] at hback
    omega
  · have hsame : Nat.ofDigitChars 10 (padded width n) 0 = Nat.ofDigitChars 10 (padded width m) 0 := by rw [heq]
    rw [ofDigitChars_padded, ofDigitChars_padded] at hsame
    omega

/-- What follows texts of one length does not matter where they differ. -/
theorem append_lt_append {as bs : List Char} (hlen : cs.length = ds.length) (h : cs < ds) :
    cs ++ as < ds ++ bs := by
  induction cs generalizing ds with
  | nil =>
    cases ds with
    | nil => exact absurd h (List.lt_irrefl [])
    | cons d ds => exact absurd hlen (Nat.succ_ne_zero _).symm
  | cons c cs ih =>
    cases ds with
    | nil => exact absurd hlen (Nat.succ_ne_zero _)
    | cons d ds =>
      rw [List.cons_append, List.cons_append, List.cons_lt_cons_iff]
      rcases List.cons_lt_cons_iff.1 h with hlt | ⟨rfl, hlt⟩
      · exact .inl hlt
      · exact .inr ⟨rfl, ih (Nat.succ.inj hlen) hlt⟩

/-- Names that begin alike are sorted by the number that follows. -/
theorem name_lt_name (stem : List Char) {as bs : List Char} (hpos : 0 < width) (h : m < n)
    (hn : n < 10 ^ width) :
    String.ofList (stem ++ (padded width m ++ as)) < String.ofList (stem ++ (padded width n ++ bs)) := by
  rw [String.lt_iff_toList_lt, String.toList_ofList, String.toList_ofList]
  have hlen : (padded width m).length = (padded width n).length := by
    rw [length_padded hpos hn, length_padded hpos (h.trans hn)]
  exact List.append_left_lt (append_lt_append hlen (padded_lt_padded hpos h hn))

end Text
