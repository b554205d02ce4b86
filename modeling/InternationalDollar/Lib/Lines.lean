import InternationalDollar.Lib.Json

set_option autoImplicit false

/-! # Texts of lines

Lines joined by a newline come apart again into the same lines, if none of them is empty or holds a line
break of its own. Decimal numbers are read back as they were written. -/

namespace Text

/-! ## Lines -/

/-- The characters at which `str.splitlines` ends a line. -/
def isLineBreak (c : Char) : Bool :=
  (10 ≤ c.toNat && c.toNat ≤ 13) || (28 ≤ c.toNat && c.toNat ≤ 30) || c.toNat = 0x85 ||
    c.toNat = 0x2028 || c.toNat = 0x2029

/-- The lines of a text, after the characters of a line that has begun, in reverse. The text after the
    last break is a line unless it is empty. -/
def linesFrom : Bool → List Char → List Char → List (List Char)
  | _, begun, [] => if begun = [] then [] else [begun.reverse]
  | afterReturn, begun, c :: rest =>
      -- a newline right after a carriage return belongs to the same break
      if afterReturn = true ∧ c = '\n' then linesFrom false begun rest
      else if isLineBreak c then begun.reverse :: linesFrom (decide (c = '\r')) [] rest
      else linesFrom false (c :: begun) rest

/-- `str.splitlines()`. -/
def splitlines (s : String) : List String :=
  (linesFrom false [] s.toList).map String.ofList

/-- `"\n".join(lines)`. -/
def joinLines (lines : List String) : String :=
  String.intercalate "\n" lines

/-- A text that stands as one line. -/
def OneLine (cs : List Char) : Prop :=
  cs ≠ [] ∧ ∀ c ∈ cs, isLineBreak c = false

instance (cs : List Char) : Decidable (OneLine cs) :=
  -- over the characters of the text, not over all characters
  @instDecidableAnd (cs ≠ []) (∀ c ∈ cs, isLineBreak c = false) inferInstance (List.decidableBAll _ cs)

/-- A line that is read as it was written: it is not trimmed. -/
def IsLine (s : String) : Prop :=
  OneLine s.toList ∧ strip s = s

instance (s : String) : Decidable (IsLine s) :=
  inferInstanceAs (Decidable (OneLine s.toList ∧ strip s = s))

theorem IsLine.ne_empty {s : String} (h : IsLine s) : s ≠ "" := by
  rintro rfl
  exact h.1.1 rfl

theorem linesFrom_append {cs : List Char} (h : ∀ c ∈ cs, isLineBreak c = false) (begun rest : List Char) :
    linesFrom false begun (cs ++ rest) = linesFrom false (cs.reverse ++ begun) rest := by
  induction cs generalizing begun with
  | nil => rfl
  | cons c cs ih =>
    rw [List.forall_mem_cons] at h
    rw [List.cons_append, linesFrom, if_neg (fun hc => Bool.false_ne_true hc.1), h.1,
      if_neg Bool.false_ne_true, ih h.2, List.reverse_cons, List.append_assoc, List.singleton_append]

theorem linesFrom_newline (begun rest : List Char) :
    linesFrom false begun ('\n' :: rest) = begun.reverse :: linesFrom false [] rest := by
  rw [linesFrom, if_neg (fun hc => Bool.false_ne_true hc.1), if_pos (by decide)]
  rfl

/-- Joined lines come apart into the same lines. -/
theorem linesFrom_intercalate {lines : List (List Char)} (h : ∀ line ∈ lines, OneLine line) :
    linesFrom false [] (List.intercalate ['\n'] lines) = lines := by
  induction lines with
  | nil => rfl
  | cons line rest ih =>
    rw [List.forall_mem_cons] at h
    obtain ⟨⟨hne, hbreaks⟩, hrest⟩ := h
    cases rest with
    | nil =>
      have hlast := linesFrom_append hbreaks [] []
      rw [List.append_nil, List.append_nil] at hlast
      rw [List.intercalate_singleton, hlast, linesFrom, if_neg (by simpa using hne), List.reverse_reverse]
    | cons next later =>
      have hnext := linesFrom_append hbreaks [] (['\n'] ++ List.intercalate ['\n'] (next :: later))
      rw [List.append_nil] at hnext
      rw [List.intercalate_cons_cons, List.append_assoc, hnext, List.singleton_append, linesFrom_newline,
        List.reverse_reverse, ih hrest]

theorem splitlines_joinLines {lines : List String} (h : ∀ line ∈ lines, OneLine line.toList) :
    splitlines (joinLines lines) = lines := by
  have hlines : ∀ cs ∈ lines.map String.toList, OneLine cs := by
    intro cs hcs
    obtain ⟨line, hline, rfl⟩ := List.mem_map.1 hcs
    exact h line hline
  rw [splitlines, joinLines, String.toList_intercalate]
  show (linesFrom false [] (List.intercalate ['\n'] (lines.map String.toList))).map String.ofList = lines
  rw [linesFrom_intercalate hlines, List.map_map]
  exact (List.map_congr_left fun line _ => String.ofList_toList).trans (List.map_id lines)

/-! ## Decimal numbers -/

/-- `str(n)`. -/
def decimal (n : Int) : String :=
  String.ofList (Json.renderInt n)

/-- The number that digits write, in groups that underscores may part. -/
def digitsValue (cs : List Char) : Option Nat :=
  if (cs.splitOn '_').all fun group => !group.isEmpty && group.all Char.isDigit then
    some (Nat.ofDigitChars 10 (cs.filter (· ≠ '_')) 0)
  else none

/-- `int(text)` of a text with ASCII digits; `none` where it raises. -/
def intOfText (s : String) : Option Int :=
  match trim isSpace s.toList with
  | '-' :: cs => (digitsValue cs).map fun n : Nat => -(n : Int)
  | '+' :: cs => (digitsValue cs).map fun n : Nat => (n : Int)
  | cs => (digitsValue cs).map fun n : Nat => (n : Int)

theorem isSpace_of_isDigit {c : Char} (h : c.isDigit = true) : isSpace c = false := by
  have hnat : 48 ≤ c.toNat ∧ c.toNat ≤ 57 := by
    simp only [Char.isDigit, Bool.and_eq_true, decide_eq_true_eq] at h
    exact h
  have hblank : c ≠ ' ' := by
    rintro rfl
    exact absurd hnat.1 (by decide)
  simp only [isSpace, isAsciiSpace, hblank, decide_false, Bool.false_or, Bool.or_eq_false_iff,
    Bool.and_eq_false_iff, decide_eq_false_iff_not]
  omega

theorem digitsValue_of_digits {cs : List Char} (hne : cs ≠ []) (h : ∀ c ∈ cs, c.isDigit = true) :
    digitsValue cs = some (Nat.ofDigitChars 10 cs 0) := by
  have hmark : '_' ∉ cs := fun hmem => absurd (h _ hmem) (by decide)
  have hsplit : cs.splitOn '_' = [cs] := by
    refine List.splitOnP_eq_singleton fun c hc => ?_
    rw [beq_eq_false_iff_ne]
    rintro rfl
    exact hmark hc
  have hfilter : cs.filter (· ≠ '_') = cs := by
    refine List.filter_eq_self.2 fun c hc => ?_
    rw [decide_eq_true_iff]
    rintro rfl
    exact hmark hc
  have hall : cs.all Char.isDigit = true := List.all_eq_true.2 h
  rw [digitsValue, hsplit, hfilter]
  simp [hne, hall]

/-- The characters of a decimal number are no blanks. -/
theorem not_isSpace_renderInt (n : Int) : ∀ c ∈ Json.renderInt n, isSpace c = false := by
  have hdigits : ∀ k, ∀ c ∈ Nat.toDigits 10 k, isSpace c = false := fun k c hc =>
    isSpace_of_isDigit (Nat.isDigit_of_mem_toDigits (by decide) (by decide) hc)
  cases n with
  | ofNat k => exact hdigits k
  | negSucc k => exact List.forall_mem_cons.2 ⟨by decide, hdigits (k + 1)⟩

/-- What has no blanks is not trimmed. -/
theorem trim_of_not_isSpace {cs : List Char} (h : ∀ c ∈ cs, isSpace c = false) : trim isSpace cs = cs := by
  have hdrop : ∀ {xs : List Char}, (∀ c ∈ xs, isSpace c = false) → xs.dropWhile isSpace = xs := by
    intro xs hxs
    cases xs with
    | nil => rfl
    | cons x rest => exact List.dropWhile_cons_of_neg (by simp [hxs x List.mem_cons_self])
  rw [trim, hdrop h, hdrop (fun c hc => h c (List.mem_reverse.1 hc)), List.reverse_reverse]

theorem intOfText_decimal (n : Int) : intOfText (decimal n) = some n := by
  have hdigits : ∀ k, digitsValue (Nat.toDigits 10 k) = some k := by
    intro k
    rw [digitsValue_of_digits Nat.toDigits_ne_nil
      fun c hc => Nat.isDigit_of_mem_toDigits (by decide) (by decide) hc, Nat.ofDigitChars_ten_toDigits]
  unfold intOfText decimal
  rw [String.toList_ofList, trim_of_not_isSpace (not_isSpace_renderInt n)]
  cases n with
  | negSucc k =>
    show (digitsValue (Nat.toDigits 10 (k + 1))).map _ = _
    rw [hdigits]
    rfl
  | ofNat k =>
    have hsign : ∀ c ∈ Nat.toDigits 10 k, c ≠ '-' ∧ c ≠ '+' := by
      intro c hc
      have hdigit : c.isDigit = true := Nat.isDigit_of_mem_toDigits (by decide) (by decide) hc
      constructor
      · rintro rfl
        exact absurd hdigit (by decide)
      · rintro rfl
        exact absurd hdigit (by decide)
    have hvalue := hdigits k
    show (match Nat.toDigits 10 k with
      | '-' :: cs => _
      | '+' :: cs => _
      | cs => _) = _
    split
    · next cs heq => exact absurd rfl (hsign '-' (heq ▸ List.mem_cons_self)).1
    · next cs heq => exact absurd rfl (hsign '+' (heq ▸ List.mem_cons_self)).2
    · next cs _ _ => rw [hvalue]; rfl

/-- A decimal number is read as it was written. -/
theorem isLine_decimal (n : Int) : IsLine (decimal n) := by
  have hstrip : strip (decimal n) = decimal n := by
    rw [strip, decimal, String.toList_ofList, trim_of_not_isSpace (not_isSpace_renderInt n)]
  refine ⟨?_, hstrip⟩
  rw [decimal, String.toList_ofList]
  refine ⟨?_, fun c hc => ?_⟩
  · cases n with
    | ofNat k => exact Nat.toDigits_ne_nil
    | negSucc k => exact List.cons_ne_nil _ _
  · have hspace := not_isSpace_renderInt n c hc
    -- Every line break is a blank.
    by_contra hbreak
    rw [Bool.not_eq_false] at hbreak
    simp only [isLineBreak, isSpace, isAsciiSpace, Bool.or_eq_true, Bool.and_eq_true, decide_eq_true_eq,
      Bool.or_eq_false_iff, Bool.and_eq_false_iff, decide_eq_false_iff_not] at hbreak hspace
    omega

end Text
