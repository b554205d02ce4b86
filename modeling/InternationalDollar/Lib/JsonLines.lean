import InternationalDollar.Lib.JsonRoundTrip
import InternationalDollar.Lib.Lines

set_option autoImplicit false

/-! # Files of JSON lines

One value on a line, in canonical form. Such a file is read back into the same values: a canonical text holds
no line break, as all its characters can be printed. -/

/-- `json.loads`. It reads a canonical text back, also before a newline. What it makes of other texts is open:
    it may know floating-point numbers and keep the last value of a repeated key. -/
structure JsonReader where
  loads : List Char → Option Json
  loads_render : ∀ {v : Json}, v.Sorted → loads v.render = some v
  loads_line : ∀ {v : Json}, v.Sorted → loads (v.render ++ ['\n']) = some v
  sorted_of_loads : ∀ {cs : List Char} {v : Json}, loads cs = some v → v.Sorted

namespace Json

/-! ## Printed characters -/

/-- The characters of a text can be printed. -/
def IsPrinted (cs : List Char) : Prop :=
  ∀ c ∈ cs, 32 ≤ c.toNat ∧ c.toNat < 127

theorem isPrinted_nil : IsPrinted [] := fun _ h => absurd h List.not_mem_nil

theorem isPrinted_cons {c : Char} {cs : List Char} (hc : 32 ≤ c.toNat ∧ c.toNat < 127) (hcs : IsPrinted cs) :
    IsPrinted (c :: cs) :=
  List.forall_mem_cons.2 ⟨hc, hcs⟩

theorem isPrinted_append {cs ds : List Char} (hcs : IsPrinted cs) (hds : IsPrinted ds) :
    IsPrinted (cs ++ ds) :=
  List.forall_mem_append.2 ⟨hcs, hds⟩

theorem isPrinted_escapeUnit (n : Nat) : IsPrinted (escapeUnit n) := by
  have hdigit : ∀ k < 16, 32 ≤ (Text.hexDigit k).toNat ∧ (Text.hexDigit k).toNat < 127 := by
    intro k hk
    interval_cases k <;> decide
  refine isPrinted_cons (by decide) (isPrinted_cons (by decide) fun c hc => ?_)
  simp only [hex4, List.mem_cons, List.not_mem_nil, or_false] at hc
  rcases hc with rfl | rfl | rfl | rfl
  all_goals exact hdigit _ (by omega)

theorem isPrinted_escapeChar (c : Char) : IsPrinted (escapeChar c) := by
  have hpair : ∀ d : Char, 32 ≤ d.toNat ∧ d.toNat < 127 → IsPrinted ['\\', d] := fun d hd =>
    isPrinted_cons (by decide) (isPrinted_cons hd isPrinted_nil)
  rw [escapeChar]
  split
  · exact hpair _ (by decide)
  split
  · exact hpair _ (by decide)
  split
  · exact hpair _ (by decide)
  split
  · exact hpair _ (by decide)
  split
  · exact hpair _ (by decide)
  split
  · exact hpair _ (by decide)
  split
  · exact hpair _ (by decide)
  split
  · next h => exact isPrinted_cons h isPrinted_nil
  split
  · exact isPrinted_escapeUnit _
  · exact isPrinted_append (isPrinted_escapeUnit _) (isPrinted_escapeUnit _)

theorem isPrinted_renderString (s : String) : IsPrinted (renderString s) := by
  refine isPrinted_cons (by decide) (isPrinted_append ?_ (isPrinted_cons (by decide) isPrinted_nil))
  intro c hc
  obtain ⟨d, -, hd⟩ := List.mem_flatMap.1 hc
  exact isPrinted_escapeChar d c hd

theorem isPrinted_toDigits (n : Nat) : IsPrinted (Nat.toDigits 10 n) := by
  intro c hc
  have hdigit : c.isDigit = true := Nat.isDigit_of_mem_toDigits (by decide) (by decide) hc
  simp only [Char.isDigit, Bool.and_eq_true, decide_eq_true_eq, ge_iff_le] at hdigit
  have hlow : 48 ≤ c.toNat := UInt32.le_iff_toNat_le.1 hdigit.1
  have hhigh : c.toNat ≤ 57 := UInt32.le_iff_toNat_le.1 hdigit.2
  omega

mutual

theorem isPrinted_render (v : Json) : IsPrinted v.render := by
  match v with
  | .null =>
    show IsPrinted ['n', 'u', 'l', 'l']
    simp [IsPrinted]
  | .bool true =>
    show IsPrinted ['t', 'r', 'u', 'e']
    simp [IsPrinted]
  | .bool false =>
    show IsPrinted ['f', 'a', 'l', 's', 'e']
    simp [IsPrinted]
  | .int (.ofNat n) => exact isPrinted_toDigits n
  | .int (.negSucc n) => exact isPrinted_cons (by decide) (isPrinted_toDigits _)
  | .str s => exact isPrinted_renderString s
  | .arr [] =>
    show IsPrinted ['[', ']']
    simp [IsPrinted]
  | .arr (x :: xs) =>
    exact isPrinted_cons (by decide) (isPrinted_append (isPrinted_render x) (isPrinted_renderMoreItems xs))
  | .obj [] =>
    show IsPrinted ['\x7b', '\x7d']
    simp [IsPrinted]
  | .obj ((k, x) :: xs) =>
    exact isPrinted_cons (by decide) (isPrinted_append (isPrinted_renderString k)
      (isPrinted_cons (by decide) (isPrinted_append (isPrinted_render x) (isPrinted_renderMoreMembers xs))))

theorem isPrinted_renderMoreItems (xs : List Json) : IsPrinted (renderMoreItems xs) := by
  match xs with
  | [] => exact isPrinted_cons (by decide) isPrinted_nil
  | x :: xs =>
    exact isPrinted_cons (by decide) (isPrinted_append (isPrinted_render x) (isPrinted_renderMoreItems xs))

theorem isPrinted_renderMoreMembers (xs : List (String × Json)) : IsPrinted (renderMoreMembers xs) := by
  match xs with
  | [] => exact isPrinted_cons (by decide) isPrinted_nil
  | (k, x) :: xs =>
    exact isPrinted_cons (by decide) (isPrinted_append (isPrinted_renderString k)
      (isPrinted_cons (by decide) (isPrinted_append (isPrinted_render x) (isPrinted_renderMoreMembers xs))))

end

theorem not_isLineBreak_render (v : Json) : ∀ c ∈ v.render, Text.isLineBreak c = false := by
  intro c hc
  obtain ⟨hlow, hhigh⟩ := isPrinted_render v c hc
  simp only [Text.isLineBreak, Bool.or_eq_false_iff, Bool.and_eq_false_iff, decide_eq_false_iff_not]
  omega

/-- A canonical text is no blank line. -/
theorem strip_render_ne_empty (v : Json) : Text.strip (String.ofList v.render) ≠ "" := by
  have hsome : ∃ c cs, v.render = c :: cs ∧ Text.isSpace c = false := by
    match v with
    | .null => exact ⟨_, _, rfl, by decide⟩
    | .bool true => exact ⟨_, _, rfl, by decide⟩
    | .bool false => exact ⟨_, _, rfl, by decide⟩
    | .int n =>
      obtain ⟨c, cs, hrender, -⟩ := exists_render_cons (.int n)
      refine ⟨c, cs, hrender, Text.not_isSpace_renderInt n c ?_⟩
      show c ∈ render (.int n)
      rw [hrender]
      exact List.mem_cons_self
    | .str s => exact ⟨_, _, rfl, by decide⟩
    | .arr items => exact ⟨_, _, rfl, by decide⟩
    | .obj members => exact ⟨_, _, rfl, by decide⟩
  obtain ⟨c, cs, hrender, hc⟩ := hsome
  rw [Text.strip, String.toList_ofList, hrender, Text.trim, List.dropWhile_cons_of_neg (by simp [hc])]
  intro hempty
  have hnil : ((c :: cs).reverse.dropWhile Text.isSpace).reverse = [] := by
    have hchars := congrArg String.toList hempty
    rwa [String.toList_ofList] at hchars
  rw [List.reverse_eq_nil_iff, List.dropWhile_eq_nil_iff] at hnil
  exact Bool.false_ne_true (hc.symm.trans (hnil c (List.mem_reverse.2 List.mem_cons_self)))

/-! ## Lengths -/

theorem length_escapeChar_le (c : Char) : (escapeChar c).length ≤ 12 := by
  unfold escapeChar
  split_ifs <;> simp [escapeUnit, hex4]

theorem length_renderString_le (s : String) : (renderString s).length ≤ 12 * s.length + 2 := by
  have hchars : ∀ cs : List Char, (cs.flatMap escapeChar).length ≤ 12 * cs.length := by
    intro cs
    induction cs with
    | nil => exact le_rfl
    | cons c cs ih =>
      have hc := length_escapeChar_le c
      rw [List.flatMap_cons, List.length_append, List.length_cons]
      omega
  have hs := hchars s.toList
  rw [String.length_toList] at hs
  rw [renderString, List.length_cons, List.length_append, List.length_singleton]
  omega

theorem length_renderInt_le {n : Int} {k : Nat} (hpos : 0 < k) (h : n.natAbs < 10 ^ k) :
    (renderInt n).length ≤ k + 1 := by
  cases n with
  | ofNat n =>
    exact ((Nat.length_toDigits_le_iff (by decide) hpos).2 h).trans (Nat.le_succ k)
  | negSucc n =>
    have hdigits : (Nat.toDigits 10 (n + 1)).length ≤ k := (Nat.length_toDigits_le_iff (by decide) hpos).2 h
    exact Nat.succ_le_succ hdigits

theorem parse_render_newline {v : Json} (h : v.Sorted) : parse (v.render ++ ['\n']) = some v := by
  have hdelimited : Delimited ['\n'] := delimited_cons (by decide) []
  have hvalue := scanValue_render v h (show 3 * v.render.length ≤ 3 * (v.render ++ ['\n']).length + 3 by
    rw [List.length_append]
    omega) hdelimited
  have hblanks := skipBlanks_render v ['\n']
  rw [parse, hblanks, hvalue]
  rfl

end Json

namespace JsonReader

/-- The reader that refuses repeated keys and floating-point numbers. -/
def strict : JsonReader where
  loads := Json.parse
  loads_render := Json.parse_render
  loads_line := Json.parse_render_newline
  sorted_of_loads := Json.sorted_of_parse

/-- `"".join(canonical_json(item) + "\n" for item in items)`. -/
def linesText (items : List Json) : String :=
  String.ofList (items.flatMap fun item => item.render ++ ['\n'])

/-- `[json.loads(line) for line in text.splitlines() if line.strip()]`. -/
def readLines (reader : JsonReader) (text : String) : Option (List Json) :=
  ((Text.splitlines text).filter fun line => Text.strip line ≠ "").mapM fun line => reader.loads line.toList

variable {reader : JsonReader} {items : List Json}

/-- The bytes of a file of lines, where no line is longer than `k`. -/
theorem length_linesText_le {k : Nat} (h : ∀ item ∈ items, item.render.length ≤ k) :
    (Text.utf8 (linesText items)).length ≤ 4 * ((k + 1) * items.length) := by
  have hchars : (items.flatMap fun item => item.render ++ ['\n']).length ≤ (k + 1) * items.length := by
    induction items with
    | nil => exact le_rfl
    | cons item rest ih =>
      rw [List.forall_mem_cons] at h
      have hrest := ih h.2
      have hitem := h.1
      rw [List.flatMap_cons, List.length_append, List.length_append, List.length_singleton, List.length_cons,
        Nat.mul_succ]
      omega
  have hbytes : (Text.utf8 (linesText items)).length = (linesText items).utf8ByteSize := by
    simp [Text.utf8]
  rw [hbytes]
  exact (Json.utf8ByteSize_ofList_le _).trans (Nat.mul_le_mul_left 4 hchars)

theorem splitlines_linesText (items : List Json) :
    Text.splitlines (linesText items) = items.map fun item => String.ofList item.render := by
  rw [Text.splitlines, linesText, String.toList_ofList]
  induction items with
  | nil => rfl
  | cons item rest ih =>
    have hline := Text.linesFrom_append item.not_isLineBreak_render []
      ('\n' :: rest.flatMap fun item => item.render ++ ['\n'])
    rw [List.flatMap_cons, List.append_assoc, List.singleton_append, hline, Text.linesFrom_newline,
      List.append_nil, List.reverse_reverse, List.map_cons, List.map_cons, ih]

/-- **The lines that are written are read back.** -/
theorem readLines_linesText (h : ∀ item ∈ items, item.Sorted) :
    reader.readLines (linesText items) = some items := by
  rw [readLines, splitlines_linesText, List.filter_eq_self.2, List.mapM_map]
  · induction items with
    | nil => rfl
    | cons item rest ih =>
      rw [List.forall_mem_cons] at h
      rw [List.mapM_cons, Function.comp_apply, String.toList_ofList, reader.loads_render h.1, ih h.2]
      rfl
  · intro line hline
    obtain ⟨item, -, rfl⟩ := List.mem_map.1 hline
    exact decide_eq_true item.strip_render_ne_empty

end JsonReader
