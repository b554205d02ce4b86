import InternationalDollar.Lib.Check
import InternationalDollar.Lib.Text
import Mathlib.Data.List.Basic

set_option autoImplicit false

/-! # Canonical JSON

Values without floating-point numbers, their canonical text (`json.dumps` with sorted keys, no
blanks and ASCII escapes) and the recursive size limits a protocol puts on them. An object lists its
members in the order in which `sort_keys` writes them; as a Python dictionary has no order, this
list is its canonical representative.

The main result is `render_inj`: the text of a value determines the value, so a hash of canonical
texts is as good as a hash of values. It rests on `render_append_inj`, which reads a value off the
front of a longer text. -/

/-- A JSON value without floating-point numbers. -/
inductive Json where
  | null
  | bool (b : Bool)
  | int (n : Int)
  | str (s : String)
  | arr (items : List Json)
  | obj (members : List (String × Json))

namespace Json

/-! ## Text -/

/-- Four hexadecimal digits. -/
def hex4 (n : Nat) : List Char :=
  [Text.hexDigit (n / 4096 % 16), Text.hexDigit (n / 256 % 16), Text.hexDigit (n / 16 % 16),
    Text.hexDigit (n % 16)]

/-- The escape of one UTF-16 code unit. -/
def escapeUnit (n : Nat) : List Char :=
  '\\' :: 'u' :: hex4 n

/-- A character inside a JSON string, as `ensure_ascii` writes it. -/
def escapeChar (c : Char) : List Char :=
  if c = '"' then ['\\', '"']
  else if c = '\\' then ['\\', '\\']
  else if c = '\n' then ['\\', 'n']
  else if c = '\r' then ['\\', 'r']
  else if c = '\t' then ['\\', 't']
  else if c.toNat = 8 then ['\\', 'b']
  else if c.toNat = 12 then ['\\', 'f']
  else if 32 ≤ c.toNat ∧ c.toNat < 127 then [c]
  else if c.toNat < 65536 then escapeUnit c.toNat
  else
    escapeUnit (0xd800 + (c.toNat - 65536) / 1024) ++
      escapeUnit (0xdc00 + (c.toNat - 65536) % 1024)

/-- A string literal. -/
def renderString (s : String) : List Char :=
  '"' :: (s.toList.flatMap escapeChar ++ ['"'])

/-- A decimal integer. -/
def renderInt (n : Int) : List Char :=
  match n with
  | .ofNat k => Nat.toDigits 10 k
  | .negSucc k => '-' :: Nat.toDigits 10 (k + 1)

mutual

/-- `json.dumps(value, sort_keys=True, separators=(",", ":"), ensure_ascii=True)`. -/
def render : Json → List Char
  | .null => ['n', 'u', 'l', 'l']
  | .bool true => ['t', 'r', 'u', 'e']
  | .bool false => ['f', 'a', 'l', 's', 'e']
  | .int n => renderInt n
  | .str s => renderString s
  | .arr items => '[' :: renderItems items
  | .obj members => '{' :: renderMembers members

/-- The items of an array and the closing bracket. -/
def renderItems : List Json → List Char
  | [] => [']']
  | x :: rest => render x ++ renderMoreItems rest

/-- The items of an array after the first, and the closing bracket. -/
def renderMoreItems : List Json → List Char
  | [] => [']']
  | x :: rest => ',' :: (render x ++ renderMoreItems rest)

/-- The members of an object and the closing brace. -/
def renderMembers : List (String × Json) → List Char
  | [] => ['}']
  | (k, x) :: rest => renderString k ++ ':' :: (render x ++ renderMoreMembers rest)

/-- The members of an object after the first, and the closing brace. -/
def renderMoreMembers : List (String × Json) → List Char
  | [] => ['}']
  | (k, x) :: rest => ',' :: (renderString k ++ ':' :: (render x ++ renderMoreMembers rest))

end

/-- The bytes of an ASCII text. -/
def asciiBytes (cs : List Char) : Bytes :=
  cs.map (fun c => UInt8.ofNat c.toNat)

/-! ## Limits -/

/-- Size limits on JSON values. -/
structure Limits where
  maxDepth : Nat
  maxListItems : Nat
  maxObjectKeys : Nat
  maxStringBytes : Nat
  maxIntegerAbs : Nat

mutual

/-- The recursive check of a value found at some depth. -/
def validate (lim : Limits) (label : String) (depth : Nat) (value : Json) : Except String Unit :=
  if lim.maxDepth < depth then .error (label ++ " exceeds maximum JSON depth")
  else
    match value with
    | .null => .ok ()
    | .bool _ => .ok ()
    | .int n =>
        if lim.maxIntegerAbs < n.natAbs then
          .error (label ++ " integer is outside protocol bounds")
        else .ok ()
    | .str s =>
        if lim.maxStringBytes < s.utf8ByteSize then .error (label ++ " string is too large")
        else .ok ()
    | .arr items =>
        if lim.maxListItems < items.length then .error (label ++ " list is too large")
        else validateItems lim label (depth + 1) items
    | .obj members =>
        if lim.maxObjectKeys < members.length then .error (label ++ " object has too many keys")
        else validateMembers lim label (depth + 1) members

/-- The check of the items of an array. -/
def validateItems (lim : Limits) (label : String) (depth : Nat) : List Json → Except String Unit
  | [] => .ok ()
  | x :: rest => do
      validate lim label depth x
      validateItems lim label depth rest

/-- The check of the members of an object. -/
def validateMembers (lim : Limits) (label : String) (depth : Nat) :
    List (String × Json) → Except String Unit
  | [] => .ok ()
  | (k, x) :: rest => do
      if lim.maxStringBytes < k.utf8ByteSize then .error (label ++ " object key is too large")
      validate lim label depth x
      validateMembers lim label depth rest

end

/-! ## Values within the limits -/

section Within

variable {lim : Limits} {label : String} {depth : Nat} {u : Unit}

theorem validate_str {s : String} :
    validate lim label depth (.str s) = .ok u ↔
      depth ≤ lim.maxDepth ∧ s.utf8ByteSize ≤ lim.maxStringBytes := by
  rw [validate]
  split
  · exact iff_of_false (fun h => nomatch h) (by omega)
  · split
    · exact iff_of_false (fun h => nomatch h) (by omega)
    · exact iff_of_true rfl (by omega)

theorem validate_int {n : Int} :
    validate lim label depth (.int n) = .ok u ↔
      depth ≤ lim.maxDepth ∧ n.natAbs ≤ lim.maxIntegerAbs := by
  rw [validate]
  split
  · exact iff_of_false (fun h => nomatch h) (by omega)
  · split
    · exact iff_of_false (fun h => nomatch h) (by omega)
    · exact iff_of_true rfl (by omega)

theorem validateItems_eq_ok {items : List Json} :
    validateItems lim label depth items = .ok u ↔
      ∀ x ∈ items, validate lim label depth x = .ok () := by
  induction items with
  | nil => simp [validateItems]
  | cons x rest ih => rw [validateItems, Check.check_bind_eq_ok, ih, List.forall_mem_cons]

theorem validateMembers_eq_ok {members : List (String × Json)} :
    validateMembers lim label depth members = .ok u ↔
      ∀ e ∈ members, e.1.utf8ByteSize ≤ lim.maxStringBytes ∧
        validate lim label depth e.2 = .ok () := by
  induction members with
  | nil => simp [validateMembers]
  | cons e rest ih =>
    rw [validateMembers, List.forall_mem_cons, ← ih]
    by_cases h : lim.maxStringBytes < e.1.utf8ByteSize
    · rw [if_pos h]
      exact iff_of_false (fun h => nomatch h) (by omega)
    · rw [if_neg h]
      simp only [Check.check_bind_eq_ok]
      constructor
      · rintro ⟨hx, hrest⟩
        exact ⟨⟨by omega, hx⟩, hrest⟩
      · rintro ⟨⟨-, hx⟩, hrest⟩
        exact ⟨hx, hrest⟩

theorem validate_arr {items : List Json} :
    validate lim label depth (.arr items) = .ok u ↔
      depth ≤ lim.maxDepth ∧ items.length ≤ lim.maxListItems ∧
        ∀ x ∈ items, validate lim label (depth + 1) x = .ok () := by
  rw [validate]
  split
  · exact iff_of_false (fun h => nomatch h) (by omega)
  · split
    · exact iff_of_false (fun h => nomatch h) (by omega)
    · rw [validateItems_eq_ok]
      exact ⟨fun h => ⟨by omega, by omega, h⟩, fun h => h.2.2⟩

theorem validate_obj {members : List (String × Json)} :
    validate lim label depth (.obj members) = .ok u ↔
      depth ≤ lim.maxDepth ∧ members.length ≤ lim.maxObjectKeys ∧
        ∀ e ∈ members, e.1.utf8ByteSize ≤ lim.maxStringBytes ∧
          validate lim label (depth + 1) e.2 = .ok () := by
  rw [validate]
  split
  · exact iff_of_false (fun h => nomatch h) (by omega)
  · split
    · exact iff_of_false (fun h => nomatch h) (by omega)
    · rw [validateMembers_eq_ok]
      exact ⟨fun h => ⟨by omega, by omega, h⟩, fun h => h.2.2⟩

theorem utf8ByteSize_ofList_le (cs : List Char) :
    (String.ofList cs).utf8ByteSize ≤ 4 * cs.length := by
  induction cs with
  | nil => exact Nat.zero_le _
  | cons c cs ih =>
    have hcons : String.ofList (c :: cs) = String.singleton c ++ String.ofList cs := by
      rw [← String.toList_inj]
      simp
    have := c.utf8Size_le_four
    rw [hcons, String.utf8ByteSize_append, String.utf8ByteSize_singleton, List.length_cons]
    omega

/-- A character takes at most four bytes. -/
theorem utf8ByteSize_le (s : String) : s.utf8ByteSize ≤ 4 * s.length := by
  have := utf8ByteSize_ofList_le s.toList
  rwa [String.ofList_toList, String.length_toList] at this

end Within

/-! ## Reading a string literal back -/

/-- Read four hexadecimal digits. -/
def read4 : List Char → Option (Nat × List Char)
  | a :: b :: c :: d :: rest => (Text.hexValue [a, b, c, d] 0).map (fun n => (n, rest))
  | _ => none

/-- Read one character of a string literal: its code point and what follows. -/
def readChar : List Char → Option (Nat × List Char)
  | [] => none
  | [c] => some (c.toNat, [])
  | c :: d :: rest =>
      if c ≠ '\\' then some (c.toNat, d :: rest)
      else if d = 'u' then
        (read4 rest).bind (fun hi =>
          if 0xd800 ≤ hi.1 ∧ hi.1 < 0xe000 then
            (read4 (hi.2.drop 2)).map (fun lo =>
              (65536 + (hi.1 - 0xd800) * 1024 + (lo.1 - 0xdc00), lo.2))
          else some hi)
      else if d = 'n' then some (10, rest)
      else if d = 'r' then some (13, rest)
      else if d = 't' then some (9, rest)
      else if d = 'b' then some (8, rest)
      else if d = 'f' then some (12, rest)
      else some (d.toNat, rest)

theorem read4_hex4 {n : Nat} (h : n < 65536) (rest : List Char) :
    read4 (hex4 n ++ rest) = some (n, rest) := by
  have h1 := Text.hexVal?_hexDigit (n := n / 4096 % 16) (by omega)
  have h2 := Text.hexVal?_hexDigit (n := n / 256 % 16) (by omega)
  have h3 := Text.hexVal?_hexDigit (n := n / 16 % 16) (by omega)
  have h4 := Text.hexVal?_hexDigit (n := n % 16) (by omega)
  simp only [hex4, List.cons_append, List.nil_append, read4, Text.hexValue, h1, h2, h3, h4,
    Option.bind_eq_bind, Option.bind_some, Option.map_some]
  congr 2
  omega

theorem char_toNat_valid (c : Char) :
    c.toNat < 0xd800 ∨ (0xe000 ≤ c.toNat ∧ c.toNat < 0x110000) := by
  have h := c.valid
  rcases h with h | ⟨h1, h2⟩
  · exact Or.inl h
  · exact Or.inr ⟨h1, h2⟩

theorem char_toNat_inj {c d : Char} (h : c.toNat = d.toNat) : c = d :=
  Char.ext (UInt32.toNat_inj.1 h)

/-- Reading back a code unit outside the surrogates. -/
theorem readChar_escapeUnit {n : Nat} (h : n < 0xd800 ∨ 0xe000 ≤ n) (hlt : n < 65536)
    (rest : List Char) : readChar (escapeUnit n ++ rest) = some (n, rest) := by
  have hn : ¬ (0xd800 ≤ n ∧ n < 0xe000) := by omega
  simp only [escapeUnit, List.cons_append, readChar, ne_eq, not_true_eq_false, if_false, if_true,
    read4_hex4 hlt, Option.bind_some, if_neg hn]

/-- Reading back a surrogate pair. -/
theorem readChar_escapeUnit_pair {hi lo : Nat} (hhi : 0xd800 ≤ hi ∧ hi < 0xe000)
    (hlo : lo < 65536) (rest : List Char) :
    readChar (escapeUnit hi ++ (escapeUnit lo ++ rest))
      = some (65536 + (hi - 0xd800) * 1024 + (lo - 0xdc00), rest) := by
  have hlt : hi < 65536 := by omega
  simp only [escapeUnit, List.cons_append, readChar, ne_eq, not_true_eq_false, if_false, if_true,
    read4_hex4 hlt, Option.bind_some, if_pos hhi, List.drop_succ_cons, List.drop_zero,
    read4_hex4 hlo, Option.map_some]

/-- Reading a character back: the escapes form a prefix code. -/
theorem readChar_escapeChar (c : Char) (rest : List Char) :
    readChar (escapeChar c ++ rest) = some (c.toNat, rest) := by
  have hvalid := char_toNat_valid c
  rw [escapeChar]
  split
  · next h => subst h; rfl
  split
  · next h => subst h; rfl
  split
  · next h => subst h; rfl
  split
  · next h => subst h; rfl
  split
  · next h => subst h; rfl
  split
  · next h => rw [h]; rfl
  split
  · next h => rw [h]; rfl
  split
  · next hback _ _ _ _ _ _ =>
    cases rest with
    | nil => rfl
    | cons d rest => simp only [List.cons_append, List.nil_append, readChar, ne_eq, hback,
        not_false_eq_true, if_true]
  split
  · next hlt =>
    exact readChar_escapeUnit (hvalid.imp_right And.left) hlt rest
  · next hlt =>
    have hsum : 65536 + (0xd800 + (c.toNat - 65536) / 1024 - 0xd800) * 1024 +
        (0xdc00 + (c.toNat - 65536) % 1024 - 0xdc00) = c.toNat := by omega
    rw [List.append_assoc, readChar_escapeUnit_pair (by omega) (by omega), hsum]

theorem escapeChar_append_inj {c d : Char} {s t : List Char}
    (h : escapeChar c ++ s = escapeChar d ++ t) : c = d ∧ s = t := by
  have hr := (readChar_escapeChar c s).symm.trans ((congrArg readChar h).trans
    (readChar_escapeChar d t))
  simp only [Option.some.injEq, Prod.mk.injEq] at hr
  exact ⟨char_toNat_inj hr.1, hr.2⟩

/-- An escape never begins with the quote that closes the literal. -/
theorem quote_ne_escapeChar (c : Char) (s t : List Char) : '"' :: s ≠ escapeChar c ++ t := by
  intro h
  have hr := (congrArg readChar h).trans (readChar_escapeChar c t)
  have hc : c = '"' := by
    cases s with
    | nil =>
      simp only [readChar, Option.some.injEq, Prod.mk.injEq] at hr
      exact (char_toNat_inj hr.1).symm
    | cons x s =>
      rw [readChar, if_pos (by decide)] at hr
      simp only [Option.some.injEq, Prod.mk.injEq] at hr
      exact (char_toNat_inj hr.1).symm
  subst hc
  exact absurd (List.cons.inj h).1 (by decide)

theorem escapeChars_append_inj {cs ds s t : List Char}
    (h : cs.flatMap escapeChar ++ '"' :: s = ds.flatMap escapeChar ++ '"' :: t) :
    cs = ds ∧ s = t := by
  induction cs generalizing ds with
  | nil =>
    cases ds with
    | nil => exact ⟨rfl, (List.cons.inj h).2⟩
    | cons d ds =>
      rw [List.flatMap_cons, List.append_assoc] at h
      exact absurd h (quote_ne_escapeChar d _ _)
  | cons c cs ih =>
    cases ds with
    | nil =>
      rw [List.flatMap_cons, List.append_assoc] at h
      exact absurd h.symm (quote_ne_escapeChar c _ _)
    | cons d ds =>
      rw [List.flatMap_cons, List.flatMap_cons, List.append_assoc, List.append_assoc] at h
      obtain ⟨rfl, htail⟩ := escapeChar_append_inj h
      obtain ⟨rfl, hst⟩ := ih htail
      exact ⟨rfl, hst⟩

theorem renderString_append_inj {a b : String} {s t : List Char}
    (h : renderString a ++ s = renderString b ++ t) : a = b ∧ s = t := by
  simp only [renderString, List.cons_append, List.append_assoc, List.nil_append,
    List.cons.injEq, true_and] at h
  obtain ⟨hab, hst⟩ := escapeChars_append_inj h
  exact ⟨String.ext hab, hst⟩

/-! ## Reading an integer back -/

/-- The text after a number does not go on with a digit. -/
def Delimited (s : List Char) : Prop :=
  ∀ c ∈ s.head?, c.isDigit = false

theorem delimited_cons {c : Char} (h : c.isDigit = false) (s : List Char) : Delimited (c :: s) := by
  intro d hd
  simp only [List.head?_cons, Option.mem_def, Option.some.injEq] at hd
  rw [← hd]
  exact h

theorem takeWhile_toDigits_append (n : Nat) {s : List Char} (hs : Delimited s) :
    (Nat.toDigits 10 n ++ s).takeWhile Char.isDigit = Nat.toDigits 10 n := by
  rw [List.takeWhile_append_of_pos (fun c hc =>
    Nat.isDigit_of_mem_toDigits (by omega) (by omega) hc)]
  cases s with
  | nil => simp
  | cons c s =>
    rw [List.takeWhile_cons_of_neg (by simpa using hs c rfl), List.append_nil]

theorem toDigits_append_inj {m n : Nat} {s t : List Char} (hs : Delimited s) (ht : Delimited t)
    (h : Nat.toDigits 10 m ++ s = Nat.toDigits 10 n ++ t) : m = n ∧ s = t := by
  have hd : Nat.toDigits 10 m = Nat.toDigits 10 n := by
    rw [← takeWhile_toDigits_append m hs, h, takeWhile_toDigits_append n ht]
  have hm : m = n := by
    rw [← Nat.ofDigitChars_ten_toDigits (n := m), hd, Nat.ofDigitChars_ten_toDigits]
  rw [hd] at h
  exact ⟨hm, List.append_cancel_left h⟩

theorem exists_toDigits_cons (n : Nat) :
    ∃ c cs, Nat.toDigits 10 n = c :: cs ∧ c.isDigit = true := by
  cases h : Nat.toDigits 10 n with
  | nil => exact absurd h Nat.toDigits_ne_nil
  | cons c cs =>
    exact ⟨c, cs, rfl, Nat.isDigit_of_mem_toDigits (b := 10) (n := n) (by omega) (by omega)
      (by rw [h]; exact List.mem_cons_self)⟩

theorem toDigits_append_ne_minus (n : Nat) (s t : List Char) :
    Nat.toDigits 10 n ++ s ≠ '-' :: t := by
  obtain ⟨c, cs, h, hc⟩ := exists_toDigits_cons n
  rw [h]
  intro he
  rw [(List.cons.inj he).1] at hc
  exact absurd hc (by decide)

theorem renderInt_append_inj {m n : Int} {s t : List Char} (hs : Delimited s) (ht : Delimited t)
    (h : renderInt m ++ s = renderInt n ++ t) : m = n ∧ s = t := by
  cases m with
  | ofNat m =>
    cases n with
    | ofNat n =>
      obtain ⟨rfl, hst⟩ := toDigits_append_inj hs ht h
      exact ⟨rfl, hst⟩
    | negSucc n => exact absurd h (toDigits_append_ne_minus m s _)
  | negSucc m =>
    cases n with
    | ofNat n => exact absurd h.symm (toDigits_append_ne_minus n t _)
    | negSucc n =>
      obtain ⟨hmn, hst⟩ := toDigits_append_inj hs ht (List.cons.inj h).2
      obtain rfl : m = n := by omega
      exact ⟨rfl, hst⟩

/-! ## Reading a value back -/

/-- The kind of a value, numbered. -/
def kind : Json → Nat
  | .null => 0
  | .bool true => 1
  | .bool false => 2
  | .str _ => 3
  | .arr _ => 4
  | .obj _ => 5
  | .int _ => 6

/-- The kind of value that a first character announces. -/
def kindOfChar (c : Char) : Nat :=
  if c = 'n' then 0 else if c = 't' then 1 else if c = 'f' then 2 else if c = '"' then 3
  else if c = '[' then 4 else if c = '{' then 5 else 6

theorem kindOfChar_isDigit {c : Char} (h : c.isDigit = true) : kindOfChar c = 6 := by
  have hne : ∀ d : Char, d.isDigit = false → c ≠ d := by
    rintro d hd rfl
    rw [h] at hd
    exact Bool.noConfusion hd
  simp only [kindOfChar, hne 'n' (by decide), hne 't' (by decide), hne 'f' (by decide),
    hne '"' (by decide), hne '[' (by decide), hne '{' (by decide), if_false]

/-- The text of a value announces its kind. -/
theorem exists_render_cons (v : Json) : ∃ c cs, v.render = c :: cs ∧ kindOfChar c = v.kind := by
  match v with
  | .null => exact ⟨_, _, rfl, rfl⟩
  | .bool true => exact ⟨_, _, rfl, rfl⟩
  | .bool false => exact ⟨_, _, rfl, rfl⟩
  | .str _ => exact ⟨_, _, rfl, rfl⟩
  | .arr _ => exact ⟨_, _, rfl, rfl⟩
  | .obj _ => exact ⟨_, _, rfl, rfl⟩
  | .int (.ofNat n) =>
    obtain ⟨c, cs, h, hc⟩ := exists_toDigits_cons n
    exact ⟨c, cs, h, kindOfChar_isDigit hc⟩
  | .int (.negSucc n) => exact ⟨_, _, rfl, rfl⟩

theorem kind_eq_of_render_append {v w : Json} {s t : List Char}
    (h : v.render ++ s = w.render ++ t) : v.kind = w.kind := by
  obtain ⟨c, cs, hv, hc⟩ := exists_render_cons v
  obtain ⟨d, ds, hw, hd⟩ := exists_render_cons w
  rw [hv, hw] at h
  rw [← hc, ← hd, (List.cons.inj h).1]

/-- A value never begins with a closing bracket. -/
theorem render_append_ne_bracket (v : Json) (s t : List Char) : v.render ++ s ≠ ']' :: t := by
  obtain ⟨c, cs, hv, hc⟩ := exists_render_cons v
  rw [hv]
  intro h
  obtain rfl : c = ']' := (List.cons.inj h).1
  match v with
  | .null | .bool true | .bool false | .int (.negSucc _) | .str _ | .arr _ | .obj _ =>
    exact absurd (List.cons.inj hv).1 (by decide)
  | .int (.ofNat n) =>
    obtain ⟨d, ds, hn, hd⟩ := exists_toDigits_cons n
    change Nat.toDigits 10 n = ']' :: cs at hv
    rw [hn] at hv
    rw [(List.cons.inj hv).1] at hd
    exact absurd hd (by decide)

theorem delimited_renderMoreItems (xs : List Json) (s : List Char) :
    Delimited (renderMoreItems xs ++ s) := by
  cases xs with
  | nil => exact delimited_cons (by decide) s
  | cons x xs => exact delimited_cons (by decide) _

theorem delimited_renderMoreMembers (xs : List (String × Json)) (s : List Char) :
    Delimited (renderMoreMembers xs ++ s) := by
  cases xs with
  | nil => exact delimited_cons (by decide) s
  | cons x xs => exact delimited_cons (by decide) _

mutual

/-- A value can be read off the front of a text that does not go on with a digit. -/
theorem render_append_inj (v w : Json) {s t : List Char} (hs : Delimited s) (ht : Delimited t)
    (h : v.render ++ s = w.render ++ t) : v = w ∧ s = t := by
  have hk := kind_eq_of_render_append h
  match v, w with
  | .null, .null => exact ⟨rfl, List.append_cancel_left h⟩
  | .bool true, .bool true => exact ⟨rfl, List.append_cancel_left h⟩
  | .bool false, .bool false => exact ⟨rfl, List.append_cancel_left h⟩
  | .int m, .int n =>
    obtain ⟨rfl, hst⟩ := renderInt_append_inj hs ht h
    exact ⟨rfl, hst⟩
  | .str a, .str b =>
    obtain ⟨rfl, hst⟩ := renderString_append_inj h
    exact ⟨rfl, hst⟩
  | .arr xs, .arr ys =>
    obtain ⟨rfl, hst⟩ := renderItems_append_inj xs ys (List.cons.inj h).2
    exact ⟨rfl, hst⟩
  | .obj xs, .obj ys =>
    obtain ⟨rfl, hst⟩ := renderMembers_append_inj xs ys (List.cons.inj h).2
    exact ⟨rfl, hst⟩

/-- The items of an array can be read off. -/
theorem renderItems_append_inj (xs ys : List Json) {s t : List Char}
    (h : renderItems xs ++ s = renderItems ys ++ t) : xs = ys ∧ s = t := by
  match xs, ys with
  | [], [] => exact ⟨rfl, (List.cons.inj h).2⟩
  | [], y :: ys =>
    rw [renderItems, renderItems, List.append_assoc] at h
    exact absurd h.symm (render_append_ne_bracket y _ _)
  | x :: xs, [] =>
    rw [renderItems, renderItems, List.append_assoc] at h
    exact absurd h (render_append_ne_bracket x _ _)
  | x :: xs, y :: ys =>
    rw [renderItems, renderItems, List.append_assoc, List.append_assoc] at h
    obtain ⟨rfl, hrest⟩ := render_append_inj x y (delimited_renderMoreItems xs s)
      (delimited_renderMoreItems ys t) h
    obtain ⟨rfl, hst⟩ := renderMoreItems_append_inj xs ys hrest
    exact ⟨rfl, hst⟩

/-- The further items of an array can be read off. -/
theorem renderMoreItems_append_inj (xs ys : List Json) {s t : List Char}
    (h : renderMoreItems xs ++ s = renderMoreItems ys ++ t) : xs = ys ∧ s = t := by
  match xs, ys with
  | [], [] => exact ⟨rfl, (List.cons.inj h).2⟩
  | [], y :: ys => exact absurd (List.cons.inj h).1 (by decide)
  | x :: xs, [] => exact absurd (List.cons.inj h).1 (by decide)
  | x :: xs, y :: ys =>
    have hbody := (List.cons.inj h).2
    rw [List.append_eq, List.append_eq, List.append_assoc, List.append_assoc] at hbody
    obtain ⟨rfl, hrest⟩ := render_append_inj x y (delimited_renderMoreItems xs s)
      (delimited_renderMoreItems ys t) hbody
    obtain ⟨rfl, hst⟩ := renderMoreItems_append_inj xs ys hrest
    exact ⟨rfl, hst⟩

/-- The members of an object can be read off. -/
theorem renderMembers_append_inj (xs ys : List (String × Json)) {s t : List Char}
    (h : renderMembers xs ++ s = renderMembers ys ++ t) : xs = ys ∧ s = t := by
  match xs, ys with
  | [], [] => exact ⟨rfl, (List.cons.inj h).2⟩
  | [], (k, y) :: ys => exact absurd (List.cons.inj h).1 (by decide)
  | (k, x) :: xs, [] => exact absurd (List.cons.inj h).1 (by decide)
  | (k, x) :: xs, (l, y) :: ys =>
    rw [renderMembers, renderMembers, List.append_assoc, List.append_assoc] at h
    obtain ⟨rfl, hvalue⟩ := renderString_append_inj h
    have hbody := (List.cons.inj hvalue).2
    rw [List.append_eq, List.append_eq, List.append_assoc, List.append_assoc] at hbody
    obtain ⟨rfl, hrest⟩ := render_append_inj x y (delimited_renderMoreMembers xs s)
      (delimited_renderMoreMembers ys t) hbody
    obtain ⟨rfl, hst⟩ := renderMoreMembers_append_inj xs ys hrest
    exact ⟨rfl, hst⟩

/-- The further members of an object can be read off. -/
theorem renderMoreMembers_append_inj (xs ys : List (String × Json)) {s t : List Char}
    (h : renderMoreMembers xs ++ s = renderMoreMembers ys ++ t) : xs = ys ∧ s = t := by
  match xs, ys with
  | [], [] => exact ⟨rfl, (List.cons.inj h).2⟩
  | [], (k, y) :: ys => exact absurd (List.cons.inj h).1 (by decide)
  | (k, x) :: xs, [] => exact absurd (List.cons.inj h).1 (by decide)
  | (k, x) :: xs, (l, y) :: ys =>
    have hmember := (List.cons.inj h).2
    rw [List.append_eq, List.append_eq, List.append_assoc, List.append_assoc] at hmember
    obtain ⟨rfl, hvalue⟩ := renderString_append_inj hmember
    have hbody := (List.cons.inj hvalue).2
    rw [List.append_eq, List.append_eq, List.append_assoc, List.append_assoc] at hbody
    obtain ⟨rfl, hrest⟩ := render_append_inj x y (delimited_renderMoreMembers xs s)
      (delimited_renderMoreMembers ys t) hbody
    obtain ⟨rfl, hst⟩ := renderMoreMembers_append_inj xs ys hrest
    exact ⟨rfl, hst⟩

end

/-- The canonical text of a value determines the value. -/
theorem render_inj {v w : Json} (h : v.render = w.render) : v = w := by
  have hnil : Delimited [] := fun c hc => absurd hc (by simp)
  exact (render_append_inj v w hnil hnil (by rw [h])).1

instance : DecidableEq Json := fun v w =>
  decidable_of_iff (v.render = w.render) ⟨render_inj, congrArg render⟩

/-! ## Canonical bytes -/

/-- The characters of a text are ASCII. -/
def IsAscii (cs : List Char) : Prop :=
  ∀ c ∈ cs, c.toNat < 128

instance : DecidablePred IsAscii := fun cs => List.decidableBAll _ cs

theorem isAscii_nil : IsAscii [] := fun _ h => absurd h (by simp)

theorem isAscii_cons {c : Char} {cs : List Char} (hc : c.toNat < 128) (hcs : IsAscii cs) :
    IsAscii (c :: cs) := by
  intro d hd
  rcases List.mem_cons.1 hd with rfl | hd
  · exact hc
  · exact hcs d hd

theorem isAscii_append {cs ds : List Char} (hcs : IsAscii cs) (hds : IsAscii ds) :
    IsAscii (cs ++ ds) := by
  intro c hc
  rcases List.mem_append.1 hc with hc | hc
  · exact hcs c hc
  · exact hds c hc

theorem isAscii_of_isDigit {cs : List Char} (h : ∀ c ∈ cs, c.isDigit = true) : IsAscii cs := by
  intro c hc
  have hd := h c hc
  simp only [Char.isDigit, Bool.and_eq_true, decide_eq_true_eq, ge_iff_le] at hd
  have h9 : c.toNat ≤ 57 := UInt32.le_iff_toNat_le.1 hd.2
  omega

theorem hexDigit_lt (n : Nat) (h : n < 16) : (Text.hexDigit n).toNat < 128 := by
  interval_cases n <;> decide

theorem isAscii_escapeUnit (n : Nat) : IsAscii (escapeUnit n) := by
  refine isAscii_cons (by decide) (isAscii_cons (by decide) ?_)
  intro c hc
  simp only [hex4, List.mem_cons, List.not_mem_nil, or_false] at hc
  rcases hc with rfl | rfl | rfl | rfl
  all_goals exact hexDigit_lt _ (by omega)

theorem isAscii_escapeChar (c : Char) : IsAscii (escapeChar c) := by
  have hpair : ∀ d : Char, d.toNat < 128 → IsAscii ['\\', d] := fun d hd =>
    isAscii_cons (by decide) (isAscii_cons hd isAscii_nil)
  rw [escapeChar]
  split
  · exact hpair _ (by decide)
  split
  · exact hpair _ (by decide)
  split
  · exact hpair _ (by decide)
  split
  · exact hpair _ (by decide)
  split
  · exact hpair _ (by decide)
  split
  · exact hpair _ (by decide)
  split
  · exact hpair _ (by decide)
  split
  · next h => exact isAscii_cons (by omega) isAscii_nil
  split
  · exact isAscii_escapeUnit _
  · exact isAscii_append (isAscii_escapeUnit _) (isAscii_escapeUnit _)

theorem isAscii_renderString (s : String) : IsAscii (renderString s) := by
  refine isAscii_cons (by decide) (isAscii_append ?_ (isAscii_cons (by decide) isAscii_nil))
  intro c hc
  obtain ⟨d, -, hd⟩ := List.mem_flatMap.1 hc
  exact isAscii_escapeChar d c hd

theorem isAscii_toDigits (n : Nat) : IsAscii (Nat.toDigits 10 n) :=
  isAscii_of_isDigit (fun _ hc => Nat.isDigit_of_mem_toDigits (by omega) (by omega) hc)

mutual

theorem isAscii_render (v : Json) : IsAscii v.render := by
  match v with
  | .null | .bool true | .bool false => decide
  | .int (.ofNat n) => exact isAscii_toDigits n
  | .int (.negSucc n) => exact isAscii_cons (by decide) (isAscii_toDigits _)
  | .str s => exact isAscii_renderString s
  | .arr [] => decide
  | .arr (x :: xs) =>
    exact isAscii_cons (by decide) (isAscii_append (isAscii_render x) (isAscii_renderMoreItems xs))
  | .obj [] => decide
  | .obj ((k, x) :: xs) =>
    exact isAscii_cons (by decide) (isAscii_append (isAscii_renderString k)
      (isAscii_cons (by decide) (isAscii_append (isAscii_render x)
        (isAscii_renderMoreMembers xs))))

theorem isAscii_renderMoreItems (xs : List Json) : IsAscii (renderMoreItems xs) := by
  match xs with
  | [] => exact isAscii_cons (by decide) isAscii_nil
  | x :: xs =>
    exact isAscii_cons (by decide) (isAscii_append (isAscii_render x) (isAscii_renderMoreItems xs))

theorem isAscii_renderMoreMembers (xs : List (String × Json)) :
    IsAscii (renderMoreMembers xs) := by
  match xs with
  | [] => exact isAscii_cons (by decide) isAscii_nil
  | (k, x) :: xs =>
    exact isAscii_cons (by decide) (isAscii_append (isAscii_renderString k)
      (isAscii_cons (by decide) (isAscii_append (isAscii_render x)
        (isAscii_renderMoreMembers xs))))

end

theorem asciiBytes_inj {cs ds : List Char} (hcs : IsAscii cs) (hds : IsAscii ds)
    (h : asciiBytes cs = asciiBytes ds) : cs = ds := by
  induction cs generalizing ds with
  | nil => exact (List.map_eq_nil_iff.1 h.symm).symm
  | cons c cs ih =>
    cases ds with
    | nil => exact absurd h (by simp [asciiBytes])
    | cons d ds =>
      simp only [asciiBytes, List.map_cons, List.cons.injEq] at h
      have hc : c.toNat < 256 := lt_trans (hcs c List.mem_cons_self) (by decide)
      have hd : d.toNat < 256 := lt_trans (hds d List.mem_cons_self) (by decide)
      have hcd : c.toNat = d.toNat := by
        have := congrArg UInt8.toNat h.1
        rwa [UInt8.toNat_ofNat_of_lt' hc, UInt8.toNat_ofNat_of_lt' hd] at this
      rw [char_toNat_inj hcd, ih (fun e he => hcs e (List.mem_cons_of_mem c he))
        (fun e he => hds e (List.mem_cons_of_mem d he)) h.2]

/-- The canonical bytes of a value. -/
def bytes (v : Json) : Bytes :=
  asciiBytes v.render

/-- The canonical bytes of a value determine the value. -/
theorem bytes_inj {v w : Json} (h : v.bytes = w.bytes) : v = w :=
  render_inj (asciiBytes_inj (isAscii_render v) (isAscii_render w) h)

/-! ## Equality in Python -/

mutual

/-- The value with its truth values as numbers. As `True == 1` and `False == 0`, two values are `==` in
    Python if these are the same. -/
def numeric : Json → Json
  | .null => .null
  | .bool b => .int (if b then 1 else 0)
  | .int n => .int n
  | .str s => .str s
  | .arr items => .arr (numericItems items)
  | .obj members => .obj (numericMembers members)

/-- The items of an array, with truth values as numbers. -/
def numericItems : List Json → List Json
  | [] => []
  | x :: rest => numeric x :: numericItems rest

/-- The members of an object, with truth values as numbers. -/
def numericMembers : List (String × Json) → List (String × Json)
  | [] => []
  | (k, x) :: rest => (k, numeric x) :: numericMembers rest

end

end Json
