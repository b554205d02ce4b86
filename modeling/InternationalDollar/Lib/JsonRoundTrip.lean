import InternationalDollar.Lib.JsonReader

set_option autoImplicit false

/-! # The reader and the writer of JSON

`parse_render`: the reader takes the canonical text of a value back to the value. `sorted_of_parse`:
every value the reader returns lists the members of its objects by key and without a repeated key, on
every level, so the canonical text and the value say the same. -/

namespace Json

/-! ## Objects by key -/

mutual

/-- The members of every object stand by key and no key is repeated: the list that represents a
    dictionary. -/
def Sorted : Json → Prop
  | .null => True
  | .bool _ => True
  | .int _ => True
  | .str _ => True
  | .arr items => SortedItems items
  | .obj members => (members.map Prod.fst).Pairwise (· < ·) ∧ SortedMembers members

/-- So do the items of an array. -/
def SortedItems : List Json → Prop
  | [] => True
  | x :: rest => x.Sorted ∧ SortedItems rest

/-- So do the members of an object. -/
def SortedMembers : List (String × Json) → Prop
  | [] => True
  | (_, x) :: rest => x.Sorted ∧ SortedMembers rest

end

theorem sortedItems_iff {items : List Json} : SortedItems items ↔ ∀ x ∈ items, x.Sorted := by
  induction items with
  | nil => simp [SortedItems]
  | cons x rest ih => rw [SortedItems, ih, List.forall_mem_cons]

theorem sortedMembers_iff {members : List (String × Json)} :
    SortedMembers members ↔ ∀ e ∈ members, e.2.Sorted := by
  induction members with
  | nil => simp [SortedMembers]
  | cons e rest ih => rw [SortedMembers, ih, List.forall_mem_cons]

theorem ofPairs_of_sorted {members : List (String × Json)}
    (h : (members.map Prod.fst).Pairwise (· < ·)) : ofPairs members = some (.obj members) := by
  have hnodup : (members.map Prod.fst).Nodup := by
    refine h.imp ?_
    rintro a b hlt rfl
    exact String.lt_irrefl a hlt
  have hsorted : members.Pairwise fun a b => a.1 ≤ b.1 :=
    (List.pairwise_map.1 h).imp fun hlt => String.not_lt.1 (String.lt_asymm hlt)
  rw [ofPairs, if_pos hnodup, hsorted.insertionSort_eq]

theorem sorted_of_ofPairs {pairs : List (String × Json)} {value : Json}
    (h : ofPairs pairs = some value) (hpairs : ∀ e ∈ pairs, e.2.Sorted) : value.Sorted := by
  rw [ofPairs] at h
  split at h
  case isFalse => cases h
  case isTrue hnodup =>
    cases h
    have hperm := List.perm_insertionSort (fun a b : String × Json => a.1 ≤ b.1) pairs
    have hle := List.pairwise_insertionSort (fun a b : String × Json => a.1 ≤ b.1) pairs
    refine ⟨?_, sortedMembers_iff.2 fun e he => hpairs e (hperm.mem_iff.1 he)⟩
    -- in order and all different
    have hnodup' := List.pairwise_map.1 ((hperm.map Prod.fst).nodup_iff.2 hnodup)
    refine List.pairwise_map.2 (hle.imp₂ ?_ hnodup')
    intro a b hab hne
    exact String.not_le.1 fun hba => hne (String.le_antisymm hab hba)

/-! ## Tokens -/

theorem skipBlanks_cons {c : Char} (h : isBlank c = false) (cs : List Char) :
    skipBlanks (c :: cs) = c :: cs :=
  List.dropWhile_cons_of_neg (by simp [h])

theorem scanEscape_unit {n : Nat} (hlt : n < 65536) (h : n < 0xd800 ∨ 0xe000 ≤ n)
    (rest : List Char) : scanEscape ('u' :: (hex4 n ++ rest)) = some (Char.ofNat n, rest) := by
  have h1 : ¬ (0xd800 ≤ n ∧ n < 0xdc00) := by omega
  have h2 : ¬ (0xdc00 ≤ n ∧ n < 0xe000) := by omega
  simp only [scanEscape, if_true, read4_hex4 hlt, Option.bind_some, if_neg h1, if_neg h2]

theorem scanEscape_pair {high low : Nat} (hhigh : 0xd800 ≤ high ∧ high < 0xdc00)
    (hlow : 0xdc00 ≤ low ∧ low < 0xe000) (rest : List Char) :
    scanEscape ('u' :: (hex4 high ++ (escapeUnit low ++ rest)))
      = some (Char.ofNat (65536 + (high - 0xd800) * 1024 + (low - 0xdc00)), rest) := by
  have h1 : high < 65536 := by omega
  have h2 : low < 65536 := by omega
  simp only [scanEscape, if_true, read4_hex4 h1, Option.bind_some, if_pos hhigh, escapeUnit,
    List.cons_append, read4_hex4 h2, if_pos hlow]

/-- The reader takes one escaped character off the front. -/
theorem scanString_escapeChar (c : Char) (fuel : Nat) (rest : List Char) :
    scanString (fuel + 1) (escapeChar c ++ rest)
      = (scanString fuel rest).map fun tail => (c :: tail.1, tail.2) := by
  have hescape : ∀ (after : List Char) (d : Char), scanEscape after = some (d, rest) →
      scanString (fuel + 1) ('\\' :: after)
        = (scanString fuel rest).map fun tail => (d :: tail.1, tail.2) := by
    intro after d h
    rw [scanString, if_neg (by decide), if_pos rfl, h, Option.bind_some]
  have hvalid := char_toNat_valid c
  have hchar : Char.ofNat c.toNat = c := Char.ofNat_toNat c
  rw [escapeChar]
  split
  · next h => subst h; exact hescape _ _ rfl
  split
  · next h => subst h; exact hescape _ _ rfl
  split
  · next h => subst h; exact hescape _ _ rfl
  split
  · next h => subst h; exact hescape _ _ rfl
  split
  · next h => subst h; exact hescape _ _ rfl
  split
  · next h => rw [← hchar, h]; exact hescape _ _ rfl
  split
  · next h => rw [← hchar, h]; exact hescape _ _ rfl
  split
  · next hquote hback _ _ _ _ _ hplain =>
    rw [List.singleton_append, scanString, if_neg hquote, if_neg hback, if_neg (by omega)]
  split
  · next hlt =>
    exact hescape _ _ ((scanEscape_unit hlt (hvalid.imp_right And.left) rest).trans (by rw [hchar]))
  · next hlt =>
    -- above the first plane: two units
    have hsum : 65536 + (0xd800 + (c.toNat - 65536) / 1024 - 0xd800) * 1024 +
        (0xdc00 + (c.toNat - 65536) % 1024 - 0xdc00) = c.toNat := by omega
    rw [List.append_assoc]
    refine hescape _ _ ((scanEscape_pair (by omega) (by omega) rest).trans ?_)
    rw [hsum, hchar]

theorem scanString_escapeChars (cs : List Char) {fuel : Nat} (hfuel : cs.length < fuel)
    (rest : List Char) :
    scanString fuel (cs.flatMap escapeChar ++ '"' :: rest) = some (cs, rest) := by
  induction cs generalizing fuel with
  | nil =>
    obtain ⟨fuel, rfl⟩ : ∃ n, fuel = n + 1 := ⟨fuel - 1, by simp at hfuel; omega⟩
    rfl
  | cons c cs ih =>
    obtain ⟨fuel, rfl⟩ : ∃ n, fuel = n + 1 := ⟨fuel - 1, by simp at hfuel; omega⟩
    rw [List.length_cons] at hfuel
    rw [List.flatMap_cons, List.append_assoc, scanString_escapeChar, ih (by omega), Option.map_some]

theorem length_le_escapeChars (cs : List Char) : cs.length ≤ (cs.flatMap escapeChar).length := by
  induction cs with
  | nil => exact Nat.zero_le _
  | cons c cs ih =>
    have hpos : escapeChar c ≠ [] := by
      intro h
      have := readChar_escapeChar c []
      rw [h] at this
      cases this
    have := List.length_pos_of_ne_nil hpos
    rw [List.flatMap_cons, List.length_append, List.length_cons]
    omega

/-- A string literal is read back. -/
theorem scanString_render (s : String) (rest : List Char) :
    let text := s.toList.flatMap escapeChar ++ '"' :: rest
    scanString (text.length + 1) text = some (s.toList, rest) := by
  intro text
  refine scanString_escapeChars s.toList ?_ rest
  have := length_le_escapeChars s.toList
  rw [List.length_append, List.length_cons]
  omega

/-- Only zero is written with a leading zero. -/
theorem eq_zero_of_toDigits {n : Nat} {cs : List Char} (h : Nat.toDigits 10 n = '0' :: cs) :
    n = 0 := by
  induction n using Nat.strongRecOn generalizing cs with
  | ind n ih =>
    by_cases hlt : n < 10
    · rw [Nat.toDigits_of_lt_base hlt] at h
      have hdigit : n.digitChar = '0' := (List.cons.inj h).1
      interval_cases n <;> first | rfl | exact absurd hdigit (by decide)
    · -- the leading digit is that of the tenth part, which is not zero
      rw [Nat.toDigits_of_base_le (by omega) (by omega)] at h
      obtain ⟨c, ds, hdigits, -⟩ := exists_toDigits_cons (n / 10)
      rw [hdigits, List.cons_append] at h
      obtain rfl := (List.cons.inj h).1
      have := ih (n / 10) (by omega) hdigits
      omega

theorem scanNat_toDigits (n : Nat) {rest : List Char} (h : Delimited rest) :
    scanNat (Nat.toDigits 10 n ++ rest) = some (n, rest) := by
  obtain ⟨c, cs, hdigits, hc⟩ := exists_toDigits_cons n
  have htake := takeWhile_toDigits_append n h
  have hdrop : (Nat.toDigits 10 n ++ rest).dropWhile Char.isDigit = rest := by
    have := List.takeWhile_append_dropWhile (p := Char.isDigit) (l := Nat.toDigits 10 n ++ rest)
    rw [htake] at this
    exact List.append_cancel_left this
  rw [hdigits] at htake hdrop ⊢
  rw [List.cons_append] at htake hdrop ⊢
  rw [scanNat, if_pos hc]
  split
  · next hzero =>
    subst hzero
    obtain rfl := eq_zero_of_toDigits hdigits
    obtain rfl : cs = [] := (List.cons.inj hdigits).2.symm
    rfl
  · rw [htake, hdrop, ← hdigits, Nat.ofDigitChars_ten_toDigits]

/-! ## Values -/

theorem render_length_pos (v : Json) : 0 < v.render.length := by
  obtain ⟨c, cs, h, -⟩ := exists_render_cons v
  rw [h]
  exact Nat.succ_pos _

theorem renderMoreItems_eq {items : List Json} (h : items ≠ []) :
    renderMoreItems items = ',' :: renderItems items := by
  cases items with
  | nil => exact absurd rfl h
  | cons x rest => rfl

theorem renderMoreMembers_eq {members : List (String × Json)} (h : members ≠ []) :
    renderMoreMembers members = ',' :: renderMembers members := by
  cases members with
  | nil => exact absurd rfl h
  | cons e rest => rfl

theorem isBlank_of_isDigit {c : Char} (h : c.isDigit = true) : isBlank c = false := by
  have hne : ∀ d : Char, d.isDigit = false → c ≠ d := by
    rintro d hd rfl
    rw [h] at hd
    exact Bool.noConfusion hd
  simp only [isBlank, hne ' ' (by decide), hne '\t' (by decide), hne '\n' (by decide),
    hne '\r' (by decide), decide_false, Bool.or_false]

/-- The text of a value does not begin with a blank. -/
theorem skipBlanks_render (v : Json) (rest : List Char) :
    skipBlanks (v.render ++ rest) = v.render ++ rest := by
  match v with
  | .null | .bool true | .bool false | .str _ | .arr _ | .obj _ | .int (.negSucc _) => rfl
  | .int (.ofNat n) =>
    obtain ⟨c, cs, h, hc⟩ := exists_toDigits_cons n
    change skipBlanks (Nat.toDigits 10 n ++ rest) = Nat.toDigits 10 n ++ rest
    rw [h]
    exact skipBlanks_cons (isBlank_of_isDigit hc) _

theorem scanValue_int (n : Int) (fuel : Nat) {rest : List Char} (h : Delimited rest) :
    scanValue (fuel + 1) (renderInt n ++ rest) = some (.int n, rest) := by
  cases n with
  | negSucc n =>
    change scanValue (fuel + 1) ('-' :: (Nat.toDigits 10 (n + 1) ++ rest)) = _
    simp [scanValue, scanNat_toDigits (n + 1) h, Int.negSucc_eq]
  | ofNat n =>
    obtain ⟨c, cs, hdigits, hc⟩ := exists_toDigits_cons n
    have hne : ∀ d : Char, d.isDigit = false → c ≠ d := by
      rintro d hd rfl
      rw [hc] at hd
      exact Bool.noConfusion hd
    have hnat := scanNat_toDigits n h
    change scanValue (fuel + 1) (Nat.toDigits 10 n ++ rest) = _
    rw [hdigits] at hnat ⊢
    rw [List.cons_append] at hnat ⊢
    rw [scanValue, if_neg (hne _ (by decide)), if_neg (hne _ (by decide)), if_neg (hne _ (by decide)),
      if_neg (hne _ (by decide)), if_neg (hne _ (by decide)), if_neg (hne _ (by decide)),
      if_neg (hne _ (by decide)), hnat]
    rfl

/-- The text of the items of an array begins with an item. -/
theorem scanArray_renderItems {items : List Json} (h : items ≠ []) (fuel : Nat) (rest : List Char) :
    scanArray (fuel + 1) (skipBlanks (renderItems items ++ rest))
      = scanItems fuel (renderItems items ++ rest) := by
  cases items with
  | nil => exact absurd rfl h
  | cons x xs =>
    rw [renderItems, List.append_assoc, skipBlanks_render, scanArray]
    intro tail htail
    exact absurd htail (render_append_ne_bracket x _ _)

theorem scanObject_renderMembers {members : List (String × Json)} (h : members ≠ []) (fuel : Nat)
    (rest : List Char) :
    scanObject (fuel + 1) (skipBlanks (renderMembers members ++ rest))
      = scanMembers fuel (renderMembers members ++ rest) := by
  cases members with
  | nil => exact absurd rfl h
  | cons e xs => rfl

theorem skipBlanks_renderMembers (members : List (String × Json)) (rest : List Char) :
    skipBlanks (renderMembers members ++ rest) = renderMembers members ++ rest := by
  cases members with
  | nil => rfl
  | cons e xs => rfl

theorem skipBlanks_renderItems (items : List Json) (rest : List Char) :
    skipBlanks (renderItems items ++ rest) = renderItems items ++ rest := by
  cases items with
  | nil => rfl
  | cons x xs => rw [renderItems, List.append_assoc, skipBlanks_render]

mutual

/-- A value is read off the front of a text that does not go on with a digit. -/
theorem scanValue_render (v : Json) (hv : v.Sorted) {fuel : Nat} (hfuel : 3 * v.render.length ≤ fuel)
    {rest : List Char} (hrest : Delimited rest) :
    scanValue fuel (v.render ++ rest) = some (v, rest) := by
  have hpos := render_length_pos v
  obtain ⟨fuel, rfl⟩ : ∃ n, fuel = n + 3 := ⟨fuel - 3, by omega⟩
  match v with
  | .null => rfl
  | .bool true => rfl
  | .bool false => rfl
  | .int n => exact scanValue_int n _ hrest
  | .str s =>
    simp only [render, renderString, List.cons_append, List.append_assoc, List.nil_append, scanValue,
      if_true, scanString_render s rest, Option.map_some, String.ofList_toList]
  | .arr items =>
    by_cases hitems : items = []
    · subst hitems
      rfl
    · simp only [render, List.length_cons] at hfuel
      have hscan := scanItems_render items hitems hv (show _ ≤ fuel + 1 by omega) rest
      simp only [render, List.cons_append, scanValue, show ('[' : Char) ≠ '"' by decide,
        show ('[' : Char) ≠ '{' by decide, if_false, if_true, scanArray_renderItems hitems, hscan,
        Option.map_some]
  | .obj members =>
    by_cases hmembers : members = []
    · subst hmembers
      rfl
    · simp only [render, List.length_cons] at hfuel
      simp only [Sorted] at hv
      have hscan := scanMembers_render members hmembers hv.2 (show _ ≤ fuel + 1 by omega) rest
      simp only [render, List.cons_append, scanValue, show ('{' : Char) ≠ '"' by decide, if_false,
        if_true, scanObject_renderMembers hmembers, hscan, Option.bind_some, ofPairs_of_sorted hv.1,
        Option.map_some]

/-- The items of an array are read up to its end. -/
theorem scanItems_render (items : List Json) (hne : items ≠ []) (hsorted : SortedItems items)
    {fuel : Nat} (hfuel : 3 * (renderItems items).length ≤ fuel) (rest : List Char) :
    scanItems fuel (renderItems items ++ rest) = some (items, rest) := by
  match items with
  | [] => exact absurd rfl hne
  | x :: xs =>
    simp only [renderItems, List.length_append] at hfuel
    simp only [SortedItems] at hsorted
    have hpos := render_length_pos x
    obtain ⟨fuel, rfl⟩ : ∃ n, fuel = n + 1 := ⟨fuel - 1, by omega⟩
    by_cases hxs : xs = []
    · subst hxs
      simp only [renderMoreItems, List.length_singleton] at hfuel
      have hvalue := scanValue_render x hsorted.1 (show _ ≤ fuel by omega)
        (delimited_renderMoreItems [] rest)
      rw [renderItems, List.append_assoc, scanItems, hvalue]
      rfl
    · have hmore := renderMoreItems_eq hxs
      rw [hmore, List.length_cons] at hfuel
      have hvalue := scanValue_render x hsorted.1 (show _ ≤ fuel by omega)
        (delimited_renderMoreItems xs rest)
      have hscan := scanItems_render xs hxs hsorted.2 (show _ ≤ fuel by omega) rest
      rw [hmore, List.cons_append] at hvalue
      rw [renderItems, hmore, List.append_assoc, List.cons_append, scanItems, hvalue, Option.bind_some]
      simp only [skipBlanks_cons (show isBlank ',' = false by decide), skipBlanks_renderItems, hscan,
        Option.map_some]

/-- The members of an object are read up to its end. -/
theorem scanMembers_render (members : List (String × Json)) (hne : members ≠ [])
    (hsorted : SortedMembers members) {fuel : Nat} (hfuel : 3 * (renderMembers members).length ≤ fuel)
    (rest : List Char) : scanMembers fuel (renderMembers members ++ rest) = some (members, rest) := by
  match members with
  | [] => exact absurd rfl hne
  | (k, x) :: xs =>
    simp only [renderMembers, List.length_append, List.length_cons] at hfuel
    simp only [SortedMembers] at hsorted
    obtain ⟨fuel, rfl⟩ : ∃ n, fuel = n + 1 := ⟨fuel - 1, by omega⟩
    have hvalue := scanValue_render x hsorted.1 (show _ ≤ fuel by omega)
      (delimited_renderMoreMembers xs rest)
    have hcolon := skipBlanks_cons (show isBlank ':' = false by decide)
    by_cases hxs : xs = []
    · subst hxs
      simp only [renderMembers, renderString, List.cons_append, List.append_assoc, List.nil_append,
        scanMembers, if_true, scanString_render k, Option.bind_some, hcolon, skipBlanks_render, hvalue,
        String.ofList_toList]
      rfl
    · have hmore := renderMoreMembers_eq hxs
      rw [hmore, List.length_cons] at hfuel
      have hscan := scanMembers_render xs hxs hsorted.2 (show _ ≤ fuel by omega) rest
      rw [hmore, List.cons_append] at hvalue
      simp only [renderMembers, hmore, renderString, List.cons_append, List.append_assoc,
        List.nil_append, scanMembers, if_true, scanString_render k, Option.bind_some, hcolon,
        skipBlanks_render, hvalue, String.ofList_toList,
        skipBlanks_cons (show isBlank ',' = false by decide), skipBlanks_renderMembers, hscan,
        Option.map_some]

end

/-- The reader takes the canonical text of a value back to the value. -/
theorem parse_render {v : Json} (h : v.Sorted) : parse v.render = some v := by
  have hvalue := scanValue_render v h (show _ ≤ 3 * v.render.length + 3 by omega)
    (show Delimited [] from fun c hc => absurd hc (by simp))
  have hblanks := skipBlanks_render v []
  rw [List.append_nil] at hvalue hblanks
  rw [parse, hblanks, hvalue]
  rfl

/-! ## What the reader returns -/

/-- Everything that is read with some fuel has its objects in order. -/
structure ScansSorted (fuel : Nat) : Prop where
  value : ∀ {cs : List Char} {v : Json} {rest : List Char},
    scanValue fuel cs = some (v, rest) → v.Sorted
  array : ∀ {cs : List Char} {items : List Json} {rest : List Char},
    scanArray fuel cs = some (items, rest) → ∀ x ∈ items, x.Sorted
  items : ∀ {cs : List Char} {items : List Json} {rest : List Char},
    scanItems fuel cs = some (items, rest) → ∀ x ∈ items, x.Sorted
  object : ∀ {cs : List Char} {pairs : List (String × Json)} {rest : List Char},
    scanObject fuel cs = some (pairs, rest) → ∀ e ∈ pairs, e.2.Sorted
  members : ∀ {cs : List Char} {pairs : List (String × Json)} {rest : List Char},
    scanMembers fuel cs = some (pairs, rest) → ∀ e ∈ pairs, e.2.Sorted

namespace ScansSorted

variable {fuel : Nat}

theorem value_succ (h : ScansSorted fuel) {cs : List Char} {v : Json} {rest : List Char}
    (hscan : scanValue (fuel + 1) cs = some (v, rest)) : v.Sorted := by
  cases cs with
  | nil => cases hscan
  | cons c cs =>
    have hword : ∀ (word : String) (w : Json) (text : List Char),
        scanWord word w text = some (v, rest) → v = w := by
      intro word w text hw
      obtain ⟨tail, -, heq⟩ := Option.map_eq_some_iff.1 hw
      exact (Prod.mk.inj heq).1.symm
    rw [scanValue] at hscan
    split at hscan
    · obtain ⟨text, -, heq⟩ := Option.map_eq_some_iff.1 hscan
      cases heq
      trivial
    split at hscan
    · obtain ⟨pairs, hpairs, hscan⟩ := Option.bind_eq_some_iff.1 hscan
      obtain ⟨value, hvalue, heq⟩ := Option.map_eq_some_iff.1 hscan
      cases heq
      exact sorted_of_ofPairs hvalue (h.object hpairs)
    split at hscan
    · obtain ⟨items, hitems, heq⟩ := Option.map_eq_some_iff.1 hscan
      cases heq
      exact sortedItems_iff.2 (h.array hitems)
    split at hscan
    · obtain ⟨n, -, heq⟩ := Option.map_eq_some_iff.1 hscan
      cases heq
      trivial
    split at hscan
    · rw [hword _ _ _ hscan]
      trivial
    split at hscan
    · rw [hword _ _ _ hscan]
      trivial
    split at hscan
    · rw [hword _ _ _ hscan]
      trivial
    · obtain ⟨n, -, heq⟩ := Option.map_eq_some_iff.1 hscan
      cases heq
      trivial

theorem items_succ (h : ScansSorted fuel) {cs : List Char} {items : List Json} {rest : List Char}
    (hscan : scanItems (fuel + 1) cs = some (items, rest)) : ∀ x ∈ items, x.Sorted := by
  rw [scanItems] at hscan
  obtain ⟨item, hitem, hscan⟩ := Option.bind_eq_some_iff.1 hscan
  have hvalue := h.value hitem
  split at hscan
  · cases hscan
    exact List.forall_mem_singleton.2 hvalue
  · obtain ⟨tail, htail, heq⟩ := Option.map_eq_some_iff.1 hscan
    cases heq
    exact List.forall_mem_cons.2 ⟨hvalue, h.items htail⟩
  · cases hscan

theorem members_succ (h : ScansSorted fuel) {cs : List Char} {pairs : List (String × Json)}
    {rest : List Char} (hscan : scanMembers (fuel + 1) cs = some (pairs, rest)) :
    ∀ e ∈ pairs, e.2.Sorted := by
  cases cs with
  | nil => cases hscan
  | cons c cs =>
    rw [scanMembers] at hscan
    split at hscan
    case isFalse => cases hscan
    case isTrue =>
      obtain ⟨key, -, hscan⟩ := Option.bind_eq_some_iff.1 hscan
      split at hscan
      · obtain ⟨value, hscanned, hscan⟩ := Option.bind_eq_some_iff.1 hscan
        have hvalue := h.value hscanned
        split at hscan
        · cases hscan
          exact List.forall_mem_singleton.2 hvalue
        · obtain ⟨tail, htail, heq⟩ := Option.map_eq_some_iff.1 hscan
          cases heq
          exact List.forall_mem_cons.2 ⟨hvalue, h.members htail⟩
        · cases hscan
      · cases hscan

end ScansSorted

theorem scansSorted (fuel : Nat) : ScansSorted fuel := by
  induction fuel with
  | zero => constructor <;> (intro _ _ _ h; cases h)
  | succ fuel ih =>
    exact
      { value := ih.value_succ
        array := by
          intro cs items rest h
          rw [scanArray.eq_def] at h
          simp only at h
          split at h
          · cases h
            simp
          · exact ih.items h
        items := ih.items_succ
        object := by
          intro cs pairs rest h
          rw [scanObject.eq_def] at h
          simp only at h
          split at h
          · cases h
            simp
          · exact ih.members h
        members := ih.members_succ }

/-- No object that the reader returns repeats a key. -/
theorem sorted_of_parse {cs : List Char} {v : Json} (h : parse cs = some v) : v.Sorted := by
  obtain ⟨⟨w, rest⟩, hscan, h⟩ := Option.bind_eq_some_iff.1 h
  split at h
  · cases h
    exact (scansSorted _).value hscan
  · cases h

end Json
