import InternationalDollar.Lib.JsonAccess

set_option autoImplicit false

/-! # Configuration values

What a Python program does with the values of a configuration file: a default for a value that is missing or
false, the items of a value, and the text operations that tidy up names and addresses. What the text of a value is,
the lower-case form of a text and the parts of an address are functions of the standard library. -/

namespace Json

/-- Whether a value is true where a condition is asked for. -/
def truthy : Json → Bool
  | .null => false
  | .bool b => b
  | .int n => n ≠ 0
  | .str s => s ≠ ""
  | .arr items => !items.isEmpty
  | .obj members => !members.isEmpty

/-- `value or default`. -/
def orElse (value default : Json) : Json :=
  if value.truthy then value else default

/-- `members.get(key, default)`. -/
def getD (key : String) (default : Json) (members : List (String × Json)) : Json :=
  (AssocList.get? key members).getD default

/-- The members of an object, where `get` is called. -/
def asObject : Json → Except String (List (String × Json))
  | .obj members => .ok members
  | _ => .error "object has no attribute 'get'"

/-- The items of a value that is iterated: those of a list, the characters of a text, the keys of an object. -/
def elements : Json → Except String (List Json)
  | .arr items => .ok items
  | .str s => .ok (s.toList.map fun c => .str (String.ofList [c]))
  | .obj members => .ok (members.map fun member => .str member.1)
  | _ => .error "object is not iterable"

variable {key key' : String} {value default : Json} {members : List (String × Json)}

theorem getD_putMember (h : (members.map Prod.fst).Pairwise (· < ·)) :
    getD key' default (putMember key value members) = if key = key' then value else getD key' default members := by
  rw [getD, get?_putMember h]
  split <;> rfl

end Json

/-! ## Lists without repetitions -/

/-- The items without those that were there before. -/
def dedupe : List String → List String
  | [] => []
  | x :: rest => x :: (dedupe rest).filter (· ≠ x)

theorem mem_dedupe {x : String} {items : List String} : x ∈ dedupe items ↔ x ∈ items := by
  induction items with
  | nil => rfl
  | cons y rest ih =>
    rw [dedupe, List.mem_cons, List.mem_filter, ih, List.mem_cons, decide_eq_true_iff]
    constructor
    · exact fun h => h.imp_right And.left
    · rintro (rfl | h)
      · exact .inl rfl
      · exact or_iff_not_imp_left.2 fun hne => ⟨h, hne⟩

namespace Text

/-- `text.rstrip(c)`. -/
def rstripChar (c : Char) (s : String) : String :=
  String.ofList (s.toList.reverse.dropWhile (· = c)).reverse

/-- `text.strip(c)`. -/
def stripChar (c : Char) (s : String) : String :=
  String.ofList (trim (· = c) s.toList)

/-- `_split_many` of one text: the parts between commas and line ends. -/
def splitMany (s : String) : List String :=
  ((s.toList.splitOnP fun c => c = ',' || c = '\n').map fun cs => strip (String.ofList cs)).filter (· ≠ "")

theorem toList_rstripChar_isPrefix (c : Char) (s : String) : (rstripChar c s).toList <+: s.toList := by
  rw [rstripChar, String.toList_ofList, ← List.reverse_suffix, List.reverse_reverse]
  exact List.dropWhile_suffix _

theorem rstripChar_rstripChar (c : Char) (s : String) : rstripChar c (rstripChar c s) = rstripChar c s := by
  rw [rstripChar, rstripChar, String.toList_ofList, List.reverse_reverse, List.dropWhile_idempotent]

theorem length_strip_le (s : String) : (strip s).length ≤ s.length := by
  obtain ⟨before, after, heq, -, -⟩ := exists_trim_eq isSpace s.toList
  rw [strip, String.length_ofList, ← String.length_toList]
  conv_rhs => rw [heq]
  rw [List.length_append, List.length_append]
  omega

end Text

/-- The parts of an address. Reading the port may raise. -/
structure UrlParts where
  scheme : String
  hostname : Option String
  port : Except String (Option Int)
  fragment : String

/-- Functions of the standard library that are applied to values of a configuration: the text of a value, the
    lower-case form of a text, and the parts of an address. -/
structure TextLibrary where
  str : Json → String
  lower : String → String
  urlparse : String → Except String UrlParts
  str_text : ∀ s, str (.str s) = s
  str_ne : ∀ v : Json, v.truthy = true → str v ≠ ""
  lower_ascii : ∀ s, (s.toList.all fun c => c.toNat < 128) = true → lower s = Text.lower s
  urlparse_empty : ∀ parsed, urlparse "" = .ok parsed → parsed.hostname.getD "" = ""

attribute [simp] TextLibrary.str_text
