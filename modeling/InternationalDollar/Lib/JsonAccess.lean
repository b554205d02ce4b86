import InternationalDollar.Lib.AssocList
import InternationalDollar.Lib.JsonRoundTrip
import InternationalDollar.Lib.Lines
import Mathlib.Data.String.Basic

set_option autoImplicit false

/-! # Values read from JSON

What a program does with a value that `json.loads` returned: it looks up a member, converts a value to a number,
or writes a member. A member is written where it belongs in the order of the keys, so an object stays in
order. -/

namespace Json

/-- `value[key]`. -/
def item (key : String) : Json → Except String Json
  | .obj members => Check.ofOption (AssocList.get? key members) key
  | _ => .error "string indices must be integers"

/-- `int(value)`. -/
def toInt : Json → Except String Int
  | .bool b => .ok (if b then 1 else 0)
  | .int n => .ok n
  | .str s => Check.ofOption (Text.intOfText s) "invalid literal for int() with base 10"
  | _ => .error "int() argument must be a string, a bytes-like object or a real number"

/-- A text, where a method of texts is called. -/
def asText : Json → Except String String
  | .str s => .ok s
  | _ => .error "object has no attribute 'strip'"

/-- Whether a value is an object with these members. -/
def hasMembers (names : List String) : Json → Bool
  | .obj members => names.all fun name => (AssocList.get? name members).isSome
  | _ => false

/-- `members[key] = value`, in the order of the keys. -/
def putMember (key : String) (value : Json) : List (String × Json) → List (String × Json)
  | [] => [(key, value)]
  | (k, v) :: rest =>
      if k < key then (k, v) :: putMember key value rest
      else if k = key then (key, value) :: rest
      else (key, value) :: (k, v) :: rest

/-- `members.pop(key, None)`. -/
def popMember (key : String) (members : List (String × Json)) : List (String × Json) :=
  members.filter fun member => member.1 ≠ key

variable {key key' : String} {value v : Json} {members : List (String × Json)}

theorem item_eq_ok : item key v = .ok value ↔ ∃ members, v = .obj members ∧ AssocList.get? key members = some value := by
  cases v with
  | obj members => simp [item]
  | null | bool | int | str | arr => simp [item]

theorem nodup_of_sorted (h : (members.map Prod.fst).Pairwise (· < ·)) : (members.map Prod.fst).Nodup := by
  refine h.imp ?_
  rintro key _ hlt rfl
  exact String.lt_irrefl key hlt

/-- A member of an object in order is found. -/
theorem item_of_mem (h : (members.map Prod.fst).Pairwise (· < ·)) (hmem : (key, value) ∈ members) :
    (obj members).item key = .ok value := by
  rw [item, AssocList.get?_eq_some_of_mem (nodup_of_sorted h) hmem]
  rfl

theorem get?_putMember (h : (members.map Prod.fst).Pairwise (· < ·)) :
    AssocList.get? key' (putMember key value members)
      = if key = key' then some value else AssocList.get? key' members := by
  induction members with
  | nil => rfl
  | cons member rest ih =>
    obtain ⟨k, v⟩ := member
    rw [List.map_cons, List.pairwise_cons] at h
    rw [putMember]
    by_cases hlt : k < key
    · have hne : key ≠ k := by
        rintro rfl
        exact String.lt_irrefl _ hlt
      rw [if_pos hlt, AssocList.get?, AssocList.get?, ih h.2]
      by_cases hkey : k = key'
      · subst hkey
        rw [if_pos rfl, if_pos rfl, if_neg hne]
      · rw [if_neg hkey, if_neg hkey]
    · rw [if_neg hlt]
      by_cases hkey : k = key
      · subst hkey
        rw [if_pos rfl, AssocList.get?, AssocList.get?]
        split <;> rfl
      · rw [if_neg hkey, AssocList.get?]

theorem mem_keys_putMember {k : String} (h : k ∈ (putMember key value members).map Prod.fst) :
    k = key ∨ k ∈ members.map Prod.fst := by
  induction members with
  | nil => exact .inl (List.mem_singleton.1 h)
  | cons member rest ih =>
    rw [putMember] at h
    split at h
    · rcases List.mem_cons.1 h with rfl | h
      · exact .inr List.mem_cons_self
      · exact (ih h).imp_right (List.mem_cons_of_mem _)
    · split at h
      · next hkey =>
        rcases List.mem_cons.1 h with rfl | h
        · exact .inl rfl
        · exact .inr (List.mem_cons_of_mem _ h)
      · rcases List.mem_cons.1 h with rfl | h
        · exact .inl rfl
        · exact .inr h

theorem pairwise_putMember (h : (members.map Prod.fst).Pairwise (· < ·)) :
    ((putMember key value members).map Prod.fst).Pairwise (· < ·) := by
  induction members with
  | nil => exact List.pairwise_singleton _ _
  | cons member rest ih =>
    obtain ⟨k, v⟩ := member
    rw [List.map_cons, List.pairwise_cons] at h
    rw [putMember]
    by_cases hlt : k < key
    · rw [if_pos hlt, List.map_cons, List.pairwise_cons]
      refine ⟨fun k' hk' => ?_, ih h.2⟩
      rcases mem_keys_putMember hk' with rfl | hk'
      · exact hlt
      · exact h.1 k' hk'
    · rw [if_neg hlt]
      by_cases hkey : k = key
      · subst hkey
        rw [if_pos rfl, List.map_cons, List.pairwise_cons]
        exact h
      · have hgt : key < k := lt_of_le_of_ne (String.not_lt.1 hlt) (Ne.symm hkey)
        rw [if_neg hkey, List.map_cons, List.pairwise_cons]
        refine ⟨fun k' hk' => ?_, List.pairwise_cons.2 h⟩
        rcases List.mem_cons.1 hk' with rfl | hk'
        · exact hgt
        · exact hgt.trans (h.1 k' hk')

theorem sortedMembers_putMember (h : SortedMembers members) (hv : value.Sorted) :
    SortedMembers (putMember key value members) := by
  induction members with
  | nil => exact ⟨hv, trivial⟩
  | cons member rest ih =>
    obtain ⟨k, v⟩ := member
    rw [putMember]
    split
    · exact ⟨h.1, ih h.2⟩
    · split
      · exact ⟨hv, h.2⟩
      · exact ⟨hv, h⟩

/-- A member that is written leaves the object in order. -/
theorem sorted_putMember (h : (obj members).Sorted) (hv : value.Sorted) :
    (obj (putMember key value members)).Sorted :=
  ⟨pairwise_putMember h.1, sortedMembers_putMember h.2 hv⟩

end Json
