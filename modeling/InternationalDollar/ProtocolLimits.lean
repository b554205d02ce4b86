import InternationalDollar.KeyRecords

set_option autoImplicit false

/-! # Values within the limits of canonical JSON (`protocol`, `canonical_json`)

Whether a value is within the limits depends on the depth at which it stands. Here a value is measured by the depth that it
adds, so that the pieces of a record can be measured one by one. -/

/-- A value that is within the limits wherever `height` more levels are. -/
def Fits (height : Nat) (v : Json) : Prop :=
  ∀ label depth, depth + height ≤ 64 → v.validate jsonLimits label depth = .ok ()

namespace Fits

variable {height : Nat} {crypto : Crypto}

theorem text {s : String} (h : IsShort s) : Fits height (.str s) :=
  fun _ _ hdepth => validate_text (show _ ≤ 64 by omega) h

theorem number {n : Int} (h : n.natAbs ≤ jsonLimits.maxIntegerAbs) : Fits height (.int n) :=
  fun _ _ hdepth => validate_number (show _ ≤ 64 by omega) h

theorem bool (b : Bool) : Fits height (.bool b) := by
  intro label depth hdepth
  rw [Json.validate, if_neg]
  show ¬ 64 < depth
  omega

theorem list {items : List Json} (hlength : items.length ≤ 100000) (h : ∀ item ∈ items, Fits height item) :
    Fits (height + 1) (.arr items) :=
  fun label depth hdepth =>
    Json.validate_arr.2 ⟨(show depth ≤ 64 by omega), hlength, fun item hitem => h item hitem label _ (by omega)⟩

theorem object {members : List (String × Json)} (hlength : members.length ≤ 1024)
    (h : ∀ member ∈ members, IsShort member.1 ∧ Fits height member.2) : Fits (height + 1) (.obj members) := by
  refine fun label depth hdepth => Json.validate_obj.2 ⟨(show depth ≤ 64 by omega), hlength, fun member hmember => ?_⟩
  obtain ⟨hkey, hvalue⟩ := h member hmember
  have hsize := Json.utf8ByteSize_le member.1
  unfold IsShort at hkey
  exact ⟨(show _ ≤ 65536 by omega), hvalue label _ (by omega)⟩

theorem texts {items : List String} (hlength : items.length ≤ 100000) (h : ∀ item ∈ items, IsShort item) :
    Fits (height + 1) (.arr (items.map .str)) := by
  refine list (by rwa [List.length_map]) fun item hitem => ?_
  obtain ⟨s, hs, rfl⟩ := List.mem_map.1 hitem
  exact text (h s hs)

theorem mono {v : Json} {height' : Nat} (h : Fits height v) (hle : height ≤ height') : Fits height' v :=
  fun label depth hdepth => h label depth (by omega)

theorem canonicalBytes_eq {v : Json} (h : Fits height v) (hle : height ≤ 64) : canonicalBytes v = .ok v.bytes :=
  canonicalBytes_eq_ok.2 ⟨h "protocol object" 0 (by omega), rfl⟩

/-- A value within the limits has a hash, which is short. -/
theorem sha3Json_eq {v : Json} (h : Fits height v) (hle : height ≤ 64) :
    sha3Json crypto v = .ok (crypto.sha3Hex v.bytes) := by
  rw [sha3Json, h.canonicalBytes_eq hle]
  rfl

/-- A value within the limits can be signed. -/
theorem exists_signaturePayload {v : Json} (h : Fits height v) (hle : height ≤ 64) (domain : String) :
    ∃ payload, signaturePayload domain v = .ok payload := by
  rw [signaturePayload, h.canonicalBytes_eq hle]
  exact ⟨_, rfl⟩

end Fits
