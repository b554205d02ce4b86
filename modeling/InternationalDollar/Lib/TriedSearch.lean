import InternationalDollar.Lib.Dict
import Mathlib.Data.Set.Function

set_option autoImplicit false

/-! # Searches that try each key once

A search walks over items and tries each of them, but no key twice. Several passes can share the keys that
they have tried. As long as a key stands for one item, it does not matter for the success of the search what
the earlier passes looked at. -/

namespace TriedSearch

variable {α κ β : Type} [DecidableEq κ] {key : α → κ} {attempt : α → Option β}

/-- One pass over the items: the keys that are tried by then, and what was found. -/
def pass (key : α → κ) (attempt : α → Option β) (tried : List κ) : List α → List κ × Option β
  | [] => (tried, none)
  | item :: rest =>
    if key item ∈ tried then pass key attempt tried rest
    else
      match attempt item with
      | some b => (key item :: tried, some b)
      | none => pass key attempt (key item :: tried) rest

/-- A second pass over other items, where the first one finds nothing. -/
def passes (key : α → κ) (attempt : α → Option β) (tried : List κ) (first second : List α) : Option β :=
  match pass key attempt tried first with
  | (_, some b) => some b
  | (tried', none) => (pass key attempt tried' second).2

theorem pass_eq_some {tried : List κ} {items : List α} {b : β}
    (h : (pass key attempt tried items).2 = some b) :
    ∃ item ∈ items, key item ∉ tried ∧ attempt item = some b := by
  induction items generalizing tried with
  | nil => cases h
  | cons item rest ih =>
    unfold pass at h
    split at h
    · obtain ⟨found, hmem, hfound⟩ := ih h
      exact ⟨found, List.mem_cons_of_mem _ hmem, hfound⟩
    · next htried =>
      split at h
      · next hattempt => exact ⟨item, List.mem_cons_self, htried, hattempt.trans h⟩
      · obtain ⟨found, hmem, hnot, hfound⟩ := ih h
        exact ⟨found, List.mem_cons_of_mem _ hmem, fun hin => hnot (List.mem_cons_of_mem _ hin), hfound⟩

/-- A pass that finds nothing has tried every item whose key was not tried before, or another item under
    its key. -/
theorem attempt_of_pass_none {tried : List κ} {items : List α} (hkey : Set.InjOn key {a | a ∈ items})
    (h : (pass key attempt tried items).2 = none) {item : α} (hitem : item ∈ items)
    (htried : key item ∉ tried) : attempt item = none := by
  induction items generalizing tried with
  | nil => cases hitem
  | cons head rest ih =>
    have hrest : Set.InjOn key {a | a ∈ rest} := hkey.mono fun a ha => List.mem_cons_of_mem _ ha
    rw [pass] at h
    split at h
    · next hhead =>
      rcases List.mem_cons.1 hitem with rfl | hitem
      · exact absurd hhead htried
      · exact ih hrest h hitem htried
    · split at h
      · cases h
      · next hattempt =>
        by_cases hsame : key item = key head
        · rw [hkey hitem List.mem_cons_self hsame]
          exact hattempt
        · refine ih hrest h ((List.mem_cons.1 hitem).resolve_left fun heq => hsame (heq ▸ rfl)) ?_
          rw [List.mem_cons, not_or]
          exact ⟨hsame, htried⟩

/-- A pass succeeds exactly if an item succeeds whose key is not tried yet. -/
theorem isSome_pass {tried : List κ} {items : List α} (hkey : Set.InjOn key {a | a ∈ items}) :
    (pass key attempt tried items).2.isSome = true ↔
      ∃ item ∈ items, key item ∉ tried ∧ (attempt item).isSome = true := by
  constructor
  · intro h
    obtain ⟨b, hb⟩ := Option.isSome_iff_exists.1 h
    obtain ⟨item, hitem, htried, hfound⟩ := pass_eq_some hb
    exact ⟨item, hitem, htried, Option.isSome_iff_exists.2 ⟨b, hfound⟩⟩
  · rintro ⟨item, hitem, htried, hsome⟩
    by_contra hnone
    rw [attempt_of_pass_none hkey (Option.not_isSome_iff_eq_none.1 hnone) hitem htried] at hsome
    cases hsome

/-! ## Two passes -/

/-- Two passes that share what they have tried are one pass over all items. -/
theorem passes_eq (tried : List κ) (first second : List α) :
    passes key attempt tried first second = (pass key attempt tried (first ++ second)).2 := by
  induction first generalizing tried with
  | nil => rfl
  | cons item rest ih =>
    unfold passes at ih ⊢
    rw [List.cons_append, pass, pass]
    by_cases htried : key item ∈ tried
    · rw [if_pos htried, if_pos htried]
      exact ih tried
    · rw [if_neg htried, if_neg htried]
      cases attempt item with
      | some b => rfl
      | none => exact ih (key item :: tried)

/-- One pass tries the items without those that repeat a key. -/
theorem pass_eq_findSome? (tried : List κ) (items : List α) :
    (pass key attempt tried items).2 = (dedupBy key tried items).findSome? attempt := by
  induction items generalizing tried with
  | nil => rfl
  | cons item rest ih =>
    rw [pass, dedupBy]
    split
    · exact ih tried
    · rw [List.findSome?_cons]
      cases attempt item with
      | some b => rfl
      | none => exact ih (key item :: tried)

variable {tried : List κ} {first second : List α}

theorem passes_eq_some {b : β} (h : passes key attempt tried first second = some b) :
    ∃ item ∈ first ++ second, key item ∉ tried ∧ attempt item = some b :=
  pass_eq_some (passes_eq tried first second ▸ h)

/-- **What the first pass looks at does not decide whether anything is found**, where it finds nothing that
    the second pass would not come to. -/
theorem isSome_passes (hkey : Set.InjOn key {a | a ∈ first ++ second})
    (hfirst : ∀ item ∈ first, (attempt item).isSome = true → item ∈ second) :
    (passes key attempt tried first second).isSome = true ↔
      ∃ item ∈ second, key item ∉ tried ∧ (attempt item).isSome = true := by
  rw [passes_eq, isSome_pass hkey]
  constructor
  · rintro ⟨item, hitem, htried, hsome⟩
    rcases List.mem_append.1 hitem with hitem | hitem
    · exact ⟨item, hfirst item hitem hsome, htried, hsome⟩
    · exact ⟨item, hitem, htried, hsome⟩
  · rintro ⟨item, hitem, htried, hsome⟩
    exact ⟨item, List.mem_append_right _ hitem, htried, hsome⟩

end TriedSearch
