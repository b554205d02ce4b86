import Mathlib.Data.List.Find
import Mathlib.Data.List.MinMax
import Mathlib.Data.List.Sort

set_option autoImplicit false

/-! # Ordered selections

A query sorts the rows that it selects by a key and reads them from the front. Rows with the same key
keep the order of the table. -/

/-- The integers in the order that is computed, so that selections by an integer key are. -/
instance instPreorderInt : Preorder Int :=
  Int.instLinearOrder.toPartialOrder.toPreorder

namespace Select

variable {α κ : Type} [LinearOrder κ]

/-- The rows in the order of a key. -/
def orderBy (key : α → κ) (rows : List α) : List α :=
  rows.insertionSort fun a b => key a ≤ key b

/-- The first row that meets a condition. -/
def first (key : α → κ) (meets : α → Bool) (rows : List α) : Option α :=
  (orderBy key rows).find? meets

variable {key : α → κ} {meets : α → Bool} {rows : List α} {row : α}

@[simp] theorem mem_orderBy : row ∈ orderBy key rows ↔ row ∈ rows :=
  (List.perm_insertionSort _ _).mem_iff

theorem sorted_orderBy (key : α → κ) (rows : List α) :
    (orderBy key rows).Pairwise fun a b => key a ≤ key b :=
  List.pairwise_insertionSort _ _

/-- The first row meets the condition and none before it does. -/
theorem first_eq_some (h : first key meets rows = some row) :
    row ∈ rows ∧ meets row = true ∧ ∀ other ∈ rows, meets other = true → key row ≤ key other := by
  obtain ⟨hmeets, before, after, hsplit, hbefore⟩ := List.find?_eq_some_iff_append.1 h
  have hsorted := sorted_orderBy key rows
  rw [hsplit, List.pairwise_append, List.pairwise_cons] at hsorted
  refine ⟨mem_orderBy.1 (List.mem_of_find?_eq_some h), hmeets, fun other hother hok => ?_⟩
  have hin : other ∈ orderBy key rows := mem_orderBy.2 hother
  rw [hsplit, List.mem_append, List.mem_cons] at hin
  rcases hin with hin | rfl | hin
  · have hnot := hbefore other hin
    rw [hok] at hnot
    exact absurd hnot (by decide)
  · exact le_rfl
  · exact hsorted.2.1.1 other hin

theorem first_eq_none : first key meets rows = none ↔ ∀ row ∈ rows, meets row = false := by
  simp [first, List.find?_eq_none]

/-- The selection depends on the condition at the selected rows only. -/
theorem first_congr {meets' : α → Bool} (h : ∀ row ∈ rows, meets row = meets' row) :
    first key meets rows = first key meets' rows :=
  List.find?_congr fun row hrow => h row (mem_orderBy.1 hrow)

theorem exists_first (hrow : row ∈ rows) (hmeets : meets row = true) :
    ∃ found, first key meets rows = some found := by
  refine Option.ne_none_iff_exists'.1 fun hnone => ?_
  rw [first_eq_none.1 hnone row hrow] at hmeets
  exact absurd hmeets (by decide)

theorem find?_orderedInsert (key : α → κ) (meets : α → Bool) (x : α) (rows : List α)
    (hsorted : rows.Pairwise fun a b => key a ≤ key b) :
    (rows.orderedInsert (fun a b => key a ≤ key b) x).find? meets =
      if meets x = true then
        (match rows.find? meets with
          | none => some x
          | some y => if key y < key x then some y else some x)
      else rows.find? meets := by
  induction rows with
  | nil => cases hx : meets x <;> simp [hx]
  | cons b rest ih =>
    obtain ⟨hb, hrest⟩ := List.pairwise_cons.1 hsorted
    by_cases hle : key x ≤ key b
    · rw [List.orderedInsert_cons, if_pos hle]
      by_cases hx : meets x = true
      · rw [if_pos hx, List.find?_cons_of_pos hx]
        cases hfind : (b :: rest).find? meets with
        | none => rfl
        | some y =>
          -- Every row that was there is at or above `b`, so the new row stays in front.
          have hby : key b ≤ key y := by
            rcases List.mem_cons.1 (List.mem_of_find?_eq_some hfind) with rfl | hin
            · exact le_rfl
            · exact hb y hin
          exact (if_neg (not_lt.2 (hle.trans hby))).symm
      · rw [if_neg hx, List.find?_cons, Bool.eq_false_iff.2 hx]
    · rw [List.orderedInsert_cons, if_neg hle, List.find?_cons, List.find?_cons]
      by_cases hmeets : meets b = true
      · simp only [hmeets]
        rw [if_pos (not_le.1 hle), ite_self]
      · simp only [Bool.eq_false_iff.2 hmeets]
        exact ih hrest

/-- The selection is the leftmost row of the least key among those that meet the condition. -/
theorem first_eq_argmin (key : α → κ) (meets : α → Bool) (rows : List α) :
    first key meets rows = (rows.filter meets).argmin key := by
  induction rows with
  | nil => rfl
  | cons row rest ih =>
    have horder : first key meets (row :: rest) =
        ((orderBy key rest).orderedInsert (fun a b => key a ≤ key b) row).find? meets := rfl
    have hrest : (orderBy key rest).find? meets = (rest.filter meets).argmin key := ih
    rw [horder, find?_orderedInsert key meets row _ (sorted_orderBy key rest), hrest]
    by_cases hmeets : meets row = true
    · rw [if_pos hmeets, List.filter_cons_of_pos hmeets, List.argmin_cons]
      cases (rest.filter meets).argmin key <;> rfl
    · rw [if_neg hmeets, List.filter_cons_of_neg hmeets]

end Select
