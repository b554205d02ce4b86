import Mathlib.Data.List.Nodup
import Mathlib.Algebra.BigOperators.Group.List.Basic
import Mathlib.Algebra.GroupWithZero.Nat

set_option autoImplicit false

/-! # Association lists

A dictionary as the list of its items in the order of insertion, with each key once. -/

namespace AssocList

variable {α β : Type} [DecidableEq α]

/-- `items.get(key)`. -/
def get? (key : α) : List (α × β) → Option β
  | [] => none
  | (k, v) :: rest => if k = key then some v else get? key rest

/-- `items[key] = value`. -/
def put (key : α) (value : β) : List (α × β) → List (α × β)
  | [] => [(key, value)]
  | (k, v) :: rest => if k = key then (k, value) :: rest else (k, v) :: put key value rest

/-- `items.pop(key, None)`. -/
def pop (key : α) : List (α × β) → List (α × β)
  | [] => []
  | (k, v) :: rest => if k = key then rest else (k, v) :: pop key rest

/-- The sum of a number over all values. -/
def total (weight : β → Nat) (items : List (α × β)) : Nat :=
  (items.map fun item => weight item.2).sum

variable {key key' : α} {value : β} {items : List (α × β)}

theorem get?_put : get? key' (put key value items) = if key' = key then some value else get? key' items := by
  induction items with
  | nil =>
    by_cases h : key' = key
    · simp [put, get?, h]
    · simp [put, get?, h, Ne.symm h]
  | cons item rest ih =>
    obtain ⟨k, v⟩ := item
    rw [put]
    by_cases hk : k = key
    · subst hk
      by_cases h : key' = k
      · simp [get?, h]
      · simp [get?, h, Ne.symm h]
    · rw [if_neg hk, get?, ih, get?]
      by_cases h : key' = key
      · subst h
        simp [hk]
      · rw [if_neg h, if_neg h]

theorem mem_of_get? (h : get? key items = some value) : (key, value) ∈ items := by
  induction items with
  | nil => exact nomatch h
  | cons item rest ih =>
    obtain ⟨k, v⟩ := item
    unfold get? at h
    split at h
    · next hk =>
      cases h
      exact hk ▸ List.mem_cons_self
    · exact List.mem_cons_of_mem _ (ih h)

theorem mem_of_mem_put {item : α × β} (h : item ∈ put key value items) :
    item ∈ items ∨ item = (key, value) := by
  induction items with
  | nil => exact Or.inr (List.mem_singleton.1 h)
  | cons first rest ih =>
    obtain ⟨k, v⟩ := first
    unfold put at h
    split at h
    · next hk =>
      rcases List.mem_cons.1 h with rfl | h
      · exact Or.inr (hk ▸ rfl)
      · exact Or.inl (List.mem_cons_of_mem _ h)
    · rcases List.mem_cons.1 h with rfl | h
      · exact Or.inl List.mem_cons_self
      · exact (ih h).imp_left (List.mem_cons_of_mem _)

theorem keys_put : (put key value items).map Prod.fst
    = if key ∈ items.map Prod.fst then items.map Prod.fst else items.map Prod.fst ++ [key] := by
  induction items with
  | nil => simp [put]
  | cons item rest ih =>
    obtain ⟨k, v⟩ := item
    rw [put]
    by_cases hk : k = key
    · simp [hk]
    · rw [if_neg hk, List.map_cons, ih]
      by_cases h : key ∈ rest.map Prod.fst
      · simp only [h, if_true, List.map_cons, List.mem_cons, or_true]
      · simp only [h, if_false, List.map_cons, List.mem_cons, or_false, Ne.symm hk, List.cons_append]

theorem nodup_put (h : (items.map Prod.fst).Nodup) : ((put key value items).map Prod.fst).Nodup := by
  rw [keys_put]
  split
  · exact h
  · next hkey =>
    rw [List.nodup_append]
    refine ⟨h, List.nodup_singleton key, ?_⟩
    rintro a ha b hb rfl
    exact hkey (List.mem_singleton.1 hb ▸ ha)

theorem pop_sublist : (pop key items).Sublist items := by
  induction items with
  | nil => exact List.Sublist.refl _
  | cons item rest ih =>
    rw [pop]
    split
    · exact List.sublist_cons_self item rest
    · exact ih.cons_cons _

theorem nodup_pop (h : (items.map Prod.fst).Nodup) : ((pop key items).map Prod.fst).Nodup :=
  h.sublist (pop_sublist.map _)

theorem get?_eq_none (h : key ∉ items.map Prod.fst) : get? key items = none := by
  induction items with
  | nil => rfl
  | cons item rest ih =>
    rw [List.map_cons, List.mem_cons, not_or] at h
    rw [get?, if_neg (Ne.symm h.1), ih h.2]

theorem get?_eq_some_of_mem (h : (items.map Prod.fst).Nodup) {item : α × β} (hitem : item ∈ items) :
    get? item.1 items = some item.2 := by
  induction items with
  | nil => exact nomatch hitem
  | cons head rest ih =>
    obtain ⟨k, v⟩ := head
    rw [List.map_cons, List.nodup_cons] at h
    rw [get?]
    rcases List.mem_cons.1 hitem with rfl | hrest
    · rw [if_pos rfl]
    · have hne : k ≠ item.1 := by
        rintro rfl
        exact h.1 (List.mem_map.2 ⟨item, hrest, rfl⟩)
      rw [if_neg hne, ih h.2 hrest]

theorem get?_pop (h : (items.map Prod.fst).Nodup) :
    get? key' (pop key items) = if key' = key then none else get? key' items := by
  induction items with
  | nil => simp [pop, get?]
  | cons item rest ih =>
    obtain ⟨k, v⟩ := item
    rw [List.map_cons, List.nodup_cons] at h
    rw [pop]
    by_cases hk : k = key
    · subst hk
      rw [if_pos rfl]
      by_cases hk' : key' = k
      · subst hk'
        rw [if_pos rfl, get?_eq_none h.1]
      · rw [if_neg hk', get?, if_neg (Ne.symm hk')]
    · rw [if_neg hk, get?, get?, ih h.2]
      by_cases hk' : key' = key
      · subst hk'
        simp [hk]
      · rw [if_neg hk', if_neg hk']

/-- What the values weigh after one of them is replaced. -/
theorem total_put (weight : β → Nat) :
    total weight (put key value items) + (get? key items).elim 0 weight
      = total weight items + weight value := by
  induction items with
  | nil => simp [put, get?, total]
  | cons item rest ih =>
    obtain ⟨k, v⟩ := item
    simp only [total] at ih ⊢
    rw [put, get?]
    by_cases hk : k = key
    · simp only [hk, if_true, List.map_cons, List.sum_cons, Option.elim_some]
      omega
    · simp only [hk, if_false, List.map_cons, List.sum_cons]
      omega

theorem total_pop (weight : β → Nat) :
    total weight (pop key items) + (get? key items).elim 0 weight = total weight items := by
  induction items with
  | nil => rfl
  | cons item rest ih =>
    obtain ⟨k, v⟩ := item
    simp only [total] at ih ⊢
    rw [pop, get?]
    by_cases hk : k = key
    · simp only [hk, if_true, List.map_cons, List.sum_cons, Option.elim_some]
      omega
    · simp only [hk, if_false, List.map_cons, List.sum_cons]
      omega

theorem le_total {weight : β → Nat} (h : get? key items = some value) :
    weight value ≤ total weight items := by
  have := @total_pop _ _ _ key items weight
  rw [h, Option.elim_some] at this
  omega

theorem get?_eq_find? : get? key items = (items.find? fun item => item.1 = key).map Prod.snd := by
  induction items with
  | nil => rfl
  | cons item rest ih =>
    obtain ⟨k, v⟩ := item
    by_cases h : k = key
    · simp [get?, h]
    · simp [get?, h, ih]

/-- A new key goes to the end. -/
theorem put_of_not_mem (h : key ∉ items.map Prod.fst) : put key value items = items ++ [(key, value)] := by
  induction items with
  | nil => rfl
  | cons item rest ih =>
    obtain ⟨k, v⟩ := item
    rw [List.map_cons, List.mem_cons, not_or] at h
    rw [put, if_neg (Ne.symm h.1), ih h.2, List.cons_append]

/-- Writing what is there changes nothing. -/
theorem put_of_get? (h : get? key items = some value) : put key value items = items := by
  induction items with
  | nil => exact nomatch h
  | cons item rest ih =>
    obtain ⟨k, v⟩ := item
    rw [get?] at h
    rw [put]
    by_cases hk : k = key
    · rw [if_pos hk] at h ⊢
      rw [Option.some.inj h]
    · rw [if_neg hk] at h ⊢
      rw [ih h]

/-- A selection that takes neither the new item nor those under its key does not notice the write. -/
theorem filter_put {selects : α × β → Bool} (hnew : selects (key, value) = false)
    (hold : ∀ item ∈ items, item.1 = key → selects item = false) :
    (put key value items).filter selects = items.filter selects := by
  induction items with
  | nil => rw [put, List.filter_cons_of_neg (by rw [hnew]; decide)]
  | cons item rest ih =>
    obtain ⟨k, v⟩ := item
    rw [put]
    by_cases hk : k = key
    · have hitem := hold (k, v) List.mem_cons_self hk
      rw [if_pos hk, hk] at *
      rw [List.filter_cons_of_neg (by rw [hnew]; decide), List.filter_cons_of_neg (by rw [hitem]; decide)]
    · rw [if_neg hk, List.filter_cons, List.filter_cons,
        ih fun other hother => hold other (List.mem_cons_of_mem _ hother)]

theorem any_put {selects : α × β → Bool} (hnew : selects (key, value) = false)
    (hold : ∀ item ∈ items, item.1 = key → selects item = false) :
    (put key value items).any selects = items.any selects := by
  have hany : ∀ l : List (α × β), l.any selects = (l.filter selects).any selects := fun l => by
    rw [List.any_filter]
    exact congrArg l.any (funext fun item => (Bool.and_self _).symm)
  rw [hany, filter_put hnew hold, ← hany]

end AssocList
