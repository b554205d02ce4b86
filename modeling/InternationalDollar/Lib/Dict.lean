import Mathlib.Data.List.Nodup

set_option autoImplicit false

/-! # Dictionaries keyed by a field

A list of items stands for a dictionary that maps the key of each item to the item and keeps the order
of insertion. -/

variable {α β : Type} [DecidableEq β] (key : α → β)

/-- `items[key item] = item` in a dictionary that keeps the order of insertion. -/
def dictPut (items : List α) (item : α) : List α :=
  if items.any fun other => key other = key item then
    items.map fun other => if key other = key item then item else other
  else items ++ [item]

/-- `items.setdefault(key item, item)`. -/
def dictSetDefault (items : List α) (item : α) : List α :=
  if key item ∈ items.map key then items else items ++ [item]

/-- The items whose key was not seen before. -/
def dedupBy (seen : List β) : List α → List α
  | [] => []
  | item :: rest =>
      if key item ∈ seen then dedupBy seen rest
      else item :: dedupBy (key item :: seen) rest

variable {key}

theorem mem_of_mem_dictPut {items : List α} {item x : α} (h : x ∈ dictPut key items item) :
    x ∈ items ∨ x = item := by
  unfold dictPut at h
  split at h
  · obtain ⟨other, hother, hx⟩ := List.mem_map.1 h
    split at hx
    · exact Or.inr hx.symm
    · exact Or.inl (hx ▸ hother)
  · simpa using h

/-- Every key that was there is there, and so is the new one. -/
theorem exists_mem_dictPut {items : List α} {item x : α} (h : x ∈ items ∨ x = item) :
    ∃ y ∈ dictPut key items item, key y = key x := by
  unfold dictPut
  split
  · next hany =>
    obtain ⟨other, hother, hkey⟩ := List.any_eq_true.1 hany
    have hkey := of_decide_eq_true hkey
    rcases h with h | rfl
    · refine ⟨_, List.mem_map.2 ⟨x, h, rfl⟩, ?_⟩
      split
      · next hsame => exact hsame.symm
      · rfl
    · exact ⟨x, List.mem_map.2 ⟨other, hother, if_pos hkey⟩, rfl⟩
  · exact ⟨x, by simpa using h, rfl⟩

/-- A dictionary holds each key once. -/
theorem nodup_dictPut {items : List α} {item : α} (h : (items.map key).Nodup) :
    ((dictPut key items item).map key).Nodup := by
  unfold dictPut
  split
  · have hkeys : (items.map fun other => if key other = key item then item else other).map key
        = items.map key := by
      rw [List.map_map]
      refine List.map_congr_left fun other _ => ?_
      show key (if key other = key item then item else other) = key other
      split
      · next hsame => exact hsame.symm
      · rfl
    rwa [hkeys]
  · next hnone =>
    have hnew : key item ∉ items.map key := by
      intro hin
      obtain ⟨other, hother, hkey⟩ := List.mem_map.1 hin
      exact hnone (List.any_eq_true.2 ⟨other, hother, decide_eq_true hkey⟩)
    rw [List.map_append, List.map_singleton]
    simpa only [List.concat_eq_append] using h.concat hnew

theorem mem_of_mem_dictSetDefault {items : List α} {item x : α}
    (h : x ∈ dictSetDefault key items item) : x ∈ items ∨ x = item := by
  unfold dictSetDefault at h
  split at h
  · exact Or.inl h
  · simpa using h

theorem mem_keys_dictSetDefault {items : List α} {item : α} {k : β} :
    k ∈ (dictSetDefault key items item).map key ↔ k ∈ items.map key ∨ k = key item := by
  unfold dictSetDefault
  split
  · next hin =>
    constructor
    · exact Or.inl
    · rintro (h | rfl)
      · exact h
      · exact hin
  · rw [List.map_append, List.mem_append, List.map_singleton, List.mem_singleton]

theorem nodup_dictSetDefault {items : List α} {item : α} (h : (items.map key).Nodup) :
    ((dictSetDefault key items item).map key).Nodup := by
  unfold dictSetDefault
  split
  · exact h
  · next hnew =>
    rw [List.map_append, List.map_singleton]
    simpa only [List.concat_eq_append] using h.concat hnew

theorem mem_of_mem_foldl_dictPut {new items : List α} {x : α}
    (h : x ∈ new.foldl (dictPut key) items) : x ∈ items ∨ x ∈ new := by
  induction new generalizing items with
  | nil => exact Or.inl h
  | cons item rest ih =>
    rcases ih h with h | h
    · rcases mem_of_mem_dictPut h with h | rfl
      · exact Or.inl h
      · exact Or.inr List.mem_cons_self
    · exact Or.inr (List.mem_cons_of_mem _ h)

variable (key) in
theorem exists_mem_foldl_dictPut {new : List α} (items : List α) {x : α}
    (h : x ∈ items ∨ x ∈ new) : ∃ y ∈ new.foldl (dictPut key) items, key y = key x := by
  induction new generalizing items x with
  | nil => exact ⟨x, by simpa using h, rfl⟩
  | cons item rest ih =>
    have hstep : (∃ y ∈ dictPut key items item, key y = key x) ∨ x ∈ rest := by
      rcases h with h | h
      · exact Or.inl (exists_mem_dictPut (Or.inl h))
      · exact (List.mem_cons.1 h).imp (fun heq => exists_mem_dictPut (Or.inr heq)) id
    rcases hstep with ⟨y, hy, hkey⟩ | hrest
    · obtain ⟨z, hz, hzkey⟩ := ih _ (Or.inl hy)
      exact ⟨z, hz, hzkey.trans hkey⟩
    · exact ih _ (Or.inr hrest)

theorem mem_of_mem_dedupBy {seen : List β} {items : List α} {x : α}
    (h : x ∈ dedupBy key seen items) : x ∈ items := by
  induction items generalizing seen with
  | nil => exact h
  | cons item rest ih =>
    unfold dedupBy at h
    split at h
    · exact List.mem_cons_of_mem _ (ih h)
    · rcases List.mem_cons.1 h with rfl | h
      · exact List.mem_cons_self
      · exact List.mem_cons_of_mem _ (ih h)

variable (key) in
theorem exists_mem_dedupBy (seen : List β) {items : List α} {x : α} (h : x ∈ items)
    (hseen : key x ∉ seen) : ∃ y ∈ dedupBy key seen items, key y = key x := by
  induction items generalizing seen with
  | nil => exact absurd h List.not_mem_nil
  | cons item rest ih =>
    unfold dedupBy
    by_cases hkey : key item = key x
    · rw [if_neg (hkey ▸ hseen)]
      exact ⟨item, List.mem_cons_self, hkey⟩
    have hx : x ∈ rest := (List.mem_cons.1 h).resolve_left fun heq => hkey (heq ▸ rfl)
    split
    · exact ih _ hx hseen
    · obtain ⟨y, hy, hykey⟩ := ih _ hx (show key x ∉ key item :: seen by
        rw [List.mem_cons, not_or]
        exact ⟨fun heq => hkey heq.symm, hseen⟩)
      exact ⟨y, List.mem_cons_of_mem _ hy, hykey⟩
