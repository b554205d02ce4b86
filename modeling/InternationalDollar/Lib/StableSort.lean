import Mathlib.Data.Prod.Lex
import InternationalDollar.Lib.Select

set_option autoImplicit false

/-! # Stable sorting

Rows with the same key keep the order of the table. On a table without duplicates this determines the
order of the rows, so that two ways to sort can be compared by their pairs alone: a sort that breaks
ties by a second key cuts off the same rows as one that does not, as long as no tie at the cut is broken
the other way. -/

namespace Select

variable {α κ ι : Type} [LinearOrder κ] [LinearOrder ι] {key : α → κ} {rows : List α}

@[simp] theorem length_orderBy : (orderBy key rows).length = rows.length :=
  (List.perm_insertionSort _ rows).length_eq

/-- The first row comes before the second in the order of a key: by the key, or by its place in the
    table. -/
def Precedes (key : α → κ) (rows : List α) (a b : α) : Prop :=
  key a < key b ∨ key a = key b ∧ [a, b].Sublist rows

theorem Precedes.le {a b : α} (h : Precedes key rows a b) : key a ≤ key b :=
  h.elim le_of_lt fun h => h.1.le

theorem Precedes.mono {more : List α} {a b : α} (h : Precedes key rows a b)
    (hsub : rows.Sublist more) : Precedes key more a b :=
  h.imp_right fun h => ⟨h.1, h.2.trans hsub⟩

/-- Inserting a row keeps a relation that holds between it and the rows around it. -/
theorem pairwise_orderedInsert {R : α → α → Prop} {x : α} {l : List α} (hl : l.Pairwise R)
    (hsorted : l.Pairwise fun a b => key a ≤ key b)
    (hafter : ∀ b ∈ l, key x ≤ key b → R x b) (hbefore : ∀ a ∈ l, key a < key x → R a x) :
    (l.orderedInsert (fun a b => key a ≤ key b) x).Pairwise R := by
  induction l with
  | nil => simp
  | cons b rest ih =>
    obtain ⟨hb, hrest⟩ := List.pairwise_cons.1 hl
    obtain ⟨hsortedb, hsortedRest⟩ := List.pairwise_cons.1 hsorted
    by_cases hle : key x ≤ key b
    · rw [List.orderedInsert_cons, if_pos hle]
      refine List.pairwise_cons.2 ⟨fun c hc => hafter c hc ?_, hl⟩
      rcases List.mem_cons.1 hc with rfl | hc
      · exact hle
      · exact hle.trans (hsortedb c hc)
    · rw [List.orderedInsert_cons, if_neg hle]
      have htail := ih hrest hsortedRest (fun c hc => hafter c (List.mem_cons_of_mem b hc))
        (fun a ha => hbefore a (List.mem_cons_of_mem b ha))
      refine List.pairwise_cons.2 ⟨fun c hc => ?_, htail⟩
      rcases List.mem_cons.1 ((List.perm_orderedInsert _ x rest).subset hc) with rfl | hc
      · exact hbefore b List.mem_cons_self (not_le.1 hle)
      · exact hb c hc

theorem stable_orderBy (key : α → κ) (rows : List α) :
    (orderBy key rows).Pairwise (Precedes key rows) := by
  induction rows with
  | nil => exact .nil
  | cons x rest ih =>
    refine pairwise_orderedInsert (ih.imp fun h => h.mono (List.sublist_cons_self x rest))
      (sorted_orderBy key rest) (fun b hb hle => ?_) fun a _ hlt => Or.inl hlt
    have hmem : b ∈ rest := mem_orderBy.1 hb
    rcases hle.lt_or_eq with hlt | heq
    · exact Or.inl hlt
    · exact Or.inr ⟨heq, List.cons_sublist_cons.2 (List.singleton_sublist.2 hmem)⟩

/-- In a list without duplicates no two entries come before each other. -/
theorem not_sublist_swap (hnodup : rows.Nodup) {a b : α} (hab : [a, b].Sublist rows)
    (hba : [b, a].Sublist rows) : a = b := by
  induction rows with
  | nil => exact absurd hab (by simp)
  | cons x rest ih =>
    obtain ⟨hx, hrest⟩ := List.nodup_cons.1 hnodup
    cases hab with
    | cons _ hab =>
      cases hba with
      | cons _ hba => exact ih hrest hab hba
      | cons_cons _ hba => exact absurd (hab.subset (by simp)) hx
    | cons_cons _ hab =>
      cases hba with
      | cons _ hba => exact absurd (hba.subset (by simp)) hx
      | cons_cons _ hba => rfl

/-- **The sorted order is the only one that keeps to the keys and, in ties, to the table.** -/
theorem eq_orderBy (hnodup : rows.Nodup) {l : List α} (hperm : l.Perm rows)
    (h : l.Pairwise (Precedes key rows)) : l = orderBy key rows := by
  refine List.Perm.eq_of_pairwise ?_ h (stable_orderBy key rows)
    (hperm.trans (List.perm_insertionSort _ rows).symm)
  intro a b _ _ hab hba
  rcases hab with hab | ⟨hkey, hab⟩
  · exact absurd hba.le (not_le.2 hab)
  · rcases hba with hba | ⟨-, hba⟩
    · exact absurd hkey hba.ne'
    · exact not_sublist_swap hnodup hab hba

/-- Sorting a reversed table the other way reverses the order. -/
theorem orderBy_neg_reverse (key : α → Int) (hnodup : rows.Nodup) :
    orderBy (fun row => -key row) rows.reverse = (orderBy key rows).reverse := by
  refine (eq_orderBy (List.nodup_reverse.2 hnodup)
    ((List.reverse_perm _).trans ((List.perm_insertionSort _ rows).trans
      (List.reverse_perm rows).symm)) ?_).symm
  rw [List.pairwise_reverse]
  refine (stable_orderBy key rows).imp fun h => ?_
  rcases h with h | ⟨h, hsub⟩
  · exact Or.inl (Int.neg_lt_neg h)
  · exact Or.inr ⟨congrArg Neg.neg h.symm, List.reverse_sublist.2 hsub⟩

/-- Breaking ties by a second key moves no row over a cut unless a tie at the cut is broken the other
    way. -/
theorem mem_take_orderBy_lex (tie : α → ι) (hnodup : rows.Nodup) {k : Nat}
    (hcut : ∀ a ∈ (orderBy key rows).take k, ∀ b ∈ (orderBy key rows).drop k,
      key a = key b → tie a ≤ tie b) {row : α} :
    row ∈ (orderBy (fun row => toLex (key row, tie row)) rows).take k ↔
      row ∈ (orderBy key rows).take k := by
  let lex : α → κ ×ₗ ι := fun row => toLex (key row, tie row)
  let front := (orderBy key rows).take k
  let back := (orderBy key rows).drop k
  have hsplit : front ++ back = orderBy key rows := List.take_append_drop k _
  have hsorted := stable_orderBy key rows
  rw [← hsplit] at hsorted
  obtain ⟨hfront, hback, hcross⟩ := List.pairwise_append.1 hsorted
  -- Entries of one part with the same two keys are in the order of the table.
  have hpart : ∀ part : List α, part.Pairwise (Precedes key rows) →
      (orderBy lex part).Pairwise (Precedes lex rows) := by
    intro part hpart
    refine (stable_orderBy lex part).imp fun {a b} h => ?_
    rcases h with h | ⟨heq, hsub⟩
    · exact Or.inl h
    · have hkey : key a = key b := congrArg (fun p : κ ×ₗ ι => (ofLex p).1) heq
      have hpair := hpart.sublist hsub
      rcases (List.pairwise_cons.1 hpair).1 b (List.mem_singleton.2 rfl) with hlt | ⟨-, hsub⟩
      · exact absurd hkey hlt.ne
      · exact Or.inr ⟨heq, hsub⟩
  have hwhole : orderBy lex front ++ orderBy lex back = orderBy lex rows := by
    refine eq_orderBy hnodup ?_ (List.pairwise_append.2 ⟨hpart _ hfront, hpart _ hback, ?_⟩)
    · refine ((List.perm_insertionSort _ front).append (List.perm_insertionSort _ back)).trans ?_
      rw [hsplit]
      exact List.perm_insertionSort _ rows
    · intro a ha b hb
      have ha := mem_orderBy.1 ha
      have hb := mem_orderBy.1 hb
      rcases hcross a ha b hb with hlt | ⟨heq, hsub⟩
      · exact Or.inl (Prod.Lex.toLex_lt_toLex.2 (Or.inl hlt))
      · rcases (hcut a ha b hb heq).lt_or_eq with hlt | htie
        · exact Or.inl (Prod.Lex.toLex_lt_toLex.2 (Or.inr ⟨heq, hlt⟩))
        · exact Or.inr ⟨congrArg toLex (Prod.ext heq htie), hsub⟩
  have hlength : (orderBy lex front).length = front.length := length_orderBy
  by_cases hk : k ≤ (orderBy key rows).length
  · have hfrontLength : front.length = k := by
      rw [List.length_take, Nat.min_eq_left hk]
    rw [← hwhole, List.take_left' (hlength.trans hfrontLength), mem_orderBy]
  · -- nothing is cut off
    rw [length_orderBy] at hk
    rw [List.take_of_length_le (by rw [length_orderBy]; omega),
      List.take_of_length_le (by rw [length_orderBy]; omega), mem_orderBy, mem_orderBy]

/-- The last row of the order is the last one of the largest key in the table. -/
theorem getLast?_orderBy (key : α → κ) (rows : List α) :
    (orderBy key rows).getLast? = rows.reverse.argmax key := by
  have hinsert : ∀ (x : α) (l : List α), (l.Pairwise fun a b => key a ≤ key b) →
      (l.orderedInsert (fun a b => key a ≤ key b) x).getLast? =
        l.getLast?.elim (some x) fun c => if key c < key x then some x else some c := by
    intro x l hsorted
    induction l with
    | nil => rfl
    | cons b rest ih =>
      obtain ⟨hb, hrest⟩ := List.pairwise_cons.1 hsorted
      obtain ⟨c, hc⟩ : ∃ c, (b :: rest).getLast? = some c :=
        ⟨_, List.getLast?_eq_some_getLast (List.cons_ne_nil b rest)⟩
      have hbc : key b ≤ key c := by
        rcases List.mem_cons.1 (List.mem_of_getLast? hc) with rfl | hin
        · exact le_rfl
        · exact hb c hin
      rw [hc]
      by_cases hle : key x ≤ key b
      · rw [List.orderedInsert_cons, if_pos hle, List.getLast?_cons_cons, hc]
        simp only [Option.elim_some, if_neg (not_lt.2 (hle.trans hbc))]
      · rw [List.orderedInsert_cons, if_neg hle]
        cases rest with
        | nil =>
          cases hc
          simp [not_le.1 hle]
        | cons d rest =>
          rw [List.getLast?_cons_cons] at hc
          obtain ⟨y, hy⟩ : ∃ y, ((d :: rest).orderedInsert (fun a b => key a ≤ key b) x).getLast?
              = some y := by
            refine ⟨_, List.getLast?_eq_some_getLast (List.ne_nil_of_length_pos ?_)⟩
            rw [(List.perm_orderedInsert _ x (d :: rest)).length_eq]
            exact Nat.succ_pos _
          rw [List.getLast?_cons, hy, Option.getD_some, ← hy, ih hrest, hc]
  induction rows with
  | nil => rfl
  | cons x rest ih =>
    rw [List.reverse_cons, List.argmax_concat, ← ih]
    refine (hinsert x _ (sorted_orderBy key rest)).trans ?_
    cases (orderBy key rest).getLast? <;> rfl

end Select
