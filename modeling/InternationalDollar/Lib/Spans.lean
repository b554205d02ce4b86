import InternationalDollar.Lib.Select
import Mathlib.Algebra.BigOperators.Group.List.Basic
import Mathlib.Data.Finset.Prod
import Mathlib.Data.Int.Interval

set_option autoImplicit false

/-! # Spans of numbers

A span is an interval of whole numbers within a class. Spans that share no point cover as many points
as they have together, and each of these points lies in exactly one of them. In a list sorted by class
and first point it is enough to compare neighbours: a span that ends before its successor begins ends
before all later spans begin. -/

/-- The numbers from `first` to `last` in the class `key`. -/
structure Span (κ : Type) where
  key : κ
  first : Int
  last : Int
deriving DecidableEq

namespace Span

variable {κ : Type} {s t : Span κ} {spans : List (Span κ)} {point : κ × Int}

/-- The points of a span. -/
def points (s : Span κ) : Finset (κ × Int) :=
  {s.key} ×ˢ Finset.Icc s.first s.last

@[simp] theorem mem_points :
    point ∈ s.points ↔ point.1 = s.key ∧ s.first ≤ point.2 ∧ point.2 ≤ s.last := by
  rw [points, Finset.mem_product, Finset.mem_singleton, Finset.mem_Icc]

theorem card_points (h : s.first ≤ s.last + 1) : (s.points.card : Int) = s.last - s.first + 1 := by
  simp only [points, Finset.card_product, Finset.card_singleton, one_mul, Int.card_Icc]
  omega

/-- Two spans have no point in common. -/
def Apart (s t : Span κ) : Prop :=
  Disjoint s.points t.points

theorem Apart.symm (h : s.Apart t) : t.Apart s :=
  Disjoint.symm h

theorem apart_iff : s.Apart t ↔ ∀ point, ¬ (point ∈ s.points ∧ point ∈ t.points) := by
  simp only [Apart, Finset.disjoint_left, not_and]

/-! ## Neighbours in a sorted list -/

section Order

variable [LinearOrder κ]

/-- The first span lies before the second: in a smaller class, or in the same class with a smaller last
    point than the other's first. The second is not empty. -/
def Before (s t : Span κ) : Prop :=
  t.first ≤ t.last ∧ (s.key < t.key ∨ s.key = t.key ∧ s.last < t.first)

theorem Before.trans {r s t : Span κ} (hrs : r.Before s) (hst : s.Before t) : r.Before t := by
  obtain ⟨hs, hrs⟩ := hrs
  obtain ⟨ht, hst⟩ := hst
  refine ⟨ht, ?_⟩
  rcases hrs with hrs | ⟨hkey, hrs⟩
  · rcases hst with hst | ⟨hkey', -⟩
    · exact Or.inl (hrs.trans hst)
    · exact Or.inl (hkey' ▸ hrs)
  · rcases hst with hst | ⟨hkey', hst⟩
    · exact Or.inl (hkey ▸ hst)
    · exact Or.inr ⟨hkey.trans hkey', by omega⟩

theorem Before.apart (h : s.Before t) : s.Apart t := by
  refine apart_iff.2 fun point hpoint => ?_
  obtain ⟨⟨hkey, -, hlast⟩, hkey', hfirst, -⟩ := hpoint.imp mem_points.1 mem_points.1
  rcases h.2 with hlt | ⟨-, hlt⟩
  · exact absurd (hkey.symm.trans hkey') hlt.ne
  · omega

instance : IsTrans (Span κ) Before :=
  ⟨fun _ _ _ => Before.trans⟩

/-- In a list where every span lies before its neighbour no two spans have a common point. -/
theorem pairwise_apart_of_isChain (h : spans.IsChain Before) : spans.Pairwise Apart :=
  h.pairwise.imp Before.apart

end Order

/-! ## Joining neighbours -/

section Join

variable [DecidableEq κ]

/-- The spans after `current`, where those that begin at its end or before are joined to it. -/
def joinAdjacent (current : Span κ) : List (Span κ) → List (Span κ)
  | [] => [current]
  | s :: rest =>
    if s.key = current.key ∧ s.first ≤ current.last + 1 then
      joinAdjacent { current with last := max current.last s.last } rest
    else current :: joinAdjacent s rest

/-- The spans, each joined with the neighbours that begin at its end or before. -/
def mergeAdjacent : List (Span κ) → List (Span κ)
  | [] => []
  | s :: rest => joinAdjacent s rest

/-- Joining leaves no gap: a point of a joined span is one of a span that was joined. -/
theorem exists_mem_of_joinAdjacent {current : Span κ} {rest : List (Span κ)}
    (hs : s ∈ joinAdjacent current rest) (hpoint : point ∈ s.points) :
    ∃ t ∈ current :: rest, point ∈ t.points := by
  induction rest generalizing current with
  | nil =>
    rw [joinAdjacent, List.mem_singleton] at hs
    exact ⟨current, List.mem_cons_self, hs ▸ hpoint⟩
  | cons next rest ih =>
    unfold joinAdjacent at hs
    split at hs
    · next hjoin =>
      obtain ⟨t, ht, hin⟩ := ih hs
      rcases List.mem_cons.1 ht with rfl | ht
      · -- up to the old end the point is in `current`, behind it in `next`
        obtain ⟨hkey, hfirst, hlast⟩ := mem_points.1 hin
        simp only at hkey hfirst hlast
        by_cases hold : point.2 ≤ current.last
        · exact ⟨current, List.mem_cons_self, mem_points.2 ⟨hkey, hfirst, hold⟩⟩
        · refine ⟨next, by simp, mem_points.2 ⟨hkey.trans hjoin.1.symm, by omega, ?_⟩⟩
          rcases le_max_iff.1 hlast with h | h
          · exact absurd h hold
          · exact h
      · exact ⟨t, List.mem_cons_of_mem _ (List.mem_cons_of_mem _ ht), hin⟩
    · rcases List.mem_cons.1 hs with rfl | hs
      · exact ⟨s, List.mem_cons_self, hpoint⟩
      · obtain ⟨t, ht, hin⟩ := ih hs
        exact ⟨t, List.mem_cons_of_mem _ ht, hin⟩

theorem exists_mem_of_mergeAdjacent (hs : s ∈ mergeAdjacent spans) (hpoint : point ∈ s.points) :
    ∃ t ∈ spans, point ∈ t.points := by
  cases spans with
  | nil => exact nomatch hs
  | cons current rest => exact exists_mem_of_joinAdjacent hs hpoint

end Join

section Order

variable [LinearOrder κ]

/-- Sorted by class and first point. -/
def SortedByFirst (spans : List (Span κ)) : Prop :=
  spans.Pairwise fun s t => s.key < t.key ∨ s.key = t.key ∧ s.first ≤ t.first

/-- In a sorted list of spans that are not empty, the joined spans lie one before the other, and the first
    begins where the list does. -/
theorem isChain_joinAdjacent {current : Span κ} {rest : List (Span κ)}
    (hsorted : SortedByFirst (current :: rest)) (hfull : ∀ s ∈ current :: rest, s.first ≤ s.last) :
    (joinAdjacent current rest).IsChain Before ∧ ∃ head tail, joinAdjacent current rest = head :: tail ∧
      head.key = current.key ∧ head.first = current.first ∧ head.first ≤ head.last := by
  induction rest generalizing current with
  | nil =>
    exact ⟨List.isChain_singleton _, current, [], rfl, rfl, rfl, hfull current List.mem_cons_self⟩
  | cons next rest ih =>
    obtain ⟨hcurrent, hnext⟩ := List.pairwise_cons.1 hsorted
    have hrest : SortedByFirst rest := (List.pairwise_cons.1 hnext).2
    have hcurrentFull := hfull current List.mem_cons_self
    unfold joinAdjacent
    split
    · next hjoin =>
      have hsorted' : SortedByFirst ({ current with last := max current.last next.last } :: rest) :=
        List.pairwise_cons.2 ⟨fun t ht => hcurrent t (List.mem_cons_of_mem _ ht), hrest⟩
      refine ih hsorted' fun s hs => ?_
      rcases List.mem_cons.1 hs with rfl | hs
      · exact hcurrentFull.trans (le_max_left _ _)
      · exact hfull s (by simp [hs])
    · next hapart =>
      obtain ⟨hchain, head, tail, heq, hkey, hfirst, hheadFull⟩ :=
        ih hnext fun s hs => hfull s (List.mem_cons_of_mem _ hs)
      refine ⟨?_, current, _, rfl, rfl, rfl, hcurrentFull⟩
      rw [heq] at hchain ⊢
      refine List.isChain_cons_cons.2 ⟨⟨hheadFull, ?_⟩, hchain⟩
      rw [hkey, hfirst]
      refine (hcurrent next List.mem_cons_self).imp_right fun h => ⟨h.1, ?_⟩
      by_contra hle
      exact hapart ⟨h.1.symm, by omega⟩

theorem pairwise_apart_mergeAdjacent (hsorted : SortedByFirst spans)
    (hfull : ∀ s ∈ spans, s.first ≤ s.last) : (mergeAdjacent spans).Pairwise Apart := by
  cases spans with
  | nil => exact .nil
  | cons current rest => exact pairwise_apart_of_isChain (isChain_joinAdjacent hsorted hfull).1

end Order

/-! ## Lists of spans -/

variable [DecidableEq κ]

/-- The points of a list of spans. -/
def cover (spans : List (Span κ)) : Finset (κ × Int) :=
  spans.foldr (fun s points => s.points ∪ points) ∅

@[simp] theorem mem_cover : point ∈ cover spans ↔ ∃ s ∈ spans, point ∈ s.points := by
  induction spans with
  | nil => simp [cover]
  | cons s rest ih =>
    rw [cover, List.foldr_cons, Finset.mem_union, ← cover, ih]
    simp only [List.mem_cons, exists_eq_or_imp]

/-- The order of the spans does not matter for what they cover. -/
theorem cover_perm {spans' : List (Span κ)} (h : spans.Perm spans') : cover spans = cover spans' := by
  ext point
  simp only [mem_cover, h.mem_iff]

/-- Spans without common points cover as many points as they have together. -/
theorem card_cover (h : spans.Pairwise Apart) :
    (cover spans).card = (spans.map fun s => s.points.card).sum := by
  induction spans with
  | nil => rfl
  | cons s rest ih =>
    obtain ⟨hs, hrest⟩ := List.pairwise_cons.1 h
    have hdisjoint : Disjoint s.points (cover rest) := by
      refine Finset.disjoint_left.2 fun point hpoint hcover => ?_
      obtain ⟨t, ht, hpoint'⟩ := mem_cover.1 hcover
      exact Finset.disjoint_left.1 (hs t ht) hpoint hpoint'
    rw [cover, List.foldr_cons, ← cover, Finset.card_union_of_disjoint hdisjoint, ih hrest,
      List.map_cons, List.sum_cons]

/-- A point that such spans cover lies in exactly one of them. -/
theorem exists_filter_eq (h : spans.Pairwise Apart) (hpoint : point ∈ cover spans) :
    ∃ s, spans.filter (fun s => point ∈ s.points) = [s] := by
  induction spans with
  | nil => simp [cover] at hpoint
  | cons s rest ih =>
    obtain ⟨hs, hrest⟩ := List.pairwise_cons.1 h
    by_cases hmem : point ∈ s.points
    · refine ⟨s, ?_⟩
      have hnone : rest.filter (fun t => point ∈ t.points) = [] := by
        refine List.filter_eq_nil_iff.2 fun t ht hpoint' => ?_
        exact Finset.disjoint_left.1 (hs t ht) hmem (of_decide_eq_true hpoint')
      rw [List.filter_cons_of_pos (by simpa using hmem), hnone]
    · have hcover : point ∈ cover rest := by
        obtain ⟨t, ht, hpoint'⟩ := mem_cover.1 hpoint
        rcases List.mem_cons.1 ht with rfl | ht
        · exact absurd hpoint' hmem
        · exact mem_cover.2 ⟨t, ht, hpoint'⟩
      rw [List.filter_cons_of_neg (by simpa using hmem)]
      exact ih hrest hcover

end Span
