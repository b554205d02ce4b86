import InternationalDollar.Lib.Select
import Mathlib.Algebra.Ring.Int.Defs

set_option autoImplicit false

/-! # Filling a range with overlapping items

Items lie on a line and may overlap. A range is covered by going, again and again, to the end of the item that
reaches farthest. It is tiled only if each next item starts where the one before it ended, so a range may be
covered and have no tiling. Where items leave a gap it is filled with pieces up to the next item.

`plan` says beforehand which tiles there will be when all gaps are filled: adding a piece does not change
the plan, and a range without gaps is tiled as planned. -/

namespace Tiling

variable {α : Type} (first last : α → Int)

/-- The item that ends last among those that meet a condition, the first of several. -/
def farthest (meets : α → Bool) (items : List α) : Option α :=
  (items.filter meets).argmax last

/-- The range from `e` on that is covered without a gap ends here. -/
def prefixFrom (n : Int) (items : List α) : Nat → Int → Int
  | 0, e => e
  | fuel + 1, e =>
      if e < n then
        match farthest last (fun s => first s ≤ e ∧ e ≤ last s) items with
        | none => e
        | some best => if n ≤ last best then n else prefixFrom n items fuel (last best + 1)
      else e

/-- The tiles from `e` on: each starts where the one before it ended, and none reaches `n`. -/
def tilesFrom (n : Int) (items : List α) : Nat → Int → Option (List α)
  | 0, e => if e < n then none else some []
  | fuel + 1, e =>
      if e < n then
        match farthest last (fun s => first s = e ∧ last s < n) items with
        | none => none
        | some s => (tilesFrom n items fuel (last s + 1)).map (s :: ·)
      else some []

/-- Where the next item starts. -/
def nextStart (items : List α) (e : Int) : Option Int :=
  ((items.filter fun s => e < first s).argmin first).map first

/-- Where a piece ends that fills a gap from `e` on. -/
def pieceEnd (n page : Int) (items : List α) (e : Int) : Int :=
  match nextStart first items e with
  | none => min (e + page - 1) (n - 1)
  | some start => min (min (e + page - 1) (n - 1)) (start - 1)

/-- An item covers a number. -/
def Covered (items : List α) (e : Int) : Prop :=
  ∃ s ∈ items, first s ≤ e ∧ e ≤ last s

instance (items : List α) (e : Int) : Decidable (Covered first last items e) :=
  inferInstanceAs (Decidable (∃ s ∈ items, first s ≤ e ∧ e ≤ last s))

/-- The tiles from `e` on when every gap is filled. There is no plan if a number is covered where no item starts
    that ends below `n`. -/
def plan (n page : Int) (items : List α) : Nat → Int → Option (List (Int × Int))
  | 0, e => if e < n then none else some []
  | fuel + 1, e =>
      if e < n then
        if Covered first last items e then
          match farthest last (fun s => first s = e ∧ last s < n) items with
          | none => none
          | some s => (plan n page items fuel (last s + 1)).map ((e, last s) :: ·)
        else (plan n page items fuel (pieceEnd first n page items e + 1)).map
          ((e, pieceEnd first n page items e) :: ·)
      else some []

/-- Tiles that lie side by side from `e` to `n`. -/
def Tiles (n : Int) : Int → List (Int × Int) → Prop
  | e, [] => e = n
  | e, (start, stop) :: rest => start = e ∧ start ≤ stop ∧ Tiles n (stop + 1) rest

variable {first last} {n page e : Int} {items items' : List α} {fuel : Nat} {s : α} {meets : α → Bool}

/-! ## The farthest item -/

theorem farthest_eq_none : farthest last meets items = none ↔ ∀ s ∈ items, meets s = false := by
  rw [farthest, List.argmax_eq_none, List.filter_eq_nil_iff]
  simp

theorem farthest_eq_some (h : farthest last meets items = some s) :
    s ∈ items ∧ meets s = true ∧ ∀ t ∈ items, meets t = true → last t ≤ last s := by
  obtain ⟨hmem, hmeets⟩ := List.mem_filter.1 (List.argmax_mem h)
  exact ⟨hmem, hmeets, fun t ht hmeets' => List.le_of_mem_argmax (List.mem_filter.2 ⟨ht, hmeets'⟩) h⟩

/-- Two lists of the same items have the farthest items end at the same place. -/
theorem map_farthest_congr (h : ∀ s, meets s = true → (s ∈ items ↔ s ∈ items')) :
    (farthest last meets items).map last = (farthest last meets items').map last := by
  cases hitems : farthest last meets items with
  | none =>
    have hnone : farthest last meets items' = none := by
      refine farthest_eq_none.2 fun s hs => Bool.eq_false_iff.2 fun hmeets => ?_
      have hfalse := farthest_eq_none.1 hitems s ((h s hmeets).2 hs)
      exact Bool.false_ne_true (hfalse.symm.trans hmeets)
    rw [hnone]
  | some s =>
    obtain ⟨hmem, hmeets, hmax⟩ := farthest_eq_some hitems
    cases hitems' : farthest last meets items' with
    | none =>
      have hfalse := farthest_eq_none.1 hitems' s ((h s hmeets).1 hmem)
      exact absurd (hfalse.symm.trans hmeets) Bool.false_ne_true
    | some t =>
      obtain ⟨hmem', hmeets', hmax'⟩ := farthest_eq_some hitems'
      have hle := hmax t ((h t hmeets').2 hmem') hmeets'
      have hle' := hmax' s ((h s hmeets).1 hmem) hmeets
      rw [Option.map_some, Option.map_some, le_antisymm hle' hle]

theorem nextStart_eq_none (h : nextStart first items e = none) (hs : s ∈ items) : first s ≤ e := by
  rw [nextStart, Option.map_eq_none_iff, List.argmin_eq_none, List.filter_eq_nil_iff] at h
  simpa using h s hs

theorem nextStart_eq_some {start : Int} (h : nextStart first items e = some start) :
    (∃ s ∈ items, first s = start) ∧ e < start ∧ ∀ s ∈ items, e < first s → start ≤ first s := by
  obtain ⟨s, hs, rfl⟩ := Option.map_eq_some_iff.1 h
  obtain ⟨hmem, hlt⟩ := List.mem_filter.1 (List.argmin_mem hs)
  refine ⟨⟨s, hmem, rfl⟩, of_decide_eq_true hlt, fun t ht hlt' => ?_⟩
  exact List.le_of_mem_argmin (List.mem_filter.2 ⟨ht, decide_eq_true hlt'⟩) hs

/-- The next start is one of the starts after `e`, and the least. -/
theorem nextStart_eq_of {start : Int} (hs : s ∈ items) (hfirst : first s = start) (hlt : e < start)
    (hmin : ∀ s ∈ items, e < first s → start ≤ first s) : nextStart first items e = some start := by
  cases hnext : nextStart first items e with
  | none =>
    have hle := nextStart_eq_none hnext hs
    omega
  | some start' =>
    obtain ⟨⟨t, ht, rfl⟩, hlt', hmin'⟩ := nextStart_eq_some hnext
    have hle := hmin t ht hlt'
    have hle' := hmin' s hs (by omega)
    rw [le_antisymm (hfirst ▸ hle') hle]

theorem nextStart_eq_none_iff : nextStart first items e = none ↔ ∀ s ∈ items, first s ≤ e := by
  constructor
  · exact fun h s hs => nextStart_eq_none h hs
  · intro h
    cases hnext : nextStart first items e with
    | none => rfl
    | some start =>
      obtain ⟨⟨t, ht, rfl⟩, hlt, -⟩ := nextStart_eq_some hnext
      exact absurd (h t ht) (not_le.2 hlt)

/-- The items after `e` decide on the next start. -/
theorem nextStart_congr (h : ∀ s, e < first s → (s ∈ items ↔ s ∈ items')) :
    nextStart first items e = nextStart first items' e := by
  cases hnext : nextStart first items e with
  | none =>
    cases hnext' : nextStart first items' e with
    | none => rfl
    | some start =>
      obtain ⟨⟨s, hs, rfl⟩, hlt, -⟩ := nextStart_eq_some hnext'
      exact absurd (nextStart_eq_none hnext ((h s hlt).2 hs)) (not_le.2 hlt)
  | some start =>
    obtain ⟨⟨s, hs, rfl⟩, hlt, hmin⟩ := nextStart_eq_some hnext
    cases hnext' : nextStart first items' e with
    | none => exact absurd (nextStart_eq_none hnext' ((h s hlt).1 hs)) (not_le.2 hlt)
    | some start' =>
      obtain ⟨⟨t, ht, rfl⟩, hlt', hmin'⟩ := nextStart_eq_some hnext'
      have hle := hmin t ((h t hlt').2 ht) hlt'
      have hle' := hmin' s ((h s hlt).1 hs) hlt
      rw [le_antisymm hle hle']

/-! ## The covered range -/

/-- The range that is found is covered, and what comes after it is not. -/
theorem prefixFrom_spec (hfuel : n - e ≤ fuel) (hle : e ≤ n) :
    e ≤ prefixFrom first last n items fuel e ∧ prefixFrom first last n items fuel e ≤ n ∧
      (∀ x, e ≤ x → x < prefixFrom first last n items fuel e → Covered first last items x) ∧
      (prefixFrom first last n items fuel e < n →
        ¬ Covered first last items (prefixFrom first last n items fuel e)) := by
  induction fuel generalizing e with
  | zero =>
    rw [prefixFrom]
    exact ⟨le_rfl, hle, fun x hx hlt => absurd hx (not_le.2 hlt), fun hlt => by omega⟩
  | succ fuel ih =>
    rw [prefixFrom]
    by_cases hlt : e < n
    · rw [if_pos hlt]
      cases hbest : farthest last (fun s => first s ≤ e ∧ e ≤ last s) items with
      | none =>
        refine ⟨le_rfl, hle, fun x hx hlt => absurd hx (not_le.2 hlt), fun _ => ?_⟩
        rintro ⟨s, hs, hcovers⟩
        have hfalse := farthest_eq_none.1 hbest s hs
        exact of_decide_eq_false hfalse hcovers
      | some best =>
        obtain ⟨hmem, hcovers, -⟩ := farthest_eq_some hbest
        obtain ⟨hfirst, hlast⟩ := of_decide_eq_true hcovers
        have hcovered : ∀ x, e ≤ x → x ≤ last best → Covered first last items x := fun x hx hx' =>
          ⟨best, hmem, by omega, hx'⟩
        dsimp only
        split
        · next hreach => exact ⟨hle, le_rfl, fun x hx hx' => hcovered x hx (by omega), fun hlt => absurd hlt (lt_irrefl n)⟩
        · next hreach =>
          obtain ⟨hge, hle', hrange, hend⟩ := ih (e := last best + 1) (by omega) (by omega)
          refine ⟨by omega, hle', fun x hx hx' => ?_, hend⟩
          by_cases hin : x ≤ last best
          · exact hcovered x hx hin
          · exact hrange x (by omega) hx'
    · rw [if_neg hlt]
      exact ⟨le_rfl, hle, fun x hx hlt => absurd hx (not_le.2 hlt), fun hlt' => absurd hlt' hlt⟩

/-! ## Pieces -/

/-- A piece holds `e`, ends below `n` and before the next item, and is at most a page long. -/
theorem pieceEnd_spec (first : α → Int) (items : List α) (hlt : e < n) (hpage : 1 ≤ page) :
    e ≤ pieceEnd first n page items e ∧ pieceEnd first n page items e < n ∧
      pieceEnd first n page items e < e + page ∧
      ∀ s ∈ items, e < first s → pieceEnd first n page items e < first s := by
  unfold pieceEnd
  split
  · next hnext =>
    refine ⟨by omega, by omega, by omega, fun s hs hfirst => ?_⟩
    exact absurd (nextStart_eq_none hnext hs) (not_le.2 hfirst)
  · next start hnext =>
    obtain ⟨-, hstart, hmin⟩ := nextStart_eq_some hnext
    refine ⟨by omega, by omega, by omega, fun s hs hfirst => ?_⟩
    have hle := hmin s hs hfirst
    omega

/-- A gap goes on to the end of its piece. -/
theorem not_covered_of_piece (hlt : e < n) (hpage : 1 ≤ page) (he : ¬ Covered first last items e) {x : Int}
    (hx : e ≤ x) (hx' : x ≤ pieceEnd first n page items e) : ¬ Covered first last items x := by
  obtain ⟨-, -, -, hnext⟩ := pieceEnd_spec first items hlt hpage
  rintro ⟨s, hs, hfirst, hlast⟩
  by_cases hin : first s ≤ e
  · exact he ⟨s, hs, hin, by omega⟩
  · have hafter := hnext s hs (by omega)
    omega

/-- A list of items with a piece that fills a gap from `e` on. -/
structure Fills (first last : α → Int) (n page : Int) (items items' : List α) (e : Int) : Prop where
  lt : e < n
  nonempty : 1 ≤ page
  valid : ∀ s ∈ items, first s ≤ last s
  gap : ¬ Covered first last items e
  covered : ∀ x, 0 ≤ x → x < e → Covered first last items x
  piece : ∃ piece, first piece = e ∧ last piece = pieceEnd first n page items e ∧
    ∀ s, s ∈ items' ↔ s = piece ∨ s ∈ items

namespace Fills

variable {x : Int} (h : Fills first last n page items items' e)
include h

theorem covered_iff : Covered first last items' x ↔
    Covered first last items x ∨ e ≤ x ∧ x ≤ pieceEnd first n page items e := by
  obtain ⟨piece, hfirst, hlast, hmem⟩ := h.piece
  constructor
  · rintro ⟨s, hs, hcovers⟩
    rcases (hmem s).1 hs with rfl | hs
    · exact .inr ⟨hfirst ▸ hcovers.1, hlast ▸ hcovers.2⟩
    · exact .inl ⟨s, hs, hcovers⟩
  · rintro (⟨s, hs, hcovers⟩ | hin)
    · exact ⟨s, (hmem s).2 (.inr hs), hcovers⟩
    · exact ⟨piece, (hmem piece).2 (.inl rfl), by omega⟩

/-- No tile ends inside the piece. -/
theorem tile_ends_outside (hs : s ∈ items) : ¬ (e < last s + 1 ∧ last s + 1 ≤ pieceEnd first n page items e) := by
  rintro ⟨hgt, hle⟩
  exact not_covered_of_piece h.lt h.nonempty h.gap (x := last s) (by omega) (by omega)
    ⟨s, hs, h.valid s hs, le_rfl⟩

/-- The plan stays as it was. -/
theorem plan_eq (hx : 0 ≤ x) (hout : ¬ (e < x ∧ x ≤ pieceEnd first n page items e)) :
    plan first last n page items' fuel x = plan first last n page items fuel x := by
  obtain ⟨hge, hlt, -, -⟩ := pieceEnd_spec first items h.lt h.nonempty
  obtain ⟨piece, hfirst, hlast, hmem⟩ := h.piece
  induction fuel generalizing x with
  | zero => rfl
  | succ fuel ih =>
    rw [plan, plan]
    by_cases hxn : x < n
    · rw [if_pos hxn, if_pos hxn]
      by_cases hxe : x = e
      · -- the piece is the tile that was planned here
        subst hxe
        have hcovered : Covered first last items' x := h.covered_iff.2 (.inr ⟨le_rfl, hge⟩)
        have hfarthest : farthest last (fun s => first s = x ∧ last s < n) items' = some piece := by
          have honly : ∀ s ∈ items', first s = x → s = piece := by
            intro s hs hsx
            refine ((hmem s).1 hs).resolve_right fun hin => h.gap ⟨s, hin, hsx.le, ?_⟩
            exact hsx ▸ h.valid s hin
          cases hfound : farthest last (fun s => first s = x ∧ last s < n) items' with
          | none =>
            have hfalse := farthest_eq_none.1 hfound piece ((hmem piece).2 (.inl rfl))
            exact absurd ⟨hfirst, by omega⟩ (of_decide_eq_false hfalse)
          | some s =>
            obtain ⟨hs, hmeets, -⟩ := farthest_eq_some hfound
            rw [honly s hs (of_decide_eq_true hmeets).1]
        rw [if_pos hcovered, if_neg h.gap, hfarthest]
        dsimp only
        rw [hlast, ih (by omega) (by omega)]
      · have hsame : Covered first last items' x ↔ Covered first last items x := by
          rw [h.covered_iff]
          exact ⟨fun hor => hor.resolve_right fun hin => hout ⟨by omega, hin.2⟩, .inl⟩
        by_cases hcovered : Covered first last items x
        · rw [if_pos (hsame.2 hcovered), if_pos hcovered]
          have hends : (farthest last (fun s => first s = x ∧ last s < n) items').map last
              = (farthest last (fun s => first s = x ∧ last s < n) items).map last := by
            refine map_farthest_congr fun s hs => ?_
            rw [hmem]
            refine or_iff_right fun hpiece => hxe ?_
            rw [← (of_decide_eq_true hs).1, hpiece, hfirst]
          cases hfound : farthest last (fun s => first s = x ∧ last s < n) items with
          | none =>
            rw [hfound, Option.map_none, Option.map_eq_none_iff] at hends
            rw [hends]
          | some s =>
            rw [hfound] at hends
            obtain ⟨t, ht, hlast'⟩ := Option.map_eq_some_iff.1 hends
            obtain ⟨hs, hmeets, -⟩ := farthest_eq_some hfound
            have hsx := (of_decide_eq_true hmeets).1
            have hvalid := h.valid s hs
            rw [ht]
            dsimp only
            rw [hlast', ih (by omega) (h.tile_ends_outside hs)]
        · rw [if_neg fun hin => hcovered (hsame.1 hin), if_neg hcovered]
          -- every number before the gap is covered, so this one comes after the piece
          have hafter : e < x := by
            refine lt_of_le_of_ne (not_lt.1 fun hbefore => hcovered (h.covered x hx hbefore)) (Ne.symm hxe)
          have hnext : nextStart first items' x = nextStart first items x := by
            refine nextStart_congr fun s hs => ?_
            rw [hmem]
            refine or_iff_right fun hpiece => ?_
            rw [hpiece, hfirst] at hs
            omega
          have hend : pieceEnd first n page items' x = pieceEnd first n page items x := by
            rw [pieceEnd, pieceEnd, hnext]
          obtain ⟨hge', -, -, -⟩ := pieceEnd_spec first items hxn h.nonempty
          rw [hend, ih (by omega) (by omega)]
    · rw [if_neg hxn, if_neg hxn]

end Fills

/-! ## Tilings -/

/-- A range without gaps is tiled as planned. -/
theorem plan_of_covered (h : ∀ x, 0 ≤ x → x < n → Covered first last items x)
    (hvalid : ∀ s ∈ items, first s ≤ last s) (he : 0 ≤ e) :
    plan first last n page items fuel e
      = (tilesFrom first last n items fuel e).map fun tiles => tiles.map fun s => (first s, last s) := by
  induction fuel generalizing e with
  | zero =>
    rw [plan, tilesFrom]
    split <;> rfl
  | succ fuel ih =>
    rw [plan, tilesFrom]
    by_cases hlt : e < n
    · rw [if_pos hlt, if_pos hlt, if_pos (h e he hlt)]
      cases hfound : farthest last (fun s => first s = e ∧ last s < n) items with
      | none => rfl
      | some s =>
        obtain ⟨hs, hmeets, -⟩ := farthest_eq_some hfound
        have hse := (of_decide_eq_true hmeets).1
        have hle := hvalid s hs
        dsimp only
        rw [ih (by omega), Option.map_map, Option.map_map]
        refine congrArg (fun f => Option.map f _) (funext fun tiles => ?_)
        rw [Function.comp_apply, Function.comp_apply, List.map_cons, hse]
    · rw [if_neg hlt, if_neg hlt]
      rfl

/-- The tiles are items that end below `n`. -/
theorem mem_of_tilesFrom {tiles : List α} (h : tilesFrom first last n items fuel e = some tiles) :
    ∀ s ∈ tiles, s ∈ items ∧ last s < n := by
  induction fuel generalizing e tiles with
  | zero =>
    rw [tilesFrom] at h
    split at h
    · cases h
    · cases h
      exact fun s hs => absurd hs List.not_mem_nil
  | succ fuel ih =>
    rw [tilesFrom] at h
    split at h
    · split at h
      · cases h
      · next s hfound =>
        obtain ⟨hs, hmeets, -⟩ := farthest_eq_some hfound
        obtain ⟨rest, hrest, rfl⟩ := Option.map_eq_some_iff.1 h
        exact List.forall_mem_cons.2 ⟨⟨hs, (of_decide_eq_true hmeets).2⟩, ih hrest⟩
    · cases h
      exact fun s hs => absurd hs List.not_mem_nil

/-- The tiles lie side by side. -/
theorem tiles_of_tilesFrom (hvalid : ∀ s ∈ items, first s ≤ last s) (hle : e ≤ n) {tiles : List α}
    (h : tilesFrom first last n items fuel e = some tiles) : Tiles n e (tiles.map fun s => (first s, last s)) := by
  induction fuel generalizing e tiles with
  | zero =>
    rw [tilesFrom] at h
    split at h
    · cases h
    · cases h
      show e = n
      omega
  | succ fuel ih =>
    rw [tilesFrom] at h
    split at h
    · split at h
      · cases h
      · next s hfound =>
        obtain ⟨hs, hmeets, -⟩ := farthest_eq_some hfound
        obtain ⟨hse, hsn⟩ := of_decide_eq_true hmeets
        obtain ⟨rest, hrest, rfl⟩ := Option.map_eq_some_iff.1 h
        exact ⟨hse, hvalid s hs, ih (by omega) hrest⟩
    · cases h
      show e = n
      omega

/-- The lengths of the tiles add up to the length of the range. -/
theorem sum_of_tilesFrom {tiles : List α} (h : tilesFrom first last n items fuel e = some tiles) (hle : e ≤ n) :
    (tiles.map fun s => last s - first s + 1).sum = n - e := by
  induction fuel generalizing e tiles with
  | zero =>
    rw [tilesFrom] at h
    split at h
    · cases h
    · cases h
      show 0 = n - e
      omega
  | succ fuel ih =>
    rw [tilesFrom] at h
    split at h
    · split at h
      · cases h
      · next s hfound =>
        obtain ⟨hs, hmeets, -⟩ := farthest_eq_some hfound
        obtain ⟨hse, hsn⟩ := of_decide_eq_true hmeets
        obtain ⟨rest, hrest, rfl⟩ := Option.map_eq_some_iff.1 h
        rw [List.map_cons, List.sum_cons, ih hrest (by omega)]
        omega
    · cases h
      show 0 = n - e
      omega

/-- A tiling covers its range. -/
theorem covered_of_tilesFrom {tiles : List α} (h : tilesFrom first last n items fuel e = some tiles)
    {x : Int} (hx : e ≤ x) (hxn : x < n) : Covered first last items x := by
  induction fuel generalizing e tiles with
  | zero =>
    rw [tilesFrom] at h
    split at h
    · cases h
    · omega
  | succ fuel ih =>
    rw [tilesFrom, if_pos (by omega)] at h
    split at h
    · cases h
    · next s hfound =>
      obtain ⟨hs, hmeets, -⟩ := farthest_eq_some hfound
      have hse := (of_decide_eq_true hmeets).1
      obtain ⟨rest, hrest, rfl⟩ := Option.map_eq_some_iff.1 h
      by_cases hin : x ≤ last s
      · exact ⟨s, hs, by omega, hin⟩
      · exact ih hrest (by omega)

end Tiling
