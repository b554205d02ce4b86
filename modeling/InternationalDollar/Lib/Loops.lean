import Mathlib.Data.Finset.Card
import Mathlib.Data.Finset.SDiff
import Mathlib.Data.Finset.Insert
import Mathlib.Data.List.Basic

set_option autoImplicit false

/-! # Loops without a counter

A turn of a loop ends it with a result or gives the state of the next turn. Nothing in the loop says how
many turns it takes, so a run is given a bound on them and is `none` beyond it. A loop ends if each of its
turns takes a key that no turn took before from a finite set (`exists_run_of_fresh`). -/

namespace Loops

variable {σ ρ κ : Type}

/-- The loop, for a bounded number of turns: the result and the number of turns that it took. -/
def run (turn : σ → ρ ⊕ σ) : Nat → σ → Option (ρ × Nat)
  | 0, _ => none
  | turns + 1, s =>
    match turn s with
    | .inl r => some (r, 1)
    | .inr t => (run turn turns t).map fun x => (x.1, x.2 + 1)

variable {turn : σ → ρ ⊕ σ} {s t : σ} {r : ρ}

theorem run_last (h : turn s = .inl r) (turns : Nat) : run turn (turns + 1) s = some (r, 1) := by
  rw [run, h]

theorem run_next (h : turn s = .inr t) (turns : Nat) :
    run turn (turns + 1) s = (run turn turns t).map fun x => (x.1, x.2 + 1) := by
  rw [run, h]

/-- What every turn adds to a count, a run adds as often as it has turns. -/
theorem run_count {count : σ → Nat} {result : ρ → Nat} {d : Nat}
    (hnext : ∀ s t, turn s = .inr t → count t = count s + d)
    (hlast : ∀ s r, turn s = .inl r → result r = count s + d)
    {turns k : Nat} (h : run turn turns s = some (r, k)) : result r = count s + k * d := by
  induction turns generalizing s k with
  | zero => exact nomatch h
  | succ turns ih =>
    cases hturn : turn s with
    | inl last =>
      rw [run_last hturn, Option.some.injEq, Prod.mk.injEq] at h
      obtain ⟨rfl, rfl⟩ := h
      rw [hlast s _ hturn, Nat.one_mul]
    | inr t =>
      rw [run_next hturn, Option.map_eq_some_iff] at h
      obtain ⟨⟨last, m⟩, hrun, heq⟩ := h
      obtain ⟨rfl, rfl⟩ : last = r ∧ m + 1 = k := Prod.mk.inj heq
      rw [ih hrun, hnext s t hturn, Nat.succ_mul]
      omega

variable [DecidableEq κ]

/-- A key that is new takes one away from those that are left. -/
theorem card_sdiff_cons_lt {window : Finset κ} {seen : List κ} {key : κ} (hmem : key ∈ window)
    (hnew : key ∉ seen) :
    (window \ (key :: seen).toFinset).card < (window \ seen.toFinset).card := by
  refine Finset.card_lt_card (Finset.ssubset_iff_of_subset ?_ |>.2 ⟨key, ?_, ?_⟩)
  · intro other hother
    simp only [Finset.mem_sdiff, List.mem_toFinset, List.mem_cons, not_or] at hother ⊢
    exact ⟨hother.1, hother.2.2⟩
  · simp only [Finset.mem_sdiff, List.mem_toFinset]
    exact ⟨hmem, hnew⟩
  · simp

/-- **A loop whose turns take new keys from a finite set ends** after at most one turn for each key that
is left and one more, and any greater bound gives the same result. -/
theorem exists_run_of_fresh (seen : σ → List κ) (window : Finset κ)
    (hturn : ∀ s t, turn s = .inr t → ∃ key ∈ window, key ∉ seen s ∧ seen t = key :: seen s) (s : σ) :
    ∃ r k, k ≤ (window \ (seen s).toFinset).card + 1 ∧
      ∀ turns, (window \ (seen s).toFinset).card < turns → run turn turns s = some (r, k) := by
  induction hleft : (window \ (seen s).toFinset).card using Nat.strong_induction_on generalizing s with
  | _ left ih =>
    cases hs : turn s with
    | inl r =>
      refine ⟨r, 1, by omega, fun turns hturns => ?_⟩
      obtain ⟨n, rfl⟩ := Nat.exists_eq_succ_of_ne_zero (show turns ≠ 0 by omega)
      exact run_last hs n
    | inr t =>
      obtain ⟨key, hmem, hnew, hseen⟩ := hturn s t hs
      have hlt : (window \ (seen t).toFinset).card < left := by
        rw [hseen, ← hleft]
        exact card_sdiff_cons_lt hmem hnew
      obtain ⟨r, k, hk, hrun⟩ := ih _ hlt t rfl
      refine ⟨r, k + 1, by omega, fun turns hturns => ?_⟩
      obtain ⟨n, rfl⟩ := Nat.exists_eq_succ_of_ne_zero (show turns ≠ 0 by omega)
      rw [run_next hs, hrun n (by omega)]
      rfl

end Loops
