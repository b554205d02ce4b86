import Mathlib.Logic.Relation

set_option autoImplicit false

/-! # Runs of a step function

A system is a step function on states; an event that is not possible in a state has no step. A run
takes any number of steps, each of which meets a condition on the state before it and the event. -/

namespace Runs

variable {σ ε : Type}

/-- The system gets from one state to another by events that all meet a condition. -/
def Reaches (step : σ → ε → Option σ) (meets : σ → ε → Prop) : σ → σ → Prop :=
  Relation.ReflTransGen fun s t => ∃ e, meets s e ∧ step s e = some t

variable {step : σ → ε → Option σ} {meets : σ → ε → Prop} {s t u : σ}

theorem Reaches.refl : Reaches step meets s s :=
  Relation.ReflTransGen.refl

theorem Reaches.trans (h : Reaches step meets s t) (k : Reaches step meets t u) :
    Reaches step meets s u :=
  Relation.ReflTransGen.trans h k

theorem Reaches.next (h : Reaches step meets s t) {e : ε} (he : meets t e)
    (hstep : step t e = some u) : Reaches step meets s u :=
  Relation.ReflTransGen.tail h ⟨e, he, hstep⟩

/-- A run also meets a weaker condition. -/
theorem Reaches.mono {meets' : σ → ε → Prop} (h : Reaches step meets s t)
    (himp : ∀ s e, meets s e → meets' s e) : Reaches step meets' s t := by
  induction h with
  | refl => exact .refl
  | tail _ hlast ih =>
    obtain ⟨e, he, hstepped⟩ := hlast
    exact ih.next (himp _ e he) hstepped

/-- A run is one of a system that takes each of its steps. -/
theorem Reaches.map {τ δ : Type} {step' : τ → δ → Option τ} {meets' : τ → δ → Prop} (f : σ → τ)
    (hstep : ∀ s e t, meets s e → step s e = some t → ∃ e', meets' (f s) e' ∧ step' (f s) e' = some (f t))
    (h : Reaches step meets s t) : Reaches step' meets' (f s) (f t) := by
  induction h with
  | refl => exact .refl
  | tail _ hlast ih =>
    obtain ⟨e, he, hstepped⟩ := hlast
    obtain ⟨e', he', hstepped'⟩ := hstep _ e _ he hstepped
    exact ih.next he' hstepped'

/-- The rule for invariants. -/
theorem Reaches.invariant {inv : σ → Prop}
    (hstep : ∀ s e t, inv s → meets s e → step s e = some t → inv t)
    (h : Reaches step meets s t) (hs : inv s) : inv t := by
  induction h with
  | refl => exact hs
  | tail _ hlast ih =>
    obtain ⟨e, he, hstepped⟩ := hlast
    exact hstep _ e _ ih he hstepped

/-- The state after a list of events. -/
def exec (step : σ → ε → Option σ) (s : σ) : List ε → Option σ
  | [] => some s
  | e :: rest => (step s e).bind fun t => exec step t rest

/-- Every event of a list meets a condition in the state in which it occurs. -/
def MeetsAll (step : σ → ε → Option σ) (meets : σ → ε → Prop) (s : σ) : List ε → Prop
  | [] => True
  | e :: rest => meets s e ∧ ∀ t, step s e = some t → MeetsAll step meets t rest

theorem meetsAll_of_forall {events : List ε} (h : ∀ s, ∀ e ∈ events, meets s e) :
    MeetsAll step meets s events := by
  induction events generalizing s with
  | nil => trivial
  | cons e rest ih =>
    exact ⟨h s e List.mem_cons_self, fun _ _ => ih fun s e he => h s e (List.mem_cons_of_mem _ he)⟩

theorem reaches_of_exec {events : List ε} (h : exec step s events = some t)
    (hmeets : MeetsAll step meets s events) : Reaches step meets s t := by
  induction events generalizing s with
  | nil =>
    cases h
    exact .refl
  | cons e rest ih =>
    obtain ⟨mid, hmid, hrest⟩ := Option.bind_eq_some_iff.1 h
    exact (Reaches.refl.next hmeets.1 hmid).trans (ih hrest (hmeets.2 mid hmid))

end Runs
