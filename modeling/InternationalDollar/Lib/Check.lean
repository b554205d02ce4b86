import Mathlib.Logic.Unique
import Mathlib.Tactic.Basic

set_option autoImplicit false

/-! # Checks that raise

Validators are written in `Except String`: a value, or the text of the exception. The lemmas here
take a successful validator apart into the facts that it checked, one conjunct for each line. -/

namespace Check

variable {α β : Type}

/-- Raise `error` unless `p` holds. -/
def require (p : Prop) [Decidable p] (error : String) : Except String Unit :=
  if p then .ok () else .error error

/-- The value of an option, or an exception. -/
def ofOption (x : Option α) (error : String) : Except String α :=
  match x with
  | some a => .ok a
  | none => .error error

/-- `except Exception as exc: raise ... from exc`. -/
def orRaise (x : Except String α) (error : String) : Except String α :=
  match x with
  | .ok a => .ok a
  | .error _ => .error error

/-- Whether a call returns. -/
def returns (x : Except String α) : Bool :=
  match x with
  | .ok _ => true
  | .error _ => false

@[simp] theorem require_eq_ok {p : Prop} [Decidable p] {error : String} {u : Unit} :
    require p error = .ok u ↔ p := by
  unfold require
  split
  · next h => exact iff_of_true rfl h
  · next h => exact iff_of_false (fun hok => nomatch hok) h

theorem require_of {p : Prop} [Decidable p] (h : p) (error : String) :
    require p error = .ok () :=
  if_pos h

@[simp] theorem ofOption_eq_ok {x : Option α} {error : String} {a : α} :
    ofOption x error = .ok a ↔ x = some a := by
  cases x with
  | none => exact iff_of_false (fun h => nomatch h) (fun h => nomatch h)
  | some b => simp [ofOption]

@[simp] theorem orRaise_eq_ok {x : Except String α} {error : String} {a : α} :
    orRaise x error = .ok a ↔ x = .ok a := by
  cases x with
  | ok b => rfl
  | error e => exact iff_of_false (fun h => nomatch h) (fun h => nomatch h)

@[simp] theorem ok_bind (a : α) (f : α → Except String β) : (Except.ok a >>= f) = f a := rfl

@[simp] theorem bind_eq_ok {x : Except String α} {f : α → Except String β} {b : β} :
    x >>= f = .ok b ↔ ∃ a, x = .ok a ∧ f a = .ok b := by
  cases x with
  | ok a => exact ⟨fun h => ⟨a, rfl, h⟩, fun ⟨_, ha, h⟩ => by cases ha; exact h⟩
  | error e => exact iff_of_false (fun h => nomatch h) (fun ⟨_, h, _⟩ => nomatch h)

/-- A check in front of a computation is a conjunct of its success. -/
@[simp high] theorem check_bind_eq_ok {x : Except String Unit} {f : Unit → Except String β} {b : β} :
    x >>= f = .ok b ↔ x = .ok () ∧ f () = .ok b := by
  rw [bind_eq_ok]
  exact ⟨fun ⟨_, hx, hf⟩ => ⟨hx, hf⟩, fun ⟨hx, hf⟩ => ⟨(), hx, hf⟩⟩

@[simp] theorem map_eq_ok {x : Except String α} {f : α → β} {b : β} :
    f <$> x = .ok b ↔ ∃ a, x = .ok a ∧ f a = b := by
  cases x with
  | ok a => exact ⟨fun h => ⟨a, rfl, Except.ok.inj h⟩, fun ⟨_, ha, h⟩ => by cases ha; exact congrArg _ h⟩
  | error e => exact iff_of_false (fun h => nomatch h) (fun ⟨_, h, _⟩ => nomatch h)

@[simp] theorem exists_eq_ok {x : Except String Unit} : (∃ u, x = .ok u) ↔ x = .ok () :=
  Unique.exists_iff

@[simp] theorem pure_eq_ok {a b : α} : (pure a : Except String α) = .ok b ↔ a = b :=
  ⟨Except.ok.inj, congrArg _⟩

theorem returns_iff {x : Except String α} : returns x = true ↔ ∃ a, x = .ok a := by
  cases x with
  | ok a => exact iff_of_true rfl ⟨a, rfl⟩
  | error e => exact iff_of_false (fun h => nomatch h) (fun ⟨_, h⟩ => nomatch h)

/-- Run a check on every member of a list, in order. -/
def requireAll (check : α → Except String Unit) : List α → Except String Unit
  | [] => .ok ()
  | x :: xs => do
      check x
      requireAll check xs

@[simp] theorem requireAll_eq_ok {check : α → Except String Unit} {xs : List α} {u : Unit} :
    requireAll check xs = .ok u ↔ ∀ x ∈ xs, check x = .ok () := by
  induction xs with
  | nil => simp [requireAll]
  | cons x xs ih =>
    rw [requireAll, check_bind_eq_ok, List.forall_mem_cons, ← ih]

/-! ## Exceptions of any kind -/

section AndThen

variable {ε : Type} {x : Except ε Unit} {y : Except ε α} {e : ε}

/-- Two checks in sequence raise where the first does, or the second after the first has passed. -/
theorem andThen_eq_error : (x >>= fun _ => y) = .error e ↔ x = .error e ∨ x = .ok () ∧ y = .error e := by
  cases x with
  | error e' =>
    show Except.error e' = Except.error e ↔ _
    simp
  | ok u =>
    show y = Except.error e ↔ _
    simp

theorem andThen_eq_ok {a : α} : (x >>= fun _ => y) = .ok a ↔ x = .ok () ∧ y = .ok a := by
  cases x with
  | error e' =>
    show Except.error e' = Except.ok a ↔ _
    simp
  | ok u =>
    show y = Except.ok a ↔ _
    simp

end AndThen

end Check
