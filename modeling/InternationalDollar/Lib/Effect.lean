import Mathlib.Tactic.Basic

set_option autoImplicit false

/-! # Computations that write and may raise

A computation reads and writes a state, and returns a value or raises. What it wrote before an exception
stays written. `Keeps` says that a computation keeps an invariant of the state, whether it returns or
raises, and what is known of the value where it returns one. -/

/-- A computation over a state `σ` with exceptions `ε`. -/
def Effect (σ ε α : Type) : Type := σ → Except ε α × σ

namespace Effect

variable {σ ε α β : Type}

/-- The computation that returns a value and writes nothing. -/
def ret (a : α) : Effect σ ε α := fun s => (.ok a, s)

/-- One computation after the other; an exception ends it. -/
def andThen (x : Effect σ ε α) (f : α → Effect σ ε β) : Effect σ ε β := fun s =>
  match x s with
  | (.ok a, t) => f a t
  | (.error e, t) => (.error e, t)

instance : Monad (Effect σ ε) where
  pure := ret
  bind := andThen

/-- Raise an exception. -/
def raise (e : ε) : Effect σ ε α := fun s => (.error e, s)

/-- A value or an exception that does not depend on the state. -/
def lift (x : Except ε α) : Effect σ ε α := fun s => (x, s)

/-- Read from the state. -/
def read (f : σ → α) : Effect σ ε α := fun s => (.ok (f s), s)

/-- Write to the state. -/
def write (f : σ → σ) : Effect σ ε Unit := fun s => (.ok (), f s)

/-- Run a computation and catch what it raises. -/
def attempt (x : Effect σ ε α) : Effect σ ε (Except ε α) := fun s => (.ok (x s).1, (x s).2)

/-- Run a computation for every member of a list, in order. -/
def forEach (f : α → Effect σ ε Unit) : List α → Effect σ ε Unit
  | [] => ret ()
  | a :: rest => andThen (f a) fun _ => forEach f rest

/-- Run a computation, and take back what it wrote if it raises. -/
def atomically (x : Effect σ ε α) : Effect σ ε α := fun s =>
  match x s with
  | (.ok a, t) => (.ok a, t)
  | (.error e, _) => (.error e, s)

/-- Where the first computation returns, the second takes over. -/
theorem bind_of_ok {x : Effect σ ε α} {f : α → Effect σ ε β} {s t : σ} {a : α}
    (h : x s = (.ok a, t)) : (x >>= f) s = f a t := by
  show andThen x f s = f a t
  rw [andThen, h]

/-- Where the first computation raises, so does the whole. -/
theorem bind_of_error {x : Effect σ ε α} {f : α → Effect σ ε β} {s t : σ} {e : ε}
    (h : x s = (.error e, t)) : (x >>= f) s = (.error e, t) := by
  show andThen x f s = (.error e, t)
  rw [andThen, h]

theorem lift_ok_bind {a : α} {f : α → Effect σ ε β} {s : σ} : (lift (.ok a) >>= f) s = f a s := rfl

theorem lift_error_bind {e : ε} {f : α → Effect σ ε β} {s : σ} :
    (lift (.error e) >>= f) s = (.error e, s) := rfl

theorem read_bind {g : σ → α} {f : α → Effect σ ε β} {s : σ} : (read g >>= f) s = f (g s) s := rfl

theorem write_bind {g : σ → σ} {f : Unit → Effect σ ε β} {s : σ} : (write g >>= f) s = f () (g s) := rfl

/-- A sequence returns where both computations do. -/
theorem bind_eq_ok {x : Effect σ ε α} {f : α → Effect σ ε β} {s t : σ} {b : β} :
    (x >>= f) s = (.ok b, t) ↔ ∃ a u, x s = (.ok a, u) ∧ f a u = (.ok b, t) := by
  cases hr : x s with
  | mk result u =>
    cases result with
    | ok a =>
      rw [bind_of_ok hr]
      constructor
      · exact fun h => ⟨a, u, rfl, h⟩
      · rintro ⟨_, _, heq, h⟩
        cases heq
        exact h
    | error e =>
      rw [bind_of_error hr]
      constructor
      · exact fun h => nomatch h
      · rintro ⟨_, _, heq, -⟩
        exact nomatch heq

theorem pure_eq_ok {a b : α} {s t : σ} :
    (pure a : Effect σ ε α) s = (.ok b, t) ↔ a = b ∧ s = t := by
  show (Except.ok a, s) = (Except.ok b, t) ↔ _
  rw [Prod.mk.injEq, Except.ok.injEq]

theorem lift_eq_ok {x : Except ε α} {a : α} {s t : σ} :
    (lift x : Effect σ ε α) s = (.ok a, t) ↔ x = .ok a ∧ s = t := by
  rw [lift, Prod.mk.injEq]

theorem read_eq_ok {f : σ → α} {a : α} {s t : σ} :
    (read f : Effect σ ε α) s = (.ok a, t) ↔ f s = a ∧ s = t := by
  rw [read, Prod.mk.injEq, Except.ok.injEq]

theorem write_eq_ok {f : σ → σ} {u : Unit} {s t : σ} :
    (write f : Effect σ ε Unit) s = (.ok u, t) ↔ f s = t := by
  rw [write, Prod.mk.injEq]
  exact and_iff_right rfl

/-- A computation whose value is dropped writes the same. -/
theorem snd_bind_pure (x : Effect σ ε α) (b : β) (s : σ) :
    ((x >>= fun _ => pure b) s).2 = (x s).2 := by
  cases hr : x s with
  | mk result t =>
    cases result with
    | ok a =>
      rw [bind_of_ok hr]
      rfl
    | error e => rw [bind_of_error hr]

/-- From a state with `P`, the computation ends in a state with `P`, and what it returns meets `Q`. -/
def Keeps (P : σ → Prop) (x : Effect σ ε α) (Q : α → Prop) : Prop :=
  ∀ s, P s → P (x s).2 ∧ ∀ a, (x s).1 = .ok a → Q a

variable {P : σ → Prop} {Q R : α → Prop}

theorem Keeps.ret {a : α} (h : Q a) : Keeps P (pure a : Effect σ ε α) Q := by
  intro s hs
  refine ⟨hs, fun b hb => ?_⟩
  cases hb
  exact h

theorem Keeps.raise (e : ε) : Keeps P (raise e : Effect σ ε α) Q :=
  fun _ hs => ⟨hs, fun _ ha => nomatch ha⟩

theorem Keeps.lift {x : Except ε α} (h : ∀ a, x = .ok a → Q a) : Keeps P (lift x : Effect σ ε α) Q :=
  fun _ hs => ⟨hs, h⟩

theorem Keeps.read {f : σ → α} (h : ∀ s, P s → Q (f s)) : Keeps P (read f : Effect σ ε α) Q := by
  intro s hs
  refine ⟨hs, fun b hb => ?_⟩
  cases hb
  exact h s hs

theorem Keeps.write {f : σ → σ} {Q : Unit → Prop} (h : ∀ s, P s → P (f s)) (hQ : Q ()) :
    Keeps P (write f : Effect σ ε Unit) Q :=
  fun s hs => ⟨h s hs, fun _ _ => hQ⟩

theorem Keeps.bind {x : Effect σ ε α} {f : α → Effect σ ε β} {S : β → Prop} (hx : Keeps P x R)
    (hf : ∀ a, R a → Keeps P (f a) S) : Keeps P (x >>= f) S := by
  intro s hs
  obtain ⟨hkept, hvalue⟩ := hx s hs
  cases hr : x s with
  | mk result t =>
    rw [hr] at hkept hvalue
    cases result with
    | ok a =>
      rw [bind_of_ok hr]
      exact hf a (hvalue a rfl) t hkept
    | error e =>
      rw [bind_of_error hr]
      exact ⟨hkept, fun _ hb => nomatch hb⟩

/-- Where the first computation ends in a state with `P`, and the second keeps it, the whole ends in one. -/
theorem Keeps.of_bind {x : Effect σ ε α} {f : α → Effect σ ε β} {S : β → Prop} {s : σ} (hx : P (x s).2)
    (hf : ∀ a, Keeps P (f a) S) : P ((x >>= f) s).2 := by
  cases hr : x s with
  | mk result t =>
    rw [hr] at hx
    cases result with
    | ok a =>
      rw [bind_of_ok hr]
      exact (hf a t hx).1
    | error e =>
      rw [bind_of_error hr]
      exact hx

/-- The rule for a computation whose value does not matter. -/
theorem Keeps.next {x : Effect σ ε α} {f : α → Effect σ ε β} {S : β → Prop}
    (hx : Keeps P x fun _ => True) (hf : ∀ a, Keeps P (f a) S) : Keeps P (x >>= f) S :=
  hx.bind fun a _ => hf a

theorem Keeps.attempt {x : Effect σ ε α} (h : Keeps P x R) :
    Keeps P (attempt x) fun result => ∀ a, result = .ok a → R a := by
  intro s hs
  obtain ⟨hkept, hvalue⟩ := h s hs
  refine ⟨hkept, fun result hresult a ha => hvalue a ?_⟩
  exact (Except.ok.inj hresult).trans ha

theorem Keeps.atomically {x : Effect σ ε α} (h : Keeps P x Q) : Keeps P (atomically x) Q := by
  intro s hs
  obtain ⟨hkept, hvalue⟩ := h s hs
  unfold Effect.atomically
  cases hr : x s with
  | mk result t =>
    rw [hr] at hkept hvalue
    cases result with
    | ok a => exact ⟨hkept, hvalue⟩
    | error e => exact ⟨hs, fun _ ha => nomatch ha⟩

theorem Keeps.weaken {x : Effect σ ε α} (h : Keeps P x R) (hQ : ∀ a, R a → Q a) : Keeps P x Q :=
  fun s hs => ⟨(h s hs).1, fun a ha => hQ a ((h s hs).2 a ha)⟩

theorem Keeps.trivial {x : Effect σ ε α} (h : Keeps P x R) : Keeps P x fun _ => True :=
  h.weaken fun _ _ => True.intro

theorem Keeps.ite {p : Prop} [Decidable p] {x y : Effect σ ε α} (hx : p → Keeps P x Q)
    (hy : ¬ p → Keeps P y Q) : Keeps P (if p then x else y) Q := by
  split
  · next h => exact hx h
  · next h => exact hy h

theorem Keeps.forEach {f : α → Effect σ ε Unit} {items : List α}
    (h : ∀ a ∈ items, Keeps P (f a) fun _ => True) : Keeps P (forEach f items) fun _ => True := by
  induction items with
  | nil => exact fun _ hs => ⟨hs, fun _ _ => True.intro⟩
  | cons a rest ih =>
    refine Keeps.next (h a List.mem_cons_self) fun _ => ?_
    exact ih fun b hb => h b (List.mem_cons_of_mem _ hb)

/-! ## Exceptions -/

/-- From a state with `P`, whatever the computation raises meets `E`. -/
def RaisesOnly (P : σ → Prop) (x : Effect σ ε α) (E : ε → Prop) : Prop :=
  ∀ s, P s → ∀ e, (x s).1 = .error e → E e

variable {E : ε → Prop}

theorem RaisesOnly.ret (a : α) : RaisesOnly P (pure a : Effect σ ε α) E :=
  fun _ _ _ he => nomatch he

theorem RaisesOnly.read (f : σ → α) : RaisesOnly P (read f : Effect σ ε α) E :=
  fun _ _ _ he => nomatch he

theorem RaisesOnly.write (f : σ → σ) : RaisesOnly P (write f : Effect σ ε Unit) E :=
  fun _ _ _ he => nomatch he

theorem RaisesOnly.lift {x : Except ε α} (h : ∀ e, x = .error e → E e) :
    RaisesOnly P (lift x : Effect σ ε α) E :=
  fun _ _ e he => h e he

theorem RaisesOnly.bind {x : Effect σ ε α} {f : α → Effect σ ε β} (hraises : RaisesOnly P x E)
    (hkeeps : Keeps P x R) (hf : ∀ a, R a → RaisesOnly P (f a) E) : RaisesOnly P (x >>= f) E := by
  intro s hs e he
  obtain ⟨hkept, hvalue⟩ := hkeeps s hs
  cases hr : x s with
  | mk result t =>
    rw [hr] at hkept hvalue
    cases result with
    | ok a =>
      rw [bind_of_ok hr] at he
      exact hf a (hvalue a rfl) t hkept e he
    | error raised =>
      rw [bind_of_error hr] at he
      cases he
      exact hraises s hs _ (congrArg Prod.fst hr)

theorem RaisesOnly.ite {p : Prop} [Decidable p] {x y : Effect σ ε α}
    (hx : p → RaisesOnly P x E) (hy : ¬ p → RaisesOnly P y E) :
    RaisesOnly P (if p then x else y) E := by
  split
  · next h => exact hx h
  · next h => exact hy h

/-- What is known of an outcome whose exception was caught. -/
theorem Keeps.attempt_raises {x : Effect σ ε α} (h : Keeps P x Q) (hraises : RaisesOnly P x E) :
    Keeps P (Effect.attempt x) fun result => ∀ e, result = .error e → E e := by
  intro s hs
  refine ⟨(h s hs).1, fun result hresult e he => hraises s hs e ?_⟩
  exact (Except.ok.inj hresult).trans he

/-! ## What an exception leaves behind -/

/-- From a state with `P`, wherever the computation raises, it leaves a state with `P`. -/
def RaisesIn (P : σ → Prop) (x : Effect σ ε α) : Prop :=
  ∀ s, P s → ∀ e t, x s = (.error e, t) → P t

theorem RaisesIn.lift (x : Except ε α) : RaisesIn P (Effect.lift x : Effect σ ε α) := by
  intro s hs e t h
  cases h
  exact hs

/-- A computation that ends with a write has written nothing when it raises. -/
theorem RaisesIn.write_bind (f : σ → σ) (a : α) :
    RaisesIn P (Effect.write f >>= fun _ => pure a : Effect σ ε α) :=
  fun _ _ _ _ h => nomatch h

theorem RaisesIn.read_bind {g : σ → α} {f : α → Effect σ ε β} (h : ∀ a, RaisesIn P (f a)) :
    RaisesIn P (Effect.read g >>= f) :=
  fun s hs e t ht => h (g s) s hs e t ht

theorem RaisesIn.lift_bind {x : Except ε α} {f : α → Effect σ ε β} (h : ∀ a, RaisesIn P (f a)) :
    RaisesIn P (Effect.lift x >>= f) := by
  intro s hs e t ht
  cases x with
  | ok a => exact h a s hs e t ht
  | error e' =>
    cases ht
    exact hs

/-- Where the first computation ends in a state with `P`, an exception of the whole leaves one. -/
theorem RaisesIn.of_bind {x : Effect σ ε α} {f : α → Effect σ ε β} {s : σ} (hx : P (x s).2)
    (hf : ∀ a, RaisesIn P (f a)) {e : ε} {t : σ} (h : (x >>= f) s = (.error e, t)) : P t := by
  cases hr : x s with
  | mk result u =>
    rw [hr] at hx
    cases result with
    | ok a =>
      rw [bind_of_ok hr] at h
      exact hf a u hx e t h
    | error e' =>
      rw [bind_of_error hr] at h
      cases h
      exact hx

theorem RaisesIn.bind {x : Effect σ ε α} {f : α → Effect σ ε β} (hx : Keeps P x fun _ => True)
    (hf : ∀ a, RaisesIn P (f a)) : RaisesIn P (x >>= f) :=
  fun s hs _ _ h => RaisesIn.of_bind (hx s hs).1 hf h

/-! ## What a return leaves behind -/

/-- From a state with `P`, wherever the computation returns, it leaves a state with `P`. -/
def ReturnsIn (P : σ → Prop) (x : Effect σ ε α) : Prop :=
  ∀ s, P s → ∀ a t, x s = (.ok a, t) → P t

theorem ReturnsIn.forEach {f : α → Effect σ ε Unit} {items : List α} (h : ∀ a ∈ items, ReturnsIn P (f a)) :
    ReturnsIn P (forEach f items) := by
  induction items with
  | nil =>
    intro s hs _ t ht
    cases ht
    exact hs
  | cons a rest ih =>
    intro s hs _ t ht
    obtain ⟨_, u, hfirst, hrest⟩ := bind_eq_ok.1 ht
    exact ih (fun b hb => h b (List.mem_cons_of_mem _ hb)) u (h a List.mem_cons_self s hs _ u hfirst) _ t hrest

/-! ## A part of the state -/

variable {τ : Type}

/-- Run a computation on a part of the state. -/
def focus (get : τ → σ) (set : σ → τ → τ) (x : Effect σ ε α) : Effect τ ε α := fun s =>
  ((x (get s)).1, set (x (get s)).2 s)

theorem Keeps.focus {get : τ → σ} {set : σ → τ → τ} {x : Effect σ ε α} (h : Keeps P x Q)
    (hget : ∀ a s, get (set a s) = a) : Keeps (fun s => P (get s)) (Effect.focus get set x) Q := by
  intro s hs
  refine ⟨?_, (h (get s) hs).2⟩
  show P (get (set (x (get s)).2 s))
  rw [hget]
  exact (h (get s) hs).1

end Effect
