import Mathlib.Tactic.Basic

set_option autoImplicit false

/-! # Transactions that can break off

A transaction runs its statements on a working copy of the tables. The connection can be lost before
any of its statements, and at the commit; then, as after an exception, the transaction is rolled
back. What a rollback leaves of the working copy is a parameter: a database may keep its counters.

`Triple` is the usual one of pre- and postcondition, with a second postcondition for the sessions in
which an exception is raised. Its conditions are about the whole session, so that they can speak of
the statements that are left before the connection is lost. -/

namespace Transaction

/-- A connection within a transaction: the working copy, and the number of statements that still
    succeed before the connection is lost; `none` where it is not lost. -/
structure Session (σ : Type) where
  tables : σ
  fault : Option Nat

/-- The exception of a lost connection. -/
def connectionLost : String := "database connection lost"

end Transaction

/-- A computation within a transaction over tables `σ`. -/
def Transaction (σ α : Type) : Type :=
  Transaction.Session σ → Except String α × Transaction.Session σ

namespace Transaction

variable {σ α β : Type}

/-- The computation that returns a value and runs no statement. -/
def ret (a : α) : Transaction σ α := fun s => (.ok a, s)

/-- One computation after the other; an exception ends it. -/
def andThen (x : Transaction σ α) (f : α → Transaction σ β) : Transaction σ β := fun s =>
  match x s with
  | (.ok a, t) => f a t
  | (.error e, t) => (.error e, t)

instance : Monad (Transaction σ) where
  pure := ret
  bind := andThen

/-- A computation that does not touch the database. -/
def lift (x : Except String α) : Transaction σ α := fun s => (x, s)

/-- One statement. It reads and changes the working copy, and may itself raise. -/
def statement (f : σ → Except String α × σ) : Transaction σ α := fun s =>
  match s.fault with
  | some 0 => (.error connectionLost, s)
  | none => ((f s.tables).1, ⟨(f s.tables).2, none⟩)
  | some (n + 1) => ((f s.tables).1, ⟨(f s.tables).2, some n⟩)

/-- The statements that were left before one that ran. -/
theorem fault_of_next {fault : Option Nat} {n : Nat} (hne : fault ≠ some 0)
    (h : fault.map (· - 1) = some n) : fault = some (n + 1) := by
  match fault with
  | none => cases h
  | some 0 => exact absurd rfl hne
  | some (m + 1) =>
    cases h
    rfl

/-- A statement that only reads. -/
def query (f : σ → α) : Transaction σ α :=
  statement fun tables => (.ok (f tables), tables)

/-- A statement that only writes. -/
def update (f : σ → σ) : Transaction σ Unit :=
  statement fun tables => (.ok (), f tables)

/-- A transaction from begin to commit. `rollback before working` are the tables after a rollback. -/
def run (rollback : σ → σ → σ) (x : Transaction σ α) (fault : Option Nat) (tables : σ) :
    Except String α × σ :=
  match andThen x (fun a => andThen (update id) (fun _ => ret a)) ⟨tables, fault⟩ with
  | (.ok a, s) => (.ok a, s.tables)
  | (.error e, s) => (.error e, rollback tables s.tables)

/-- A computation on a part of the tables. -/
def focus {τ : Type} (get : τ → σ) (set : σ → τ → τ) (x : Transaction σ α) : Transaction τ α := fun s =>
  ((x ⟨get s.tables, s.fault⟩).1,
    ⟨set (x ⟨get s.tables, s.fault⟩).2.tables s.tables, (x ⟨get s.tables, s.fault⟩).2.fault⟩)

/-- From a session with `P`, the computation returns some `a` in a session with `Q a`, or it raises
    in a session with `E`. -/
def Triple (P : Session σ → Prop) (x : Transaction σ α) (Q : α → Session σ → Prop)
    (E : Session σ → Prop) : Prop :=
  ∀ s, P s → match x s with
    | (.ok a, t) => Q a t
    | (.error _, t) => E t

variable {P : Session σ → Prop} {E : Session σ → Prop}

theorem Triple.ret {a : α} {Q : α → Session σ → Prop} (h : ∀ s, P s → Q a s) :
    Triple P (pure a) Q E :=
  h

theorem Triple.lift {x : Except String α} {Q : α → Session σ → Prop}
    (hok : ∀ s a, P s → x = .ok a → Q a s) (herror : ∀ s e, P s → x = .error e → E s) :
    Triple P (lift x) Q E := by
  intro s hs
  unfold Transaction.lift
  cases hx : x with
  | ok a => exact hok s a hs hx
  | error e => exact herror s e hs hx

theorem Triple.bind {x : Transaction σ α} {f : α → Transaction σ β} {R : α → Session σ → Prop}
    {Q : β → Session σ → Prop} (hx : Triple P x R E) (hf : ∀ a, Triple (R a) (f a) Q E) :
    Triple P (x >>= f) Q E := by
  intro s hs
  have h := hx s hs
  show match andThen x f s with
    | (.ok b, t) => Q b t
    | (.error _, t) => E t
  unfold andThen
  cases hr : x s with
  | mk result t =>
    rw [hr] at h
    cases result with
    | ok a => exact hf a t h
    | error e => exact h

/-- The rule for a statement: the connection is lost before it, or it runs. -/
theorem Triple.statement {f : σ → Except String α × σ} {Q : α → Session σ → Prop}
    (hlost : ∀ s, P s → s.fault = some 0 → E s)
    (hok : ∀ s a, P s → s.fault ≠ some 0 → (f s.tables).1 = .ok a →
      Q a ⟨(f s.tables).2, s.fault.map (· - 1)⟩)
    (herror : ∀ s e, P s → s.fault ≠ some 0 → (f s.tables).1 = .error e →
      E ⟨(f s.tables).2, s.fault.map (· - 1)⟩) :
    Triple P (statement f) Q E := by
  rintro ⟨tables, fault⟩ hs
  unfold Transaction.statement
  match fault with
  | some 0 => exact hlost _ hs rfl
  | none =>
    cases hr : (f tables).1 with
    | ok a => exact hok ⟨tables, none⟩ a hs (by simp) hr
    | error e => exact herror ⟨tables, none⟩ e hs (by simp) hr
  | some (n + 1) =>
    cases hr : (f tables).1 with
    | ok a => exact hok ⟨tables, some (n + 1)⟩ a hs (by simp) hr
    | error e => exact herror ⟨tables, some (n + 1)⟩ e hs (by simp) hr

theorem Triple.query {f : σ → α} {Q : α → Session σ → Prop}
    (hlost : ∀ s, P s → s.fault = some 0 → E s)
    (hok : ∀ s, P s → s.fault ≠ some 0 → Q (f s.tables) ⟨s.tables, s.fault.map (· - 1)⟩) :
    Triple P (query f) Q E :=
  Triple.statement hlost (fun s _ hs hfault ha => by cases ha; exact hok s hs hfault)
    (fun _ _ _ _ he => nomatch he)

theorem Triple.update {f : σ → σ} {Q : Unit → Session σ → Prop}
    (hlost : ∀ s, P s → s.fault = some 0 → E s)
    (hok : ∀ s, P s → s.fault ≠ some 0 → Q () ⟨f s.tables, s.fault.map (· - 1)⟩) :
    Triple P (update f) Q E :=
  Triple.statement hlost (fun s _ hs hfault _ => hok s hs hfault) (fun _ _ _ _ he => nomatch he)

/-- What does not depend on the session is kept. -/
theorem Triple.frame {x : Transaction σ α} {Q : α → Session σ → Prop} (p : Prop) (h : Triple P x Q E) :
    Triple (fun s => p ∧ P s) x (fun a s => p ∧ Q a s) E := by
  rintro s ⟨hp, hs⟩
  have hx := h s hs
  cases hr : x s with
  | mk result t =>
    rw [hr] at hx
    cases result with
    | ok a => exact ⟨hp, hx⟩
    | error e => exact hx

/-- The rule for a computation on a part of the tables. -/
theorem Triple.focus {τ : Type} {get : τ → σ} {set : σ → τ → τ} {x : Transaction σ α} {base : τ}
    {Q : α → σ → Prop}
    (h : Triple (fun s => s.tables = get base) x (fun a s => Q a s.tables) fun _ => True) :
    Triple (fun s => s.tables = base) (Transaction.focus get set x)
      (fun a s => ∃ part, Q a part ∧ s.tables = set part base) fun _ => True := by
  rintro ⟨tables, fault⟩ rfl
  have hx := h ⟨get tables, fault⟩ rfl
  unfold Transaction.focus
  cases hr : x ⟨get tables, fault⟩ with
  | mk result t =>
    rw [hr] at hx
    cases result with
    | ok a => exact ⟨t.tables, hx, rfl⟩
    | error e => trivial

/-- The rule for a computation on a part of the tables, with what is known of the part where it raises. -/
theorem Triple.focus_raises {τ : Type} {get : τ → σ} {set : σ → τ → τ} {x : Transaction σ α} {base : τ}
    {Q : α → σ → Prop} {F : σ → Prop}
    (h : Triple (fun s => s.tables = get base) x (fun a s => Q a s.tables) fun s => F s.tables) :
    Triple (fun s => s.tables = base) (Transaction.focus get set x)
      (fun a s => ∃ part, Q a part ∧ s.tables = set part base)
      fun s => ∃ part, F part ∧ s.tables = set part base := by
  rintro ⟨tables, fault⟩ rfl
  have hx := h ⟨get tables, fault⟩ rfl
  unfold Transaction.focus
  cases hr : x ⟨get tables, fault⟩ with
  | mk result t =>
    rw [hr] at hx
    cases result with
    | ok a => exact ⟨t.tables, hx, rfl⟩
    | error e => exact ⟨t.tables, hx, rfl⟩

/-- Two postconditions hold together. -/
theorem Triple.and {x : Transaction σ α} {Q R : α → Session σ → Prop} {E' : Session σ → Prop}
    (h : Triple P x Q E) (k : Triple P x R E') :
    Triple P x (fun a s => Q a s ∧ R a s) fun s => E s ∧ E' s := by
  intro s hs
  have hx := h s hs
  have hy := k s hs
  cases hr : x s with
  | mk result t =>
    rw [hr] at hx hy
    cases result with
    | ok a => exact ⟨hx, hy⟩
    | error e => exact ⟨hx, hy⟩

/-- What is known of the sessions in which an exception is raised can be weakened. -/
theorem Triple.weaken_raises {x : Transaction σ α} {Q : α → Session σ → Prop} {E' : Session σ → Prop}
    (h : Triple P x Q E) (himp : ∀ s, E s → E' s) : Triple P x Q E' := by
  intro s hs
  have hx := h s hs
  cases hr : x s with
  | mk result t =>
    rw [hr] at hx
    cases result with
    | ok a => exact hx
    | error e => exact himp t hx

/-- A transaction that is committed has its postcondition; one that is rolled back raised, or was
    lost at the commit. -/
theorem Triple.run {x : Transaction σ α} {Q : α → Session σ → Prop} {tables : σ}
    {fault : Option Nat} (rollback : σ → σ → σ) (h : Triple P x Q E) (hP : P ⟨tables, fault⟩)
    (hcommit : ∀ a s, Q a s → s.fault = some 0 → E s) :
    (∃ a s, Q a s ∧ x.run rollback fault tables = (.ok a, s.tables)) ∨
      ∃ e s, E s ∧ x.run rollback fault tables = (.error e, rollback tables s.tables) := by
  have hx := h _ hP
  unfold Transaction.run andThen
  cases hr : x ⟨tables, fault⟩ with
  | mk result t =>
    rw [hr] at hx
    cases result with
    | error e => exact .inr ⟨e, t, hx, rfl⟩
    | ok a =>
      obtain ⟨tables', fault'⟩ := t
      match fault' with
      | some 0 => exact .inr ⟨connectionLost, ⟨tables', some 0⟩, hcommit a _ hx rfl, rfl⟩
      | none => exact .inl ⟨a, ⟨tables', none⟩, hx, rfl⟩
      | some (n + 1) => exact .inl ⟨a, ⟨tables', some (n + 1)⟩, hx, rfl⟩

end Transaction
