import InternationalDollar.Lib.Check
import InternationalDollar.Lib.Text

set_option autoImplicit false

/-! # Reading byte strings

A reader takes its value off the front of a byte string, or raises. What a reader accepts is stated as
an equivalence: the input is the written form of the value, followed by the rest. Such equivalences
compose field by field (`bind_eq_ok`, `times_eq_ok`), and one of them says both that what was written
is read back and that nothing else is read. -/

/-- A reader with exceptions in `ε`. -/
abbrev ByteReader (ε α : Type) := StateT Bytes (Except ε) α

namespace ByteReader

variable {ε α β : Type}

/-- Raise `error` unless `p` holds. -/
def require (p : Prop) [Decidable p] (error : ε) : ByteReader ε Unit := fun input =>
  if p then .ok ((), input) else .error error

/-- A computation that does not look at the input. -/
def lift (x : Except ε α) : ByteReader ε α := fun input =>
  match x with
  | .ok a => .ok (a, input)
  | .error e => .error e

/-- The next `n` bytes. -/
def take (n : Nat) (error : ε) : ByteReader ε Bytes := fun input =>
  if n ≤ input.length then .ok (input.take n, input.drop n) else .error error

/-- A reader run a number of times. -/
def times (r : ByteReader ε α) : Nat → ByteReader ε (List α)
  | 0 => pure []
  | n + 1 => do
      let head ← r
      let tail ← times r n
      pure (head :: tail)

/-- No byte is left. -/
def requireEof (error : ε) : ByteReader ε Unit := fun input =>
  if input = [] then .ok ((), input) else .error error

variable {r : ByteReader ε α} {input rest : Bytes} {a : α}

theorem bind_eq_ok {f : α → ByteReader ε β} {b : β} :
    (r >>= f) input = .ok (b, rest) ↔
      ∃ a mid, r input = .ok (a, mid) ∧ f a mid = .ok (b, rest) := by
  change (r input >>= fun p => f p.1 p.2) = .ok (b, rest) ↔ _
  cases h : r input with
  | error e => exact iff_of_false (fun h => nomatch h) (fun ⟨_, _, h, _⟩ => nomatch h)
  | ok p =>
    constructor
    · intro hf
      exact ⟨p.1, p.2, rfl, hf⟩
    · rintro ⟨a, mid, hp, hf⟩
      obtain rfl := Except.ok.inj hp
      exact hf

theorem pure_eq_ok {b : α} :
    (pure a : ByteReader ε α) input = .ok (b, rest) ↔ a = b ∧ input = rest := by
  change Except.ok (a, input) = .ok (b, rest) ↔ _
  rw [Except.ok.injEq, Prod.mk.injEq]

theorem require_eq_ok {p : Prop} [Decidable p] {error : ε} {u : Unit} :
    require p error input = .ok (u, rest) ↔ p ∧ input = rest := by
  unfold require
  by_cases h : p
  · rw [if_pos h, Except.ok.injEq, Prod.mk.injEq]
    simp [h]
  · rw [if_neg h]
    exact iff_of_false (fun h => nomatch h) (fun hp => h hp.1)

theorem lift_eq_ok {x : Except ε α} :
    lift x input = .ok (a, rest) ↔ x = .ok a ∧ input = rest := by
  cases x with
  | error e => exact iff_of_false (fun h => nomatch h) (fun h => nomatch h.1)
  | ok b => simp [lift]

theorem take_eq_ok {n : Nat} {error : ε} {raw : Bytes} :
    take n error input = .ok (raw, rest) ↔ raw.length = n ∧ input = raw ++ rest := by
  unfold take
  by_cases h : n ≤ input.length
  · rw [if_pos h, Except.ok.injEq, Prod.mk.injEq]
    constructor
    · rintro ⟨rfl, rfl⟩
      exact ⟨List.length_take_of_le h, (List.take_append_drop n input).symm⟩
    · rintro ⟨rfl, rfl⟩
      exact ⟨List.take_left, List.drop_left⟩
  · rw [if_neg h]
    refine iff_of_false (fun h => nomatch h) ?_
    rintro ⟨rfl, rfl⟩
    rw [List.length_append] at h
    omega

theorem requireEof_eq_ok {error : ε} {u : Unit} :
    requireEof error input = .ok (u, rest) ↔ input = [] ∧ rest = [] := by
  unfold requireEof
  by_cases h : input = []
  · rw [if_pos h, Except.ok.injEq, Prod.mk.injEq, h]
    simp [eq_comm]
  · rw [if_neg h]
    exact iff_of_false (fun h => nomatch h) (fun hp => h hp.1)

/-- The written forms of the members of a list, one after the other. -/
def WrittenAll (W : α → Bytes → Prop) : List α → Bytes → Prop
  | [], raw => raw = []
  | a :: as, raw => ∃ head tail, W a head ∧ WrittenAll W as tail ∧ raw = head ++ tail

theorem WrittenAll.mono {V W : α → Bytes → Prop} {as : List α} {raw : Bytes}
    (h : WrittenAll V as raw) (hle : ∀ a ∈ as, ∀ raw, V a raw → W a raw) : WrittenAll W as raw := by
  induction as generalizing raw with
  | nil => exact h
  | cons a as ih =>
    obtain ⟨head, tail, hhead, htail, rfl⟩ := h
    exact ⟨head, tail, hle a List.mem_cons_self head hhead,
      ih htail fun b hb => hle b (List.mem_cons_of_mem a hb), rfl⟩

/-- What is read member by member is written member by member. -/
theorem times_eq_ok {W : α → Bytes → Prop}
    (h : ∀ input a rest, r input = .ok (a, rest) ↔ ∃ raw, W a raw ∧ input = raw ++ rest)
    {n : Nat} {as : List α} :
    times r n input = .ok (as, rest) ↔
      as.length = n ∧ ∃ raw, WrittenAll W as raw ∧ input = raw ++ rest := by
  induction n generalizing input rest as with
  | zero =>
    rw [times, pure_eq_ok]
    constructor
    · rintro ⟨rfl, rfl⟩
      exact ⟨rfl, [], rfl, rfl⟩
    · rintro ⟨hlen, raw, hraw, rfl⟩
      obtain rfl := List.length_eq_zero_iff.1 hlen
      obtain rfl : raw = [] := hraw
      exact ⟨rfl, rfl⟩
  | succ n ih =>
    simp only [times, bind_eq_ok, pure_eq_ok, h, ih]
    constructor
    · rintro ⟨a, _, ⟨head, ha, rfl⟩, as, _, ⟨rfl, tail, has, rfl⟩, rfl, rfl⟩
      exact ⟨rfl, head ++ tail, ⟨head, tail, ha, has, rfl⟩, (List.append_assoc ..).symm⟩
    · rintro ⟨hlen, raw, hraw, rfl⟩
      cases as with
      | nil => exact nomatch hlen
      | cons a as =>
        obtain ⟨head, tail, ha, has, rfl⟩ := hraw
        exact ⟨a, tail ++ rest, ⟨head, ha, List.append_assoc ..⟩, as, rest,
          ⟨Nat.succ.inj hlen, tail, has, rfl⟩, rfl, rfl⟩

end ByteReader
