import Mathlib.Data.Finset.Card

set_option autoImplicit false

/-! # The set of recent messages (`node_client`)

`BoundedSeenSet` keeps its values in a set and in a queue, and forgets the oldest value of the queue
when the queue has grown over the limit. `discard` takes a value out of the set only, so a value that is
added again stands in the queue twice, and the older place can drop it. `remembers_iff` says in which
runs that does not happen. -/

/-- `BoundedSeenSet`. -/
structure BoundedSeenSet (α : Type) where
  limit : Int
  items : Finset α
  order : List α

namespace BoundedSeenSet

variable {α : Type} [DecidableEq α]

/-- `BoundedSeenSet(limit)`. -/
def new (limit : Int) : BoundedSeenSet α := ⟨limit, ∅, []⟩

/-- The loop of `add` over the front of the queue. -/
def evict (limit : Int) : List α → Finset α → Except String Unit × Finset α × List α
  | [], items => (if 0 > limit then .error "pop from an empty deque" else .ok (), items, [])
  | value :: rest, items =>
      if (value :: rest).length > limit then evict limit rest (items.erase value)
      else (.ok (), items, value :: rest)

/-- `add`. -/
def add (value : α) (s : BoundedSeenSet α) : Except String Bool × BoundedSeenSet α :=
  if value ∈ s.items then (.ok false, s)
  else
    match evict s.limit (s.order ++ [value]) (insert value s.items) with
    | (.ok (), items, order) => (.ok true, ⟨s.limit, items, order⟩)
    | (.error e, items, order) => (.error e, ⟨s.limit, items, order⟩)

/-- `discard`. -/
def discard (value : α) (s : BoundedSeenSet α) : BoundedSeenSet α :=
  { s with items := s.items.erase value }

/-! ## Runs -/

/-- A call of one of the two methods. -/
inductive Call (α : Type) where
  | add (value : α)
  | discard (value : α)

/-- The set after a call. -/
def call (s : BoundedSeenSet α) : Call α → BoundedSeenSet α
  | .add value => (s.add value).2
  | .discard value => s.discard value

/-- The set after some calls. -/
def after (s : BoundedSeenSet α) (calls : List (Call α)) : BoundedSeenSet α :=
  calls.foldl call s

/-- Whether a call adds a value. -/
def adds (s : BoundedSeenSet α) : Call α → Bool
  | .add value => (s.add value).1.toOption = some true
  | .discard _ => false

/-- How many of some calls add a value. -/
def countAdds (s : BoundedSeenSet α) : List (Call α) → Nat
  | [] => 0
  | c :: rest => (s.adds c).toNat + (s.call c).countAdds rest

/-- What a set with a limit promises for some calls. -/
structure Remembers (limit : Int) (calls : List (Call α)) : Prop where
  /-- It never holds more values than its limit. -/
  bounded : ∀ done, done <+: calls → (((new limit).after done).items.card : Int) ≤ limit
  /-- A value is added where it is absent. -/
  answers : ∀ done value, done ++ [.add value] <+: calls →
    (((new limit).after done).add value).1 = .ok (decide (value ∉ ((new limit).after done).items))
  /-- A value that was added and was not discarded is kept until the limit of values has followed. -/
  kept : ∀ before value later, before ++ .add value :: later <+: calls →
    ((new limit).after before).adds (.add value) = true → .discard value ∉ later →
    (((new limit).after (before ++ [.add value])).countAdds later : Int) < limit →
    value ∈ ((new limit).after (before ++ .add value :: later)).items

/-- A call does not drop a value of the set that is queued again behind the place that it loses. -/
def DropsNoNewer (s : BoundedSeenSet α) : Call α → Prop
  | .add value => value ∉ s.items → ∀ first rest, s.order = first :: rest →
      (s.order.length : Int) = s.limit → first ∈ insert value s.items → first ∉ rest ++ [value]
  | .discard _ => True

variable {s : BoundedSeenSet α} {value : α} {calls : List (Call α)} {limit : Int}

/-! ## One call -/

theorem evict_of_le {order : List α} {items : Finset α} (h : (order.length : Int) ≤ limit) :
    evict limit order items = (.ok (), items, order) := by
  cases order with
  | nil =>
    have hlimit : ¬ 0 > limit := by simpa using h
    rw [evict, if_neg hlimit]
  | cons first rest => rw [evict, if_neg (not_lt.2 h)]

/-- The queue is longer than the limit by one value. -/
theorem evict_cons {first : α} {rest : List α} {items : Finset α} (h : (rest.length : Int) = limit) :
    evict limit (first :: rest) items = (.ok (), items.erase first, rest) := by
  have hover : ((first :: rest).length : Int) > limit := by
    rw [List.length_cons]
    omega
  rw [evict, if_pos hover, evict_of_le h.le]

/-- What holds of the set and the queue after any calls. -/
structure Queued (s : BoundedSeenSet α) : Prop where
  nonneg : 0 ≤ s.limit
  length : (s.order.length : Int) ≤ s.limit
  items : ∀ value ∈ s.items, value ∈ s.order

/-- What an add does: nothing where the value is there, else it goes to the end of the queue, whose first
    value goes if there was no room. -/
theorem add_cases (h : s.Queued) (value : α) :
    (value ∈ s.items ∧ s.add value = (.ok false, s)) ∨
    (value ∉ s.items ∧ (s.order.length : Int) < s.limit ∧
      s.add value = (.ok true, ⟨s.limit, insert value s.items, s.order ++ [value]⟩)) ∨
    (value ∉ s.items ∧ ∃ first rest, s.order ++ [value] = first :: rest ∧
      (rest.length : Int) = s.limit ∧
      s.add value = (.ok true, ⟨s.limit, (insert value s.items).erase first, rest⟩)) := by
  unfold add
  by_cases hmem : value ∈ s.items
  · exact .inl ⟨hmem, if_pos hmem⟩
  rw [if_neg hmem]
  refine .inr ?_
  have hlength := h.length
  by_cases hroom : (s.order.length : Int) < s.limit
  · refine .inl ⟨hmem, hroom, ?_⟩
    have hle : ((s.order ++ [value]).length : Int) ≤ s.limit := by
      rw [List.length_append, List.length_singleton]
      omega
    rw [evict_of_le hle]
  · refine .inr ⟨hmem, ?_⟩
    cases hqueue : s.order ++ [value] with
    | nil => exact absurd hqueue (by simp)
    | cons first rest =>
      have hcount := congrArg List.length hqueue
      rw [List.length_append, List.length_singleton, List.length_cons] at hcount
      have hrest : (rest.length : Int) = s.limit := by omega
      refine ⟨first, rest, rfl, hrest, ?_⟩
      rw [evict_cons hrest]

omit [DecidableEq α] in
theorem Queued.new (h : 0 ≤ limit) : (new limit : BoundedSeenSet α).Queued where
  nonneg := h
  length := h
  items := fun _ hmem => absurd hmem (Finset.notMem_empty _)

theorem Queued.add (h : s.Queued) (value : α) : (s.add value).2.Queued := by
  rcases add_cases h value with ⟨-, heq⟩ | ⟨-, hroom, heq⟩ | ⟨-, first, rest, hqueue, hrest, heq⟩
  · rw [heq]
    exact h
  · rw [heq]
    refine ⟨h.nonneg, ?_, fun other hother => ?_⟩
    · show ((s.order ++ [value]).length : Int) ≤ s.limit
      rw [List.length_append, List.length_singleton]
      omega
    · show other ∈ s.order ++ [value]
      rcases Finset.mem_insert.1 hother with rfl | hold
      · exact List.mem_append_right _ List.mem_cons_self
      · exact List.mem_append_left _ (h.items other hold)
  · rw [heq]
    refine ⟨h.nonneg, hrest.le, fun other hother => ?_⟩
    obtain ⟨hne, hin⟩ := Finset.mem_erase.1 hother
    have hmem : other ∈ s.order ++ [value] := by
      rcases Finset.mem_insert.1 hin with rfl | hold
      · exact List.mem_append_right _ List.mem_cons_self
      · exact List.mem_append_left _ (h.items other hold)
    rw [hqueue] at hmem
    exact (List.mem_cons.1 hmem).resolve_left hne

theorem Queued.call (h : s.Queued) (c : Call α) : (s.call c).Queued := by
  cases c with
  | add value => exact h.add value
  | discard value =>
    exact ⟨h.nonneg, h.length, fun other hother => h.items other (Finset.mem_of_mem_erase hother)⟩

theorem Queued.after (h : s.Queued) (calls : List (Call α)) : (s.after calls).Queued := by
  induction calls generalizing s with
  | nil => exact h
  | cons c rest ih => exact ih (h.call c)

theorem Queued.card_le (h : s.Queued) : (s.items.card : Int) ≤ s.limit := by
  have hsubset : s.items ⊆ s.order.toFinset := fun value hvalue => List.mem_toFinset.2 (h.items value hvalue)
  have hcard := (Finset.card_le_card hsubset).trans s.order.toFinset_card_le
  have hlength := h.length
  omega

/-- An add returns whether the value was absent. -/
theorem Queued.add_answer (h : s.Queued) (value : α) :
    (s.add value).1 = .ok (decide (value ∉ s.items)) := by
  rcases add_cases h value with ⟨hmem, heq⟩ | ⟨hmem, -, heq⟩ | ⟨hmem, first, rest, -, -, heq⟩
  · rw [heq]
    simp [hmem]
  · rw [heq]
    simp [hmem]
  · rw [heq]
    simp [hmem]

theorem Queued.adds_iff (h : s.Queued) : s.adds (.add value) = true ↔ value ∉ s.items := by
  show decide ((s.add value).1.toOption = some true) = true ↔ value ∉ s.items
  rw [h.add_answer value]
  simp [Except.toOption]

@[simp] theorem limit_call (c : Call α) : (s.call c).limit = s.limit := by
  cases c with
  | add value =>
    show (s.add value).2.limit = s.limit
    unfold add
    by_cases hmem : value ∈ s.items
    · rw [if_pos hmem]
    · rw [if_neg hmem]
      rcases hevict : evict s.limit (s.order ++ [value]) (insert value s.items) with ⟨answer, items, order⟩
      cases answer with
      | ok u => rfl
      | error e => rfl
  | discard value => rfl

@[simp] theorem limit_after (calls : List (Call α)) : (s.after calls).limit = s.limit := by
  induction calls generalizing s with
  | nil => rfl
  | cons c rest ih => exact ih.trans (limit_call c)

theorem after_append (before later : List (Call α)) :
    s.after (before ++ later) = (s.after before).after later :=
  List.foldl_append

theorem countAdds_append (before later : List (Call α)) :
    s.countAdds (before ++ later) = s.countAdds before + (s.after before).countAdds later := by
  induction before generalizing s with
  | nil => exact (Nat.zero_add _).symm
  | cons c rest ih =>
    rw [List.cons_append, countAdds, countAdds, ih, Nat.add_assoc]
    rfl

/-! ## Values stay -/

/-- The newest place of a value in the queue, with the number of values behind it. -/
def NewestPlace (order : List α) (value : α) (behind : Nat) : Prop :=
  ∃ front back, order = front ++ value :: back ∧ value ∉ back ∧ back.length = behind

omit [DecidableEq α] in
theorem newestPlace_concat (order : List α) (value : α) : NewestPlace (order ++ [value]) value 0 :=
  ⟨order, [], rfl, List.not_mem_nil, rfl⟩

/-- What an add does to a value of the set: it stays, one value farther from the end, or its place was the
    first of a full queue. -/
theorem mem_add {other : α} {behind : Nat} (h : s.Queued) (hother : other ∈ s.items)
    (hplace : NewestPlace s.order other behind) (hvalue : value ∉ s.items)
    (hfirst : ∀ first rest, s.order = first :: rest → (s.order.length : Int) = s.limit → first ≠ other) :
    other ∈ (s.add value).2.items ∧ NewestPlace (s.add value).2.order other (behind + 1) := by
  obtain ⟨front, back, hsplit, hnot, rfl⟩ := hplace
  have hne : other ≠ value := fun heq => hvalue (heq ▸ hother)
  have hback : other ∉ back ++ [value] := by
    rw [List.mem_append, List.mem_singleton]
    exact fun hmem => hmem.elim hnot hne
  rcases add_cases h value with ⟨hmem, -⟩ | ⟨-, -, heq⟩ | ⟨-, first, rest, hqueue, hrest, heq⟩
  · exact absurd hmem hvalue
  · rw [heq]
    refine ⟨Finset.mem_insert_of_mem hother, front, back ++ [value], ?_, hback, ?_⟩
    · show s.order ++ [value] = _
      rw [hsplit, List.append_assoc, List.cons_append]
    · rw [List.length_append, List.length_singleton]
  · rw [heq]
    -- The queue is full, so its first value goes; it is not the other one.
    have hlength := congrArg List.length hqueue
    rw [List.length_append, List.length_singleton, List.length_cons] at hlength
    cases front with
    | nil =>
      have hfull : (s.order.length : Int) = s.limit := by omega
      exact absurd rfl (hfirst other back hsplit hfull)
    | cons head front =>
      have hfull : (s.order.length : Int) = s.limit := by omega
      have hhead : head ≠ other := hfirst head (front ++ other :: back) hsplit hfull
      rw [hsplit, List.cons_append, List.cons_append, List.cons.injEq] at hqueue
      obtain ⟨rfl, rfl⟩ := hqueue
      refine ⟨Finset.mem_erase.2 ⟨hhead.symm, Finset.mem_insert_of_mem hother⟩, front, back ++ [value],
        ?_, hback, ?_⟩
      · show (front ++ other :: back) ++ [value] = _
        rw [List.append_assoc, List.cons_append]
      · rw [List.length_append, List.length_singleton]

/-- A value of the set stays through calls that do not drop it early, while its place in the queue is not
    too far from the end. -/
theorem mem_after (h : s.Queued) {behind : Nat} (hmem : value ∈ s.items)
    (hplace : NewestPlace s.order value behind) (hnot : .discard value ∉ calls)
    (hdrops : ∀ before c, before ++ [c] <+: calls → (s.after before).DropsNoNewer c)
    (hcount : ((behind + s.countAdds calls : Nat) : Int) < s.limit) :
    value ∈ (s.after calls).items := by
  induction calls generalizing s behind with
  | nil => exact hmem
  | cons c rest ih =>
    rw [List.mem_cons, not_or] at hnot
    have hrest : ∀ before c', before ++ [c'] <+: rest → ((s.call c).after before).DropsNoNewer c' :=
      fun before c' hprefix => hdrops (c :: before) c' (List.cons_prefix_cons.2 ⟨rfl, hprefix⟩)
    have hhere : s.DropsNoNewer c :=
      hdrops [] c (List.cons_prefix_cons.2 ⟨rfl, List.nil_prefix⟩)
    rw [countAdds] at hcount
    cases c with
    | discard other =>
      have hne : value ≠ other := fun heq => hnot.1 (by rw [heq])
      exact ih (h.call _) (Finset.mem_erase.2 ⟨hne, hmem⟩) hplace hnot.2 hrest (by
        rw [limit_call]
        omega)
    | add other =>
      by_cases hother : other ∈ s.items
      · have hsame : s.call (.add other) = s := by
          show (s.add other).2 = s
          rw [add, if_pos hother]
        rw [hsame] at hrest hcount
        show value ∈ ((s.call (.add other)).after rest).items
        rw [hsame]
        exact ih h hmem hplace hnot.2 hrest (by omega)
      · have hadds : s.adds (.add other) = true := h.adds_iff.2 hother
        rw [hadds, Bool.toNat_true] at hcount
        have hfirst : ∀ first later, s.order = first :: later →
            (s.order.length : Int) = s.limit → first ≠ value := by
          rintro first later horder hfull rfl
          have hgone := hhere hother first later horder hfull (Finset.mem_insert_of_mem hmem)
          obtain ⟨front, back, hsplit, -, hbehind⟩ := hplace
          rw [horder] at hsplit hfull
          rw [List.length_cons] at hfull
          cases front with
          | nil =>
            obtain ⟨-, rfl⟩ := List.cons.inj hsplit
            omega
          | cons head front =>
            obtain ⟨-, rfl⟩ := List.cons.inj hsplit
            exact hgone (List.mem_append_left _ (List.mem_append_right _ List.mem_cons_self))
        obtain ⟨hmem', hplace'⟩ := mem_add h hmem hplace hother hfirst
        exact ih (h.call _) hmem' hplace' hnot.2 hrest (by
          rw [limit_call]
          omega)

/-! ## Values have been added -/

/-- A value of the set was added by one of the calls, was not discarded since, and as many values were
    added since as stand behind its newest place in the queue. -/
theorem exists_add (h : 0 ≤ limit) (hmem : value ∈ ((new limit).after calls).items) :
    ∃ before later behind, calls = before ++ .add value :: later ∧
      ((new limit).after before).adds (.add value) = true ∧ .discard value ∉ later ∧
      NewestPlace ((new limit).after calls).order value behind ∧
      ((new limit).after (before ++ [.add value])).countAdds later = behind := by
  induction calls using List.reverseRecOn with
  | nil => exact absurd hmem (Finset.notMem_empty _)
  | append_singleton calls c ih =>
    have hqueued : ((new limit).after calls).Queued := (Queued.new h).after calls
    have hlast : (new limit).after (calls ++ [c]) = ((new limit).after calls).call c := after_append _ _
    -- The value was there before the call, and the call leaves it with its place.
    have hold : ∀ more : Nat, (((new limit).after calls).adds c).toNat = more → c ≠ .discard value →
        value ∈ ((new limit).after calls).items →
        (∀ behind, NewestPlace ((new limit).after calls).order value behind →
          NewestPlace ((new limit).after (calls ++ [c])).order value (behind + more)) →
        ∃ before later behind, calls ++ [c] = before ++ .add value :: later ∧
          ((new limit).after before).adds (.add value) = true ∧ .discard value ∉ later ∧
          NewestPlace ((new limit).after (calls ++ [c])).order value behind ∧
          ((new limit).after (before ++ [.add value])).countAdds later = behind := by
      intro more hmore hc hvalue hplace
      obtain ⟨before, later, behind, rfl, hadds, hnot, hnewest, hcount⟩ := ih hvalue
      refine ⟨before, later ++ [c], behind + more, ?_, hadds, ?_, hplace behind hnewest, ?_⟩
      · rw [List.append_assoc, List.cons_append]
      · rw [List.mem_append, List.mem_singleton]
        exact fun hin => hin.elim hnot fun heq => hc heq.symm
      · have hstate : ((new limit).after (before ++ [.add value])).after later
            = (new limit).after (before ++ .add value :: later) := by
          rw [← after_append, List.append_assoc]
          rfl
        rw [countAdds_append, hcount, hstate, ← hmore]
        rfl
    rw [hlast] at hmem
    cases c with
    | discard other =>
      obtain ⟨hne, hvalue⟩ := Finset.mem_erase.1 hmem
      refine hold 0 rfl (fun heq => hne (Call.discard.inj heq).symm) hvalue fun behind hplace => ?_
      rw [hlast]
      exact hplace
    | add other =>
      by_cases hother : other ∈ ((new limit).after calls).items
      · have hsame : ((new limit).after calls).call (.add other) = (new limit).after calls := by
          show (((new limit).after calls).add other).2 = _
          rw [add, if_pos hother]
        have hadds : ((new limit).after calls).adds (.add other) = false :=
          Bool.eq_false_iff.2 fun htrue => hqueued.adds_iff.1 htrue hother
        rw [hsame] at hmem
        refine hold 0 (by rw [hadds]; rfl) (fun heq => nomatch heq) hmem fun behind hplace => ?_
        rw [hlast, hsame]
        exact hplace
      · have hadds : ((new limit).after calls).adds (.add other) = true := hqueued.adds_iff.2 hother
        by_cases hvalue : value ∈ ((new limit).after calls).items
        · refine hold 1 (by rw [hadds]; rfl) (fun heq => nomatch heq) hvalue fun behind hplace => ?_
          rw [hlast]
          refine (mem_add hqueued hvalue hplace hother ?_).2
          -- A place that is lost would have taken the value with it.
          rintro first rest horder hfull rfl
          refine absurd hmem ?_
          show first ∉ (((new limit).after calls).add other).2.items
          rcases add_cases hqueued other with ⟨hin, -⟩ | ⟨-, hroom, -⟩ | ⟨-, first', rest', hqueue, -, heq⟩
          · exact absurd hin hother
          · omega
          · rw [horder, List.cons_append, List.cons.injEq] at hqueue
            rw [heq, hqueue.1]
            exact Finset.notMem_erase _ _
        · -- The value is the one that was just added.
          have hnew : value = other ∧ NewestPlace ((new limit).after (calls ++ [.add other])).order value 0 := by
            rw [hlast]
            rcases add_cases hqueued other with ⟨hin, -⟩ | ⟨-, -, heq⟩ | ⟨-, first, rest, hqueue, -, heq⟩
            · exact absurd hin hother
            · have hmem' : value ∈ (((new limit).after calls).add other).2.items := hmem
              rw [heq] at hmem'
              obtain rfl := (Finset.mem_insert.1 hmem').resolve_right hvalue
              refine ⟨rfl, ?_⟩
              show NewestPlace (((new limit).after calls).add value).2.order value 0
              rw [heq]
              exact newestPlace_concat _ _
            · have hmem' : value ∈ (((new limit).after calls).add other).2.items := hmem
              rw [heq] at hmem'
              obtain ⟨hne, hin⟩ := Finset.mem_erase.1 hmem'
              obtain rfl := (Finset.mem_insert.1 hin).resolve_right hvalue
              refine ⟨rfl, ?_⟩
              show NewestPlace (((new limit).after calls).add value).2.order value 0
              rw [heq]
              cases horder : ((new limit).after calls).order with
              | nil =>
                rw [horder, List.nil_append, List.cons.injEq] at hqueue
                exact absurd hqueue.1 hne
              | cons head tail =>
                rw [horder, List.cons_append, List.cons.injEq] at hqueue
                rw [← hqueue.2]
                exact newestPlace_concat _ _
          obtain ⟨rfl, hplace⟩ := hnew
          exact ⟨calls, [], 0, rfl, hadds, List.not_mem_nil, hplace, rfl⟩

/-! ## The promise -/

/-- **A seen-set keeps its promise exactly where no add drops a value that is queued again.** -/
theorem remembers_iff (limit : Int) (calls : List (Call α)) :
    Remembers limit calls ↔ 0 ≤ limit ∧
      ∀ before c, before ++ [c] <+: calls → ((new limit).after before).DropsNoNewer c := by
  constructor
  · intro h
    have hlimit : 0 ≤ limit := h.bounded [] List.nil_prefix
    refine ⟨hlimit, fun before c hprefix => ?_⟩
    cases c with
    | discard other => trivial
    | add value =>
      intro hvalue first rest horder hfull hfirst hagain
      have hqueued : ((new limit).after before).Queued := (Queued.new hlimit).after before
      have hadds : ((new limit).after before).adds (.add value) = true := hqueued.adds_iff.2 hvalue
      rw [limit_after] at hfull
      have hfull' : (((new limit).after before).order.length : Int) = limit := hfull
      -- The add drops the first value.
      have hgone : first ∉ ((new limit).after (before ++ [.add value])).items := by
        rw [after_append]
        show first ∉ (((new limit).after before).add value).2.items
        rcases add_cases hqueued value with ⟨hin, -⟩ | ⟨-, hroom, -⟩ | ⟨-, first', rest', hqueue, -, heq⟩
        · exact absurd hin hvalue
        · rw [limit_after, hfull'] at hroom
          exact absurd hroom (lt_irrefl limit)
        · rw [horder, List.cons_append, List.cons.injEq] at hqueue
          rw [heq, hqueue.1]
          exact Finset.notMem_erase _ _
      rw [horder, List.length_cons] at hfull'
      rcases Finset.mem_insert.1 hfirst with rfl | hin
      · refine hgone (h.kept before first [] hprefix hadds List.not_mem_nil ?_)
        show ((0 : Nat) : Int) < limit
        omega
      · obtain ⟨earlier, later, behind, rfl, hadded, hnot, hplace, hcount⟩ := exists_add hlimit hin
        obtain ⟨front, back, hsplit, hback, rfl⟩ := hplace
        have hne : first ≠ value := fun heq => hvalue (heq ▸ hin)
        have hrest : first ∈ rest := by
          rw [List.mem_append, List.mem_singleton] at hagain
          exact hagain.resolve_right hne
        -- Its newest place is behind the one that it loses.
        have hfront : front ≠ [] := by
          rintro rfl
          rw [horder, List.nil_append, List.cons.injEq] at hsplit
          exact hback (hsplit.2 ▸ hrest)
        have hlength : rest.length + 1 = front.length + (back.length + 1) := by
          have := congrArg List.length (horder.symm.trans hsplit)
          rwa [List.length_cons, List.length_append, List.length_cons] at this
        have hpos : 0 < front.length := List.length_pos_of_ne_nil hfront
        have hsame : (earlier ++ .add first :: later) ++ [.add value]
            = earlier ++ .add first :: (later ++ [.add value]) := by
          rw [List.append_assoc, List.cons_append]
        rw [hsame] at hgone hprefix
        refine hgone (h.kept earlier first (later ++ [.add value]) hprefix hadded ?_ ?_)
        · rw [List.mem_append, List.mem_singleton]
          exact fun hmem => hmem.elim hnot fun heq => nomatch heq
        · have hstate : ((new limit).after (earlier ++ [.add first])).after later
              = (new limit).after (earlier ++ .add first :: later) := by
            rw [← after_append, List.append_assoc]
            rfl
          have hlast : ((new limit).after (earlier ++ .add first :: later)).countAdds [.add value] = 1 := by
            rw [countAdds, hadds]
            rfl
          rw [countAdds_append, hcount, hstate, hlast]
          omega
  · rintro ⟨hlimit, hdrops⟩
    have hqueued : ∀ done, ((new limit : BoundedSeenSet α).after done).Queued :=
      fun done => (Queued.new hlimit).after done
    refine ⟨fun done _ => ?_, fun done value _ => (hqueued done).add_answer value, ?_⟩
    · have hcard := (hqueued done).card_le
      rwa [limit_after] at hcard
    · intro before value later hprefix hadds hnot hcount
      have hsplit : (new limit).after (before ++ .add value :: later)
          = ((new limit).after (before ++ [.add value])).after later := by
        rw [← after_append, List.append_assoc]
        rfl
      rw [hsplit]
      have hvalue : value ∉ ((new limit).after before).items := (hqueued before).adds_iff.1 hadds
      have hadd : (new limit).after (before ++ [.add value])
          = (((new limit).after before).add value).2 := after_append _ _
      have hplaced : value ∈ ((new limit).after (before ++ [.add value])).items ∧
          NewestPlace ((new limit).after (before ++ [.add value])).order value 0 := by
        rw [hadd]
        rcases add_cases (hqueued before) value with
          ⟨hin, -⟩ | ⟨-, -, heq⟩ | ⟨-, first, rest, hqueue, hrest, heq⟩
        · exact absurd hin hvalue
        · rw [heq]
          exact ⟨Finset.mem_insert_self _ _, newestPlace_concat _ _⟩
        · rw [heq]
          rw [limit_after] at hrest
          have hpos : 0 < limit := lt_of_le_of_lt (Int.natCast_nonneg _) hcount
          cases horder : ((new limit).after before).order with
          | nil =>
            rw [horder, List.nil_append, List.cons.injEq] at hqueue
            rw [← hqueue.2] at hrest
            exact absurd hrest.symm (ne_of_gt hpos)
          | cons head tail =>
            have hhere := hdrops before (.add value) (List.IsPrefix.trans
              ⟨later, by rw [List.append_assoc]; rfl⟩ hprefix) hvalue head tail horder
            rw [horder, List.cons_append, List.cons.injEq] at hqueue
            obtain ⟨rfl, rfl⟩ := hqueue
            refine ⟨Finset.mem_erase.2 ⟨?_, Finset.mem_insert_self _ _⟩, newestPlace_concat _ _⟩
            rintro rfl
            refine hhere ?_ (Finset.mem_insert_self _ _) (List.mem_append_right _ List.mem_cons_self)
            rw [horder, limit_after]
            rw [List.length_append, List.length_singleton] at hrest
            exact hrest
      refine mem_after (hqueued _) hplaced.1 hplaced.2 hnot (fun before' c hprefix' => ?_) ?_
      · rw [← after_append]
        refine hdrops _ c (List.IsPrefix.trans ?_ hprefix)
        obtain ⟨rest, hrest⟩ := hprefix'
        exact ⟨rest, by rw [← hrest]; simp⟩
      · rw [limit_after, Nat.zero_add]
        exact hcount

/-- **A value that was discarded and added again is forgotten at once.** -/
theorem not_remembers :
    ¬ Remembers 2 [Call.add 0, Call.discard 0, Call.add 1, Call.add (0 : Nat)] := by
  intro h
  have hkept := h.kept [.add 0, .discard 0, .add 1] 0 [] (List.prefix_refl _) (by decide) List.not_mem_nil
    (by decide)
  exact absurd hkept (by decide)

end BoundedSeenSet
