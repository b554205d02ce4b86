import InternationalDollar.WireJson
import InternationalDollar.MirroredBundles
import Mathlib.Data.Finset.Card

set_option autoImplicit false

/-! # The pool of messages to broadcast (`node_client`)

`GossipPool` queues messages, each once. Urgent evidence goes to the front and takes its room from the
end, other messages go to the end and take theirs from the front. So an ordinary message pushes out
evidence before any other ordinary message. `sound_iff` says in which runs that does not happen. -/

/-- An entry of the pool. The type of the message and the time of its last broadcast are left out. -/
structure GossipEntry where
  raw : String
  hash : String
  priority : Nat
deriving DecidableEq

/-- `GossipPool`. -/
structure GossipPool where
  limit : Int
  items : List GossipEntry
  seen : Finset String

namespace GossipPool

/-- `GossipPool(limit=limit)`. -/
def new (limit : Int) : GossipPool := ⟨limit, [], ∅⟩

/-- The hash that `_meta_for_raw` gives a payload: that of the message, or of the text where it is none. -/
def metaForRaw (crypto : Crypto) (inflate : Bytes → Option Bytes) (raw : String) : String :=
  match WireJson.unpackedJson inflate raw with
  | .ok (.obj members) =>
      match sha3Json crypto (.obj members) with
      | .ok hash => hash
      | .error _ => crypto.sha3Hex (Text.utf8 raw)
  | _ => crypto.sha3Hex (Text.utf8 raw)

section Methods

variable (crypto : Crypto) (inflate : Bytes → Option Bytes)

/-- `_key_for_entry`. -/
def keyForEntry (entry : GossipEntry) : String :=
  if entry.hash ≠ "" then entry.hash else metaForRaw crypto inflate entry.raw

/-- `_entry_for_raw`. -/
def entryForRaw (raw : String) (highPriority : Bool) : GossipEntry where
  raw := raw
  hash := metaForRaw crypto inflate raw
  priority := if highPriority then 1 else 0

/-- `_drop_entry_key`, for an entry that was taken out of the queue. -/
def dropEntryKey (removed : GossipEntry) (items : List GossipEntry) (p : GossipPool) : GossipPool :=
  { p with items := items, seen := p.seen.erase (keyForEntry crypto inflate removed) }

/-- `items.pop()` or `items.pop(0)`. -/
def popped (highPriority : Bool) (items : List GossipEntry) : Option (GossipEntry × List GossipEntry) :=
  if highPriority then items.getLast?.map fun removed => (removed, items.dropLast)
  else
    match items with
    | [] => none
    | removed :: rest => some (removed, rest)

/-- `int(limit or self.limit)`. -/
def limitOr (p : GossipPool) : Option Int → Int
  | none => p.limit
  | some limit => if limit = 0 then p.limit else limit

/-- The loop of `_trim_locked`, with the number of entries as fuel. -/
def trimLoop (highPriority : Bool) (limit : Int) : Nat → GossipPool → Except String Unit × GossipPool
  | 0, p => (if p.items.length > limit then .error "pop from empty list" else .ok (), p)
  | n + 1, p =>
      if p.items.length > limit then
        match popped highPriority p.items with
        | none => (.error "pop from empty list", p)
        | some (removed, rest) => trimLoop highPriority limit n (p.dropEntryKey crypto inflate removed rest)
      else (.ok (), p)

/-- `_trim_locked`. -/
def trimLocked (highPriority : Bool) (limit : Option Int) (p : GossipPool) :
    Except String Unit × GossipPool :=
  trimLoop crypto inflate highPriority (p.limitOr limit) p.items.length p

/-- The pool with a new entry at the front or at the end. -/
def insertEntry (entry : GossipEntry) (highPriority : Bool) (p : GossipPool) : GossipPool :=
  { p with
    items := if highPriority then entry :: p.items else p.items ++ [entry]
    seen := insert entry.hash p.seen }

/-- `add`. -/
def add (raw : String) (highPriority : Bool) (limit : Option Int) (p : GossipPool) :
    Except String Bool × GossipPool :=
  let entry := entryForRaw crypto inflate raw highPriority
  if entry.hash ∈ p.seen then (.ok false, p)
  else
    match trimLocked crypto inflate highPriority limit (p.insertEntry entry highPriority) with
    | (.ok (), q) => (.ok true, q)
    | (.error e, q) => (.error e, q)

/-- `trim`. -/
def trim (limit : Option Int) (p : GossipPool) : Except String Unit × GossipPool :=
  trimLocked crypto inflate false limit p

/-! ## Runs -/

/-- A call of one of the two methods. -/
inductive Call where
  | add (raw : String) (highPriority : Bool) (limit : Option Int)
  | trim (limit : Option Int)

/-- The pool after a call. -/
def call (p : GossipPool) : Call → GossipPool
  | .add raw highPriority limit => (p.add crypto inflate raw highPriority limit).2
  | .trim limit => (p.trim crypto inflate limit).2

/-- The pool after some calls. -/
def after (p : GossipPool) (calls : List Call) : GossipPool :=
  calls.foldl (call crypto inflate) p

/-- The limit that is in force after a call: one that finds its message queued applies none. -/
def limitAfter (p : GossipPool) (current : Int) : Call → Int
  | .add raw _ limit => if metaForRaw crypto inflate raw ∈ p.seen then current else p.limitOr limit
  | .trim limit => p.limitOr limit

/-- The limit that is in force after some calls. -/
def inForce (p : GossipPool) (current : Int) : List Call → Int
  | [] => current
  | c :: rest => (p.call crypto inflate c).inForce (p.limitAfter crypto inflate current c) rest

/-- The entries that the loop of `_trim_locked` takes out, each with the queue that it was in. -/
def loopEvictions (highPriority : Bool) (limit : Int) :
    Nat → GossipPool → List (GossipEntry × List GossipEntry)
  | 0, _ => []
  | n + 1, p =>
      if p.items.length > limit then
        match popped highPriority p.items with
        | none => []
        | some (removed, rest) =>
            (removed, p.items) ::
              loopEvictions highPriority limit n (p.dropEntryKey crypto inflate removed rest)
      else []

/-- The entries that a call evicts, each with the queue that it was in. -/
def evictions (p : GossipPool) : Call → List (GossipEntry × List GossipEntry)
  | .add raw highPriority limit =>
      let entry := entryForRaw crypto inflate raw highPriority
      let q := p.insertEntry entry highPriority
      if entry.hash ∈ p.seen then []
      else loopEvictions crypto inflate highPriority (q.limitOr limit) q.items.length q
  | .trim limit => loopEvictions crypto inflate false (p.limitOr limit) p.items.length p

/-- An eviction spares urgent entries while another entry is queued. -/
def SparesUrgent (eviction : GossipEntry × List GossipEntry) : Prop :=
  eviction.1.priority = 1 → ∀ entry ∈ eviction.2, entry.priority = 1

/-- What a pool with a limit of its own promises for some calls. -/
structure Sound (limit : Int) (calls : List Call) : Prop where
  /-- The keys of `seen` are the hashes of the queued entries. -/
  keys : ∀ done, done <+: calls → ((new limit).after crypto inflate done).seen
    = (((new limit).after crypto inflate done).items.map GossipEntry.hash).toFinset
  /-- No two entries have one hash. -/
  distinct : ∀ done, done <+: calls →
    (((new limit).after crypto inflate done).items.map GossipEntry.hash).Nodup
  /-- The size does not exceed the limit in force. -/
  bounded : ∀ done, done <+: calls → (((new limit).after crypto inflate done).items.length : Int)
    ≤ (new limit).inForce crypto inflate limit done
  /-- Urgent entries are evicted only from a queue of urgent entries. -/
  urgent : ∀ done c, done ++ [c] <+: calls →
    ∀ eviction ∈ ((new limit).after crypto inflate done).evictions crypto inflate c, SparesUrgent eviction

/-- A call applies no negative limit, and an ordinary one evicts nothing while urgent entries and others
    are queued. -/
def Spares (p : GossipPool) : Call → Prop
  | .add raw highPriority limit => metaForRaw crypto inflate raw ∉ p.seen → 0 ≤ p.limitOr limit ∧
      (highPriority = true ∨ ((p.items.length + 1 : Nat) : Int) ≤ p.limitOr limit ∨
        ∀ entry ∈ p.items, entry.priority = 0)
  | .trim limit => 0 ≤ p.limitOr limit ∧ ((p.items.length : Int) ≤ p.limitOr limit ∨
      (∀ entry ∈ p.items, entry.priority = 0) ∨ ∀ entry ∈ p.items, entry.priority = 1)

end Methods

variable {crypto : Crypto} {inflate : Bytes → Option Bytes} {p : GossipPool} {limit : Int}

/-! ## The queue -/

/-- What holds of the queue after any calls: urgent entries stand before the others. -/
structure Ordered (p : GossipPool) : Prop where
  keys : p.seen = (p.items.map GossipEntry.hash).toFinset
  distinct : (p.items.map GossipEntry.hash).Nodup
  hashed : ∀ entry ∈ p.items, entry.hash ≠ ""
  priorities : ∀ entry ∈ p.items, entry.priority ≤ 1
  sorted : p.items.Pairwise fun a b => b.priority ≤ a.priority

theorem metaForRaw_ne_empty (crypto : Crypto) (inflate : Bytes → Option Bytes) (raw : String) :
    metaForRaw crypto inflate raw ≠ "" := by
  have hhash : ∀ data, crypto.sha3Hex data ≠ "" := fun data => (crypto.isHex32_sha3Hex data).ne_empty
  unfold metaForRaw
  split
  · split
    · next hash heq =>
      obtain ⟨bytes, -, hbytes⟩ := Check.bind_eq_ok.1 heq
      cases hbytes
      exact hhash bytes
    · exact hhash _
  · exact hhash _

/-- What is taken out of the queue stands first or last in it. -/
theorem popped_eq {highPriority : Bool} {items rest : List GossipEntry} {removed : GossipEntry}
    (h : popped highPriority items = some (removed, rest)) :
    (highPriority = true ∧ items = rest ++ [removed]) ∨ (highPriority = false ∧ items = removed :: rest) := by
  unfold popped at h
  cases highPriority with
  | true =>
    obtain ⟨last, hlast, heq⟩ := Option.map_eq_some_iff.1 ((if_pos rfl).symm.trans h)
    obtain ⟨rfl, rfl⟩ := Prod.mk.inj heq
    refine .inl ⟨rfl, ?_⟩
    obtain ⟨init, rfl⟩ := List.getLast?_eq_some_iff.1 hlast
    rw [List.dropLast_concat]
  | false =>
    cases items with
    | nil => exact nomatch h
    | cons first later =>
      cases h
      exact .inr ⟨rfl, rfl⟩

theorem exists_popped {highPriority : Bool} {items : List GossipEntry} (h : items ≠ []) :
    ∃ removed rest, popped highPriority items = some (removed, rest) := by
  cases highPriority with
  | true => exact ⟨items.getLast h, items.dropLast, by simp [popped, List.getLast?_eq_some_getLast h]⟩
  | false =>
    cases items with
    | nil => exact absurd rfl h
    | cons first later => exact ⟨first, later, rfl⟩

theorem Ordered.pop (h : p.Ordered) {highPriority : Bool} {removed : GossipEntry}
    {rest : List GossipEntry} (hpop : popped highPriority p.items = some (removed, rest)) :
    (p.dropEntryKey crypto inflate removed rest).Ordered := by
  have hmem : removed ∈ p.items ∧ rest.Sublist p.items ∧
      (p.items.map GossipEntry.hash).Perm (removed.hash :: rest.map GossipEntry.hash) := by
    rcases popped_eq hpop with ⟨-, heq⟩ | ⟨-, heq⟩
    · rw [heq, List.map_append, List.map_singleton]
      exact ⟨List.mem_append_right _ List.mem_cons_self, List.sublist_append_left _ _,
        List.perm_append_singleton _ _⟩
    · rw [heq]
      exact ⟨List.mem_cons_self, List.sublist_cons_self _ _, List.Perm.refl _⟩
  obtain ⟨hin, hsub, hperm⟩ := hmem
  have hnodup : (removed.hash :: rest.map GossipEntry.hash).Nodup := hperm.nodup_iff.1 h.distinct
  obtain ⟨hnot, hrest⟩ := List.nodup_cons.1 hnodup
  refine ⟨?_, hrest, fun e he => h.hashed e (hsub.subset he), fun e he => h.priorities e (hsub.subset he),
    h.sorted.sublist hsub⟩
  show p.seen.erase (keyForEntry crypto inflate removed) = _
  rw [keyForEntry, if_pos (h.hashed removed hin), h.keys, List.toFinset_eq_of_perm _ _ hperm,
    List.toFinset_cons, Finset.erase_insert (fun hmem => hnot (List.mem_toFinset.1 hmem))]
  rfl

theorem Ordered.trimLoop (h : p.Ordered) (highPriority : Bool) (n : Nat) :
    (trimLoop crypto inflate highPriority limit n p).2.Ordered := by
  induction n generalizing p with
  | zero => exact h
  | succ n ih =>
    unfold GossipPool.trimLoop
    by_cases hover : (p.items.length : Int) > limit
    · rw [if_pos hover]
      cases hpop : popped highPriority p.items with
      | none => exact h
      | some taken => exact ih (h.pop hpop)
    · rw [if_neg hover]
      exact h

theorem length_pop {highPriority : Bool} {items rest : List GossipEntry} {removed : GossipEntry}
    (h : popped highPriority items = some (removed, rest)) : items.length = rest.length + 1 := by
  rcases popped_eq h with ⟨-, rfl⟩ | ⟨-, rfl⟩
  · rw [List.length_append, List.length_singleton]
  · rw [List.length_cons]

/-- The loop ends within a limit that is not negative. -/
theorem length_trimLoop (hlimit : 0 ≤ limit) (highPriority : Bool) {n : Nat} (hn : p.items.length ≤ n) :
    ((trimLoop crypto inflate highPriority limit n p).2.items.length : Int) ≤ limit := by
  induction n generalizing p with
  | zero =>
    show (p.items.length : Int) ≤ limit
    omega
  | succ n ih =>
    unfold GossipPool.trimLoop
    by_cases hover : (p.items.length : Int) > limit
    · rw [if_pos hover]
      have hne : p.items ≠ [] := by
        intro hnil
        rw [hnil] at hover
        exact absurd hover (not_lt.2 hlimit)
      obtain ⟨removed, rest, hpop⟩ := exists_popped hne
      rw [hpop]
      refine ih ?_
      have hlength := length_pop hpop
      show rest.length ≤ n
      omega
    · rw [if_neg hover]
      exact not_lt.1 hover

theorem Ordered.new (limit : Int) : (new limit).Ordered where
  keys := rfl
  distinct := List.nodup_nil
  hashed := fun _ he => nomatch he
  priorities := fun _ he => nomatch he
  sorted := List.Pairwise.nil

@[simp] theorem hash_entryForRaw (raw : String) (highPriority : Bool) :
    (entryForRaw crypto inflate raw highPriority).hash = metaForRaw crypto inflate raw := by
  rw [entryForRaw]

theorem Ordered.insertEntry (h : p.Ordered) {raw : String} (highPriority : Bool)
    (hnew : metaForRaw crypto inflate raw ∉ p.seen) :
    (p.insertEntry (entryForRaw crypto inflate raw highPriority) highPriority).Ordered := by
  have hnot : (entryForRaw crypto inflate raw highPriority).hash ∉ p.items.map GossipEntry.hash := by
    rwa [hash_entryForRaw, ← List.mem_toFinset, ← h.keys]
  have hhash : (entryForRaw crypto inflate raw highPriority).hash ≠ "" := by
    rw [hash_entryForRaw]
    exact metaForRaw_ne_empty crypto inflate raw
  cases highPriority with
  | true =>
    refine ⟨?_, List.nodup_cons.2 ⟨hnot, h.distinct⟩, List.forall_mem_cons.2 ⟨hhash, h.hashed⟩,
      List.forall_mem_cons.2 ⟨le_rfl, h.priorities⟩, List.pairwise_cons.2 ⟨h.priorities, h.sorted⟩⟩
    show insert _ p.seen = _
    rw [h.keys]
    exact (List.toFinset_cons).symm
  | false =>
    have hmem : ∀ e, e ∈ p.items ++ [entryForRaw crypto inflate raw false] ↔
        e ∈ p.items ∨ e = entryForRaw crypto inflate raw false := by
      intro e
      rw [List.mem_append, List.mem_singleton]
    refine ⟨?_, ?_, fun e he => ?_, fun e he => ?_, ?_⟩
    · show insert _ p.seen = ((p.items ++ [entryForRaw crypto inflate raw false]).map _).toFinset
      rw [List.map_append, List.map_singleton, List.toFinset_append, h.keys, List.toFinset_cons,
        List.toFinset_nil, Finset.union_comm]
      rfl
    · show ((p.items ++ [entryForRaw crypto inflate raw false]).map GossipEntry.hash).Nodup
      rw [List.map_append, List.map_singleton, List.nodup_append_comm, List.singleton_append]
      exact List.nodup_cons.2 ⟨hnot, h.distinct⟩
    · rcases (hmem e).1 he with hold | rfl
      · exact h.hashed e hold
      · exact hhash
    · rcases (hmem e).1 he with hold | rfl
      · exact h.priorities e hold
      · exact Nat.zero_le _
    · show (p.items ++ [entryForRaw crypto inflate raw false]).Pairwise _
      rw [List.pairwise_append]
      refine ⟨h.sorted, List.pairwise_singleton _ _, fun a _ b hb => ?_⟩
      rw [List.mem_singleton.1 hb]
      exact Nat.zero_le _

theorem add_snd {raw : String} {highPriority : Bool} {own : Option Int}
    (hnew : metaForRaw crypto inflate raw ∉ p.seen) :
    (p.add crypto inflate raw highPriority own).2 = (trimLocked crypto inflate highPriority own
      (p.insertEntry (entryForRaw crypto inflate raw highPriority) highPriority)).2 := by
  simp only [GossipPool.add, hash_entryForRaw, if_neg hnew]
  rcases trimLocked crypto inflate highPriority own
    (p.insertEntry (entryForRaw crypto inflate raw highPriority) highPriority) with ⟨answer, q⟩
  cases answer with
  | ok u => rfl
  | error e => rfl

theorem add_of_mem {raw : String} {highPriority : Bool} {own : Option Int}
    (hseen : metaForRaw crypto inflate raw ∈ p.seen) :
    (p.add crypto inflate raw highPriority own).2 = p := by
  simp only [GossipPool.add, hash_entryForRaw, if_pos hseen]

theorem Ordered.call (h : p.Ordered) (c : Call) : (p.call crypto inflate c).Ordered := by
  cases c with
  | trim own => exact h.trimLoop false _
  | add raw highPriority own =>
    show (p.add crypto inflate raw highPriority own).2.Ordered
    by_cases hseen : metaForRaw crypto inflate raw ∈ p.seen
    · rw [add_of_mem hseen]
      exact h
    · rw [add_snd hseen]
      exact (h.insertEntry highPriority hseen).trimLoop highPriority _

theorem Ordered.after (h : p.Ordered) (calls : List Call) : (p.after crypto inflate calls).Ordered := by
  induction calls generalizing p with
  | nil => exact h
  | cons c rest ih => exact ih (h.call c)

/-! ## The limit -/

@[simp] theorem limit_trimLoop (highPriority : Bool) (n : Nat) :
    (trimLoop crypto inflate highPriority limit n p).2.limit = p.limit := by
  induction n generalizing p with
  | zero => rfl
  | succ n ih =>
    unfold GossipPool.trimLoop
    by_cases hover : (p.items.length : Int) > limit
    · rw [if_pos hover]
      cases hpop : popped highPriority p.items with
      | none => rfl
      | some taken => exact ih
    · rw [if_neg hover]

theorem limit_call (c : Call) : (p.call crypto inflate c).limit = p.limit := by
  cases c with
  | trim own => exact limit_trimLoop false _
  | add raw highPriority own =>
    show (p.add crypto inflate raw highPriority own).2.limit = p.limit
    by_cases hseen : metaForRaw crypto inflate raw ∈ p.seen
    · rw [add_of_mem hseen]
    · rw [add_snd hseen]
      exact limit_trimLoop highPriority _

theorem limit_after (calls : List Call) : (p.after crypto inflate calls).limit = p.limit := by
  induction calls generalizing p with
  | nil => rfl
  | cons c rest ih => exact ih.trans (limit_call c)

theorem after_concat (calls : List Call) (c : Call) :
    p.after crypto inflate (calls ++ [c]) = (p.after crypto inflate calls).call crypto inflate c :=
  List.foldl_append

theorem inForce_concat (current : Int) (calls : List Call) (c : Call) :
    p.inForce crypto inflate current (calls ++ [c])
      = (p.after crypto inflate calls).limitAfter crypto inflate (p.inForce crypto inflate current calls) c := by
  induction calls generalizing p current with
  | nil => rfl
  | cons first rest ih => exact ih _

/-- An add without a limit of its own applies that of the pool. -/
theorem limitAfter_none (raw : String) (highPriority : Bool) :
    p.limitAfter crypto inflate p.limit (.add raw highPriority none) = p.limit :=
  ite_self _

/-- A call keeps the size within the limit in force, if it applies no negative one. -/
theorem length_call {current : Int} {c : Call} (hspares : p.Spares crypto inflate c)
    (hlength : (p.items.length : Int) ≤ current) :
    ((p.call crypto inflate c).items.length : Int) ≤ p.limitAfter crypto inflate current c := by
  cases c with
  | trim own => exact length_trimLoop hspares.1 false le_rfl
  | add raw highPriority own =>
    show ((p.add crypto inflate raw highPriority own).2.items.length : Int) ≤ if _ then _ else _
    by_cases hseen : metaForRaw crypto inflate raw ∈ p.seen
    · rw [add_of_mem hseen, if_pos hseen]
      exact hlength
    · rw [add_snd hseen, if_neg hseen]
      exact length_trimLoop (hspares hseen).1 highPriority le_rfl

/-! ## Evictions -/

theorem loopEvictions_of_le {highPriority : Bool} {n : Nat} (h : (p.items.length : Int) ≤ limit) :
    loopEvictions crypto inflate highPriority limit n p = [] := by
  cases n with
  | zero => rfl
  | succ n => rw [loopEvictions, if_neg (not_lt.2 h)]

/-- What takes its room from the end evicts urgent entries last. -/
theorem sparesUrgent_of_end (h : p.Ordered) {n : Nat} :
    ∀ eviction ∈ loopEvictions crypto inflate true limit n p, SparesUrgent eviction := by
  induction n generalizing p with
  | zero => exact fun _ hmem => nomatch hmem
  | succ n ih =>
    unfold loopEvictions
    by_cases hover : (p.items.length : Int) > limit
    · rw [if_pos hover]
      cases hpop : popped true p.items with
      | none => exact fun _ hmem => nomatch hmem
      | some taken =>
        obtain ⟨removed, rest⟩ := taken
        refine List.forall_mem_cons.2 ⟨fun hurgent entry hentry => ?_, ih (h.pop hpop)⟩
        rcases popped_eq hpop with ⟨-, heq⟩ | ⟨hfalse, -⟩
        · have hsorted := h.sorted
          have hle := h.priorities entry hentry
          rw [heq, List.pairwise_append] at hsorted
          rw [heq, List.mem_append, List.mem_singleton] at hentry
          rcases hentry with hin | rfl
          · have hbefore := hsorted.2.2 entry hin removed List.mem_cons_self
            have hone : removed.priority = 1 := hurgent
            omega
          · exact hurgent
        · exact absurd hfalse (by decide)
    · rw [if_neg hover]
      exact fun _ hmem => nomatch hmem

/-- Nothing is lost before its time in a queue whose entries all have one priority. -/
theorem sparesUrgent_of_uniform {priority : Nat} {highPriority : Bool} {n : Nat}
    (h : ∀ entry ∈ p.items, entry.priority = priority) :
    ∀ eviction ∈ loopEvictions crypto inflate highPriority limit n p, SparesUrgent eviction := by
  induction n generalizing p with
  | zero => exact fun _ hmem => nomatch hmem
  | succ n ih =>
    unfold loopEvictions
    by_cases hover : (p.items.length : Int) > limit
    · rw [if_pos hover]
      cases hpop : popped highPriority p.items with
      | none => exact fun _ hmem => nomatch hmem
      | some taken =>
        obtain ⟨removed, rest⟩ := taken
        have hmem : removed ∈ p.items ∧ rest ⊆ p.items := by
          rcases popped_eq hpop with ⟨-, heq⟩ | ⟨-, heq⟩
          · rw [heq]
            exact ⟨List.mem_append_right _ List.mem_cons_self, List.subset_append_left _ _⟩
          · rw [heq]
            exact ⟨List.mem_cons_self, List.subset_cons_self _ _⟩
        refine List.forall_mem_cons.2 ⟨fun hurgent entry hentry => ?_, ih fun e he => h e (hmem.2 he)⟩
        have hone : removed.priority = 1 := hurgent
        rw [h entry hentry, ← h removed hmem.1, hone]
    · rw [if_neg hover]
      exact fun _ hmem => nomatch hmem

/-- What takes its room from the front evicts an urgent entry first. -/
theorem not_sparesUrgent (h : p.Ordered) (hover : (p.items.length : Int) > limit)
    {urgent other : GossipEntry} (hurgent : urgent ∈ p.items) (hother : other ∈ p.items)
    (hone : urgent.priority = 1) (hzero : other.priority ≠ 1) :
    ¬ ∀ eviction ∈ loopEvictions crypto inflate false limit p.items.length p, SparesUrgent eviction := by
  intro hspares
  cases hitems : p.items with
  | nil =>
    rw [hitems] at hurgent
    exact absurd hurgent List.not_mem_nil
  | cons first rest =>
    have hpop : popped false p.items = some (first, rest) := by
      rw [hitems]
      rfl
    have hevicted : (first, p.items) ∈ loopEvictions crypto inflate false limit p.items.length p := by
      have hlength : p.items.length = rest.length + 1 := length_pop hpop
      rw [hlength, loopEvictions, if_pos hover, hpop]
      exact List.mem_cons_self
    have hsorted := h.sorted
    have hfirst := h.priorities first (hitems ▸ List.mem_cons_self)
    have hle : urgent.priority ≤ first.priority := by
      rw [hitems] at hurgent hsorted
      rcases List.mem_cons.1 hurgent with rfl | hin
      · exact le_rfl
      · exact (List.pairwise_cons.1 hsorted).1 urgent hin
    have hfirstOne : first.priority = 1 := by omega
    exact hzero (hspares _ hevicted hfirstOne other hother)

/-- **A call spares urgent entries exactly where it evicts nothing of a mixed queue from the front.** -/
theorem spares_iff (h : p.Ordered) {c : Call} {current : Int}
    (hlimit : 0 ≤ p.limitAfter crypto inflate current c) :
    (∀ eviction ∈ p.evictions crypto inflate c, SparesUrgent eviction) ↔ p.Spares crypto inflate c := by
  cases c with
  | trim own =>
    have hnonneg : 0 ≤ p.limitOr own := hlimit
    constructor
    · intro hspares
      refine ⟨hnonneg, ?_⟩
      by_contra hmixed
      simp only [not_or, not_forall, not_le] at hmixed
      obtain ⟨hover, ⟨urgent, hurgent, hone⟩, other, hother, hzero⟩ := hmixed
      have hle := h.priorities urgent hurgent
      exact not_sparesUrgent h hover hurgent hother (by omega) hzero hspares
    · rintro ⟨-, hroom | hordinary | hurgent⟩
      · intro eviction hmem
        rw [show p.evictions crypto inflate (.trim own) = [] from loopEvictions_of_le hroom] at hmem
        exact nomatch hmem
      · exact sparesUrgent_of_uniform hordinary
      · exact sparesUrgent_of_uniform hurgent
  | add raw highPriority own =>
    by_cases hseen : metaForRaw crypto inflate raw ∈ p.seen
    · have hnone : p.evictions crypto inflate (.add raw highPriority own) = [] := by
        simp only [evictions, hash_entryForRaw, if_pos hseen]
      rw [hnone]
      exact iff_of_true (fun _ hmem => nomatch hmem) fun hnew => absurd hseen hnew
    · have hnonneg : 0 ≤ p.limitOr own := by rwa [limitAfter, if_neg hseen] at hlimit
      have hsome : p.evictions crypto inflate (.add raw highPriority own)
          = loopEvictions crypto inflate highPriority (p.limitOr own)
            (p.insertEntry (entryForRaw crypto inflate raw highPriority) highPriority).items.length
            (p.insertEntry (entryForRaw crypto inflate raw highPriority) highPriority) := by
        simp only [evictions, hash_entryForRaw, if_neg hseen]
        rfl
      have hordered := h.insertEntry highPriority hseen
      rw [hsome]
      cases highPriority with
      | true => exact iff_of_true (sparesUrgent_of_end hordered) fun _ => ⟨hnonneg, .inl rfl⟩
      | false =>
        have hlength : ((p.insertEntry (entryForRaw crypto inflate raw false) false).items.length)
            = p.items.length + 1 := by
          show (p.items ++ [_]).length = _
          rw [List.length_append, List.length_singleton]
        constructor
        · intro hspares _
          refine ⟨hnonneg, .inr ?_⟩
          by_contra hmixed
          simp only [not_or, not_forall, not_le] at hmixed
          obtain ⟨hover, urgent, hurgent, hone⟩ := hmixed
          have hle := h.priorities urgent hurgent
          refine not_sparesUrgent hordered ?_ (List.mem_append_left _ hurgent)
            (List.mem_append_right _ List.mem_cons_self) (by omega) ?_ hspares
          · rw [hlength]
            exact hover
          · show ¬ (0 = 1)
            decide
        · intro hcondition
          obtain ⟨-, hfalse | hroom | hordinary⟩ := hcondition hseen
          · exact absurd hfalse (by decide)
          · intro eviction hmem
            rw [loopEvictions_of_le (by rwa [hlength])] at hmem
            exact nomatch hmem
          · have hzero : ∀ entry ∈ (p.insertEntry (entryForRaw crypto inflate raw false) false).items,
                entry.priority = 0 := by
              intro entry hentry
              rcases List.mem_append.1 hentry with hin | hin
              · exact hordinary entry hin
              · rw [List.mem_singleton.1 hin]
                rfl
            exact sparesUrgent_of_uniform hzero

/-! ## The promise -/

/-- **A pool keeps its promise exactly where no ordinary call evicts from a queue in which urgent entries
    wait with others.** -/
theorem sound_iff (crypto : Crypto) (inflate : Bytes → Option Bytes) (limit : Int) (calls : List Call) :
    Sound crypto inflate limit calls ↔ 0 ≤ limit ∧
      ∀ done c, done ++ [c] <+: calls → ((new limit).after crypto inflate done).Spares crypto inflate c := by
  have hordered : ∀ done, ((new limit).after crypto inflate done).Ordered :=
    fun done => (Ordered.new limit).after done
  -- The limit that a call applies is not negative where the size stays within the limit in force.
  have happlied : ∀ {done c}, (((new limit).after crypto inflate (done ++ [c])).items.length : Int)
      ≤ (new limit).inForce crypto inflate limit (done ++ [c]) →
      0 ≤ ((new limit).after crypto inflate done).limitAfter crypto inflate
        ((new limit).inForce crypto inflate limit done) c := by
    intro done c hlength
    rw [← inForce_concat]
    exact (Int.natCast_nonneg _).trans hlength
  constructor
  · intro h
    refine ⟨h.bounded [] List.nil_prefix, fun done c hpart => ?_⟩
    exact (spares_iff (hordered done) (happlied (h.bounded _ hpart))).1 (h.urgent done c hpart)
  · rintro ⟨hlimit, hspares⟩
    have hbounded : ∀ done, done <+: calls → (((new limit).after crypto inflate done).items.length : Int)
        ≤ (new limit).inForce crypto inflate limit done := by
      intro done
      induction done using List.reverseRecOn with
      | nil => exact fun _ => hlimit
      | append_singleton done c ih =>
        intro hpart
        rw [after_concat, inForce_concat]
        exact length_call (hspares done c hpart) (ih ((List.prefix_append done [c]).trans hpart))
    refine ⟨fun done _ => (hordered done).keys, fun done _ => (hordered done).distinct, hbounded, ?_⟩
    intro done c hpart
    exact (spares_iff (hordered done) (happlied (hbounded _ hpart))).2 (hspares done c hpart)

/-! ## A flood of two messages -/

open MirroredBundles (parityCrypto parityCrypto_ne)

/-- A text that is no message goes by the hash of the text. -/
theorem metaForRaw_of_error {raw error : String} (h : WireJson.unpackedJson inflate raw = .error error) :
    metaForRaw crypto inflate raw = crypto.sha3Hex (Text.utf8 raw) := by
  unfold metaForRaw
  rw [h]

theorem add_first (raw : String) (highPriority : Bool) :
    (new 1).after crypto inflate [.add raw highPriority none]
      = ⟨1, [entryForRaw crypto inflate raw highPriority], {metaForRaw crypto inflate raw}⟩ := by
  have hnew : metaForRaw crypto inflate raw ∉ (new 1).seen := Finset.notMem_empty _
  have hitems : ((new 1).insertEntry (entryForRaw crypto inflate raw highPriority) highPriority)
      = ⟨1, [entryForRaw crypto inflate raw highPriority], {metaForRaw crypto inflate raw}⟩ := by
    rw [insertEntry, hash_entryForRaw]
    cases highPriority with
    | true => rfl
    | false => rfl
  show ((new 1).add crypto inflate raw highPriority none).2 = _
  rw [add_snd hnew, hitems]
  rfl

/-- **An ordinary message pushes out the evidence in front of it.** -/
theorem not_sound : ¬ ∀ (crypto : Crypto) (inflate : Bytes → Option Bytes) (limit : Int)
    (calls : List Call), 0 ≤ limit → Sound crypto inflate limit calls := by
  intro h
  have hsound := h parityCrypto (fun _ => none) 1 [.add "x" true none, .add "xy" false none] (by decide)
  have hordered : ((new 1).after parityCrypto (fun _ => none) [.add "x" true none]).Ordered :=
    (Ordered.new 1).after _
  have hlimit : 0 ≤ ((new 1).after parityCrypto (fun _ => none) [.add "x" true none]).limitAfter
      parityCrypto (fun _ => none)
      ((new 1).after parityCrypto (fun _ => none) [.add "x" true none]).limit (.add "xy" false none) := by
    rw [limitAfter_none, limit_after]
    exact Int.one_nonneg
  have hspares := (spares_iff hordered hlimit).1
    (hsound.urgent [.add "x" true none] (.add "xy" false none) (List.prefix_refl _))
  rw [add_first] at hspares
  have hxError : WireJson.unpackedJson (fun _ => none) "x" = .error "invalid JSON payload" := by decide
  have hxyError : WireJson.unpackedJson (fun _ => none) "xy" = .error "invalid JSON payload" := by decide
  have hnew : metaForRaw parityCrypto (fun _ => none) "xy"
      ∉ ({metaForRaw parityCrypto (fun _ => none) "x"} : Finset String) := by
    rw [Finset.mem_singleton, metaForRaw_of_error hxError, metaForRaw_of_error hxyError]
    exact (parityCrypto_ne (by decide)).symm
  obtain ⟨-, hfalse | hroom | hordinary⟩ := hspares hnew
  · exact absurd hfalse (by decide)
  · exact absurd hroom (by decide)
  · exact absurd (hordinary _ List.mem_cons_self) (by decide)

end GossipPool
