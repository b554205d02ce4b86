import InternationalDollar.Lib.Runs
import Mathlib.Data.Set.Basic

set_option autoImplicit false

/-! # Threads that share a state

A thread is a program of atomic actions on a shared state; the actions of the threads alternate in any order. What
holds in every such run is shown one program at a time. A thread holds tokens, an action may take tokens and give
tokens up, and the invariant says what the tokens that are held, and those that are not, mean for the state. -/

/-- A program of atomic actions. What it does next may depend on the state that its action found. -/
inductive Prog (σ α : Type) where
  | done (result : α)
  | atom (effect : σ → σ) (next : σ → Prog σ α)

namespace Prog

variable {σ α β κ : Type}

/-- One program after another. -/
def bind : Prog σ α → (α → Prog σ β) → Prog σ β
  | done a, f => f a
  | atom effect next, f => atom effect fun s => (next s).bind f

instance : Monad (Prog σ) where
  pure := done
  bind := bind

/-- One action with a result. -/
def act (f : σ → α × σ) : Prog σ α :=
  atom (fun s => (f s).2) fun s => done (f s).1

/-- Whether a program has an action left. -/
def isRunning : Prog σ α → Bool
  | done _ => false
  | atom _ _ => true

/-- Some tokens may be exchanged for others at any time. -/
def Trades (I : σ → Set κ → Prop) (held kept : Set κ) : Prop :=
  ∀ s others, I s (others ∪ held) → I s (others ∪ kept)

/-- A program that starts with some tokens keeps the invariant, whatever its actions alternate with, holds none but
    the allowed tokens, and ends as the postcondition says. -/
def Keeps (I : σ → Set κ → Prop) (allowed : Set κ) : Prog σ α → Set κ → (α → Set κ → Prop) → Prop
  | done a, held, post => ∃ kept, Trades I held kept ∧ post a kept
  | atom effect next, held, post => ∀ s others, I s (others ∪ held) →
      ∃ kept ⊆ allowed, I (effect s) (others ∪ kept) ∧ (next s).Keeps I allowed kept post

variable {I : σ → Set κ → Prop} {allowed held kept tokens : Set κ} {post : α → Set κ → Prop}
  {post' : β → Set κ → Prop}

theorem Trades.refl (held : Set κ) : Trades I held held := fun _ _ h => h

theorem Trades.trans (h : Trades I held kept) (h' : Trades I kept tokens) : Trades I held tokens :=
  fun s others hs => h' s others (h s others hs)

theorem Keeps.pure {a : α} (h : post a held) : (Pure.pure a : Prog σ α).Keeps I allowed held post :=
  ⟨held, Trades.refl held, h⟩

theorem Keeps.act {f : σ → α × σ} (h : ∀ s others, I s (others ∪ held) →
    ∃ kept ⊆ allowed, I (f s).2 (others ∪ kept) ∧ post (f s).1 kept) : (act f).Keeps I allowed held post := by
  intro s others hs
  obtain ⟨kept, hkept, hafter, hpost⟩ := h s others hs
  exact ⟨kept, hkept, hafter, kept, Trades.refl kept, hpost⟩

/-- A program may exchange tokens before it starts. -/
theorem Keeps.start {p : Prog σ α} (hp : p.Keeps I allowed kept post) (h : Trades I held kept) :
    p.Keeps I allowed held post := by
  cases p with
  | done a =>
    obtain ⟨tokens, htokens, hpost⟩ := hp
    exact ⟨tokens, h.trans htokens, hpost⟩
  | atom effect next => exact fun s others hs => hp s others (h s others hs)

theorem Keeps.bind {p : Prog σ α} {f : α → Prog σ β} (hp : p.Keeps I allowed held post)
    (hf : ∀ a kept, post a kept → (f a).Keeps I allowed kept post') : (p >>= f).Keeps I allowed held post' := by
  induction p generalizing held with
  | done a =>
    obtain ⟨kept, htrades, hpost⟩ := hp
    exact (hf a kept hpost).start htrades
  | atom effect next ih =>
    intro s others hs
    obtain ⟨kept, hkept, hafter, hnext⟩ := hp s others hs
    exact ⟨kept, hkept, hafter, ih s hnext⟩

/-- A program may exchange tokens after its end. -/
theorem Keeps.finish {p : Prog σ α} {post' : α → Set κ → Prop} (hp : p.Keeps I allowed held post)
    (h : ∀ a kept, post a kept → ∃ tokens, Trades I kept tokens ∧ post' a tokens) :
    p.Keeps I allowed held post' := by
  induction p generalizing held with
  | done a =>
    obtain ⟨kept, htrades, hpost⟩ := hp
    obtain ⟨tokens, htokens, hpost⟩ := h a kept hpost
    exact ⟨tokens, htrades.trans htokens, hpost⟩
  | atom effect next ih =>
    intro s others hs
    obtain ⟨kept, hkept, hafter, hnext⟩ := hp s others hs
    exact ⟨kept, hkept, hafter, ih s hnext⟩

end Prog

/-- A thread, under the name of what it works on. -/
structure Thread (ι σ : Type) where
  label : ι
  prog : Prog σ Unit

/-- Some threads and the state that they share. -/
structure Threads (ι σ : Type) where
  shared : σ
  threads : List (Thread ι σ)

namespace Threads

open Prog

variable {ι σ κ : Type}

/-- The next action of a thread, if it has one. -/
def advance (i : Nat) (s : Threads ι σ) : Option (Threads ι σ) :=
  match s.threads[i]? with
  | some ⟨label, .atom effect next⟩ =>
      some ⟨effect s.shared, s.threads.set i ⟨label, next s.shared⟩⟩
  | _ => none

/-- What the running threads may hold. -/
def InProgress (allowed : ι → Set κ) (s : Threads ι σ) : Set κ :=
  {k | ∃ t ∈ s.threads, t.prog.isRunning = true ∧ k ∈ allowed t.label}

/-- The tokens that some threads hold. -/
def total (held : List (Thread ι σ × Set κ)) : Set κ :=
  {k | ∃ e ∈ held, k ∈ e.2}

/-- A thread that keeps the invariant from here on and gives its tokens up at its end. -/
structure Tidy (I : σ → Set κ → Prop) (allowed : ι → Set κ) (t : Thread ι σ) (tokens : Set κ) : Prop where
  subset : tokens ⊆ allowed t.label
  ended : t.prog.isRunning = false → tokens = ∅
  keeps : t.prog.Keeps I (allowed t.label) tokens fun _ kept => kept = ∅

/-- The invariant holds for the tokens that the threads hold, and every thread keeps it. -/
def Orderly (I : σ → Set κ → Prop) (allowed : ι → Set κ) (s : Threads ι σ) : Prop :=
  ∃ held, s.threads = held.map Prod.fst ∧ (∀ e ∈ held, Tidy I allowed e.1 e.2) ∧ I s.shared (total held)

variable {I : σ → Set κ → Prop} {allowed : ι → Set κ} {s u : Threads ι σ} {t : Thread ι σ} {tokens : Set κ}

/-- The tokens of one thread beside those of the others. -/
theorem total_insert (before after : List (Thread ι σ × Set κ)) (e : Thread ι σ × Set κ) :
    total (before ++ e :: after) = total (before ++ after) ∪ e.2 := by
  ext k
  simp only [total, List.mem_append, List.mem_cons, Set.mem_ofPred_eq, Set.mem_union]
  constructor
  · rintro ⟨e', h | rfl | h, hk⟩
    · exact .inl ⟨e', .inl h, hk⟩
    · exact .inr hk
    · exact .inl ⟨e', .inr h, hk⟩
  · rintro (⟨e', h | h, hk⟩ | hk)
    · exact ⟨e', .inl h, hk⟩
    · exact ⟨e', .inr (.inr h), hk⟩
    · exact ⟨e, .inr (.inl rfl), hk⟩

/-- A thread that has ended can give its tokens up. -/
theorem exists_tidy (hallowed : tokens ⊆ allowed t.label)
    (hkeeps : t.prog.Keeps I (allowed t.label) tokens fun _ kept => kept = ∅) :
    ∃ kept, Tidy I allowed t kept ∧ Trades I tokens kept := by
  cases hrunning : t.prog.isRunning with
  | true => exact ⟨tokens, ⟨hallowed, fun h => by simp [hrunning] at h, hkeeps⟩, Trades.refl tokens⟩
  | false =>
    obtain ⟨label, prog⟩ := t
    cases prog with
    | atom => cases hrunning
    | done a =>
      obtain ⟨_, htrades, rfl⟩ := hkeeps
      exact ⟨∅, ⟨Set.empty_subset _, fun _ => rfl, ∅, Trades.refl ∅, rfl⟩, htrades⟩

/-- An action of one thread. -/
theorem advance_cases {i : Nat} (h : s.advance i = some u) : ∃ before after label effect next,
    s.threads = before ++ ⟨label, .atom effect next⟩ :: after ∧
      u = ⟨effect s.shared, before ++ ⟨label, next s.shared⟩ :: after⟩ := by
  unfold advance at h
  split at h
  · next label effect next hthread =>
    obtain rfl := Option.some.inj h
    obtain ⟨hlt, hget⟩ := List.getElem?_eq_some_iff.1 hthread
    refine ⟨s.threads.take i, s.threads.drop (i + 1), label, effect, next, ?_, ?_⟩
    · rw [← hget, List.getElem_cons_drop, List.take_append_drop]
    · rw [List.set_eq_take_append_cons_drop, if_pos hlt]
  · cases h

/-- **An action of a thread keeps the order**, whichever thread it is. -/
theorem Orderly.advance (h : s.Orderly I allowed) {i : Nat} (hadvance : s.advance i = some u) :
    u.Orderly I allowed := by
  obtain ⟨before, after, label, effect, next, hthreads, rfl⟩ := advance_cases hadvance
  obtain ⟨held, hheld, htidy, hI⟩ := h
  rw [hthreads] at hheld
  obtain ⟨heldBefore, rest, rfl, rfl, hrest⟩ := List.map_eq_append_iff.1 hheld.symm
  obtain ⟨⟨_, tokens⟩, heldAfter, rfl, rfl, rfl⟩ := List.map_eq_cons_iff.1 hrest
  have hthread := htidy (_, tokens) (List.mem_append_right _ List.mem_cons_self)
  rw [total_insert] at hI
  obtain ⟨kept, hkept, hafter, hnext⟩ := hthread.keeps _ _ hI
  obtain ⟨last, hlast, htrades⟩ := @exists_tidy _ _ _ _ _ ⟨label, next s.shared⟩ _ hkept hnext
  refine ⟨heldBefore ++ (⟨label, next s.shared⟩, last) :: heldAfter, ?_, ?_, ?_⟩
  · rw [List.map_append, List.map_cons]
  · intro e he
    rcases List.mem_append.1 he with he | he
    · exact htidy e (List.mem_append_left _ he)
    · rcases List.mem_cons.1 he with rfl | he
      · exact hlast
      · exact htidy e (List.mem_append_right _ (List.mem_cons_of_mem _ he))
  · rw [total_insert]
    exact htrades _ _ hafter

/-- A new thread takes over some tokens from the state. -/
theorem Orderly.spawn (h : s.Orderly I allowed) (tokens : Set κ) {shared : σ} (hallowed : tokens ⊆ allowed t.label)
    (hkeeps : t.prog.Keeps I (allowed t.label) tokens fun _ kept => kept = ∅)
    (hshared : ∀ others, I s.shared others → I shared (others ∪ tokens)) :
    Orderly I allowed ⟨shared, s.threads ++ [t]⟩ := by
  obtain ⟨held, hheld, htidy, hI⟩ := h
  obtain ⟨kept, hkept, htrades⟩ := exists_tidy hallowed hkeeps
  refine ⟨held ++ [(t, kept)], ?_, ?_, ?_⟩
  · rw [hheld, List.map_append]
    rfl
  · intro e he
    rcases List.mem_append.1 he with he | he
    · exact htidy e he
    · obtain rfl := List.mem_singleton.1 he
      exact hkept
  · rw [total_insert, List.append_nil]
    exact htrades _ _ (hshared _ hI)

/-- A change of the shared state that keeps the invariant. -/
theorem Orderly.change (h : s.Orderly I allowed) {shared : σ}
    (hshared : ∀ others, I s.shared others → I shared others) : Orderly I allowed { s with shared } := by
  obtain ⟨held, hheld, htidy, hI⟩ := h
  exact ⟨held, hheld, htidy, hshared _ hI⟩

/-- The tokens that are held belong to what is in progress. -/
theorem Orderly.inProgress (h : s.Orderly I allowed) :
    ∃ tokens ⊆ s.InProgress allowed, I s.shared tokens := by
  obtain ⟨held, hheld, htidy, hI⟩ := h
  refine ⟨total held, ?_, hI⟩
  rintro k ⟨e, he, hk⟩
  refine ⟨e.1, ?_, ?_, (htidy e he).subset hk⟩
  · rw [hheld]
    exact List.mem_map_of_mem he
  · by_contra hended
    rw [(htidy e he).ended (Bool.eq_false_iff.2 hended)] at hk
    exact hk

end Threads
