import InternationalDollar.Lib.Runs
import Mathlib.Algebra.Order.BigOperators.Group.Finset
import Mathlib.Data.List.Range

set_option autoImplicit false

/-! # Tasks prepared by a pool and committed in order

A list of tasks is prepared by a pool of workers, each of which reads the world at some moment, while one
thread commits them in the order of the list. A future is taken in any order; its value waits in a table
until all tasks before it are committed. Some tasks have their value from the start.

If no commit changes what a later task is prepared to, the pool ends as one worker ends that prepares
each task when its turn has come. -/

namespace OrderedCommit

/-- Where a task is. -/
inductive Stage (ν : Type) where
  | waiting
  | running
  | finished (value : ν)
  | ready (value : ν)
  | done

/-- The tasks: which have a value from the start, what the others are prepared to in a world, and what
    committing a value does. -/
structure Plan (ω ν ρ : Type) where
  total : Nat
  given : Nat → Option ν
  prepare : Nat → ω → ν
  commit : Nat → ν → ω → ω × ρ

/-- The world, the results of the committed tasks and the stages of all. -/
structure State (ω ν ρ : Type) where
  world : ω
  results : List ρ
  stage : Nat → Stage ν

/-- A worker starts the next task, finishes one, the main thread takes a future, or commits the next
    task. -/
inductive Event where
  | start
  | finish (task : Nat)
  | take (task : Nat)
  | commit

variable {ω ν ρ : Type}

namespace State

/-- The task to be committed next. -/
def next (s : State ω ν ρ) : Nat :=
  s.results.length

/-- A task moves to another stage. -/
def move (s : State ω ν ρ) (task : Nat) (stage : Stage ν) : State ω ν ρ :=
  { s with stage := Function.update s.stage task stage }

end State

namespace Stage

/-- A task that no worker has started. -/
def isWaiting : Stage ν → Bool
  | .waiting => true
  | _ => false

/-- A task that occupies a worker. -/
def isRunning : Stage ν → Bool
  | .running => true
  | _ => false

/-- A task that was started and not yet taken. -/
def isStarted : Stage ν → Bool
  | .running | .finished _ => true
  | _ => false

/-- The number of steps that are left of a task. -/
def rank : Stage ν → Nat
  | .waiting => 4
  | .running => 3
  | .finished _ => 2
  | .ready _ => 1
  | .done => 0

end Stage

namespace Plan

variable (p : Plan ω ν ρ) (workers : Nat)

/-- Before the first task. -/
def initial (w : ω) : State ω ν ρ where
  world := w
  results := []
  stage task :=
    match p.given task with
    | some v => .ready v
    | none => .waiting

/-- The value of the next task, if it is ready. -/
def nextReady (s : State ω ν ρ) : Option ν :=
  if s.next < p.total then
    match s.stage s.next with
    | .ready v => some v
    | _ => none
  else none

/-- The next task is committed. -/
def commitNext (v : ν) (s : State ω ν ρ) : State ω ν ρ where
  world := (p.commit s.next v s.world).1
  results := s.results ++ [(p.commit s.next v s.world).2]
  stage := Function.update s.stage s.next .done

/-- One step of the pool. Tasks are started in order. The main thread takes a future only when it cannot
    commit. -/
def step (s : State ω ν ρ) : Event → Option (State ω ν ρ)
  | .start =>
      if (List.range p.total).countP (fun task => (s.stage task).isRunning) < workers then
        ((List.range p.total).find? fun task => (s.stage task).isWaiting).map (s.move · .running)
      else none
  | .finish task =>
      match s.stage task with
      | .running => some (s.move task (.finished (p.prepare task s.world)))
      | _ => none
  | .take task =>
      match p.nextReady s, s.stage task with
      | none, .finished v => some (s.move task (.ready v))
      | _, _ => none
  | .commit => (p.nextReady s).map fun v => p.commitNext v s

/-! ## One worker -/

/-- Commit as long as the next task is ready. -/
def commitReady : Nat → State ω ν ρ → State ω ν ρ
  | 0, s => s
  | n + 1, s =>
      match p.nextReady s with
      | none => s
      | some v => commitReady n (p.commitNext v s)

/-- The tasks that have to be prepared. -/
def submitted : List Nat :=
  (List.range p.total).filter fun task => (p.given task).isNone

/-- Prepare a task and commit what is ready. -/
def prepareOne (s : State ω ν ρ) (task : Nat) : State ω ν ρ :=
  p.commitReady p.total (s.move task (.ready (p.prepare task s.world)))

/-- The run with one worker. -/
def oneWorker (w : ω) : State ω ν ρ :=
  p.submitted.foldl p.prepareOne (p.commitReady p.total (p.initial w))

/-! ## The order of the list -/

/-- What a task is committed with if it is prepared in a world. -/
def value (task : Nat) (w : ω) : ν :=
  (p.given task).getD (p.prepare task w)

/-- The world and the results after the first tasks, each prepared in its turn. -/
def inOrder (w : ω) : Nat → ω × List ρ
  | 0 => (w, [])
  | n + 1 =>
      let (mid, results) := inOrder w n
      let (last, result) := p.commit n (p.value n mid) mid
      (last, results ++ [result])

variable {p workers} {s t : State ω ν ρ} {w : ω} {v : ν}

theorem nextReady_eq_some : p.nextReady s = some v ↔ s.next < p.total ∧ s.stage s.next = .ready v := by
  unfold nextReady
  by_cases hnext : s.next < p.total
  · rw [if_pos hnext, and_iff_right hnext]
    cases s.stage s.next <;> simp
  · simp [hnext]

theorem nextReady_eq_none (h : p.nextReady s = none) :
    p.total ≤ s.next ∨ ∀ v, s.stage s.next ≠ .ready v := by
  by_contra hnot
  obtain ⟨hnext, hready⟩ := not_or.1 hnot
  push Not at hready
  obtain ⟨v, hv⟩ := hready
  rw [nextReady_eq_some.2 ⟨not_le.1 hnext, hv⟩] at h
  exact nomatch h

@[simp] theorem next_commitNext : (p.commitNext v s).next = s.next + 1 :=
  List.length_append

@[simp] theorem next_move {task : Nat} {stage : Stage ν} : (s.move task stage).next = s.next := rfl

@[simp] theorem stage_move_self {task : Nat} {stage : Stage ν} : (s.move task stage).stage task = stage :=
  Function.update_self _ _ _

theorem stage_move_of_ne {task other : Nat} {stage : Stage ν} (h : other ≠ task) :
    (s.move task stage).stage other = s.stage other :=
  Function.update_of_ne h _ _

theorem stage_commitNext_of_ne {task : Nat} (h : task ≠ s.next) :
    (p.commitNext v s).stage task = s.stage task :=
  Function.update_of_ne h _ _

theorem stage_commitNext_of_lt (h : ∀ task, task < s.next → s.stage task = .done) {task : Nat}
    (hlt : task < s.next + 1) : (p.commitNext v s).stage task = .done := by
  by_cases heq : task = s.next
  · rw [heq]
    exact Function.update_self _ _ _
  · rw [stage_commitNext_of_ne heq]
    exact h task (by omega)

/-- A turn in the order of the list. -/
theorem inOrder_commitNext (h : (s.world, s.results) = p.inOrder w s.next)
    (hv : v = p.value s.next s.world) :
    ((p.commitNext v s).world, (p.commitNext v s).results) = p.inOrder w (s.next + 1) := by
  rw [inOrder, ← h, hv]
  rfl

/-! ## One worker follows the order -/

/-- The loop stands before a task that has to be prepared: what is done is done in order, and nothing
    else is prepared. -/
structure Paused (p : Plan ω ν ρ) (w : ω) (s : State ω ν ρ) : Prop where
  inOrder : (s.world, s.results) = p.inOrder w s.next
  next_le : s.next ≤ p.total
  done : ∀ task, task < s.next → s.stage task = .done
  stage_eq : ∀ task, s.next ≤ task → s.stage task = (p.initial w).stage task

theorem stage_initial {task : Nat} (h : p.given task = some v) : (p.initial w).stage task = .ready v := by
  simp only [initial, h]

theorem stage_initial_of_none {task : Nat} (h : p.given task = none) :
    (p.initial w).stage task = .waiting := by
  simp only [initial, h]

theorem given_of_ready {task : Nat} (h : (p.initial w).stage task = .ready v) : p.given task = some v := by
  cases hgiven : p.given task with
  | none =>
    rw [stage_initial_of_none hgiven] at h
    exact nomatch h
  | some v' =>
    rw [stage_initial hgiven] at h
    cases h
    rfl

theorem commitReady_of_none {n : Nat} (h : p.nextReady s = none) : p.commitReady n s = s := by
  cases n with
  | zero => rfl
  | succ n => rw [commitReady, h]

theorem commitReady_of_some {n : Nat} (h : p.nextReady s = some v) :
    p.commitReady (n + 1) s = p.commitReady n (p.commitNext v s) := by
  rw [commitReady, h]

/-- The loop over what is ready stops before the next task that has to be prepared. -/
theorem commitReady_paused {n : Nat} (h : Paused p w s) (hn : p.total ≤ s.next + n) :
    Paused p w (p.commitReady n s) ∧ s.next ≤ (p.commitReady n s).next ∧
      ((p.commitReady n s).next < p.total → p.given (p.commitReady n s).next = none) ∧
      ∀ task, s.next ≤ task → task < (p.commitReady n s).next → p.given task ≠ none := by
  induction n generalizing s with
  | zero =>
    refine ⟨h, le_rfl, fun hlt => ?_, fun task hle hlt => ?_⟩
    · exact absurd hlt (not_lt.2 hn)
    · exact absurd hlt (not_lt.2 hle)
  | succ n ih =>
    cases hready : p.nextReady s with
    | none =>
      rw [commitReady_of_none hready]
      refine ⟨h, le_rfl, fun hlt => ?_, fun task hle hlt => absurd hlt (not_lt.2 hle)⟩
      rcases nextReady_eq_none hready with hle | hnot
      · exact absurd hlt (not_lt.2 hle)
      · cases hgiven : p.given s.next with
        | none => rfl
        | some v => exact absurd ((h.stage_eq _ le_rfl).trans (stage_initial hgiven)) (hnot v)
    | some v =>
      rw [commitReady_of_some hready]
      obtain ⟨hlt, hstage⟩ := nextReady_eq_some.1 hready
      rw [h.stage_eq _ le_rfl] at hstage
      have hgiven := given_of_ready hstage
      have hnext : Paused p w (p.commitNext v s) := by
        refine ⟨?_, ?_, fun task hbefore => ?_, fun task hle => ?_⟩
        · rw [next_commitNext]
          exact inOrder_commitNext h.inOrder (by rw [value, hgiven, Option.getD_some])
        · rw [next_commitNext]
          exact hlt
        · rw [next_commitNext] at hbefore
          exact stage_commitNext_of_lt h.done hbefore
        · rw [next_commitNext] at hle
          rw [stage_commitNext_of_ne (by omega)]
          exact h.stage_eq task (by omega)
      obtain ⟨hpaused, hle, hgivenNone, hbetween⟩ := ih hnext (by rw [next_commitNext]; omega)
      rw [next_commitNext] at hle
      refine ⟨hpaused, by omega, hgivenNone, fun task htask hbefore => ?_⟩
      by_cases heq : task = s.next
      · rw [heq, hgiven]
        exact Option.some_ne_none v
      · exact hbetween task (by rw [next_commitNext]; omega) hbefore

/-- The tasks from one on that have to be prepared. -/
def submittedFrom (p : Plan ω ν ρ) (first : Nat) : List Nat :=
  (List.range' first (p.total - first)).filter fun task => (p.given task).isNone

theorem submittedFrom_self {first : Nat} (h : first < p.total) (hgiven : p.given first = none) :
    p.submittedFrom first = first :: p.submittedFrom (first + 1) := by
  have hlength : p.total - first = (p.total - (first + 1)) + 1 := by omega
  rw [submittedFrom, hlength, List.range'_succ, List.filter_cons_of_pos (by rw [hgiven]; rfl),
    submittedFrom]

theorem submittedFrom_skip {first last : Nat} (hle : first ≤ last) (hlast : last ≤ p.total)
    (hgiven : ∀ task, first ≤ task → task < last → p.given task ≠ none) :
    p.submittedFrom first = p.submittedFrom last := by
  have hlength : p.total - first = (last - first) + (p.total - last) := by omega
  have hnone : (List.range' first (last - first)).filter (fun task => (p.given task).isNone) = [] := by
    rw [List.filter_eq_nil_iff]
    intro task htask
    rw [List.mem_range'_1] at htask
    rw [Option.isNone_iff_eq_none]
    exact hgiven task htask.1 (by omega)
  rw [submittedFrom, hlength, ← List.range'_append_1, List.filter_append, hnone, List.nil_append,
    Nat.add_sub_cancel' hle, submittedFrom]

/-- A task that is prepared in its turn is committed at once. -/
theorem prepareOne_paused (h : Paused p w s) (hlt : s.next < p.total) (hnone : p.given s.next = none) :
    Paused p w (p.prepareOne s s.next) ∧ s.next < (p.prepareOne s s.next).next ∧
      ((p.prepareOne s s.next).next < p.total → p.given (p.prepareOne s s.next).next = none) ∧
      ∀ task, s.next < task → task < (p.prepareOne s s.next).next → p.given task ≠ none := by
  obtain ⟨n, hn⟩ : ∃ n, p.total = n + 1 := ⟨p.total - 1, by omega⟩
  set u := s.move s.next (.ready (p.prepare s.next s.world)) with hu
  have hready : p.nextReady u = some (p.prepare s.next s.world) :=
    nextReady_eq_some.2 ⟨hlt, stage_move_self⟩
  have hnext : (p.commitNext (p.prepare s.next s.world) u).next = s.next + 1 := next_commitNext
  have hdone : ∀ task, task < u.next → u.stage task = .done := fun task htask => by
    have hbefore : task < s.next := htask
    rw [hu, stage_move_of_ne hbefore.ne]
    exact h.done task hbefore
  have hpaused : Paused p w (p.commitNext (p.prepare s.next s.world) u) := by
    refine ⟨?_, by rw [hnext]; exact hlt, fun task hbefore => ?_, fun task hle => ?_⟩
    · rw [hnext]
      refine inOrder_commitNext h.inOrder ?_
      show _ = p.value s.next s.world
      rw [value, hnone, Option.getD_none]
    · rw [hnext] at hbefore
      exact stage_commitNext_of_lt hdone hbefore
    · rw [hnext] at hle
      rw [stage_commitNext_of_ne (by rw [hu, next_move]; omega), hu, stage_move_of_ne (by omega)]
      exact h.stage_eq task (by omega)
  have hstep : p.prepareOne s s.next = p.commitReady n (p.commitNext (p.prepare s.next s.world) u) := by
    rw [prepareOne, ← hu, hn, commitReady_of_some hready]
  obtain ⟨hend, hle, hgivenNone, hbetween⟩ := commitReady_paused (n := n) hpaused (by omega)
  rw [hstep]
  exact ⟨hend, by omega, hgivenNone, fun task h1 h2 => hbetween task (by omega) h2⟩

/-- Whatever holds of the loop and is kept by preparing the next task holds at its end, where all tasks
    are committed. -/
theorem foldl_prepareOne {inv : State ω ν ρ → Prop} {todo : List Nat} (h : Paused p w s) (hs : inv s)
    (hinv : ∀ t, Paused p w t → t.next < p.total → p.given t.next = none → inv t →
      inv (p.prepareOne t t.next))
    (hgiven : s.next < p.total → p.given s.next = none) (htodo : todo = p.submittedFrom s.next) :
    Paused p w (todo.foldl p.prepareOne s) ∧ (todo.foldl p.prepareOne s).next = p.total ∧
      inv (todo.foldl p.prepareOne s) := by
  induction todo generalizing s with
  | nil =>
    have hle : p.total ≤ s.next := by
      by_contra hlt
      rw [submittedFrom_self (not_le.1 hlt) (hgiven (not_le.1 hlt))] at htodo
      exact nomatch htodo
    exact ⟨h, le_antisymm h.next_le hle, hs⟩
  | cons task rest ih =>
    have hlt : s.next < p.total := by
      by_contra hnot
      rw [submittedFrom, Nat.sub_eq_zero_of_le (not_lt.1 hnot)] at htodo
      exact nomatch htodo
    have hnone := hgiven hlt
    rw [submittedFrom_self hlt hnone, List.cons.injEq] at htodo
    obtain ⟨rfl, hrest⟩ := htodo
    obtain ⟨hend, hle, hgivenNone, hbetween⟩ := prepareOne_paused h hlt hnone
    rw [List.foldl_cons]
    refine ih hend (hinv s h hlt hnone hs) hgivenNone ?_
    rw [hrest]
    exact submittedFrom_skip hle hend.next_le fun task h1 h2 => hbetween task (by omega) h2

theorem Paused.initial (p : Plan ω ν ρ) (w : ω) : Paused p w (p.initial w) :=
  ⟨rfl, Nat.zero_le _, fun _ h => absurd h (Nat.not_lt_zero _), fun _ _ => rfl⟩

/-- The run with one worker, from its first task that has to be prepared. -/
theorem oneWorker_keeps {inv : State ω ν ρ → Prop} (hs : inv (p.commitReady p.total (p.initial w)))
    (hinv : ∀ t, Paused p w t → t.next < p.total → p.given t.next = none → inv t →
      inv (p.prepareOne t t.next)) :
    Paused p w (p.oneWorker w) ∧ (p.oneWorker w).next = p.total ∧ inv (p.oneWorker w) := by
  have hzero : (p.initial w).next = 0 := rfl
  obtain ⟨hpaused, -, hgiven, hbetween⟩ := commitReady_paused (n := p.total) (Paused.initial p w) (by omega)
  refine foldl_prepareOne hpaused hs hinv hgiven ?_
  have hall : p.submitted = p.submittedFrom 0 := by
    rw [submitted, List.range_eq_range', submittedFrom, Nat.sub_zero]
  rw [hall]
  exact submittedFrom_skip (Nat.zero_le _) hpaused.next_le fun task _ h => hbetween task (Nat.zero_le _) h

/-- **One worker commits each task as it is prepared in its turn.** -/
theorem oneWorker_eq (p : Plan ω ν ρ) (w : ω) :
    ((p.oneWorker w).world, (p.oneWorker w).results) = p.inOrder w p.total := by
  obtain ⟨hpaused, hnext, -⟩ := @oneWorker_keeps _ _ _ p w (fun _ => True) trivial fun _ _ _ _ _ => trivial
  rw [hpaused.inOrder, hnext]

theorem reaches_commitReady {n : Nat} :
    Runs.Reaches (p.step workers) (fun _ _ => True) s (p.commitReady n s) := by
  induction n generalizing s with
  | zero => exact .refl
  | succ n ih =>
    cases hready : p.nextReady s with
    | none =>
      rw [commitReady_of_none hready]
      exact .refl
    | some v =>
      rw [commitReady_of_some hready]
      have hcommit : p.step workers s .commit = some (p.commitNext v s) := by
        rw [step, hready, Option.map_some]
      exact (Runs.Reaches.refl.next trivial hcommit).trans ih

/-- A worker starts the next task, finishes it, and the main thread takes it. -/
theorem reaches_ready {meets : State ω ν ρ → Event → Prop} (hmeets : ∀ s e, e ≠ .commit → meets s e)
    (hworkers : 0 < workers) (h : Paused p w s) (hlt : s.next < p.total) (hnone : p.given s.next = none) :
    Runs.Reaches (p.step workers) meets s (s.move s.next (.ready (p.prepare s.next s.world))) := by
  have hwaiting : s.stage s.next = .waiting := (h.stage_eq _ le_rfl).trans (stage_initial_of_none hnone)
  have hidle : (List.range p.total).countP (fun task => (s.stage task).isRunning) = 0 := by
    rw [List.countP_eq_zero]
    intro task _ hrunning
    rcases Nat.lt_or_ge task s.next with hbefore | hle
    · rw [h.done task hbefore] at hrunning
      exact nomatch hrunning
    · rw [h.stage_eq task hle] at hrunning
      cases hgiven : p.given task with
      | none => rw [stage_initial_of_none hgiven] at hrunning; exact nomatch hrunning
      | some v => rw [stage_initial hgiven] at hrunning; exact nomatch hrunning
  have hfind : ((List.range p.total).find? fun task => (s.stage task).isWaiting) = some s.next := by
    rw [List.find?_range_eq_some]
    refine ⟨by rw [hwaiting]; rfl, List.mem_range.2 hlt, fun task hbefore => ?_⟩
    rw [h.done task hbefore]
    rfl
  have hstart : p.step workers s .start = some (s.move s.next .running) := by
    rw [step, if_pos (by rw [hidle]; exact hworkers), hfind, Option.map_some]
  have hfinish : p.step workers (s.move s.next .running) (.finish s.next)
      = some ((s.move s.next .running).move s.next (.finished (p.prepare s.next s.world))) := by
    rw [step, stage_move_self]
    rfl
  have hpaused : p.nextReady ((s.move s.next .running).move s.next
      (.finished (p.prepare s.next s.world))) = none := by
    rw [nextReady, next_move, next_move, if_pos hlt, stage_move_self]
  have htake : p.step workers ((s.move s.next .running).move s.next
      (.finished (p.prepare s.next s.world))) (.take s.next)
      = some (s.move s.next (.ready (p.prepare s.next s.world))) := by
    rw [step, hpaused, stage_move_self]
    simp only [State.move, Function.update_idem]
  exact ((Runs.Reaches.refl.next (hmeets _ .start nofun) hstart).next (hmeets _ (.finish _) nofun)
    hfinish).next (hmeets _ (.take _) nofun) htake

theorem reaches_prepareOne (hworkers : 0 < workers) (h : Paused p w s) (hlt : s.next < p.total)
    (hnone : p.given s.next = none) :
    Runs.Reaches (p.step workers) (fun _ _ => True) s (p.prepareOne s s.next) :=
  (reaches_ready (fun _ _ _ => trivial) hworkers h hlt hnone).trans reaches_commitReady

/-- **The run with one worker is a run of the pool.** -/
theorem reaches_oneWorker (hworkers : 0 < workers) :
    Runs.Reaches (p.step workers) (fun _ _ => True) (p.initial w) (p.oneWorker w) :=
  (@oneWorker_keeps _ _ _ p w (Runs.Reaches (p.step workers) (fun _ _ => True) (p.initial w))
    reaches_commitReady fun _ hpaused hlt hnone hreached =>
      hreached.trans (reaches_prepareOne hworkers hpaused hlt hnone)).2.2

/-! ## The pool follows the order -/

/-- What is known of a task at its stage. -/
def Fits (p : Plan ω ν ρ) (s : State ω ν ρ) (task : Nat) : Prop :=
  match s.stage task with
  | .waiting | .running => s.next ≤ task ∧ p.given task = none
  | .finished v => s.next ≤ task ∧ p.given task = none ∧ v = p.prepare task s.world
  | .ready v => s.next ≤ task ∧ v = p.value task s.world
  | .done => task < s.next

/-- What is done is done in order, and the values that wait are those that the world of now gives. -/
structure Follows (p : Plan ω ν ρ) (w : ω) (s : State ω ν ρ) : Prop where
  inOrder : (s.world, s.results) = p.inOrder w s.next
  next_le : s.next ≤ p.total
  fits : ∀ task, p.Fits s task

/-- Committing the next task with a value leaves what the later ones are prepared to. -/
def Stable (p : Plan ω ν ρ) (s : State ω ν ρ) (v : ν) : Prop :=
  ∀ task, s.next < task → p.given task = none →
    p.prepare task (p.commit s.next v s.world).1 = p.prepare task s.world

theorem Follows.initial (p : Plan ω ν ρ) (w : ω) : Follows p w (p.initial w) := by
  refine ⟨rfl, Nat.zero_le _, fun task => ?_⟩
  cases hgiven : p.given task with
  | none =>
    rw [Fits, stage_initial_of_none hgiven]
    exact ⟨Nat.zero_le _, hgiven⟩
  | some v =>
    rw [Fits, stage_initial hgiven]
    exact ⟨Nat.zero_le _, by rw [value, hgiven, Option.getD_some]⟩

/-- Moving one task keeps what is known of the others. -/
theorem Follows.move (h : Follows p w s) {task : Nat} {stage : Stage ν}
    (hfits : p.Fits (s.move task stage) task) : Follows p w (s.move task stage) := by
  refine ⟨h.inOrder, h.next_le, fun other => ?_⟩
  by_cases heq : other = task
  · rw [heq]
    exact hfits
  · have hother := h.fits other
    rw [Fits] at hother ⊢
    rw [stage_move_of_ne heq]
    exact hother

/-- Only a commit changes the world and adds a result. -/
theorem step_frame {e : Event} (hstep : p.step workers s e = some t) (he : e ≠ .commit) :
    t.world = s.world ∧ t.results = s.results := by
  cases e with
  | commit => exact absurd rfl he
  | start =>
    rw [step] at hstep
    split at hstep
    · obtain ⟨task, -, rfl⟩ := Option.map_eq_some_iff.1 hstep
      exact ⟨rfl, rfl⟩
    · exact nomatch hstep
  | finish task =>
    rw [step] at hstep
    split at hstep
    · cases hstep
      exact ⟨rfl, rfl⟩
    · exact nomatch hstep
  | take task =>
    rw [step] at hstep
    split at hstep
    · cases hstep
      exact ⟨rfl, rfl⟩
    · exact nomatch hstep

/-- What is known of the next value. -/
theorem Follows.nextReady (h : Follows p w s) (hready : p.nextReady s = some v) :
    s.next < p.total ∧ v = p.value s.next s.world := by
  obtain ⟨hlt, hstage⟩ := nextReady_eq_some.1 hready
  have hfits := h.fits s.next
  rw [Fits, hstage] at hfits
  exact ⟨hlt, hfits.2⟩

/-- A commit that later tasks do not notice. -/
theorem Follows.commitNext (h : Follows p w s) (hready : p.nextReady s = some v) (hstable : p.Stable s v) :
    Follows p w (p.commitNext v s) := by
  obtain ⟨hlt, hv⟩ := h.nextReady hready
  refine ⟨?_, by rw [next_commitNext]; exact hlt, fun task => ?_⟩
  · rw [next_commitNext]
    exact inOrder_commitNext h.inOrder hv
  · by_cases heq : task = s.next
    · have hdone : (p.commitNext v s).stage task = .done := by
        rw [heq]
        exact Function.update_self _ _ _
      rw [Fits, hdone, next_commitNext, heq]
      exact Nat.lt_succ_self _
    · have hfits := h.fits task
      rw [Fits] at hfits ⊢
      rw [stage_commitNext_of_ne heq, next_commitNext]
      cases hstage : s.stage task with
      | waiting | running =>
        rw [hstage] at hfits
        exact ⟨by omega, hfits.2⟩
      | finished v' =>
        rw [hstage] at hfits
        obtain ⟨hle, hnone, hv'⟩ := hfits
        exact ⟨by omega, hnone, hv'.trans (hstable task (by omega) hnone).symm⟩
      | ready v' =>
        rw [hstage] at hfits
        obtain ⟨hle, hv'⟩ := hfits
        refine ⟨by omega, hv'.trans ?_⟩
        cases hgiven : p.given task with
        | some given => rw [value, value, hgiven, Option.getD_some, Option.getD_some]
        | none =>
          rw [value, value, hgiven, Option.getD_none, Option.getD_none]
          exact (hstable task (by omega) hgiven).symm
      | done =>
        rw [hstage] at hfits
        exact Nat.lt_succ_of_lt hfits

/-- **One step of the pool follows the order, if a commit is not noticed.** -/
theorem Follows.step (h : Follows p w s) {e : Event} (hstep : p.step workers s e = some t)
    (hstable : e = .commit → ∀ v, p.nextReady s = some v → p.Stable s v) : Follows p w t := by
  cases e with
  | start =>
    rw [Plan.step] at hstep
    split at hstep
    · obtain ⟨task, hfind, rfl⟩ := Option.map_eq_some_iff.1 hstep
      have hwaiting := List.find?_some hfind
      have hfits := h.fits task
      refine h.move ?_
      rw [Fits] at hfits ⊢
      rw [stage_move_self]
      cases hstage : s.stage task with
      | waiting =>
        rw [hstage] at hfits
        exact hfits
      | running | finished | ready | done =>
        rw [hstage] at hwaiting
        exact nomatch hwaiting
    · exact nomatch hstep
  | finish task =>
    rw [Plan.step] at hstep
    have hfits := h.fits task
    rw [Fits] at hfits
    cases hstage : s.stage task with
    | running =>
      rw [hstage] at hstep hfits
      cases hstep
      refine h.move ?_
      rw [Fits, stage_move_self]
      exact ⟨hfits.1, hfits.2, rfl⟩
    | waiting | finished | ready | done =>
      rw [hstage] at hstep
      exact nomatch hstep
  | take task =>
    rw [Plan.step] at hstep
    have hfits := h.fits task
    rw [Fits] at hfits
    cases hstage : s.stage task with
    | finished v =>
      rw [hstage] at hstep hfits
      obtain ⟨hle, hgiven, hv⟩ := hfits
      cases hready : p.nextReady s with
      | some v => rw [hready] at hstep; exact nomatch hstep
      | none =>
        rw [hready] at hstep
        cases hstep
        refine h.move ?_
        rw [Fits, stage_move_self]
        refine ⟨hle, hv.trans ?_⟩
        show _ = p.value task s.world
        rw [value, hgiven, Option.getD_none]
    | waiting | running | ready | done =>
      rw [hstage] at hstep
      cases hready : p.nextReady s <;> rw [hready] at hstep <;> exact nomatch hstep
  | commit =>
    obtain ⟨v, hready, rfl⟩ := Option.map_eq_some_iff.1 hstep
    exact h.commitNext hready (hstable rfl v hready)

/-! ## The pool ends -/

/-- The number of steps that are left of all tasks. -/
def left (p : Plan ω ν ρ) (s : State ω ν ρ) : Nat :=
  ∑ task ∈ Finset.range p.total, (s.stage task).rank

theorem rank_le (stage : Stage ν) : stage.rank ≤ 4 := by
  cases stage <;> simp only [Stage.rank, le_refl, Nat.reduceLeDiff]

theorem sum_rank_update {stages : Nat → Stage ν} {task n : Nat} {stage : Stage ν} (hlt : task < n)
    (hrank : stage.rank < (stages task).rank) :
    ∑ i ∈ Finset.range n, (Function.update stages task stage i).rank
      < ∑ i ∈ Finset.range n, (stages i).rank := by
  refine Finset.sum_lt_sum (fun i _ => ?_) ⟨task, Finset.mem_range.2 hlt, ?_⟩
  · by_cases heq : i = task
    · rw [heq, Function.update_self]
      exact hrank.le
    · rw [Function.update_of_ne heq]
  · rw [Function.update_self]
    exact hrank

/-- Only tasks of the list are started. -/
def Within (p : Plan ω ν ρ) (s : State ω ν ρ) : Prop :=
  ∀ task, (s.stage task).isStarted = true → task < p.total

theorem Within.initial (p : Plan ω ν ρ) (w : ω) : p.Within (p.initial w) := by
  intro task hstarted
  cases hgiven : p.given task with
  | none => rw [stage_initial_of_none hgiven] at hstarted; exact nomatch hstarted
  | some v => rw [stage_initial hgiven] at hstarted; exact nomatch hstarted

theorem Within.move (h : p.Within s) {task : Nat} {stage : Stage ν} (hlt : task < p.total) :
    p.Within (s.move task stage) := by
  intro other hstarted
  by_cases heq : other = task
  · rw [heq]
    exact hlt
  · rw [stage_move_of_ne heq] at hstarted
    exact h other hstarted

theorem left_move {task : Nat} {stage : Stage ν} (hlt : task < p.total)
    (hrank : stage.rank < (s.stage task).rank) : p.left (s.move task stage) < p.left s :=
  sum_rank_update hlt hrank

/-- Each step brings one task closer to its end. -/
theorem Within.step (h : p.Within s) {e : Event} (hstep : p.step workers s e = some t) :
    p.Within t ∧ p.left t < p.left s := by
  cases e with
  | start =>
    rw [Plan.step] at hstep
    split at hstep
    · obtain ⟨task, hfind, rfl⟩ := Option.map_eq_some_iff.1 hstep
      have hlt := List.mem_range.1 (List.mem_of_find?_eq_some hfind)
      have hwaiting := List.find?_some hfind
      refine ⟨h.move hlt, left_move hlt ?_⟩
      cases hstage : s.stage task with
      | waiting => exact Nat.lt_succ_self _
      | running | finished | ready | done =>
        rw [hstage] at hwaiting
        exact nomatch hwaiting
    · exact nomatch hstep
  | finish task =>
    rw [Plan.step] at hstep
    cases hstage : s.stage task with
    | running =>
      rw [hstage] at hstep
      cases hstep
      have hlt := h task (by rw [hstage]; rfl)
      exact ⟨h.move hlt, left_move hlt (by rw [hstage]; exact Nat.lt_succ_self _)⟩
    | waiting | finished | ready | done =>
      rw [hstage] at hstep
      exact nomatch hstep
  | take task =>
    rw [Plan.step] at hstep
    cases hstage : s.stage task with
    | finished v =>
      rw [hstage] at hstep
      have hlt := h task (by rw [hstage]; rfl)
      cases hready : p.nextReady s with
      | some v => rw [hready] at hstep; exact nomatch hstep
      | none =>
        rw [hready] at hstep
        cases hstep
        exact ⟨h.move hlt, left_move hlt (by rw [hstage]; exact Nat.lt_succ_self _)⟩
    | waiting | running | ready | done =>
      rw [hstage] at hstep
      cases hready : p.nextReady s <;> rw [hready] at hstep <;> exact nomatch hstep
  | commit =>
    obtain ⟨v, hready, rfl⟩ := Option.map_eq_some_iff.1 hstep
    obtain ⟨hlt, hstage⟩ := nextReady_eq_some.1 hready
    refine ⟨fun task hstarted => ?_, sum_rank_update hlt (by rw [hstage]; exact Nat.lt_succ_self _)⟩
    by_cases heq : task = s.next
    · rw [heq]
      exact hlt
    · rw [stage_commitNext_of_ne heq] at hstarted
      exact h task hstarted

/-- **The pool takes at most four steps for each task.** -/
theorem length_le_of_exec {events : List Event}
    (h : Runs.exec (p.step workers) (p.initial w) events = some t) : events.length ≤ 4 * p.total := by
  have hleft : ∀ (events : List Event) (s : State ω ν ρ), p.Within s →
      Runs.exec (p.step workers) s events = some t → events.length ≤ p.left s := by
    intro events
    induction events with
    | nil => exact fun _ _ _ => Nat.zero_le _
    | cons e rest ih =>
      intro s hs hexec
      obtain ⟨mid, hmid, hrest⟩ := Option.bind_eq_some_iff.1 hexec
      obtain ⟨hwithin, hlt⟩ := hs.step hmid
      exact (Nat.succ_le_of_lt ((ih mid hwithin hrest).trans_lt hlt))
  refine (hleft events _ (Within.initial p w) h).trans ?_
  calc p.left (p.initial w)
      ≤ ∑ _task ∈ Finset.range p.total, 4 := Finset.sum_le_sum fun task _ => rank_le _
    _ = 4 * p.total := by
        rw [Finset.sum_const, Finset.card_range]
        exact Nat.mul_comm _ _

/-- **A pool that cannot go on has committed all tasks.** -/
theorem Follows.next_of_halted (h : Follows p w s) (hworkers : 0 < workers)
    (hhalted : ∀ e, p.step workers s e = none) : s.next = p.total := by
  by_contra hne
  have hlt : s.next < p.total := lt_of_le_of_ne h.next_le hne
  have hfits := h.fits s.next
  rw [Fits] at hfits
  cases hstage : s.stage s.next with
  | ready v =>
    have hcommit := hhalted .commit
    rw [Plan.step, nextReady_eq_some.2 ⟨hlt, hstage⟩] at hcommit
    exact nomatch hcommit
  | finished v =>
    have hnone : p.nextReady s = none := by
      rw [Plan.nextReady, if_pos hlt, hstage]
    have htake := hhalted (.take s.next)
    rw [Plan.step, hnone, hstage] at htake
    exact nomatch htake
  | running =>
    have hfinish := hhalted (.finish s.next)
    rw [Plan.step, hstage] at hfinish
    exact nomatch hfinish
  | waiting =>
    by_cases hbusy : (List.range p.total).countP (fun task => (s.stage task).isRunning) < workers
    · have hstart := hhalted .start
      rw [Plan.step, if_pos hbusy, Option.map_eq_none_iff, List.find?_eq_none] at hstart
      exact hstart s.next (List.mem_range.2 hlt) (by rw [hstage]; rfl)
    · -- All workers are busy, so one of them can finish.
      have hpos : 0 < (List.range p.total).countP fun task => (s.stage task).isRunning := by omega
      obtain ⟨task, -, hrunning⟩ := List.countP_pos_iff.1 hpos
      have hfinish := hhalted (.finish task)
      cases htask : s.stage task with
      | running =>
        rw [Plan.step, htask] at hfinish
        exact nomatch hfinish
      | waiting | finished | ready | done =>
        rw [htask] at hrunning
        exact nomatch hrunning
  | done =>
    rw [hstage] at hfits
    exact lt_irrefl _ hfits

end Plan

end OrderedCommit
