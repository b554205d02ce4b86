import InternationalDollar.Lib.Loops
import InternationalDollar.MirrorQuorum
import InternationalDollar.RecoveryWitness
import Mathlib.Data.Int.Interval

set_option autoImplicit false

/-! # The walk over mirrors (`mirrored_root_containing_leaf`)

A verifier asks every mirror for roots at later and later times until one contains the leaf. What a mirror
answers may depend on all questions before. Without a late root the lag limits the times of the answers, and
each of them is new, so the lag limits the calls, too. Recovery witnesses that allow a late root switch off
the lag test; then only the range of the times that can be signed limits the calls. The walk here makes the
turns of the loop and its calls explicit; `collectRoots_walk` says that it is the one of the request. -/

section MirrorWalk

open TransparencyVerifier (RootsAt rootContainingLeafFromMirror collectRoots mirroredRootContainingLeaf)

/-- A call of `root_at`: the place of the mirror and the time it is asked for. -/
structure RootCall where
  mirror : Nat
  timestamp : Int
deriving DecidableEq

/-- The members of a verifier that the walk reads beside its configuration. -/
structure LateRootSettings where
  maxRootLagSeconds : Int
  operatorRecoveryMinFeeds : Int
  recoveryFeedPublicKeys : Option (List String)

/-- `_recovery_witnesses_allow_late_root`. Missing witnesses are none, a missing hash is empty. -/
def recoveryWitnessesAllowLateRoot (crypto : Crypto) (settings : LateRootSettings)
    (witnesses : List Json) (messageHash : String) (timestamp : Int) : Bool :=
  if witnesses = [] ∨ messageHash = "" then false
  else Check.returns (RecoveryWitness.recoveryWitnessQuorum crypto witnesses messageHash timestamp
    settings.operatorRecoveryMinFeeds settings.maxRootLagSeconds settings.recoveryFeedPublicKeys)

/-- What stays the same while the mirrors are asked. The verifier has asked `questions` questions before. -/
structure LeafLookup (crypto : Crypto) where
  config : VerifierConfig
  store : ObservedRoots crypto
  rootAt : RootsAt crypto
  questions : Nat
  timestamp : Int
  minTreeSize : Int
  maxRootLag : Option Int
  lateRootAllowed : Bool

/-- The variables of the loop over one mirror, and all calls so far, the last one first. -/
structure WalkState where
  nextTimestamp : Int
  seenTimestamps : List Int
  calls : List RootCall

namespace LeafLookup

variable {crypto : Crypto}

/-- The part of a turn that can raise: one call of `root_at` and the tests of its answer. -/
def usableRoot (lookup : LeafLookup crypto) (mirror : Nat) (s : WalkState) :
    Except String (MirroredRoot crypto) := do
  let root ← lookup.rootAt (lookup.questions + s.calls.length) mirror s.nextTimestamp
  lookup.config.verifySignedRootForLineage lookup.store root
  Check.require (root.timestamp ∉ s.seenTimestamps) "mirror returned the same root repeatedly"
  Check.require (0 ≤ root.timestamp - lookup.timestamp)
    "mirror returned a root before the requested timestamp"
  Check.require (lookup.lateRootAllowed = true ∨
    ∀ limit ∈ lookup.maxRootLag, root.timestamp - lookup.timestamp ≤ limit)
    "no mirrored transparency root close enough to transfer timestamp"
  pure root

/-- One turn of the loop over a mirror. It ends with a root or an error, and with the calls made. -/
def turn (lookup : LeafLookup crypto) (mirror : Nat) (s : WalkState) :
    (Except String (MirroredRoot crypto) × List RootCall) ⊕ WalkState :=
  let calls := ⟨mirror, s.nextTimestamp⟩ :: s.calls
  match lookup.usableRoot mirror s with
  | .error message => .inl (.error message, calls)
  | .ok root =>
      if lookup.minTreeSize ≤ root.treeSize then .inl (.ok root, calls)
      else .inr ⟨root.timestamp + 1, root.timestamp :: s.seenTimestamps, calls⟩

/-- The loop over one mirror, for a bounded number of turns. -/
def walkMirror (lookup : LeafLookup crypto) (turns mirror : Nat) (calls : List RootCall) :
    Option (Except String (MirroredRoot crypto) × List RootCall) :=
  (Loops.run (lookup.turn mirror) turns ⟨lookup.timestamp, [], calls⟩).map Prod.fst

/-- What the walk leaves: the roots of the mirrors that have one, the errors of the others, and the calls. -/
structure Walked (crypto : Crypto) where
  roots : List (String × MirroredRoot crypto)
  errors : List String
  calls : List RootCall

/-- The loop over the mirrors. -/
def walkMirrors (lookup : LeafLookup crypto) (turns : Nat) :
    List (String × Nat) → List RootCall → Option (Walked crypto)
  | [], calls => some ⟨[], [], calls⟩
  | (identity, mirror) :: rest, calls =>
      match lookup.walkMirror turns mirror calls with
      | none => none
      | some (.ok root, calls) => (lookup.walkMirrors turns rest calls).map fun walked =>
          { walked with roots := (identity, root) :: walked.roots }
      | some (.error message, calls) => (lookup.walkMirrors turns rest calls).map fun walked =>
          { walked with errors := message :: walked.errors }

end LeafLookup

/-- The walk of a request for the root of a leaf, for a bounded number of turns over each mirror. -/
def walkContainingLeaf {crypto : Crypto} (config : VerifierConfig) (rootAt : RootsAt crypto)
    (maxRootLag : Option Int) (turns : Nat) (timestamp leafIndex : Int) (lateRootAllowed : Bool)
    (s : VerifierState crypto) : Option (LeafLookup.Walked crypto) :=
  LeafLookup.walkMirrors
    ⟨config, s.store, rootAt, s.questions, timestamp, leafIndex + 1, maxRootLag, lateRootAllowed⟩ turns
    config.mirrorIdentities.zipIdx []

/-! ## The walk is that of the request -/

namespace LeafLookup

open Effect

variable {crypto : Crypto} {lookup : LeafLookup crypto} {mirror : Nat} {s : WalkState}

/-- The verifier after some calls, from a state with the store and the number of questions of a walk. -/
def after (lookup : LeafLookup crypto) (v : VerifierState crypto) (calls : List RootCall) :
    VerifierState crypto :=
  { v with store := lookup.store, questions := lookup.questions + calls.length }

/-- What one mirror gives, as the request has it. -/
def given (result : Except String (MirroredRoot crypto)) :
    Except VerifierError (Option (MirroredRoot crypto)) :=
  match result with
  | .ok root => .ok (some root)
  | .error message => .error (.other message)

/-- A check in front of the rest of a request. -/
theorem check_bind {α β : Type} (x : Except String α) (f : α → Verifying crypto β)
    (v : VerifierState crypto) :
    (TransparencyVerifier.check x >>= f) v =
      match x with
      | .ok a => f a v
      | .error message => (.error (.other message), v) := by
  cases x with
  | ok a => rfl
  | error message => rfl

/-- A turn of the request is a turn of the walk. -/
theorem rootContainingLeafFromMirror_turn (lookup : LeafLookup crypto) (mirror turns : Nat)
    (s : WalkState) (v : VerifierState crypto) :
    rootContainingLeafFromMirror lookup.config lookup.rootAt lookup.maxRootLag lookup.lateRootAllowed
        lookup.timestamp lookup.minTreeSize mirror (turns + 1) s.nextTimestamp s.seenTimestamps
        (lookup.after v s.calls) =
      match lookup.turn mirror s with
      | .inl (result, calls) => (given result, lookup.after v calls)
      | .inr t => rootContainingLeafFromMirror lookup.config lookup.rootAt lookup.maxRootLag
          lookup.lateRootAllowed lookup.timestamp lookup.minTreeSize mirror turns t.nextTimestamp
          t.seenTimestamps (lookup.after v t.calls) := by
  have hask : TransparencyVerifier.ask (fun n => lookup.rootAt n mirror s.nextTimestamp)
      (lookup.after v s.calls) = (.ok (lookup.rootAt (lookup.questions + s.calls.length) mirror s.nextTimestamp),
        lookup.after v (⟨mirror, s.nextTimestamp⟩ :: s.calls)) := rfl
  have hread : ∀ root : MirroredRoot crypto, TransparencyVerifier.readStore
      (fun store => lookup.config.verifySignedRootForLineage store root)
      (lookup.after v (⟨mirror, s.nextTimestamp⟩ :: s.calls)) =
        (.ok (lookup.config.verifySignedRootForLineage lookup.store root),
          lookup.after v (⟨mirror, s.nextTimestamp⟩ :: s.calls)) := fun _ => rfl
  rw [rootContainingLeafFromMirror, bind_of_ok hask, check_bind, turn, usableRoot]
  cases lookup.rootAt (lookup.questions + s.calls.length) mirror s.nextTimestamp with
  | error message => rfl
  | ok root =>
    dsimp only
    rw [bind_of_ok (hread root), check_bind, Check.ok_bind]
    cases lookup.config.verifySignedRootForLineage lookup.store root with
    | error message => rfl
    | ok u =>
      dsimp only
      rw [check_bind, Check.ok_bind]
      cases Check.require (root.timestamp ∉ s.seenTimestamps) "mirror returned the same root repeatedly" with
      | error message => rfl
      | ok u =>
        dsimp only
        rw [check_bind, Check.ok_bind]
        cases Check.require (0 ≤ root.timestamp - lookup.timestamp)
            "mirror returned a root before the requested timestamp" with
        | error message => rfl
        | ok u =>
          dsimp only
          rw [check_bind, Check.ok_bind]
          cases Check.require (lookup.lateRootAllowed = true ∨
              ∀ limit ∈ lookup.maxRootLag, root.timestamp - lookup.timestamp ≤ limit)
              "no mirrored transparency root close enough to transfer timestamp" with
          | error message => rfl
          | ok u =>
            dsimp only [Check.ok_bind]
            by_cases hsize : lookup.minTreeSize ≤ root.treeSize
            · rw [if_pos hsize]
              simp only [pure, Except.pure, if_pos hsize]
              rfl
            · rw [if_neg hsize]
              simp only [pure, Except.pure, if_neg hsize]

/-- The request to one mirror makes the turns and the calls of the walk. -/
theorem rootContainingLeafFromMirror_run {turns k : Nat} {result : Except String (MirroredRoot crypto)}
    {calls : List RootCall} (v : VerifierState crypto)
    (h : Loops.run (lookup.turn mirror) turns s = some ((result, calls), k)) :
    rootContainingLeafFromMirror lookup.config lookup.rootAt lookup.maxRootLag lookup.lateRootAllowed
        lookup.timestamp lookup.minTreeSize mirror turns s.nextTimestamp s.seenTimestamps
        (lookup.after v s.calls) = (given result, lookup.after v calls) := by
  induction turns generalizing s k with
  | zero => exact nomatch h
  | succ turns ih =>
    rw [rootContainingLeafFromMirror_turn]
    cases hturn : lookup.turn mirror s with
    | inl last =>
      rw [Loops.run_last hturn] at h
      obtain rfl := (Prod.mk.inj (Option.some.inj h)).1
      rfl
    | inr t =>
      rw [Loops.run_next hturn, Option.map_eq_some_iff] at h
      obtain ⟨⟨last, m⟩, hrun, heq⟩ := h
      obtain ⟨rfl, rfl⟩ : last = (result, calls) ∧ m + 1 = k := Prod.mk.inj heq
      exact ih hrun

/-- **The request to the mirrors is the walk over them.** -/
theorem collectRoots_walk {turns : Nat} {mirrors : List (String × Nat)} {calls : List RootCall}
    {walked : Walked crypto} (v : VerifierState crypto)
    (h : lookup.walkMirrors turns mirrors calls = some walked) :
    collectRoots (fun mirror => rootContainingLeafFromMirror lookup.config lookup.rootAt lookup.maxRootLag
        lookup.lateRootAllowed lookup.timestamp lookup.minTreeSize mirror turns lookup.timestamp []) mirrors
        (lookup.after v calls) = (.ok (walked.roots, walked.errors), lookup.after v walked.calls) := by
  induction mirrors generalizing calls walked with
  | nil =>
    obtain rfl := Option.some.inj h
    rfl
  | cons entry rest ih =>
    obtain ⟨identity, mirror⟩ := entry
    rw [walkMirrors] at h
    cases hwalk : lookup.walkMirror turns mirror calls with
    | none =>
      rw [hwalk] at h
      exact nomatch h
    | some found =>
      obtain ⟨result, calls'⟩ := found
      obtain ⟨⟨found, k⟩, hrun, heq⟩ := Option.map_eq_some_iff.1 hwalk
      obtain rfl : found = (result, calls') := heq
      have hmirror := rootContainingLeafFromMirror_run v hrun
      have hattempt : attempt (rootContainingLeafFromMirror lookup.config lookup.rootAt lookup.maxRootLag
          lookup.lateRootAllowed lookup.timestamp lookup.minTreeSize mirror turns lookup.timestamp [])
          (lookup.after v calls) = (.ok (given result), lookup.after v calls') := by
        rw [attempt, hmirror]
      rw [hwalk] at h
      rw [collectRoots, bind_of_ok hattempt]
      cases result with
      | ok root =>
        obtain ⟨tail, htail, rfl⟩ := Option.map_eq_some_iff.1 h
        show (collectRoots _ rest >>= _) _ = _
        rw [bind_of_ok (ih htail)]
        rfl
      | error message =>
        obtain ⟨tail, htail, rfl⟩ := Option.map_eq_some_iff.1 h
        show (collectRoots _ rest >>= _) _ = _
        rw [bind_of_ok (ih htail)]
        rfl

end LeafLookup

/-! ## Times of roots -/

/-- What has an id has a time that can be signed. -/
theorem MirroredRoot.timestamp_le {crypto : Crypto} (root : MirroredRoot crypto) :
    root.timestamp ≤ maxProtocolTimestamp := by
  obtain ⟨raw, hraw, -⟩ := Check.bind_eq_ok.1 root.id_eq
  obtain ⟨-, -, hmembers⟩ := Json.validate_obj.1 (canonicalBytes_eq_ok.1 hraw).1
  have htime := hmembers ("timestamp", .int root.timestamp) (by
    simp [SignedRoot.lastMembers])
  have habs : root.timestamp.natAbs ≤ 9223372036854775807 := (Json.validate_int.1 htime.2).2
  show root.timestamp ≤ 9223372036854775807
  omega

/-! ## The walk over one mirror -/

namespace LeafLookup

variable {crypto : Crypto} {lookup : LeafLookup crypto} {mirror : Nat} {s t : WalkState}

/-- The last time an answer may have for the walk to go on. -/
def lastTimestamp (lookup : LeafLookup crypto) : Int :=
  match lookup.lateRootAllowed, lookup.maxRootLag with
  | false, some limit => min (lookup.timestamp + limit) maxProtocolTimestamp
  | _, _ => maxProtocolTimestamp

theorem usableRoot_eq_ok {root : MirroredRoot crypto} :
    lookup.usableRoot mirror s = .ok root ↔
      lookup.rootAt (lookup.questions + s.calls.length) mirror s.nextTimestamp = .ok root ∧
      lookup.config.verifySignedRootForLineage lookup.store root = .ok () ∧
      root.timestamp ∉ s.seenTimestamps ∧ 0 ≤ root.timestamp - lookup.timestamp ∧
      (lookup.lateRootAllowed = true ∨
        ∀ limit ∈ lookup.maxRootLag, root.timestamp - lookup.timestamp ≤ limit) := by
  simp only [usableRoot, Check.bind_eq_ok, Check.require_eq_ok, Check.pure_eq_ok, exists_const]
  constructor
  · rintro ⟨found, hanswer, _, hverified, hnew, hlag, hlate, rfl⟩
    exact ⟨hanswer, hverified, hnew, hlag, hlate⟩
  · rintro ⟨hanswer, hverified, hnew, hlag, hlate⟩
    exact ⟨root, hanswer, (), hverified, hnew, hlag, hlate, rfl⟩

/-- A root that passes the tests of a turn has a new time from the timestamp to the last time. -/
theorem usableRoot_spec {root : MirroredRoot crypto} (h : lookup.usableRoot mirror s = .ok root) :
    root.timestamp ∈ Finset.Icc lookup.timestamp lookup.lastTimestamp ∧
      root.timestamp ∉ s.seenTimestamps := by
  obtain ⟨-, -, hnew, hlag, hlate⟩ := usableRoot_eq_ok.1 h
  refine ⟨Finset.mem_Icc.2 ⟨by omega, ?_⟩, hnew⟩
  have hmax := root.timestamp_le
  unfold lastTimestamp
  split
  · next limit hdenied hlimit =>
    rcases hlate with hlate | hlate
    · rw [hdenied] at hlate
      exact nomatch hlate
    · have := hlate limit hlimit
      exact le_min (by omega) hmax
  · exact hmax

/-- A turn goes on behind a usable root that does not contain the leaf. -/
theorem turn_next {root : MirroredRoot crypto} (hroot : lookup.usableRoot mirror s = .ok root)
    (hsize : root.treeSize < lookup.minTreeSize) :
    lookup.turn mirror s = .inr ⟨root.timestamp + 1, root.timestamp :: s.seenTimestamps,
      ⟨mirror, s.nextTimestamp⟩ :: s.calls⟩ := by
  rw [turn, hroot]
  exact if_neg (not_le.2 hsize)

/-- What a turn does: it makes one call, and it goes on only behind a usable root without the leaf. -/
theorem turn_cases (lookup : LeafLookup crypto) (mirror : Nat) (s : WalkState) :
    (∃ result, lookup.turn mirror s = .inl (result, ⟨mirror, s.nextTimestamp⟩ :: s.calls)) ∨
      ∃ root, lookup.usableRoot mirror s = .ok root ∧ root.treeSize < lookup.minTreeSize ∧
        lookup.turn mirror s = .inr ⟨root.timestamp + 1, root.timestamp :: s.seenTimestamps,
          ⟨mirror, s.nextTimestamp⟩ :: s.calls⟩ := by
  cases hroot : lookup.usableRoot mirror s with
  | error message =>
    rw [turn, hroot]
    exact Or.inl ⟨_, rfl⟩
  | ok root =>
    by_cases hsize : lookup.minTreeSize ≤ root.treeSize
    · rw [turn, hroot]
      exact Or.inl ⟨_, if_pos hsize⟩
    · exact Or.inr ⟨root, rfl, not_le.1 hsize, turn_next hroot (not_le.1 hsize)⟩

/-- The calls of a mirror among some calls. -/
def callsOf (mirror : Nat) (calls : List RootCall) : Nat :=
  calls.countP fun call => call.mirror = mirror

/-- The calls of any mirror that one turn adds. -/
theorem turn_calls (lookup : LeafLookup crypto) (mirror other : Nat) (s : WalkState) :
    match lookup.turn mirror s with
    | .inl (_, calls) => callsOf other calls = callsOf other s.calls + if mirror = other then 1 else 0
    | .inr t => callsOf other t.calls = callsOf other s.calls + if mirror = other then 1 else 0 := by
  have hcons : callsOf other (⟨mirror, s.nextTimestamp⟩ :: s.calls)
      = callsOf other s.calls + if mirror = other then 1 else 0 := by
    rw [callsOf, List.countP_cons]
    simp only [decide_eq_true_eq, callsOf]
  rcases turn_cases lookup mirror s with ⟨result, h⟩ | ⟨root, -, -, h⟩
  · rw [h]
    exact hcons
  · rw [h]
    exact hcons

/-- The number of calls that a walk over one mirror makes at most. -/
def maxCalls (lookup : LeafLookup crypto) : Nat :=
  (lookup.lastTimestamp - lookup.timestamp + 1).toNat + 1

/-- **The walk over one mirror ends**, whatever the mirror answers, and calls no other mirror. -/
theorem exists_walkMirror (lookup : LeafLookup crypto) (mirror : Nat) (calls : List RootCall) :
    ∃ result calls', (∀ turns, lookup.maxCalls ≤ turns →
        lookup.walkMirror turns mirror calls = some (result, calls')) ∧
      ∀ other, callsOf other calls' ≤ callsOf other calls + if mirror = other then lookup.maxCalls else 0 := by
  have hwindow : ∀ s t, lookup.turn mirror s = .inr t →
      ∃ time ∈ Finset.Icc lookup.timestamp lookup.lastTimestamp,
        time ∉ s.seenTimestamps ∧ t.seenTimestamps = time :: s.seenTimestamps := by
    intro s t h
    rcases turn_cases lookup mirror s with ⟨result, hlast⟩ | ⟨root, hroot, -, hnext⟩
    · rw [hlast] at h
      exact nomatch h
    · obtain rfl := Sum.inr.inj (hnext.symm.trans h)
      obtain ⟨hmem, hnew⟩ := usableRoot_spec hroot
      exact ⟨_, hmem, hnew, rfl⟩
  obtain ⟨⟨result, calls'⟩, k, hk, hrun⟩ := Loops.exists_run_of_fresh WalkState.seenTimestamps _ hwindow
    ⟨lookup.timestamp, [], calls⟩
  have hcard : (Finset.Icc lookup.timestamp lookup.lastTimestamp \
      (WalkState.seenTimestamps ⟨lookup.timestamp, [], calls⟩).toFinset).card + 1 = lookup.maxCalls := by
    rw [List.toFinset_nil, Finset.sdiff_empty, Int.card_Icc, maxCalls]
    congr 2
    omega
  refine ⟨result, calls', fun turns hturns => ?_, fun other => ?_⟩
  · rw [walkMirror, hrun turns (by omega)]
    rfl
  · have hcount := @Loops.run_count _ _ (lookup.turn mirror) _ _
      (fun s => callsOf other s.calls) (fun r => callsOf other r.2) (if mirror = other then 1 else 0)
      (fun s t h => by
        have := turn_calls lookup mirror other s
        rw [h] at this
        exact this)
      (fun s r h => by
        have := turn_calls lookup mirror other s
        rw [h] at this
        exact this)
      lookup.maxCalls k (hrun _ (by omega))
    rw [hcount]
    by_cases hsame : mirror = other
    · rw [if_pos hsame, if_pos hsame]
      show callsOf other calls + k * 1 ≤ _
      omega
    · rw [if_neg hsame, if_neg hsame]
      show callsOf other calls + k * 0 ≤ _
      omega

/-! ## The walk over all mirrors -/

/-- The walk over the mirrors ends, and each of them is called so often at most. -/
theorem exists_walkMirrors (lookup : LeafLookup crypto) (mirrors : List (String × Nat))
    (hnodup : (mirrors.map Prod.snd).Nodup) (calls : List RootCall) :
    ∃ walked, (∀ turns, lookup.maxCalls ≤ turns →
        lookup.walkMirrors turns mirrors calls = some walked) ∧
      ∀ mirror, callsOf mirror walked.calls
        ≤ callsOf mirror calls + if mirror ∈ mirrors.map Prod.snd then lookup.maxCalls else 0 := by
  induction mirrors generalizing calls with
  | nil => exact ⟨⟨[], [], calls⟩, fun _ _ => rfl, fun _ => Nat.le_add_right _ _⟩
  | cons entry rest ih =>
    obtain ⟨identity, place⟩ := entry
    rw [List.map_cons, List.nodup_cons] at hnodup
    obtain ⟨result, calls', hwalk, hcalls⟩ := exists_walkMirror lookup place calls
    obtain ⟨tail, htail, hlater⟩ := ih hnodup.2 calls'
    -- The mirrors behind the first one make no call of it, and it makes none of theirs.
    have hbound : ∀ mirror, callsOf mirror tail.calls ≤ callsOf mirror calls +
        if mirror ∈ place :: rest.map Prod.snd then lookup.maxCalls else 0 := by
      intro mirror
      have hlater := hlater mirror
      have hfirst := hcalls mirror
      by_cases hplace : place = mirror
      · subst hplace
        rw [if_neg hnodup.1] at hlater
        rw [if_pos rfl] at hfirst
        rw [if_pos List.mem_cons_self]
        omega
      · rw [if_neg hplace] at hfirst
        by_cases hmem : mirror ∈ rest.map Prod.snd
        · rw [if_pos hmem] at hlater
          rw [if_pos (List.mem_cons_of_mem _ hmem)]
          omega
        · rw [if_neg hmem] at hlater
          omega
    cases result with
    | ok root =>
      refine ⟨{ tail with roots := (identity, root) :: tail.roots }, fun turns hturns => ?_, hbound⟩
      rw [walkMirrors, hwalk turns hturns]
      exact congrArg (Option.map _) (htail turns hturns)
    | error message =>
      refine ⟨{ tail with errors := message :: tail.errors }, fun turns hturns => ?_, hbound⟩
      rw [walkMirrors, hwalk turns hturns]
      exact congrArg (Option.map _) (htail turns hturns)

end LeafLookup

/-! ## The bound on the calls -/

open LeafLookup

section Bound

variable {crypto : Crypto}

/-- The end of `mirrored_root_containing_leaf`: the roots are compared and observed, and the first of them
    is returned. -/
def firstObservedRoot (config : VerifierConfig) (world : World crypto) (depth : Nat) (walked : Walked crypto) :
    Verifying crypto (MirroredRoot crypto) := do
  let observed ← TransparencyVerifier.observeHistoricalRoots config world depth walked.roots
    ("not enough usable transparency root mirrors containing leaf: "
      ++ TransparencyVerifier.shortageDetail walked.errors)
  TransparencyVerifier.check
    (Check.ofOption (TransparencyVerifier.earliestRoot observed) "list index out of range")

/-- **The walk ends, and the lag limits the calls of a mirror unless a late root is allowed.** With a late
root allowed, only the range of the times limits them. -/
theorem exists_walkContainingLeaf (config : VerifierConfig) (settings : LateRootSettings)
    (world : World crypto) (depth : Nat) (rootAt : RootsAt crypto) (timestamp leafIndex : Int)
    (recoveryWitnesses : List Json) (recoveryMessageHash : String) (s : VerifierState crypto) :
    ∃ bound walked,
      (∀ turns, bound ≤ turns →
        walkContainingLeaf config rootAt (some settings.maxRootLagSeconds) turns timestamp leafIndex
          (recoveryWitnessesAllowLateRoot crypto settings recoveryWitnesses recoveryMessageHash timestamp) s
            = some walked ∧
        mirroredRootContainingLeaf config world rootAt (some settings.maxRootLagSeconds) depth turns timestamp
          leafIndex
          (recoveryWitnessesAllowLateRoot crypto settings recoveryWitnesses recoveryMessageHash timestamp) s
            = firstObservedRoot config world depth walked
                { s with questions := s.questions + walked.calls.length }) ∧
      (recoveryWitnessesAllowLateRoot crypto settings recoveryWitnesses recoveryMessageHash timestamp = false →
        ∀ mirror, (callsOf mirror walked.calls : Int) ≤ max (settings.maxRootLagSeconds + 2) 1) ∧
      ∀ mirror, (callsOf mirror walked.calls : Int) ≤ max (maxProtocolTimestamp - timestamp + 2) 1 := by
  generalize recoveryWitnessesAllowLateRoot crypto settings recoveryWitnesses recoveryMessageHash timestamp = late
  let lookup : LeafLookup crypto := ⟨config, s.store, rootAt, s.questions, timestamp, leafIndex + 1,
    some settings.maxRootLagSeconds, late⟩
  have hnodup : (config.mirrorIdentities.zipIdx.map Prod.snd).Nodup := by
    rw [List.zipIdx_map_snd]
    exact List.nodup_range'
  obtain ⟨walked, hrun, hcalls⟩ := exists_walkMirrors lookup _ hnodup []
  have hle : ∀ mirror, callsOf mirror walked.calls ≤ lookup.maxCalls := by
    intro mirror
    have h := hcalls mirror
    have hnone : callsOf mirror [] = 0 := rfl
    rw [hnone] at h
    split at h <;> omega
  have htime : lookup.timestamp = timestamp := rfl
  refine ⟨lookup.maxCalls, walked, fun turns hturns => ⟨hrun turns hturns, ?_⟩, fun hlate mirror => ?_,
    fun mirror => ?_⟩
  · have hcollect := collectRoots_walk s (hrun turns hturns)
    rw [mirroredRootContainingLeaf]
    exact Effect.bind_of_ok hcollect
  · have hlast : lookup.lastTimestamp ≤ timestamp + settings.maxRootLagSeconds := by
      have hdenied : lookup.lateRootAllowed = false := hlate
      rw [lastTimestamp, hdenied]
      exact min_le_left _ _
    have hmirror := hle mirror
    unfold maxCalls at hmirror
    omega
  · have hlast : lookup.lastTimestamp ≤ maxProtocolTimestamp := by
      unfold lastTimestamp
      split
      · exact min_le_right _ _
      · exact le_rfl
    have hmirror := hle mirror
    unfold maxCalls at hmirror
    omega

/-! ## A late root -/

/-- A mirror with an early and a late root. -/
def twoRoots (root heartbeat : MirroredRoot crypto) : RootsAt crypto := fun _ _ timestamp =>
  if timestamp ≤ root.timestamp then .ok root
  else if timestamp ≤ heartbeat.timestamp then .ok heartbeat
  else .error "mirror has no historical root for timestamp"

/-- A verifier of one mirror that expects a key. -/
def lateConfig (publicKey : String) : VerifierConfig :=
  { VerifierConfig.plainConfig publicKey with minMirrors := 1, mirrorIdentities := ["mirror-a"] }

/-- Before any record about the key, the roots of the operator are accepted. -/
theorem verify_lateConfig (operator : HonestOperator crypto) {root : MirroredRoot crypto}
    (hroot : root ∈ operator.roots) :
    (lateConfig operator.publicKey).verifySignedRootForLineage ObservedRoots.empty root = .ok () := by
  obtain ⟨hlog, hkey⟩ := operator.signer root hroot
  rw [VerifierConfig.verifySignedRootForLineage, operator.verified root hroot, Check.ok_bind]
  by_cases hempty : operator.publicKey = ""
  · have hnone : (lateConfig operator.publicKey).configuredKey = none := by
      show (if operator.publicKey = "" then none else some (Text.strip operator.publicKey)) = none
      exact if_pos hempty
    rw [hnone]
    rfl
  · have hsome : (lateConfig operator.publicKey).configuredKey = some (Text.strip operator.publicKey) := by
      show (if operator.publicKey = "" then none else some (Text.strip operator.publicKey)) = _
      exact if_neg hempty
    have hlogKey : logIdFromPublicKey crypto (Text.strip operator.publicKey)
        = logIdFromPublicKey crypto operator.publicKey := by
      rw [logIdFromPublicKey, logIdFromPublicKey, Text.strip_strip]
    rw [hsome]
    dsimp only
    rw [if_pos ⟨hlog.trans hlogKey.symm, hkey⟩]
    rfl

/-- A feed that saw the message at once allows a late root. -/
theorem exists_lateRootAllowed (crypto : Crypto) : ∃ (witnesses : List Json) (messageHash : String),
    recoveryWitnessesAllowLateRoot crypto ⟨0, 1, none⟩ witnesses messageHash 100 = true := by
  obtain ⟨keys, -⟩ := KeyPair.exists_of_seed crypto (List.replicate 32 0) List.length_replicate
  have hhash : IsHex32 (Text.hex (List.replicate 32 0)) := isHex32_hex List.length_replicate
  obtain ⟨w, -, hread, hvouches⟩ := @RecoveryWitness.exists_makeRecoveryWitness _ keys _ _ hhash hhash
    "feed-a" (by decide) 100 100 0 (by decide) (by decide) (by decide) (by decide)
  obtain ⟨result, hresult⟩ : ∃ result, RecoveryWitness.recoveryWitnessQuorum crypto [w.toJson]
      (Text.hex (List.replicate 32 0)) 100 1 0 none = .ok result := by
    refine @RecoveryWitness.exists_quorum _ _ _ _ _ _ 1 hhash
      [(Text.strip "feed-a", keys.publicKey)] (List.nodup_singleton _) le_rfl fun id hid => ?_
    rw [List.mem_singleton] at hid
    subst hid
    exact ⟨w.toJson, List.mem_singleton_self _, w, hread, hvouches⟩
  have hne : ¬ ([w.toJson] = [] ∨ Text.hex (List.replicate 32 0) = "") := by
    rintro (h | h)
    · exact List.cons_ne_nil _ _ h
    · exact absurd h (by decide)
  refine ⟨[w.toJson], Text.hex (List.replicate 32 0), ?_⟩
  rw [recoveryWitnessesAllowLateRoot, if_neg hne, hresult]
  rfl

/-- With a late root allowed, a mirror with two roots that do not contain the leaf is called three times,
although the lag is zero. -/
theorem not_callsOf_le_lag : ¬ ∀ (crypto : Crypto) (config : VerifierConfig)
    (settings : LateRootSettings) (rootAt : RootsAt crypto) (timestamp leafIndex : Int)
    (recoveryWitnesses : List Json) (recoveryMessageHash : String) (s : VerifierState crypto),
    0 ≤ settings.maxRootLagSeconds →
    (∀ question mirror time root, rootAt question mirror time = .ok root →
      config.verifySignedRootForLineage s.store root = .ok ()) →
    ∃ bound walked,
      (∀ turns, bound ≤ turns →
        walkContainingLeaf config rootAt (some settings.maxRootLagSeconds) turns timestamp leafIndex
          (recoveryWitnessesAllowLateRoot crypto settings recoveryWitnesses recoveryMessageHash timestamp) s
            = some walked) ∧
      ∀ mirror, (callsOf mirror walked.calls : Int) ≤ settings.maxRootLagSeconds + 2 := by
  intro hall
  obtain ⟨operator, root, heartbeat, hroots, hroot, hheartbeat⟩ := MirroredBundles.exists_heartbeat
  have hmem : root ∈ operator.roots ∧ heartbeat ∈ operator.roots := by simp [hroots]
  have htime : root.timestamp = 100 ∧ heartbeat.timestamp = 1000 := by
    rw [hroot, hheartbeat]
    exact ⟨rfl, rfl⟩
  have hsize : root.treeSize = 1 ∧ heartbeat.treeSize = 1 := by
    rw [hroot, hheartbeat]
    exact ⟨rfl, rfl⟩
  obtain ⟨witnesses, messageHash, hlate⟩ := exists_lateRootAllowed MirroredBundles.parityCrypto
  have hsigned : ∀ question mirror time found, twoRoots root heartbeat question mirror time = .ok found →
      (lateConfig operator.publicKey).verifySignedRootForLineage ObservedRoots.empty found = .ok () := by
    intro question mirror time found h
    unfold twoRoots at h
    split at h
    · obtain rfl := Except.ok.inj h
      exact verify_lateConfig operator hmem.1
    split at h
    · obtain rfl := Except.ok.inj h
      exact verify_lateConfig operator hmem.2
    · exact nomatch h
  obtain ⟨bound, walked, hrun, hle⟩ := hall MirroredBundles.parityCrypto (lateConfig operator.publicKey)
    ⟨0, 1, none⟩ (twoRoots root heartbeat) 100 5 witnesses messageHash ⟨ObservedRoots.empty, [], [], 0⟩ le_rfl
    hsigned
  let lookup : LeafLookup MirroredBundles.parityCrypto :=
    ⟨lateConfig operator.publicKey, ObservedRoots.empty, twoRoots root heartbeat, 0, 100, 6, some 0, true⟩
  -- The first root is asked for at its time, the second one behind it, and there is none behind that.
  have hfirst : lookup.usableRoot 0 ⟨100, [], []⟩ = .ok root :=
    usableRoot_eq_ok.2 ⟨if_pos (by rw [htime.1]), verify_lateConfig operator hmem.1, List.not_mem_nil,
      by rw [htime.1]; exact Int.le_refl 0, Or.inl rfl⟩
  have hsecond : lookup.usableRoot 0 ⟨101, [100], [⟨0, 100⟩]⟩ = .ok heartbeat := by
    refine usableRoot_eq_ok.2 ⟨?_, verify_lateConfig operator hmem.2, ?_, ?_, Or.inl rfl⟩
    · show (if (101 : Int) ≤ root.timestamp then _ else _) = _
      rw [htime.1, htime.2]
      rfl
    · rw [htime.2]
      decide
    · show 0 ≤ heartbeat.timestamp - 100
      rw [htime.2]
      decide
  have hthird : lookup.usableRoot 0 ⟨1001, [1000, 100], [⟨0, 101⟩, ⟨0, 100⟩]⟩
      = .error "mirror has no historical root for timestamp" := by
    have hanswer : lookup.rootAt (lookup.questions + 2) 0 1001
        = .error "mirror has no historical root for timestamp" := by
      show (if (1001 : Int) ≤ root.timestamp then _ else _) = _
      rw [htime.1, htime.2]
      rfl
    rw [usableRoot]
    show (lookup.rootAt (lookup.questions + 2) 0 1001 >>= _) = _
    rw [hanswer]
    rfl
  have hwalk : lookup.walkMirror (bound + 3) 0 [] = some (.error
      "mirror has no historical root for timestamp", [⟨0, 1001⟩, ⟨0, 101⟩, ⟨0, 100⟩]) := by
    have hturn1 : lookup.turn 0 ⟨100, [], []⟩ = .inr ⟨101, [100], [⟨0, 100⟩]⟩ := by
      have h := turn_next hfirst (show root.treeSize < 6 by rw [hsize.1]; decide)
      rw [htime.1] at h
      exact h
    have hturn2 : lookup.turn 0 ⟨101, [100], [⟨0, 100⟩]⟩
        = .inr ⟨1001, [1000, 100], [⟨0, 101⟩, ⟨0, 100⟩]⟩ := by
      have h := turn_next hsecond (show heartbeat.treeSize < 6 by rw [hsize.2]; decide)
      rw [htime.2] at h
      exact h
    have hturn3 : lookup.turn 0 ⟨1001, [1000, 100], [⟨0, 101⟩, ⟨0, 100⟩]⟩ = .inl (.error
        "mirror has no historical root for timestamp", [⟨0, 1001⟩, ⟨0, 101⟩, ⟨0, 100⟩]) := by
      rw [turn, hthird]
    show (Loops.run (lookup.turn 0) (bound + 2 + 1) ⟨100, [], []⟩).map Prod.fst = _
    rw [Loops.run_next hturn1, Loops.run_next hturn2, Loops.run_last hturn3]
    rfl
  have hwalked : lookup.walkMirrors (bound + 3) [("mirror-a", 0)] [] = some
      ⟨[], ["mirror has no historical root for timestamp"], [⟨0, 1001⟩, ⟨0, 101⟩, ⟨0, 100⟩]⟩ := by
    rw [walkMirrors, hwalk]
    rfl
  have hcalls : walked.calls = [⟨0, 1001⟩, ⟨0, 101⟩, ⟨0, 100⟩] := by
    have h := hrun (bound + 3) (by omega)
    rw [hlate] at h
    obtain rfl := Option.some.inj (hwalked.symm.trans h)
    rfl
  have hthree := hle 0
  rw [hcalls] at hthree
  exact absurd hthree (by decide)

end Bound

end MirrorWalk
