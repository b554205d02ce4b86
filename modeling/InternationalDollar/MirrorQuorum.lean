import InternationalDollar.MirrorDisagreement

set_option autoImplicit false

/-! # The quorum behind a mirrored root

The three lookups of the verifier ask every mirror, require `min_mirrors` usable answers that do not
contradict each other, and then take the newest or the earliest of them. Answers of different tree sizes
do not contradict each other, so the root that is taken need not be the answer of more than one mirror.
It is that of a quorum exactly where enough answers have its tree size. -/

/-- `str(exc)`. -/
def VerifierError.message : VerifierError → String
  | .consistencyProof message | .mirrorDisagreement message | .other message => message

namespace TransparencyVerifier

open Effect

variable {crypto : Crypto}

/-! ## The lookups -/

/-- `sorted(roots, key=(tree_size, timestamp))[-1]`. -/
def newestRoot (roots : List (MirroredRoot crypto)) : Option (MirroredRoot crypto) :=
  roots.reverse.argmax fun root => (toLex (root.treeSize, root.timestamp) : Int ×ₗ Int)

/-- `sorted(roots, key=(timestamp, tree_size))[0]`. -/
def earliestRoot (roots : List (MirroredRoot crypto)) : Option (MirroredRoot crypto) :=
  roots.argmin MirroredRoot.order

/-- `current_mirrored_root`. -/
def currentMirroredRoot (config : VerifierConfig) (world : World crypto) (depth : Nat)
    (now : Option Int) : Verifying crypto (MirroredRoot crypto) := do
  let roots ← currentRootsFromMirrors config world depth now "current verification"
  check (Check.ofOption (newestRoot roots) "list index out of range")

/-- The loop over the mirrors in the lookups by time, in which every error of a mirror is noted. A mirror
    that keeps the loop busy for ever yields `none`. -/
def collectRoots (fromMirror : Nat → Verifying crypto (Option (MirroredRoot crypto))) :
    List (String × Nat) → Verifying crypto (List (String × MirroredRoot crypto) × List String)
  | [] => pure ([], [])
  | (identity, mirror) :: rest => do
      let result ← attempt (fromMirror mirror)
      match result with
      | .error e => do
          let (roots, errors) ← collectRoots fromMirror rest
          pure (roots, e.message :: errors)
      | .ok none => raise (.other "the request does not end")
      | .ok (some root) => do
          let (roots, errors) ← collectRoots fromMirror rest
          pure ((identity, root) :: roots, errors)

/-- The text behind the message that there are not enough mirrors. -/
def shortageDetail (errors : List String) : String :=
  if errors = [] then "no mirrors configured" else String.intercalate "; " errors

/-- What mirrors answer to a request for the root at some time, by the number of the question. -/
abbrev RootsAt (crypto : Crypto) : Type :=
  Nat → Nat → Int → Except String (MirroredRoot crypto)

/-- The request of `mirrored_root_for_timestamp` to one mirror. -/
def rootAtFromMirror (config : VerifierConfig) (rootAt : RootsAt crypto) (timestamp : Int)
    (mirror : Nat) : Verifying crypto (Option (MirroredRoot crypto)) := do
  let answer ← ask fun n => rootAt n mirror timestamp
  let root ← check answer
  let verified ← readStore fun store => config.verifySignedRootForLineage store root
  check verified
  pure (some root)

/-- The candidates of `mirrored_root_for_timestamp`. -/
def closeEnough (maxRootLag : Option Int) (timestamp : Int) (roots : List (MirroredRoot crypto)) :
    List (MirroredRoot crypto) :=
  roots.filter fun root => 0 ≤ root.timestamp - timestamp ∧
    ∀ limit ∈ maxRootLag, root.timestamp - timestamp ≤ limit

/-- `mirrored_root_for_timestamp`. -/
def mirroredRootForTimestamp (config : VerifierConfig) (world : World crypto) (rootAt : RootsAt crypto)
    (maxRootLag : Option Int) (depth : Nat) (timestamp : Int) : Verifying crypto (MirroredRoot crypto) := do
  let (roots, errors) ← collectRoots (rootAtFromMirror config rootAt timestamp)
    config.mirrorIdentities.zipIdx
  let observed ← observeHistoricalRoots config world depth roots
    ("not enough usable transparency root mirrors: " ++ shortageDetail errors)
  check (Check.ofOption (earliestRoot (closeEnough maxRootLag timestamp observed))
    "no mirrored transparency root close enough to transfer timestamp")

/-- The requests of `mirrored_root_containing_leaf` to one mirror, up to a number of turns. -/
def rootContainingLeafFromMirror (config : VerifierConfig) (rootAt : RootsAt crypto)
    (maxRootLag : Option Int) (lateRootAllowed : Bool) (timestamp minTreeSize : Int) (mirror : Nat) :
    Nat → Int → List Int → Verifying crypto (Option (MirroredRoot crypto))
  | 0, _, _ => pure none
  | turns + 1, nextTimestamp, seenTimestamps => do
      let answer ← ask fun n => rootAt n mirror nextTimestamp
      let root ← check answer
      let verified ← readStore fun store => config.verifySignedRootForLineage store root
      check verified
      check (Check.require (root.timestamp ∉ seenTimestamps)
        "mirror returned the same root repeatedly")
      check (Check.require (0 ≤ root.timestamp - timestamp)
        "mirror returned a root before the requested timestamp")
      check (Check.require (lateRootAllowed = true ∨
        ∀ limit ∈ maxRootLag, root.timestamp - timestamp ≤ limit)
        "no mirrored transparency root close enough to transfer timestamp")
      if minTreeSize ≤ root.treeSize then pure (some root)
      else
        rootContainingLeafFromMirror config rootAt maxRootLag lateRootAllowed timestamp minTreeSize mirror
          turns (root.timestamp + 1) (root.timestamp :: seenTimestamps)

/-- `mirrored_root_containing_leaf`. `lateRootAllowed` is what `_recovery_witnesses_allow_late_root`
    says about the recovery witnesses. -/
def mirroredRootContainingLeaf (config : VerifierConfig) (world : World crypto)
    (rootAt : RootsAt crypto) (maxRootLag : Option Int) (depth turns : Nat) (timestamp leafIndex : Int)
    (lateRootAllowed : Bool) : Verifying crypto (MirroredRoot crypto) := do
  let (roots, errors) ← collectRoots (fun mirror => rootContainingLeafFromMirror config rootAt maxRootLag
    lateRootAllowed timestamp (leafIndex + 1) mirror turns timestamp []) config.mirrorIdentities.zipIdx
  let observed ← observeHistoricalRoots config world depth roots
    ("not enough usable transparency root mirrors containing leaf: " ++ shortageDetail errors)
  check (Check.ofOption (earliestRoot observed) "list index out of range")

/-! ## The answers of the mirrors -/

/-- The usable answers that a loop over the mirrors collects, with the identities of the mirrors. -/
def answersOf (collect : Verifying crypto (List (String × MirroredRoot crypto) × List String))
    (s : VerifierState crypto) : List (String × MirroredRoot crypto) :=
  match (collect s).1 with
  | .ok (roots, _) => roots
  | .error _ => []

/-- The usable answers of `current_mirrored_root`. -/
def currentAnswers (config : VerifierConfig) (world : World crypto) (now : Option Int)
    (s : VerifierState crypto) : List (String × MirroredRoot crypto) :=
  answersOf (do
    let now ← currentTime world now
    collectCurrentRoots config world now config.mirrorIdentities.zipIdx) s

/-- The usable answers of `mirrored_root_for_timestamp`. -/
def answersAt (config : VerifierConfig) (rootAt : RootsAt crypto) (timestamp : Int)
    (s : VerifierState crypto) : List (String × MirroredRoot crypto) :=
  answersOf (collectRoots (rootAtFromMirror config rootAt timestamp) config.mirrorIdentities.zipIdx) s

/-- The usable answers of `mirrored_root_containing_leaf`. -/
def answersContaining (config : VerifierConfig) (rootAt : RootsAt crypto) (maxRootLag : Option Int)
    (turns : Nat) (timestamp leafIndex : Int) (lateRootAllowed : Bool) (s : VerifierState crypto) :
    List (String × MirroredRoot crypto) :=
  answersOf (collectRoots (fun mirror => rootContainingLeafFromMirror config rootAt maxRootLag
    lateRootAllowed timestamp (leafIndex + 1) mirror turns timestamp [])
    config.mirrorIdentities.zipIdx) s

/-- Each mirror has one answer at most. -/
theorem identities_collectRoots {fromMirror : Nat → Verifying crypto (Option (MirroredRoot crypto))}
    {mirrors : List (String × Nat)} {s s' : VerifierState crypto}
    {result : List (String × MirroredRoot crypto) × List String}
    (h : collectRoots fromMirror mirrors s = (.ok result, s')) :
    (result.1.map Prod.fst).Sublist (mirrors.map Prod.fst) := by
  induction mirrors generalizing s s' result with
  | nil =>
    rw [collectRoots, pure_eq_ok] at h
    rw [← h.1]
    exact List.Sublist.refl _
  | cons mirror rest ih =>
    rw [collectRoots, bind_eq_ok] at h
    obtain ⟨answer, u, -, h⟩ := h
    match answer, h with
    | .error e, h =>
      obtain ⟨tail, v, htail, h⟩ := bind_eq_ok.1 h
      rw [← (pure_eq_ok.1 h).1]
      exact (ih htail).cons _
    | .ok none, h => exact nomatch h
    | .ok (some root), h =>
      obtain ⟨tail, v, htail, h⟩ := bind_eq_ok.1 h
      rw [← (pure_eq_ok.1 h).1]
      exact (ih htail).cons_cons _

theorem identities_collectCurrentRoots {config : VerifierConfig} {world : World crypto} {now : Int}
    {mirrors : List (String × Nat)} {s s' : VerifierState crypto}
    {result : List (String × MirroredRoot crypto) × List String}
    (h : collectCurrentRoots config world now mirrors s = (.ok result, s')) :
    (result.1.map Prod.fst).Sublist (mirrors.map Prod.fst) := by
  induction mirrors generalizing s s' result with
  | nil =>
    rw [collectCurrentRoots, pure_eq_ok] at h
    rw [← h.1]
    exact List.Sublist.refl _
  | cons mirror rest ih =>
    rw [collectCurrentRoots, bind_eq_ok] at h
    obtain ⟨answer, u, -, h⟩ := h
    match answer, h with
    | .error (.other message), h =>
      obtain ⟨tail, v, htail, h⟩ := bind_eq_ok.1 h
      rw [← (pure_eq_ok.1 h).1]
      exact (ih htail).cons _
    | .error (.consistencyProof message), h => exact nomatch h
    | .error (.mirrorDisagreement message), h => exact nomatch h
    | .ok root, h =>
      obtain ⟨tail, v, htail, h⟩ := bind_eq_ok.1 h
      rw [← (pure_eq_ok.1 h).1]
      exact (ih htail).cons_cons _

/-! ## What was checked of the answers -/

open MirrorDisagreement (Agree)

theorem check_eq_ok {α : Type} {x : Except String α} {a : α} {s s' : VerifierState crypto} :
    check x s = (.ok a, s') ↔ x = .ok a ∧ s = s' := by
  cases x with
  | ok b =>
    show (Except.ok b, s) = (Except.ok a, s') ↔ _
    rw [Prod.mk.injEq, Except.ok.injEq, Except.ok.injEq]
  | error message =>
    show (Except.error _, s) = (Except.ok a, s') ↔ _
    simp

/-- The answers of a lookup that returns: enough of them, from different mirrors, and without a
    contradiction. -/
structure Accepted (config : VerifierConfig) (answers : List (String × MirroredRoot crypto)) : Prop where
  enough : config.minMirrors ≤ answers.length
  nodup : (answers.map Prod.fst).Nodup
  agree : ∀ a ∈ answers.map Prod.snd, ∀ b ∈ answers.map Prod.snd, Agree a b

theorem accepted_of_acceptMirrorRoots {config : VerifierConfig}
    {observe : MirroredRoot crypto → String → Verifying crypto (MirroredRoot crypto)}
    {answers : List (String × MirroredRoot crypto)} {shortage : String} {s s' : VerifierState crypto}
    {roots : List (MirroredRoot crypto)}
    (h : acceptMirrorRoots config observe answers shortage s = (.ok roots, s'))
    (hnodup : (answers.map Prod.fst).Nodup) :
    Accepted config answers ∧ roots = answers.map Prod.snd := by
  obtain ⟨_, _, henough, h⟩ := bind_eq_ok.1 h
  obtain ⟨_, _, hdetect, h⟩ := bind_eq_ok.1 h
  obtain ⟨_, _, -, h⟩ := bind_eq_ok.1 h
  have hok : RootVerifier.detectMirrorDisagreement config.acceptLegacy [] (answers.map Prod.snd)
      = .ok () := by
    have hlift := congrArg Prod.fst hdetect
    cases hd : RootVerifier.detectMirrorDisagreement config.acceptLegacy [] (answers.map Prod.snd) with
    | ok u => rfl
    | error message =>
      rw [hd] at hlift
      exact nomatch hlift
  refine ⟨⟨?_, hnodup, MirrorDisagreement.agree_of_rootVerifier_detect hok⟩, ?_⟩
  · exact Check.require_eq_ok.1 (check_eq_ok.1 henough).1
  · exact (pure_eq_ok.1 h).1.symm

/-! ## Mirrors that back a root -/

/-- Two roots have the same tree size, root hash and spend-map root. -/
def SameTree (a b : MirroredRoot crypto) : Prop :=
  a.treeSize = b.treeSize ∧ a.rootHash = b.rootHash ∧ a.spendMapRoot = b.spendMapRoot

instance (a b : MirroredRoot crypto) : Decidable (SameTree a b) :=
  inferInstanceAs (Decidable (_ ∧ _))

/-- At least so many mirrors with different identities answered with the tree of the root. -/
def Backed (minMirrors : Nat) (answers : List (String × MirroredRoot crypto))
    (root : MirroredRoot crypto) : Prop :=
  ∃ backing : List String, backing.Nodup ∧ minMirrors ≤ backing.length ∧
    ∀ identity ∈ backing, ∃ answer, (identity, answer) ∈ answers ∧ SameTree answer root

/-- At least so many answers have the tree size of a root. Answers of other logs count only where they
    have its hashes, too. -/
def EnoughOfSize (minMirrors : Nat) (answers : List (String × MirroredRoot crypto))
    (root : MirroredRoot crypto) : Prop :=
  minMirrors ≤ (answers.filter fun answer => answer.2.treeSize = root.treeSize ∧
    (answer.2.logId ≠ root.logId → answer.2.rootHash = root.rootHash ∧
      answer.2.spendMapRoot = root.spendMapRoot)).length

theorem backed_iff {minMirrors : Nat} {answers : List (String × MirroredRoot crypto)}
    {root : MirroredRoot crypto} (hnodup : (answers.map Prod.fst).Nodup) :
    Backed minMirrors answers root ↔
      minMirrors ≤ (answers.filter fun answer => SameTree answer.2 root).length := by
  constructor
  · rintro ⟨backing, hbacking, hlength, hanswers⟩
    have hsubset : backing ⊆ (answers.filter fun answer => SameTree answer.2 root).map Prod.fst := by
      intro identity hidentity
      obtain ⟨answer, hanswer, hsame⟩ := hanswers identity hidentity
      exact List.mem_map.2 ⟨(identity, answer), List.mem_filter.2 ⟨hanswer, decide_eq_true hsame⟩, rfl⟩
    have hle := (List.subperm_of_subset hbacking hsubset).length_le
    rw [List.length_map] at hle
    exact hlength.trans hle
  · intro hlength
    refine ⟨(answers.filter fun answer => SameTree answer.2 root).map Prod.fst,
      hnodup.sublist (List.filter_sublist.map _), by rwa [List.length_map], ?_⟩
    intro identity hidentity
    obtain ⟨answer, hanswer, rfl⟩ := List.mem_map.1 hidentity
    obtain ⟨hmem, hsame⟩ := List.mem_filter.1 hanswer
    exact ⟨answer.2, hmem, of_decide_eq_true hsame⟩

/-- Among answers without a contradiction those of one tree size are of one tree. -/
theorem Accepted.backed_iff {config : VerifierConfig} {answers : List (String × MirroredRoot crypto)}
    {root : MirroredRoot crypto} (h : Accepted config answers) (hroot : root ∈ answers.map Prod.snd) :
    Backed config.minMirrors answers root ↔ EnoughOfSize config.minMirrors answers root := by
  rw [TransparencyVerifier.backed_iff h.nodup, EnoughOfSize]
  have hsame : ∀ answer ∈ answers, decide (SameTree answer.2 root)
      = decide (answer.2.treeSize = root.treeSize ∧ (answer.2.logId ≠ root.logId →
        answer.2.rootHash = root.rootHash ∧ answer.2.spendMapRoot = root.spendMapRoot)) := by
    intro answer hanswer
    refine decide_eq_decide.2 (and_congr_right fun hsize => ⟨fun hhashes _ => hhashes, fun hother => ?_⟩)
    by_cases hlog : answer.2.logId = root.logId
    · have hfingerprint := (h.agree _ (List.mem_map_of_mem hanswer) root hroot).2 hlog hsize
      simp only [MirroredRoot.fingerprint, Prod.mk.injEq] at hfingerprint
      exact ⟨hfingerprint.2.1, hfingerprint.2.2.1⟩
    · exact hother hlog
  rw [List.filter_congr hsame]

/-! ## The lookups return such roots -/

variable {config : VerifierConfig} {world : World crypto} {rootAt : RootsAt crypto}
  {maxRootLag : Option Int} {depth turns : Nat} {s s' : VerifierState crypto} {root : MirroredRoot crypto}

theorem newestRoot_mem {roots : List (MirroredRoot crypto)} (h : newestRoot roots = some root) :
    root ∈ roots :=
  List.mem_reverse.1 (List.argmax_mem h)

theorem earliestRoot_mem {roots : List (MirroredRoot crypto)} (h : earliestRoot roots = some root) :
    root ∈ roots :=
  List.argmin_mem h

theorem currentMirroredRoot_eq_ok {now : Option Int} (hnodup : config.mirrorIdentities.Nodup)
    (h : currentMirroredRoot config world depth now s = (.ok root, s')) :
    Accepted config (currentAnswers config world now s) ∧
      newestRoot ((currentAnswers config world now s).map Prod.snd) = some root := by
  obtain ⟨roots, u, hroots, h⟩ := bind_eq_ok.1 h
  obtain ⟨time, v, htime, hroots⟩ := bind_eq_ok.1 hroots
  obtain ⟨⟨answers, errors⟩, w, hcollect, hroots⟩ := bind_eq_ok.1 hroots
  have hanswers : currentAnswers config world now s = answers := by
    rw [currentAnswers, answersOf, bind_of_ok htime, hcollect]
  have hdistinct : (answers.map Prod.fst).Nodup := by
    have hsub := identities_collectCurrentRoots hcollect
    rw [List.zipIdx_map_fst] at hsub
    exact hnodup.sublist hsub
  obtain ⟨haccepted, rfl⟩ := accepted_of_acceptMirrorRoots hroots hdistinct
  rw [hanswers]
  exact ⟨haccepted, Check.ofOption_eq_ok.1 (check_eq_ok.1 h).1⟩

/-- The answers of the lookups by time. -/
theorem accepted_of_collectRoots {fromMirror : Nat → Verifying crypto (Option (MirroredRoot crypto))}
    {answers : List (String × MirroredRoot crypto)} {errors : List String} {shortage : String}
    {observed : List (MirroredRoot crypto)} {u v : VerifierState crypto}
    (hnodup : config.mirrorIdentities.Nodup)
    (hcollect : collectRoots fromMirror config.mirrorIdentities.zipIdx s = (.ok (answers, errors), u))
    (hobserved : observeHistoricalRoots config world depth answers shortage u = (.ok observed, v)) :
    answersOf (collectRoots fromMirror config.mirrorIdentities.zipIdx) s = answers ∧
      Accepted config answers ∧ observed = answers.map Prod.snd := by
  have hdistinct : (answers.map Prod.fst).Nodup := by
    have hsub := identities_collectRoots hcollect
    rw [List.zipIdx_map_fst] at hsub
    exact hnodup.sublist hsub
  refine ⟨?_, accepted_of_acceptMirrorRoots hobserved hdistinct⟩
  rw [answersOf, hcollect]

theorem mirroredRootForTimestamp_eq_ok {timestamp : Int} (hnodup : config.mirrorIdentities.Nodup)
    (h : mirroredRootForTimestamp config world rootAt maxRootLag depth timestamp s = (.ok root, s')) :
    Accepted config (answersAt config rootAt timestamp s) ∧
      earliestRoot (closeEnough maxRootLag timestamp
        ((answersAt config rootAt timestamp s).map Prod.snd)) = some root := by
  obtain ⟨⟨answers, errors⟩, u, hcollect, h⟩ := bind_eq_ok.1 h
  obtain ⟨observed, v, hobserved, h⟩ := bind_eq_ok.1 h
  obtain ⟨hanswers, haccepted, rfl⟩ := accepted_of_collectRoots hnodup hcollect hobserved
  rw [answersAt, hanswers]
  exact ⟨haccepted, Check.ofOption_eq_ok.1 (check_eq_ok.1 h).1⟩

theorem mirroredRootContainingLeaf_eq_ok {timestamp leafIndex : Int} {late : Bool}
    (hnodup : config.mirrorIdentities.Nodup)
    (h : mirroredRootContainingLeaf config world rootAt maxRootLag depth turns timestamp leafIndex late s
      = (.ok root, s')) :
    Accepted config (answersContaining config rootAt maxRootLag turns timestamp leafIndex late s) ∧
      earliestRoot ((answersContaining config rootAt maxRootLag turns timestamp leafIndex late s).map
        Prod.snd) = some root := by
  obtain ⟨⟨answers, errors⟩, u, hcollect, h⟩ := bind_eq_ok.1 h
  obtain ⟨observed, v, hobserved, h⟩ := bind_eq_ok.1 h
  obtain ⟨hanswers, haccepted, rfl⟩ := accepted_of_collectRoots hnodup hcollect hobserved
  rw [answersContaining, hanswers]
  exact ⟨haccepted, Check.ofOption_eq_ok.1 (check_eq_ok.1 h).1⟩

/-- Roots that a verifier without an expected operator accepts side by side. -/
structure Compatible (config : VerifierConfig) (roots : List (MirroredRoot crypto)) : Prop where
  verified : ∀ root ∈ roots, root.verifySignedRoot crypto config.acceptLegacy none = .ok ()
  collisionType : ∀ a ∈ roots, ∀ b ∈ roots, RootVerifier.equivocationCollisionType a b = none
  rootHash : ∀ a ∈ roots, ∀ b ∈ roots, a.treeSize = b.treeSize → a.rootHash = b.rootHash
  agree : ∀ a ∈ roots, ∀ b ∈ roots, Agree a b

/-- A verifier without an expected operator and outside of strict mode, of which no operator answers
    requests for consistency proofs. -/
structure Lenient (config : VerifierConfig) (world : World crypto) : Prop where
  key : config.operatorPublicKey = none
  strict : config.strictMode = false
  proof : ∀ n a b, world.consistencyProof n a b = .error "timed out"

/-- The store holds some of the roots only, and no log is blacklisted. -/
structure Quiet (roots : List (MirroredRoot crypto)) (store : ObservedRoots crypto) : Prop where
  stores : ∀ root, store.Stores root → root ∈ roots
  notBlacklisted : ∀ logId, ¬ store.Blacklisted logId

variable {roots : List (MirroredRoot crypto)}

theorem ask_eq {α : Type} (question : Nat → α) (s : VerifierState crypto) :
    ask question s = (.ok (question s.questions), { s with questions := s.questions + 1 }) :=
  rfl

theorem attempt_eq {α : Type} {x : Verifying crypto α} {result : Except VerifierError α}
    (h : x s = (result, s')) : attempt x s = (.ok result, s') := by
  rw [attempt, h]

theorem quiet_empty : Quiet roots (ObservedRoots.empty : ObservedRoots crypto) where
  stores root h := by
    rcases h with ⟨row, hrow, -⟩ | ⟨row, hrow, -⟩
    · cases hrow
    · cases hrow
  notBlacklisted logId h := by
    obtain ⟨row, hrow, -⟩ := h
    cases hrow

theorem Quiet.recordConsistent (h : Quiet roots s.store) (hroot : root ∈ roots) (identity : String)
    (now : Int) :
    ∃ s', recordConsistent root identity now s = (.ok (), s') ∧ Quiet roots s'.store := by
  let store := (s.store.recordRoot root identity).markActive root.logId root.operatorPublicKey now
  refine ⟨{ s with store := store }, rfl, ?_, ?_⟩
  · intro other hother
    rcases ObservedRoots.stores_recordRoot (ObservedRoots.stores_upsertStatus.1 hother) with hold | rfl
    · exact h.stores other hold
    · exact hroot
  · intro logId
    have hbefore : ¬ (s.store.recordRoot root identity).Blacklisted logId := by
      rw [ObservedRoots.Blacklisted, ObservedRoots.status_recordRoot]
      exact h.notBlacklisted logId
    refine ObservedRoots.not_blacklisted_upsertStatus hbefore (fun _ hstatus => nomatch hstatus) ?_
    exact fun _ _ _ hstatus => nomatch hstatus

theorem Quiet.markUnresponsive {store : ObservedRoots crypto} (h : Quiet roots store)
    (logId key reason : String) (now : Int) :
    Quiet roots (store.markUnresponsive logId key reason now) where
  stores root hroot := h.stores root (ObservedRoots.stores_upsertStatus.1 hroot)
  notBlacklisted other := ObservedRoots.not_blacklisted_markUnresponsive (h.notBlacklisted other) _ _ _ _

theorem Quiet.status_ne {store : ObservedRoots crypto} (h : Quiet roots store) (logId : String) :
    (store.status logId).map OperatorStatus.status ≠ some .blacklisted := by
  intro hstatus
  obtain ⟨row, hrow, hblacklisted⟩ := Option.map_eq_some_iff.1 hstatus
  exact h.notBlacklisted logId ⟨row, hrow, hblacklisted⟩

theorem Quiet.enforce (h : Quiet roots s.store) (hlenient : Lenient config world)
    (refresh : String → Verifying crypto Bool) (logId : String) :
    enforceConsistencyFreshness config world refresh logId s = (.ok (), s) := by
  refine (bind_of_ok (readStore_eq rfl)).trans ?_
  rw [if_neg (h.status_ne logId), if_pos hlenient.strict]
  rfl

theorem Quiet.findEquivocation (h : Quiet roots s.store) (hcompatible : Compatible config roots)
    (hroot : root ∈ roots) : s.store.findEquivocation root = none := by
  cases hfind : s.store.findEquivocation root with
  | none => rfl
  | some found =>
    obtain ⟨previous, collisionType⟩ := found
    obtain ⟨hstores, -, hcollides⟩ := ObservedRoots.findEquivocation_eq_some hfind
    rw [hcompatible.collisionType previous (h.stores previous hstores) root hroot] at hcollides
    exact nomatch hcollides

theorem checkConsistency_timedOut (hlenient : Lenient config world) (logId : String)
    (firstRoot secondRoot : MirroredRoot crypto) :
    (∃ s', checkConsistency config world logId firstRoot secondRoot s = (.ok (), s') ∧
      s'.store = s.store) ∨
    ∃ s', checkConsistency config world logId firstRoot secondRoot s
      = (.error (.other "timed out"), s') ∧ s'.store = s.store := by
  by_cases hmem : (⟨logId, firstRoot.treeSize, firstRoot.rootHash, secondRoot.treeSize,
      secondRoot.rootHash⟩ : PairKey) ∈ s.consistencyPairsChecked
  · refine Or.inl ⟨s, (bind_of_ok rfl).trans ?_, rfl⟩
    rw [if_pos hmem]
    rfl
  · refine Or.inr ⟨{ s with questions := s.questions + 1 }, (bind_of_ok rfl).trans ?_, rfl⟩
    rw [if_neg hmem]
    refine (bind_of_ok (ask_eq _ s)).trans ?_
    rw [hlenient.proof]
    rfl

/-- Such a verifier accepts a root that does not collide with those it has seen. -/
theorem Quiet.observeRoot (h : Quiet roots s.store) (hlenient : Lenient config world)
    (hcompatible : Compatible config roots) (hroot : root ∈ roots) (identity : String) :
    ∃ s', observeRoot config world (depth + 1) root identity s = (.ok root, s') ∧
      Quiet roots s'.store := by
  have hverified : config.verifySignedRootForLineage s.store root = .ok () := by
    simp only [VerifierConfig.verifySignedRootForLineage, VerifierConfig.configuredKey, hlenient.key,
      hcompatible.verified root hroot, Check.ok_bind]
    rfl
  have hlineage : config.lineageLogIdForRoot s.store root = root.logId := by
    simp only [VerifierConfig.lineageLogIdForRoot, VerifierConfig.configuredLogId,
      VerifierConfig.configuredKey, hlenient.key, Option.map_none]
  have hstatus : (s.store.status root.logId).or (s.store.status root.logId)
      = s.store.status root.logId := by
    cases s.store.status root.logId <;> rfl
  let t : VerifierState crypto := { s with questions := s.questions + 1 }
  have ht : Quiet roots t.store := h
  have hdetect : detectAndHandleEquivocation config world root t = (.ok (), t) :=
    (bind_of_ok (readStore_eq (ht.findEquivocation hcompatible hroot))).trans rfl
  unfold TransparencyVerifier.observeRoot observeRootWith
  rw [bind_of_ok (readStore_eq hverified), bind_of_ok (check_ok rfl _),
    bind_of_ok (ask_eq world.time s), bind_of_ok (readStore_eq hlineage),
    bind_of_ok (readStore_eq hstatus), if_neg (h.status_ne root.logId), bind_of_ok hdetect,
    bind_of_ok (readStore_eq rfl)]
  obtain ⟨recorded, hrecorded, hquiet⟩ := ht.recordConsistent hroot identity (world.time s.questions)
  cases hprevious : previousRoot t.store root.logId root.logId with
  | none => exact ⟨recorded, bind_of_ok hrecorded, hquiet⟩
  | some previous =>
    have hmem : previous ∈ roots := ht.stores previous (previousRoot_eq_some hprevious).1
    by_cases hsame : previous.treeSize = root.treeSize
    · have hhash := hcompatible.rootHash previous hmem root hroot hsame
      simp only [hsame, hhash, and_self, if_true]
      exact ⟨recorded, (bind_of_ok hrecorded).trans (bind_of_ok (hquiet.enforce hlenient _ _)), hquiet⟩
    · simp only [hsame, false_and, if_false]
      have hcheck : (∃ u, (if root.treeSize < previous.treeSize then
            checkConsistency config world root.logId root previous
          else checkConsistency config world root.logId previous root) t = (.ok (), u) ∧
            u.store = t.store) ∨
          ∃ u, (if root.treeSize < previous.treeSize then
            checkConsistency config world root.logId root previous
          else checkConsistency config world root.logId previous root) t
            = (.error (.other "timed out"), u) ∧ u.store = t.store := by
        split
        · exact checkConsistency_timedOut hlenient _ _ _
        · exact checkConsistency_timedOut hlenient _ _ _
      rcases hcheck with ⟨u, hu, hstore⟩ | ⟨u, hu, hstore⟩
      · rw [bind_of_ok (attempt_eq hu)]
        obtain ⟨recorded, hrecorded, hquiet⟩ := Quiet.recordConsistent (s := u) (hstore ▸ ht) hroot
          identity (world.time s.questions)
        exact ⟨recorded, bind_of_ok hrecorded, hquiet⟩
      · rw [bind_of_ok (attempt_eq hu)]
        have hquiet : Quiet roots (u.store.markUnresponsive root.logId root.operatorPublicKey "timed out"
            (world.time s.questions)) := by
          rw [hstore]
          exact ht.markUnresponsive _ _ _ _
        refine ⟨{ u with store := _ }, (bind_of_ok rfl).trans (bind_of_ok (hquiet.enforce hlenient _ _)), ?_⟩
        exact hquiet

/-- Such a verifier accepts the answers of its mirrors where these are enough and do not collide. -/
theorem Quiet.acceptMirrorRoots (h : Quiet roots s.store) (hlenient : Lenient config world)
    (hcompatible : Compatible config roots) {answers : List (String × MirroredRoot crypto)}
    (hanswers : ∀ answer ∈ answers, answer.2 ∈ roots) (henough : config.minMirrors ≤ answers.length)
    (shortage : String) :
    ∃ s', acceptMirrorRoots config (TransparencyVerifier.observeRoot config world (depth + 1)) answers
      shortage s = (.ok (answers.map Prod.snd), s') := by
  have hmem : ∀ root ∈ answers.map Prod.snd, root ∈ roots := by
    intro root hroot
    obtain ⟨answer, hanswer, rfl⟩ := List.mem_map.1 hroot
    exact hanswers answer hanswer
  have hdetect : RootVerifier.detectMirrorDisagreement config.acceptLegacy [] (answers.map Prod.snd)
      = .ok () := by
    refine (MirrorDisagreement.rootVerifier_detect_eq_ok (fun _ ha => absurd ha List.not_mem_nil)
      MirrorDisagreement.remembers_nil MirrorDisagreement.remembers_nil).2 ?_
    refine (MirrorDisagreement.detect_eq_ok fun root hroot =>
      hcompatible.verified root (hmem root hroot)).2 ?_
    exact fun a ha b hb => hcompatible.agree a (hmem a ha) b (hmem b hb)
  -- every answer is observed in turn
  have hobserved : ∀ t : VerifierState crypto, Quiet roots t.store →
      ∃ s', forEach (fun entry => do
        let _ ← TransparencyVerifier.observeRoot config world (depth + 1) entry.2 entry.1
        pure ()) answers t = (.ok (), s') := by
    clear henough hdetect hmem
    induction answers with
    | nil => exact fun t _ => ⟨t, rfl⟩
    | cons answer rest ih =>
      intro t ht
      obtain ⟨hanswer, hrest⟩ := List.forall_mem_cons.1 hanswers
      obtain ⟨u, hu, hquiet⟩ := ht.observeRoot hlenient hcompatible hanswer answer.1
      obtain ⟨s', hs'⟩ := ih hrest u hquiet
      let observe := fun entry : String × MirroredRoot crypto => (do
        let _ ← TransparencyVerifier.observeRoot config world (depth + 1) entry.2 entry.1
        pure () : Verifying crypto Unit)
      have hhead : observe answer t = (.ok (), u) := (bind_of_ok hu).trans rfl
      have hrun : forEach observe (answer :: rest) t = forEach observe rest u :=
        bind_of_ok (f := fun _ => forEach observe rest) hhead
      exact ⟨s', hrun.trans hs'⟩
  obtain ⟨s', hs'⟩ := hobserved s h
  refine ⟨s', (bind_of_ok (check_ok (Check.require_of henough _) _)).trans ?_⟩
  refine (bind_of_ok (a := ()) (t := s) ?_).trans (bind_of_ok hs')
  rw [hdetect]
  rfl

/-- A new verifier takes the current root of a mirror as it is. -/
theorem currentRootFromMirror_of_empty (hlenient : Lenient config world)
    (hstore : s.store = ObservedRoots.empty) {mirror : Nat} {now : Int}
    (hanswer : world.latestRoot s.questions mirror = .ok root)
    (hverified : root.verifySignedRoot crypto config.acceptLegacy none = .ok ())
    (hfresh : validateCurrentRootFreshness config root now = .ok ()) :
    currentRootFromMirror config world now mirror s
      = (.ok root, { s with questions := s.questions + 1 }) := by
  have hlineage : config.verifySignedRootForLineage s.store root = .ok () := by
    simp only [VerifierConfig.verifySignedRootForLineage, VerifierConfig.configuredKey, hlenient.key,
      hverified, Check.ok_bind]
    rfl
  have hposition : s.store.observedPosition root.logId = none := by
    rw [hstore]
    rfl
  unfold currentRootFromMirror
  rw [bind_of_ok (ask_eq _ s), bind_of_ok (check_ok hanswer _), bind_of_ok (readStore_eq hlineage),
    bind_of_ok (check_ok rfl _), bind_of_ok (check_ok hfresh _)]
  exact bind_of_ok ((bind_of_ok (readStore_eq hposition)).trans rfl)

theorem collectCurrentRoots_cons {now : Int} {identity : String} {mirror : Nat}
    {rest : List (String × Nat)} {u v : VerifierState crypto}
    {collected : List (String × MirroredRoot crypto)} {errors : List String}
    (h : currentRootFromMirror config world now mirror s = (.ok root, u))
    (hrest : collectCurrentRoots config world now rest u = (.ok (collected, errors), v)) :
    collectCurrentRoots config world now ((identity, mirror) :: rest) s
      = (.ok ((identity, root) :: collected, errors), v) :=
  (bind_of_ok (attempt_eq h)).trans ((bind_of_ok hrest).trans rfl)

/-- A new verifier with two mirrors returns the newer one of two roots that do not collide. -/
theorem currentMirroredRoot_of_empty (hlenient : Lenient config world) {first second : MirroredRoot crypto}
    {now : Int} (hmirrors : config.mirrorIdentities = ["mirror-a", "mirror-b"])
    (hminimum : config.minMirrors ≤ 2) (hcompatible : Compatible config [first, second])
    (hfirst : ∀ n, world.latestRoot n 0 = .ok first) (hsecond : ∀ n, world.latestRoot n 1 = .ok second)
    (hfresh : ∀ root ∈ [first, second], validateCurrentRootFreshness config root now = .ok ())
    (hnewest : newestRoot [first, second] = some second)
    (hstore : s.store = ObservedRoots.empty) :
    currentAnswers config world (some now) s = [("mirror-a", first), ("mirror-b", second)] ∧
      ∃ s', currentMirroredRoot config world (depth + 1) (some now) s = (.ok second, s') := by
  let answers := [("mirror-a", first), ("mirror-b", second)]
  let asked : VerifierState crypto := { s with questions := s.questions + 1 }
  let askedBoth : VerifierState crypto := { s with questions := s.questions + 1 + 1 }
  have hfirstAsked : currentRootFromMirror config world now 0 s = (.ok first, asked) :=
    currentRootFromMirror_of_empty hlenient hstore (hfirst _) (hcompatible.verified first (by simp))
      (hfresh first (by simp))
  have hsecondAsked : currentRootFromMirror config world now 1 asked = (.ok second, askedBoth) :=
    currentRootFromMirror_of_empty (s := asked) hlenient hstore (hsecond _)
      (hcompatible.verified second (by simp)) (hfresh second (by simp))
  have hcollect : collectCurrentRoots config world now config.mirrorIdentities.zipIdx s
      = (.ok (answers, []), askedBoth) := by
    rw [hmirrors]
    exact collectCurrentRoots_cons hfirstAsked (collectCurrentRoots_cons hsecondAsked rfl)
  have htime : currentTime world (some now) s = (.ok now, s) := rfl
  refine ⟨?_, ?_⟩
  · have hrun : (do
        let now ← currentTime world (some now)
        collectCurrentRoots config world now config.mirrorIdentities.zipIdx : Verifying crypto _) s
          = (.ok (answers, []), askedBoth) := (bind_of_ok htime).trans hcollect
    unfold currentAnswers answersOf
    rw [hrun]
  · have hquiet : Quiet [first, second] askedBoth.store := hstore ▸ quiet_empty
    have hmem : ∀ answer ∈ answers, answer.2 ∈ [first, second] := by simp [answers]
    obtain ⟨s', hs'⟩ := @Quiet.acceptMirrorRoots _ _ _ depth _ _ hquiet hlenient hcompatible _ hmem hminimum ("not enough usable current transparency root mirrors for " ++
        "current verification" ++ ": " ++ "no mirrors configured")
    refine ⟨s', (bind_of_ok ((bind_of_ok htime).trans
      ((bind_of_ok hcollect).trans hs'))).trans ?_⟩
    exact check_ok (Check.ofOption_eq_ok.2 hnewest) s'

/-! ## Two mirrors -/

open MirroredBundles (parityCrypto sizedRoot sizedRoot_spec)
open VerifierClient (plainSettings)

theorem newestRoot_pair {a b : MirroredRoot crypto}
    (h : (toLex (a.treeSize, a.timestamp) : Int ×ₗ Int) ≤ toLex (b.treeSize, b.timestamp)) :
    newestRoot [a, b] = some b :=
  if_neg (not_lt.2 h)

/-- Roots of different size and time do not collide. -/
theorem compatible_of_ne {first second : MirroredRoot crypto}
    (hverified : ∀ root ∈ [first, second],
      root.verifySignedRoot crypto config.acceptLegacy none = .ok ())
    (hsize : first.treeSize ≠ second.treeSize) (htime : first.timestamp ≠ second.timestamp) :
    Compatible config [first, second] := by
  have hcases : ∀ a ∈ [first, second], ∀ b ∈ [first, second],
      a = b ∨ a.treeSize ≠ b.treeSize ∧ a.timestamp ≠ b.timestamp := by
    intro a ha b hb
    rcases List.mem_pair.1 ha with rfl | rfl <;> rcases List.mem_pair.1 hb with rfl | rfl
    · exact Or.inl rfl
    · exact Or.inr ⟨hsize, htime⟩
    · exact Or.inr ⟨hsize.symm, htime.symm⟩
    · exact Or.inl rfl
  refine ⟨hverified, fun a ha b hb => ?_, fun a ha b hb hsame => ?_, fun a ha b hb => ?_⟩
  · rcases hcases a ha b hb with rfl | ⟨hsize, htime⟩
    · simp [RootVerifier.equivocationCollisionType]
    · simp [RootVerifier.equivocationCollisionType, hsize, htime]
  · rcases hcases a ha b hb with rfl | ⟨hsize, -⟩
    · rfl
    · exact absurd hsame hsize
  · rcases hcases a ha b hb with rfl | ⟨hsize, htime⟩
    · exact MirrorDisagreement.Agree.refl a
    · exact ⟨fun _ hsame => absurd hsame htime, fun _ hsame => absurd hsame hsize⟩

/-- Two mirrors, each of which always answers with one root. -/
def twoMirrors (first second : MirroredRoot crypto) : World crypto where
  time _ := 1000
  latestRoot _ mirror := if mirror = 0 then .ok first else .ok second
  consistencyProof _ _ _ := .error "timed out"

theorem lenient_twoMirrors (first second : MirroredRoot crypto) :
    Lenient plainSettings.config (twoMirrors first second) :=
  ⟨rfl, rfl, fun _ _ _ => rfl⟩

/-- A verifier that was just created. -/
def newVerifier (crypto : Crypto) : VerifierState crypto :=
  ⟨ObservedRoots.empty, [], [], 0⟩

/-- What the current lookup of a new verifier does with two mirrors. -/
theorem currentMirroredRoot_twoMirrors {first second : MirroredRoot crypto}
    (hcompatible : Compatible plainSettings.config [first, second])
    (hfresh : ∀ root ∈ [first, second], 400 ≤ root.timestamp ∧ root.timestamp ≤ 1000)
    (hnewest : newestRoot [first, second] = some second) :
    currentAnswers plainSettings.config (twoMirrors first second) (some 1000) (newVerifier crypto)
        = [("mirror-a", first), ("mirror-b", second)] ∧
      ∃ s', currentMirroredRoot plainSettings.config (twoMirrors first second) 1 (some 1000)
        (newVerifier crypto) = (.ok second, s') := by
  refine currentMirroredRoot_of_empty (lenient_twoMirrors first second) rfl le_rfl hcompatible
    (fun _ => rfl) (fun _ => rfl) (fun root hroot => ?_) hnewest rfl
  obtain ⟨hlow, hhigh⟩ := hfresh root hroot
  have hskew : root.timestamp - 1000 ≤ 120 := by omega
  have hage : 1000 - root.timestamp ≤ 600 := by omega
  exact Check.bind_eq_ok.2 ⟨(), Check.require_of hskew _, Check.require_of hage _⟩

/-- An operator's roots over one leaf and over two. -/
theorem exists_growingRoots : ∃ first second : MirroredRoot parityCrypto,
    (∀ root ∈ [first, second], ∀ acceptLegacy,
      root.verifySignedRoot parityCrypto acceptLegacy none = .ok ()) ∧
    first.treeSize = 1 ∧ second.treeSize = 2 ∧ first.timestamp = 900 ∧ second.timestamp = 950 := by
  obtain ⟨keys, -⟩ := KeyPair.exists_of_seed parityCrypto (List.replicate 32 0) List.length_replicate
  have hzero : (0 : Int) ≤ 0 := le_rfl
  have hlength : (List.replicate 32 0 : Bytes).length = 32 := List.length_replicate
  obtain ⟨hfirst, first, hfirstEq, -⟩ := sizedRoot_spec keys hlength (show (0 : Int) ≤ 1 by decide)
    (by decide) (show (0 : Int) ≤ 900 by decide) (by decide) hzero (by decide)
  obtain ⟨hsecond, second, hsecondEq, -⟩ := sizedRoot_spec keys hlength (show (0 : Int) ≤ 2 by decide)
    (by decide) (show (0 : Int) ≤ 950 by decide) (by decide) hzero (by decide)
  refine ⟨first, second, fun root hroot acceptLegacy => ?_, ?_, ?_, ?_, ?_⟩
  · rcases List.mem_pair.1 hroot with rfl | rfl
    · rw [hfirstEq]
      exact hfirst acceptLegacy
    · rw [hsecondEq]
      exact hsecond acceptLegacy
  · rw [hfirstEq]
    rfl
  · rw [hsecondEq]
    rfl
  · rw [hfirstEq]
    rfl
  · rw [hsecondEq]
    rfl

end TransparencyVerifier
