import InternationalDollar.KeyTrust
import InternationalDollar.Lib.Effect
import InternationalDollar.SpendMap

set_option autoImplicit false

/-! # Observing roots (`TransparencyVerifier`)

The verifier with its store. Roots come from mirrors, from callers and from peers; evidence against an
operator and failed consistency checks blacklist its log. What a mirror or an operator answers, and what
the clock says, is asked for: the answers are numbered, and everything that can be asked is in `World`.
What was written to the store before an exception stays there.

`observe_root` and the refresh of a stale baseline call each other, so they take the depth that the
recursion may still have; at no depth left the call raises, as Python does. -/

/-- The exceptions of the verifier, by the classes that its handlers tell apart. -/
inductive VerifierError where
  | consistencyProof (message : String)
  | mirrorDisagreement (message : String)
  | other (message : String)
deriving DecidableEq

/-- What is outside the verifier, by the number of the question: the clock, the current root of a
    mirror, and whether the proof that the operator serves for two roots verifies. -/
structure World (crypto : Crypto) where
  time : Nat → Int
  latestRoot : Nat → Nat → Except String (MirroredRoot crypto)
  consistencyProof : Nat → MirroredRoot crypto → MirroredRoot crypto → Except String Bool

/-- A key of `_consistency_pairs_checked`. -/
structure PairKey where
  logId : String
  firstSize : Int
  firstRootHash : String
  secondSize : Int
  secondRootHash : String
deriving DecidableEq

/-- The state of a verifier: its store, its memory, and how many questions it has asked. -/
structure VerifierState (crypto : Crypto) where
  store : ObservedRoots crypto
  consistencyPairsChecked : List PairKey
  consistencyFreshnessRefreshing : List String
  questions : Nat

/-- A computation of the verifier. -/
abbrev Verifying (crypto : Crypto) (α : Type) : Type :=
  Effect (VerifierState crypto) VerifierError α

namespace TransparencyVerifier

open Effect

variable {crypto : Crypto}

/-- A check that raises an exception of no special class. -/
def check {α : Type} (x : Except String α) : Verifying crypto α :=
  lift (match x with
    | .ok a => .ok a
    | .error message => .error (.other message))

/-- Read from the store. -/
def readStore {α : Type} (f : ObservedRoots crypto → α) : Verifying crypto α :=
  read fun s => f s.store

/-- Write to the store. -/
def writeStore (f : ObservedRoots crypto → ObservedRoots crypto) : Verifying crypto Unit :=
  write fun s => { s with store := f s.store }

/-- Ask the world. -/
def ask {α : Type} (question : Nat → α) : Verifying crypto α := do
  let n ← read fun s : VerifierState crypto => s.questions
  write fun s => { s with questions := s.questions + 1 }
  pure (question n)

/-! ## Blacklisting -/

/-- `part in text`. -/
def contains (part text : String) : Bool :=
  (Text.after? part.toList text.toList).isSome

/-- `_blacklisted_message`. -/
def blacklistedMessage (config : VerifierConfig) (logId : String) (reason : Option String) : String :=
  let reason := reason.getD "None"
  let location := config.evidenceLocation
  if contains "equivocation" reason then
    "CRITICAL transparency log equivocation detected: operator " ++ logId ++
      " signed conflicting roots. Evidence saved to " ++ location ++
      ". To investigate: inspect evidence at " ++ location ++
      ", verify operator status via independent channels, and consider switching to an alternate " ++
      "operator. Use ind-cli transparency unblacklist " ++ logId ++
      " only after confirming the evidence was caused by local error, not operator misbehavior."
  else if contains "operator policy violation" reason then
    "CRITICAL transparency operator policy violation detected for " ++ logId ++ ": " ++ reason ++
      ". Evidence saved to " ++ location ++ ". To investigate: inspect evidence at " ++ location ++
      ", verify operator status via independent channels, and consider switching to an alternate " ++
      "operator. Use ind-cli transparency unblacklist " ++ logId ++
      " only after confirming the evidence was caused by local error, not operator misbehavior."
  else
    "CRITICAL transparency log consistency failure: operator " ++ logId ++
      " is locally blacklisted because " ++ reason ++ ". Evidence saved to " ++ location ++
      ". To investigate: inspect evidence at " ++ location ++
      ", verify operator status via independent channels, and consider switching to an alternate " ++
      "operator. Use ind-cli transparency unblacklist " ++ logId ++
      " only after confirming the failure was due to local error, not operator misbehavior."

/-- The message about a log with its status as it is stored. -/
def storedMessage (config : VerifierConfig) (logId : String) : Verifying crypto String :=
  readStore fun store =>
    blacklistedMessage config logId ((store.status logId).bind OperatorStatus.reason)

/-- `_handle_consistency_failure`. -/
def handleConsistencyFailure {α : Type} (config : VerifierConfig) (world : World crypto)
    (oldRoot newRoot : MirroredRoot crypto) (error : String) : Verifying crypto α := do
  let now ← ask world.time
  writeStore fun store => store.markBlacklisted oldRoot.logId newRoot.operatorPublicKey error now
  let message ← storedMessage config oldRoot.logId
  raise (.consistencyProof message)

/-- `_handle_equivocation`. -/
def handleEquivocation (config : VerifierConfig) (world : World crypto)
    (rootA rootB : MirroredRoot crypto) (collisionType : String) : Verifying crypto Unit := do
  let detectedAt ← ask world.time
  let saved ← readStore fun store =>
    store.saveEquivocationEvidence config.acceptLegacy ⟨collisionType, rootA, rootB, detectedAt⟩
  let store ← check saved
  writeStore fun _ => store
  writeStore fun store => store.markBlacklisted rootA.logId rootA.operatorPublicKey
    ("equivocation " ++ collisionType) detectedAt
  let message ← storedMessage config rootA.logId
  raise (.mirrorDisagreement message)

/-- `_detect_and_handle_equivocation`. -/
def detectAndHandleEquivocation (config : VerifierConfig) (world : World crypto)
    (root : MirroredRoot crypto) : Verifying crypto Unit := do
  let evidence ← readStore fun store => store.findEquivocation root
  match evidence with
  | none => pure ()
  | some (previous, collisionType) => handleEquivocation config world previous root collisionType

/-- `last_success` of a status; the time 0 is none. -/
def lastSuccess (status : Option OperatorStatus) : Option Int :=
  (status.bind OperatorStatus.lastSuccessfulConsistencyAt).filter (· ≠ 0)

/-- `_enforce_consistency_freshness`. `refresh` is `_refresh_stale_consistency_baseline`. -/
def enforceConsistencyFreshness (config : VerifierConfig) (world : World crypto)
    (refresh : String → Verifying crypto Bool) (logId : String) : Verifying crypto Unit := do
  let status ← readStore fun store => store.status logId
  if (status.map OperatorStatus.status) = some .blacklisted then
    raise (.consistencyProof (blacklistedMessage config logId (status.bind OperatorStatus.reason)))
  else if config.strictMode = false then pure ()
  else
    match lastSuccess status with
    | none => do
        let latest ← readStore fun store => store.latestRoot logId
        match latest with
        | none => pure ()
        | some _ => raise (.other ("strict transparency mode has no successful consistency baseline " ++
            "for operator " ++ logId))
    | some last => do
        let now ← ask world.time
        if now - last ≤ config.consistencyMaxStaleSeconds then pure ()
        else
          let refreshed ← refresh logId
          if refreshed then pure ()
          else
            let status ← readStore fun store => store.status logId
            let now ← ask world.time
            raise (.other ("strict transparency mode requires a successful consistency check within " ++
              toString config.consistencyMaxStaleSeconds ++ " seconds for operator " ++ logId ++
              "; last success was " ++ toString (now - (lastSuccess status).getD 0) ++ " seconds ago"))

/-- `_refresh_stale_consistency_baseline`. `currentRoots` is `_current_roots_from_mirrors`. -/
def refreshStaleConsistencyBaseline (config : VerifierConfig) (world : World crypto)
    (currentRoots : Verifying crypto (List (MirroredRoot crypto))) (logId : String) :
    Verifying crypto Bool := do
  let refreshing ← read fun s : VerifierState crypto => s.consistencyFreshnessRefreshing
  if logId ∈ refreshing then pure false
  else
    write fun s => { s with
      consistencyFreshnessRefreshing := logId :: s.consistencyFreshnessRefreshing }
    let result ← attempt currentRoots
    write fun s => { s with
      consistencyFreshnessRefreshing := s.consistencyFreshnessRefreshing.filter (· ≠ logId) }
    match result with
    | .error _ => pure false
    | .ok _ => do
        let status ← readStore fun store => store.status logId
        match lastSuccess status with
        | none => pure false
        | some last => do
            let now ← ask world.time
            pure (now - last ≤ config.consistencyMaxStaleSeconds)

/-! ## One root -/

/-- The root that a new one is compared with: the latest of its log, or of the log that its log follows,
    where that one's tree is larger. -/
def previousRoot (store : ObservedRoots crypto) (logId lineageLogId : String) :
    Option (MirroredRoot crypto) :=
  let previous := store.latestRoot logId
  if lineageLogId = logId then previous
  else
    match store.latestRoot lineageLogId with
    | none => previous
    | some lineagePrevious =>
        match previous with
        | none => some lineagePrevious
        | some root => if root.treeSize < lineagePrevious.treeSize then some lineagePrevious else some root

/-- `verify_consistency_proof` for two roots of different size, given whether the proof verifies. -/
def verifyConsistencyProof (config : VerifierConfig) (firstRoot secondRoot : MirroredRoot crypto)
    (proves allowLogIdTransition : Bool) : Except VerifierError Unit :=
  match firstRoot.verifySignedRoot crypto config.acceptLegacy none,
      secondRoot.verifySignedRoot crypto config.acceptLegacy none with
  | .error message, _ => .error (.other message)
  | .ok _, .error message => .error (.other message)
  | .ok _, .ok _ =>
      if firstRoot.logId ≠ secondRoot.logId ∧ allowLogIdTransition = false then
        .error (.consistencyProof "consistency roots are for different transparency logs")
      else if firstRoot.treeSize = 0 then .ok ()
      else if proves then .ok ()
      else .error (.consistencyProof "transparency consistency proof does not verify")

/-- The consistency check of `observe_root` for two roots, unless it was made before. -/
def checkConsistency (config : VerifierConfig) (world : World crypto) (logId : String)
    (firstRoot secondRoot : MirroredRoot crypto) : Verifying crypto Unit := do
  let pairKey : PairKey := ⟨logId, firstRoot.treeSize, firstRoot.rootHash, secondRoot.treeSize,
    secondRoot.rootHash⟩
  let checked ← read fun s : VerifierState crypto => s.consistencyPairsChecked
  if pairKey ∈ checked then pure ()
  else
    let answer ← ask fun n => world.consistencyProof n firstRoot secondRoot
    let proves ← check answer
    let share ← readStore fun store => config.rootsShareLineage store firstRoot secondRoot
    lift (verifyConsistencyProof config firstRoot secondRoot proves share)
    write fun s => { s with consistencyPairsChecked := pairKey :: s.consistencyPairsChecked }

/-- Record a root that was found consistent. -/
def recordConsistent (root : MirroredRoot crypto) (sourceIdentity : String) (now : Int) :
    Verifying crypto Unit := do
  writeStore fun store => store.recordRoot root sourceIdentity
  writeStore fun store => store.markActive root.logId root.operatorPublicKey now

/-- `observe_root`. -/
def observeRootWith (config : VerifierConfig) (world : World crypto)
    (refresh : String → Verifying crypto Bool) (root : MirroredRoot crypto) (sourceIdentity : String) :
    Verifying crypto (MirroredRoot crypto) := do
  let verified ← readStore fun store => config.verifySignedRootForLineage store root
  check verified
  let now ← ask world.time
  let lineageLogId ← readStore fun store => config.lineageLogIdForRoot store root
  let status ← readStore fun store => (store.status root.logId).or (store.status lineageLogId)
  if (status.map OperatorStatus.status) = some .blacklisted then
    raise (.consistencyProof
      (blacklistedMessage config lineageLogId (status.bind OperatorStatus.reason)))
  else
    detectAndHandleEquivocation config world root
    let previous ← readStore fun store => previousRoot store root.logId lineageLogId
    match previous with
    | none => do
        recordConsistent root sourceIdentity now
        pure root
    | some previous =>
        if previous.treeSize = root.treeSize ∧ previous.rootHash = root.rootHash then do
          recordConsistent root sourceIdentity now
          enforceConsistencyFreshness config world refresh root.logId
          pure root
        else if previous.treeSize = root.treeSize then
          handleConsistencyFailure config world previous root
            "new observed root is not an append-only extension of the stored root"
        else do
          let result ← attempt (if root.treeSize < previous.treeSize then
              checkConsistency config world root.logId root previous
            else checkConsistency config world root.logId previous root)
          match result with
          | .ok _ => do
              recordConsistent root sourceIdentity now
              pure root
          | .error (.consistencyProof error) =>
              handleConsistencyFailure config world previous root error
          | .error (.mirrorDisagreement error) | .error (.other error) => do
              writeStore fun store => store.markUnresponsive root.logId root.operatorPublicKey error now
              enforceConsistencyFreshness config world refresh root.logId
              pure root

/-! ## Current roots -/

/-- `_validate_current_root_freshness`. -/
def validateCurrentRootFreshness (config : VerifierConfig) (root : MirroredRoot crypto) (now : Int) :
    Except String Unit := do
  Check.require (root.timestamp - now ≤ config.currentRootFutureSkewSeconds)
    "transparency root is too far in the future for current verification"
  Check.require (now - root.timestamp ≤ config.maxCurrentRootAgeSeconds)
    "transparency root is stale for current verification"

/-- `_validate_current_root_monotonicity`. -/
def validateCurrentRootMonotonicity (config : VerifierConfig) (world : World crypto)
    (root : MirroredRoot crypto) : Verifying crypto Unit := do
  let position ← readStore fun store => store.observedPosition root.logId
  match position with
  | none => pure ()
  | some (highestSize, latestTimestamp) =>
      if root.treeSize < highestSize then
        if latestTimestamp < root.timestamp then do
          let previous ← readStore fun store => store.latestRoot root.logId
          match previous with
          | none => raise (.other "'NoneType' object is not subscriptable")
          | some previous =>
              handleConsistencyFailure config world previous root
                ("operator signed a current root with tree_size " ++ toString root.treeSize ++
                  " after this client had already observed tree_size " ++ toString highestSize)
        else pure ()
      else
        check (Check.require (latestTimestamp ≤ root.timestamp)
          "transparency root replayed an older timestamp for current verification")

/-- The current root of one mirror. -/
def currentRootFromMirror (config : VerifierConfig) (world : World crypto) (now : Int)
    (mirror : Nat) : Verifying crypto (MirroredRoot crypto) := do
  let answer ← ask fun n => world.latestRoot n mirror
  let root ← check answer
  let verified ← readStore fun store => config.verifySignedRootForLineage store root
  check verified
  check (validateCurrentRootFreshness config root now)
  validateCurrentRootMonotonicity config world root
  pure root

/-- The loop over the mirrors: an error of a mirror is noted, unless it is about consistency or a
    disagreement. -/
def collectCurrentRoots (config : VerifierConfig) (world : World crypto) (now : Int) :
    List (String × Nat) → Verifying crypto (List (String × MirroredRoot crypto) × List String)
  | [] => pure ([], [])
  | (identity, mirror) :: rest => do
      let result ← attempt (currentRootFromMirror config world now mirror)
      match result with
      | .error (.other message) => do
          let (roots, errors) ← collectCurrentRoots config world now rest
          pure (roots, message :: errors)
      | .error e => raise e
      | .ok root => do
          let (roots, errors) ← collectCurrentRoots config world now rest
          pure ((identity, root) :: roots, errors)

/-- What all lookups do with the roots of the mirrors: enough of them, no disagreement, and every one
    observed. `shortage` is the message where there are not enough. -/
def acceptMirrorRoots (config : VerifierConfig)
    (observe : MirroredRoot crypto → String → Verifying crypto (MirroredRoot crypto))
    (roots : List (String × MirroredRoot crypto)) (shortage : String) :
    Verifying crypto (List (MirroredRoot crypto)) := do
  check (Check.require (config.minMirrors ≤ roots.length) shortage)
  lift (match RootVerifier.detectMirrorDisagreement config.acceptLegacy [] (roots.map Prod.snd) with
    | .ok _ => .ok ()
    | .error message => .error (.mirrorDisagreement message))
  forEach (fun entry => do
    let _ ← observe entry.2 entry.1
    pure ()) roots
  pure (roots.map Prod.snd)

/-- `_current_time`. -/
def currentTime (world : World crypto) : Option Int → Verifying crypto Int
  | none => ask world.time
  | some now => pure now

/-- `_current_roots_from_mirrors`. -/
def currentRootsFromMirrorsWith (config : VerifierConfig) (world : World crypto)
    (observe : MirroredRoot crypto → String → Verifying crypto (MirroredRoot crypto))
    (now : Option Int) (errorContext : String) : Verifying crypto (List (MirroredRoot crypto)) := do
  let now ← currentTime world now
  let (roots, errors) ← collectCurrentRoots config world now config.mirrorIdentities.zipIdx
  let detail := if errors = [] then "no mirrors configured" else String.intercalate "; " errors
  acceptMirrorRoots config observe roots
    ("not enough usable current transparency root mirrors for " ++ errorContext ++ ": " ++ detail)

/-- `observe_root`, to a depth of recursion. -/
def observeRoot (config : VerifierConfig) (world : World crypto) :
    Nat → MirroredRoot crypto → String → Verifying crypto (MirroredRoot crypto)
  | 0, _, _ => raise (.other "maximum recursion depth exceeded")
  | depth + 1, root, sourceIdentity =>
      observeRootWith config world
        (refreshStaleConsistencyBaseline config world
          (currentRootsFromMirrorsWith config world (observeRoot config world depth) none
            "consistency freshness refresh"))
        root sourceIdentity

/-- `_current_roots_from_mirrors`, to a depth of recursion. -/
def currentRootsFromMirrors (config : VerifierConfig) (world : World crypto) (depth : Nat)
    (now : Option Int) (errorContext : String) : Verifying crypto (List (MirroredRoot crypto)) :=
  currentRootsFromMirrorsWith config world (observeRoot config world depth) now errorContext

/-- `_refresh_stale_consistency_baseline`, to a depth of recursion. -/
def refreshBaseline (config : VerifierConfig) (world : World crypto) (depth : Nat) (logId : String) :
    Verifying crypto Bool :=
  refreshStaleConsistencyBaseline config world
    (currentRootsFromMirrors config world depth none "consistency freshness refresh") logId

/-- The end of `mirrored_root_for_timestamp` and `mirrored_root_containing_leaf`, given the roots that
    they have collected. -/
def observeHistoricalRoots (config : VerifierConfig) (world : World crypto) (depth : Nat)
    (roots : List (String × MirroredRoot crypto)) (shortage : String) :
    Verifying crypto (List (MirroredRoot crypto)) :=
  acceptMirrorRoots config (observeRoot config world depth) roots shortage

theorem check_ok {α : Type} {x : Except String α} {a : α} (h : x = .ok a) (s : VerifierState crypto) :
    check x s = (.ok a, s) := by
  rw [h]
  rfl

theorem readStore_eq {α : Type} {f : ObservedRoots crypto → α} {s : VerifierState crypto} {a : α}
    (h : f s.store = a) : readStore f s = (.ok a, s) := by
  rw [← h]
  rfl

theorem previousRoot_eq_some {store : ObservedRoots crypto} {logId lineageLogId : String}
    {previous : MirroredRoot crypto} (h : previousRoot store logId lineageLogId = some previous) :
    store.Stores previous ∧
      (previous.logId = logId ∨ (lineageLogId ≠ logId ∧ previous.logId = lineageLogId)) := by
  have hlatest : ∀ {logId : String} {root : MirroredRoot crypto},
      store.latestRoot logId = some root → store.Stores root ∧ root.logId = logId :=
    fun h => ObservedRoots.stores_of_mem_observedOf (ObservedRoots.mem_observedOf_of_latestRoot h)
  have hown : store.latestRoot logId = some previous → store.Stores previous ∧
      (previous.logId = logId ∨ (lineageLogId ≠ logId ∧ previous.logId = lineageLogId)) :=
    fun h => ⟨(hlatest h).1, Or.inl (hlatest h).2⟩
  unfold previousRoot at h
  by_cases hsame : lineageLogId = logId
  · exact hown ((if_pos hsame).symm.trans h)
  simp only [if_neg hsame] at h
  split at h
  · exact hown h
  · next lineagePrevious hlineage =>
    have hother := fun (heq : lineagePrevious = previous) =>
      (⟨heq ▸ (hlatest hlineage).1, Or.inr ⟨hsame, heq ▸ (hlatest hlineage).2⟩⟩ :
        store.Stores previous ∧
          (previous.logId = logId ∨ (lineageLogId ≠ logId ∧ previous.logId = lineageLogId)))
    split at h
    · exact hother (Option.some.inj h)
    · next root hroot =>
      split at h
      · exact hother (Option.some.inj h)
      · exact hown (hroot.trans h)

/-! ## Invariants of the store -/

/-- A condition on the store of a verifier. -/
def OnStore (P : ObservedRoots crypto → Prop) (s : VerifierState crypto) : Prop :=
  P s.store

/-- The computation keeps an invariant of the store, whether it returns or raises, and what it returns
    meets a condition. -/
abbrev KeepsStore {α : Type} (P : ObservedRoots crypto → Prop) (x : Verifying crypto α)
    (Q : α → Prop) : Prop :=
  Keeps (OnStore P) x Q

variable {P : ObservedRoots crypto → Prop} {config : VerifierConfig} {world : World crypto}
  {α β : Type}

theorem keepsStore_check {x : Except String α} {Q : α → Prop} (h : ∀ a, x = .ok a → Q a) :
    KeepsStore P (check x) Q := by
  refine Keeps.lift fun a ha => ?_
  cases x with
  | ok b =>
    cases ha
    exact h _ rfl
  | error message => cases ha

theorem keepsStore_readStore {f : ObservedRoots crypto → α} {Q : α → Prop}
    (h : ∀ store, P store → Q (f store)) : KeepsStore P (readStore f) Q :=
  Keeps.read fun s hs => h s.store hs

theorem keepsStore_writeStore {f : ObservedRoots crypto → ObservedRoots crypto}
    (h : ∀ store, P store → P (f store)) : KeepsStore P (writeStore f) fun _ => True :=
  Keeps.write (fun s hs => h s.store hs) trivial

theorem keepsStore_ask {question : Nat → α} {Q : α → Prop} (h : ∀ n, Q (question n)) :
    KeepsStore P (ask question) Q := by
  refine Keeps.next (Keeps.read fun _ _ => trivial) fun n => ?_
  refine Keeps.next (Keeps.write (fun _ hs => hs) trivial) fun _ => ?_
  exact Keeps.ret (h n)

/-- What only the memory of the verifier takes part in. -/
theorem keepsStore_remember {f : VerifierState crypto → VerifierState crypto}
    (h : ∀ s, (f s).store = s.store) : KeepsStore P (write f) fun _ => True :=
  Keeps.write (fun s hs => by rwa [OnStore, h s]) trivial

/-- A consistency check writes nothing to the store. -/
theorem keepsStore_checkConsistency {logId : String} {firstRoot secondRoot : MirroredRoot crypto} :
    KeepsStore P (checkConsistency config world logId firstRoot secondRoot) fun _ => True := by
  refine Keeps.next (Keeps.read fun _ _ => trivial) fun checked => ?_
  refine Keeps.ite (fun _ => Keeps.ret trivial) fun _ => ?_
  refine Keeps.next (keepsStore_ask fun _ => trivial) fun answer => ?_
  refine Keeps.next (keepsStore_check fun _ _ => trivial) fun proves => ?_
  refine Keeps.next (keepsStore_readStore fun _ _ => trivial) fun share => ?_
  refine Keeps.next (Keeps.lift fun _ _ => trivial) fun _ => ?_
  exact keepsStore_remember fun _ => rfl

theorem raisesOnly_check {x : Except String α} {E : VerifierError → Prop}
    (h : ∀ message, E (.other message)) : RaisesOnly (OnStore P) (check x) E := by
  refine RaisesOnly.lift fun e he => ?_
  cases x with
  | ok a => cases he
  | error message =>
    cases he
    exact h message

theorem raisesOnly_ask (question : Nat → α) (E : VerifierError → Prop) :
    RaisesOnly (OnStore P) (ask question) E :=
  fun _ _ _ he => nomatch he

/-- A check of two roots of one lineage fails only where the operator serves a proof that is wrong. -/
theorem raisesOnly_checkConsistency {logId : String} {firstRoot secondRoot : MirroredRoot crypto}
    (hproves : ∀ n, world.consistencyProof n firstRoot secondRoot ≠ .ok false)
    (hshare : firstRoot.logId ≠ secondRoot.logId → ∀ store, P store →
      config.rootsShareLineage store firstRoot secondRoot = true) :
    RaisesOnly (OnStore P) (checkConsistency config world logId firstRoot secondRoot)
      fun e => ∀ message, e ≠ .consistencyProof message := by
  refine RaisesOnly.bind (RaisesOnly.read _) (Keeps.read (Q := fun _ => True) fun _ _ => trivial)
    fun checked _ => RaisesOnly.ite (fun _ => RaisesOnly.ret ()) fun _ => ?_
  refine RaisesOnly.bind (raisesOnly_ask _ _)
    (keepsStore_ask (Q := fun answer => answer ≠ .ok false) hproves) fun answer hanswer => ?_
  refine RaisesOnly.bind (raisesOnly_check fun _ _ h => nomatch h)
    (keepsStore_check (Q := fun proves => proves = true) ?_) fun proves hproves => ?_
  · rintro (_ | _) h
    · exact absurd h hanswer
    · rfl
  refine RaisesOnly.bind (RaisesOnly.read _) (keepsStore_readStore (Q := fun share =>
    firstRoot.logId ≠ secondRoot.logId → share = true) fun store hs hne => hshare hne store hs)
    fun share hshared => ?_
  refine RaisesOnly.bind (RaisesOnly.lift ?_) (Keeps.lift (Q := fun _ => True) fun _ _ => trivial)
    fun _ _ => RaisesOnly.write _
  intro e he message hmessage
  subst hmessage
  unfold verifyConsistencyProof at he
  split at he
  · cases he
  · cases he
  · by_cases hlog : firstRoot.logId = secondRoot.logId
    · simp [hlog, hproves] at he
    · simp [hshared hlog, hproves] at he

/-- Enforcing the freshness of a log writes only what the refresh writes. -/
theorem keepsStore_enforceConsistencyFreshness {refresh : String → Verifying crypto Bool}
    (hrefresh : ∀ logId, KeepsStore P (refresh logId) fun _ => True) (checked : String) :
    KeepsStore P (enforceConsistencyFreshness config world refresh checked) fun _ => True := by
  refine Keeps.next (keepsStore_readStore fun _ _ => trivial) fun status => ?_
  refine Keeps.ite (fun _ => Keeps.raise _) fun _ => Keeps.ite (fun _ => Keeps.ret trivial) fun _ => ?_
  cases lastSuccess status with
  | none =>
    refine Keeps.next (keepsStore_readStore fun _ _ => trivial) fun latest => ?_
    cases latest with
    | none => exact Keeps.ret trivial
    | some _ => exact Keeps.raise _
  | some last =>
    refine Keeps.next (keepsStore_ask fun _ => trivial) fun now => ?_
    refine Keeps.ite (fun _ => Keeps.ret trivial) fun _ => ?_
    refine Keeps.next (hrefresh checked) fun refreshed => ?_
    refine Keeps.ite (fun _ => Keeps.ret trivial) fun _ => ?_
    refine Keeps.next (keepsStore_readStore fun _ _ => trivial) fun status => ?_
    refine Keeps.next (keepsStore_ask fun _ => trivial) fun now => ?_
    exact Keeps.raise _

/-- A refresh writes only what the lookup of the current roots writes. -/
theorem keepsStore_refreshStaleConsistencyBaseline
    {currentRoots : Verifying crypto (List (MirroredRoot crypto))}
    (hcurrent : KeepsStore P currentRoots fun _ => True) (refreshed : String) :
    KeepsStore P (refreshStaleConsistencyBaseline config world currentRoots refreshed)
      fun _ => True := by
  refine Keeps.next (Keeps.read fun _ _ => trivial) fun refreshing => ?_
  refine Keeps.ite (fun _ => Keeps.ret trivial) fun _ => ?_
  refine Keeps.next (keepsStore_remember fun _ => rfl) fun _ => ?_
  refine Keeps.next hcurrent.attempt.trivial fun result => ?_
  refine Keeps.next (keepsStore_remember fun _ => rfl) fun _ => ?_
  cases result with
  | error _ => exact Keeps.ret trivial
  | ok _ =>
    refine Keeps.next (keepsStore_readStore fun _ _ => trivial) fun status => ?_
    cases lastSuccess status with
    | none => exact Keeps.ret trivial
    | some last =>
      refine Keeps.next (keepsStore_ask fun _ => trivial) fun now => ?_
      exact Keeps.ret trivial

/-- What an invariant of the store needs of the functions that write to it: roots that may come from the
    mirrors are compared with the highest position, and observed where a refresh keeps the invariant. -/
structure KeepsRoots (config : VerifierConfig) (world : World crypto)
    (P : ObservedRoots crypto → Prop) (MayCome : MirroredRoot crypto → Prop)
    (Q : MirroredRoot crypto → Prop) : Prop where
  latestRoot : ∀ n mirror root, world.latestRoot n mirror = .ok root → MayCome root
  monotonicity : ∀ root, MayCome root →
    KeepsStore P (validateCurrentRootMonotonicity config world root) fun _ => True
  observe : ∀ refresh : String → Verifying crypto Bool,
    (∀ logId, KeepsStore P (refresh logId) fun _ => True) → ∀ root, MayCome root →
      ∀ sourceIdentity, KeepsStore P (observeRootWith config world refresh root sourceIdentity)
        fun _ => Q root

namespace KeepsRoots

variable {MayCome Q : MirroredRoot crypto → Prop}

theorem currentRootFromMirror (h : KeepsRoots config world P MayCome Q) (now : Int) (mirror : Nat) :
    KeepsStore P (currentRootFromMirror config world now mirror) MayCome := by
  refine Keeps.bind (keepsStore_ask (Q := fun answer => ∀ root, answer = .ok root → MayCome root)
    fun n => h.latestRoot n mirror) fun answer hanswer => ?_
  refine Keeps.bind (keepsStore_check hanswer) fun root hroot => ?_
  refine Keeps.next (keepsStore_readStore fun _ _ => trivial) fun verified => ?_
  refine Keeps.next (keepsStore_check fun _ _ => trivial) fun _ => ?_
  refine Keeps.next (keepsStore_check fun _ _ => trivial) fun _ => ?_
  exact Keeps.next (h.monotonicity root hroot) fun _ => Keeps.ret hroot

theorem collectCurrentRoots (h : KeepsRoots config world P MayCome Q) (now : Int)
    (mirrors : List (String × Nat)) :
    KeepsStore P (collectCurrentRoots config world now mirrors)
      fun found => ∀ entry ∈ found.1, MayCome entry.2 := by
  induction mirrors with
  | nil => exact Keeps.ret fun _ hentry => nomatch hentry
  | cons mirror rest ih =>
    refine Keeps.bind (h.currentRootFromMirror now mirror.2).attempt fun result hresult => ?_
    rcases result with (message | message | message) | root
    · exact Keeps.raise _
    · exact Keeps.raise _
    · exact Keeps.bind ih fun found hfound => Keeps.ret hfound
    · exact Keeps.bind ih fun found hfound =>
        Keeps.ret (List.forall_mem_cons.2 ⟨hresult root rfl, hfound⟩)

theorem acceptMirrorRoots
    {observe : MirroredRoot crypto → String → Verifying crypto (MirroredRoot crypto)}
    {roots : List (String × MirroredRoot crypto)}
    (hobserve : ∀ entry ∈ roots, KeepsStore P (observe entry.2 entry.1) fun _ => True)
    (shortage : String) :
    KeepsStore P (acceptMirrorRoots config observe roots shortage) fun _ => True := by
  refine Keeps.next (keepsStore_check fun _ _ => trivial) fun _ => ?_
  refine Keeps.next (Keeps.lift fun _ _ => trivial) fun _ => ?_
  refine Keeps.next (Keeps.forEach fun entry hentry => ?_) fun _ => Keeps.ret trivial
  exact Keeps.next (hobserve entry hentry) fun _ => Keeps.ret trivial

theorem currentRootsFromMirrorsWith (h : KeepsRoots config world P MayCome Q)
    {observe : MirroredRoot crypto → String → Verifying crypto (MirroredRoot crypto)}
    (hobserve : ∀ root, MayCome root → ∀ sourceIdentity,
      KeepsStore P (observe root sourceIdentity) fun _ => True) (now : Option Int)
    (errorContext : String) :
    KeepsStore P (currentRootsFromMirrorsWith config world observe now errorContext)
      fun _ => True := by
  refine Keeps.next ?_ fun now => ?_
  · cases now with
    | none => exact keepsStore_ask fun _ => trivial
    | some now => exact Keeps.ret trivial
  refine Keeps.bind (h.collectCurrentRoots now _) fun found hfound => ?_
  exact acceptMirrorRoots (fun entry hentry => hobserve entry.2 (hfound entry hentry) entry.1) _

/-- By induction on the depth: a refresh observes roots one level deeper. -/
theorem observeRoot (h : KeepsRoots config world P MayCome Q) (depth : Nat)
    {root : MirroredRoot crypto} (hroot : MayCome root) (sourceIdentity : String) :
    KeepsStore P (observeRoot config world depth root sourceIdentity) fun _ => Q root := by
  induction depth generalizing root sourceIdentity with
  | zero => exact Keeps.raise _
  | succ depth ih =>
    refine h.observe _ (fun logId => keepsStore_refreshStaleConsistencyBaseline ?_ logId) root hroot _
    exact h.currentRootsFromMirrorsWith (fun root hroot source => (ih hroot source).trivial) _ _

theorem currentRootsFromMirrors (h : KeepsRoots config world P MayCome Q) (depth : Nat)
    (now : Option Int) (errorContext : String) :
    KeepsStore P (currentRootsFromMirrors config world depth now errorContext) fun _ => True :=
  h.currentRootsFromMirrorsWith (fun _ hroot source => (h.observeRoot depth hroot source).trivial) _ _

theorem refreshBaseline (h : KeepsRoots config world P MayCome Q) (depth : Nat) (logId : String) :
    KeepsStore P (refreshBaseline config world depth logId) fun _ => True :=
  keepsStore_refreshStaleConsistencyBaseline (h.currentRootsFromMirrors depth _ _) logId

theorem observeHistoricalRoots (h : KeepsRoots config world P MayCome Q) (depth : Nat)
    {roots : List (String × MirroredRoot crypto)} (hroots : ∀ entry ∈ roots, MayCome entry.2)
    (shortage : String) :
    KeepsStore P (observeHistoricalRoots config world depth roots shortage) fun _ => True :=
  acceptMirrorRoots
    (fun entry hentry => (h.observeRoot depth (hroots entry hentry) entry.1).trivial) _

end KeepsRoots

end TransparencyVerifier
