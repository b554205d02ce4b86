import InternationalDollar.RootMirror

set_option autoImplicit false

/-! # Reading mirrors (`TransparencyVerifier`)

A verifier asks several mirrors, verifies what they answer, compares the answers with each other and
with the roots it has seen, and then takes one of them. It serves both sides of a proof bundle: the
producer asks for the current root, the checker for the root at the bundle's time. -/

/-- `TransparencyVerifier`, without key rotations and revocations. `consistent` says whether the
    operator's answer to a request for a consistency proof verifies. -/
structure RootVerifier (crypto : Crypto) where
  acceptLegacy : Bool
  operatorPublicKey : Option String
  minMirrors : Nat
  maxRootLagSeconds : Int
  maxCurrentRootAgeSeconds : Int
  currentRootFutureSkewSeconds : Int
  consistent : MirroredRoot crypto → MirroredRoot crypto → Bool
  observed : List (Nat × MirroredRoot crypto)
  blacklisted : List String

/-- What one mirror's current root comes to: a root, an error of that mirror, or an error that ends
    the request. -/
inductive CurrentRoot (crypto : Crypto) where
  | usable (root : MirroredRoot crypto)
  | skipped (error : String)
  | refused (error : String)

namespace RootVerifier

variable {crypto : Crypto}

/-- `_verify_signed_root_for_lineage`. -/
def verifySignedRootForLineage (verifier : RootVerifier crypto) (root : MirroredRoot crypto) :
    Except String Unit := do
  root.verifySignedRoot crypto verifier.acceptLegacy none
  match verifier.operatorPublicKey with
  | none => pure ()
  | some key =>
      Check.require (key = "" ∨ (root.logId = logIdFromPublicKey crypto key ∧
        Text.strip root.operatorPublicKey = Text.strip key))
        "transparency root was signed by an unexpected operator"

/-! ## Comparing roots -/

/-- `detect_mirror_disagreement`, with the roots seen so far, the last one first. -/
def detectMirrorDisagreement (acceptLegacy : Bool) (seen : List (MirroredRoot crypto)) :
    List (MirroredRoot crypto) → Except String Unit
  | [] => .ok ()
  | root :: rest => do
      root.verifySignedRoot crypto acceptLegacy none
      Check.require (∀ previous ∈ seen.find? fun item : MirroredRoot crypto =>
          item.logId = root.logId ∧ item.timestamp = root.timestamp,
        previous.fingerprint = root.fingerprint)
        "mirrors disagree about a signed transparency log root"
      Check.require (∀ previous ∈ seen.find? fun item : MirroredRoot crypto =>
          item.logId = root.logId ∧ item.treeSize = root.treeSize,
        previous.fingerprint = root.fingerprint)
        "mirrors disagree about a signed transparency log root"
      detectMirrorDisagreement acceptLegacy (root :: seen) rest

/-- `equivocation_collision_type`. -/
def equivocationCollisionType (a b : MirroredRoot crypto) : Option String :=
  if a.logId ≠ b.logId then none
  else if a.id = b.id then none
  else if a.treeSize = b.treeSize ∧ a.fingerprint ≠ b.fingerprint then some "same_tree_size"
  else if a.timestamp = b.timestamp ∧ a.fingerprint ≠ b.fingerprint then some "same_timestamp"
  else none

/-- `latest_root` of the observed roots of a log. -/
def latestObserved (verifier : RootVerifier crypto) (logId : String) :
    Option (MirroredRoot crypto) :=
  (((verifier.observed.map Prod.snd).filter fun root => root.logId = logId).reverse).argmax
    fun root => (toLex (root.treeSize, root.timestamp) : Int ×ₗ Int)

/-- `record_root`: one row for each tree and source. -/
def recordRoot (verifier : RootVerifier crypto) (source : Nat) (root : MirroredRoot crypto) :
    RootVerifier crypto :=
  if verifier.observed.any fun row => row.1 = source ∧ row.2.logId = root.logId ∧
      row.2.treeSize = root.treeSize ∧ row.2.rootHash = root.rootHash then verifier
  else { verifier with observed := verifier.observed ++ [(source, root)] }

/-- `observe_root`. A failure also blacklists the operator. -/
def observeRoot (verifier : RootVerifier crypto) (source : Nat) (root : MirroredRoot crypto) :
    Except String (RootVerifier crypto) := do
  verifier.verifySignedRootForLineage root
  Check.require (root.logId ∉ verifier.blacklisted)
    "CRITICAL transparency log consistency failure: operator is locally blacklisted"
  Check.require (∀ row ∈ verifier.observed, equivocationCollisionType row.2 root = none)
    "mirrors disagree about a signed transparency log root"
  match verifier.latestObserved root.logId with
  | none => pure (verifier.recordRoot source root)
  | some previous =>
      Check.require (previous.treeSize = root.treeSize → previous.rootHash = root.rootHash)
        "new observed root is not an append-only extension of the stored root"
      Check.require (previous.treeSize < root.treeSize → verifier.consistent previous root = true)
        "transparency consistency proof does not verify"
      Check.require (root.treeSize < previous.treeSize → verifier.consistent root previous = true)
        "transparency consistency proof does not verify"
      pure (verifier.recordRoot source root)

/-- `_observe_roots`. -/
def observeRoots (verifier : RootVerifier crypto) :
    List (Nat × MirroredRoot crypto) → Except String (RootVerifier crypto)
  | [] => .ok verifier
  | (source, root) :: rest => do
      let verifier ← verifier.observeRoot source root
      verifier.observeRoots rest

/-! ## The current root -/

/-- `_validate_current_root_freshness`. -/
def validateCurrentRootFreshness (verifier : RootVerifier crypto) (root : MirroredRoot crypto)
    (now : Int) : Except String Unit := do
  Check.require (root.timestamp - now ≤ verifier.currentRootFutureSkewSeconds)
    "transparency root is too far in the future for current verification"
  Check.require (now - root.timestamp ≤ verifier.maxCurrentRootAgeSeconds)
    "transparency root is stale for current verification"

/-- The current root of one mirror in `_current_roots_from_mirrors`, with
    `_validate_current_root_monotonicity`: a root of a smaller tree with a later time ends the
    request, one of a smaller tree alone does not. -/
def currentRoot (verifier : RootVerifier crypto) (mirror : RootMirror crypto) (now : Int) :
    CurrentRoot crypto :=
  let checked : Except String (MirroredRoot crypto) := do
    let root ← mirror.latestRoot
    verifier.verifySignedRootForLineage root
    verifier.validateCurrentRootFreshness root now
    pure root
  match checked with
  | .error error => .skipped error
  | .ok root =>
      let rows := (verifier.observed.map Prod.snd).filter fun row => row.logId = root.logId
      if rows.any fun row => root.treeSize < row.treeSize then
        if rows.all fun row => row.timestamp < root.timestamp then
          .refused "operator signed a current root with a smaller tree than this client had observed"
        else .usable root
      else if rows.any fun row => root.timestamp < row.timestamp then
        .skipped "transparency root replayed an older timestamp for current verification"
      else .usable root

/-- `_current_roots_from_mirrors`, before the roots are compared and observed. -/
def currentRootsOfMirrors (verifier : RootVerifier crypto) (now : Int) :
    List (RootMirror crypto × Nat) → Except String (List (Nat × MirroredRoot crypto))
  | [] => .ok []
  | (mirror, source) :: rest =>
      match verifier.currentRoot mirror now with
      | .refused error => .error error
      | .skipped _ => verifier.currentRootsOfMirrors now rest
      | .usable root => do
          let roots ← verifier.currentRootsOfMirrors now rest
          pure ((source, root) :: roots)

/-- `_current_roots_from_mirrors`. -/
def currentRootsFromMirrors (verifier : RootVerifier crypto) (mirrors : List (RootMirror crypto))
    (now : Int) : Except String (List (Nat × MirroredRoot crypto) × RootVerifier crypto) := do
  let roots ← verifier.currentRootsOfMirrors now mirrors.zipIdx
  Check.require (verifier.minMirrors ≤ roots.length)
    "not enough usable current transparency root mirrors for current verification"
  detectMirrorDisagreement verifier.acceptLegacy [] (roots.map Prod.snd)
  let verifier ← verifier.observeRoots roots
  pure (roots, verifier)

/-- `current_mirrored_root`. -/
def currentMirroredRoot (verifier : RootVerifier crypto) (mirrors : List (RootMirror crypto))
    (now : Int) : Except String (MirroredRoot crypto × RootVerifier crypto) := do
  let (roots, verifier) ← verifier.currentRootsFromMirrors mirrors now
  let root ← Check.ofOption ((roots.map Prod.snd).reverse.argmax
    fun root => (toLex (root.treeSize, root.timestamp) : Int ×ₗ Int)) "list index out of range"
  pure (root, verifier)

/-! ## The root of a leaf -/

/-- The loop over one mirror's roots in `mirrored_root_containing_leaf`, without recovery witnesses.
    Every turn passes to a later root of the history, so as many turns as the history has roots and
    one more are enough. -/
def rootContainingLeaf (verifier : RootVerifier crypto) (mirror : RootMirror crypto)
    (timestamp minTreeSize : Int) : Nat → Int → List Int → Except String (MirroredRoot crypto)
  | 0, _, _ => .error "mirror returned the same root repeatedly"
  | turns + 1, nextTimestamp, seenTimestamps => do
      let root ← mirror.rootAt nextTimestamp
      verifier.verifySignedRootForLineage root
      Check.require (root.timestamp ∉ seenTimestamps) "mirror returned the same root repeatedly"
      Check.require (0 ≤ root.timestamp - timestamp)
        "mirror returned a root before the requested timestamp"
      Check.require (root.timestamp - timestamp ≤ verifier.maxRootLagSeconds)
        "no mirrored transparency root close enough to transfer timestamp"
      if minTreeSize ≤ root.treeSize then pure root
      else
        verifier.rootContainingLeaf mirror timestamp minTreeSize turns (root.timestamp + 1)
          (root.timestamp :: seenTimestamps)

/-- The answers of the mirrors that have a root for the leaf. -/
def rootsContainingLeaf (verifier : RootVerifier crypto) (mirrors : List (RootMirror crypto))
    (timestamp leafIndex : Int) : List (Nat × MirroredRoot crypto) :=
  mirrors.zipIdx.filterMap fun (mirror, source) =>
    match verifier.rootContainingLeaf mirror timestamp (leafIndex + 1) (mirror.history.length + 1)
      timestamp [] with
    | .ok root => some (source, root)
    | .error _ => none

/-- `mirrored_root_containing_leaf`. -/
def mirroredRootContainingLeaf (verifier : RootVerifier crypto)
    (mirrors : List (RootMirror crypto)) (timestamp leafIndex : Int) :
    Except String (MirroredRoot crypto × RootVerifier crypto) := do
  let roots := verifier.rootsContainingLeaf mirrors timestamp leafIndex
  Check.require (verifier.minMirrors ≤ roots.length)
    "not enough usable transparency root mirrors containing leaf"
  detectMirrorDisagreement verifier.acceptLegacy [] (roots.map Prod.snd)
  let verifier ← verifier.observeRoots roots
  let root ← Check.ofOption ((roots.map Prod.snd).argmin MirroredRoot.order)
    "list index out of range"
  pure (root, verifier)

end RootVerifier
