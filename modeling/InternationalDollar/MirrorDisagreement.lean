import InternationalDollar.HonestLog
import InternationalDollar.Lib.AssocList

set_option autoImplicit false

/-! # Disagreement between roots (`detect_mirror_disagreement`)

The scan over a list of roots remembers one root for each time and one for each tree size, and compares
a new root with these two only. Roots that were remembered under one key before agree with the one that
is remembered now, so the scan misses no pair: it raises exactly where two of the roots collide in the
sense of `equivocation_collision_type`, and from the two roots that it reports anyone can build evidence
that others accept. -/

variable {crypto : Crypto}

/-- The evidence that a `MirrorDisagreementError` carries. `position` is the time or the tree size that
    the two roots share. -/
structure DisagreementEvidence (crypto : Crypto) where
  logId : String
  collisionType : String
  position : Int
  rootA : MirroredRoot crypto
  rootB : MirroredRoot crypto
deriving DecidableEq

/-- What the scan raises: a root that does not verify, or a disagreement. -/
inductive ScanError (crypto : Crypto) where
  | rootVerification (message : String)
  | mirrorDisagreement (evidence : DisagreementEvidence crypto)
deriving DecidableEq

/-- What the scan remembers about a root. -/
structure SeenRoot (crypto : Crypto) where
  fingerprint : Int × String × Option String × Int
  root : MirroredRoot crypto
deriving DecidableEq

namespace MirrorDisagreement

/-- `by_timestamp` and `by_tree_size`: what is remembered for a log and a number. -/
abbrev Table (crypto : Crypto) : Type :=
  List ((String × Int) × SeenRoot crypto)

/-- The comparison with the root remembered under a key. -/
def compare (collisionType : String) (table : Table crypto) (position : Int)
    (root : MirroredRoot crypto) : Except (ScanError crypto) Unit :=
  match AssocList.get? (root.logId, position) table with
  | none => .ok ()
  | some previous =>
      if previous.fingerprint = root.fingerprint then .ok ()
      else .error (.mirrorDisagreement ⟨root.logId, collisionType, position, previous.root, root⟩)

/-- `verify_signed_root`, in the scan. -/
def verifyRoot (acceptLegacy : Bool) (operatorPublicKey : Option String)
    (root : MirroredRoot crypto) : Except (ScanError crypto) Unit :=
  match root.verifySignedRoot crypto acceptLegacy operatorPublicKey with
  | .ok _ => .ok ()
  | .error message => .error (.rootVerification message)

/-- The loop of `detect_mirror_disagreement`. -/
def scan (acceptLegacy : Bool) (operatorPublicKey : Option String) :
    Table crypto → Table crypto → List (MirroredRoot crypto) → Except (ScanError crypto) Unit
  | _, _, [] => .ok ()
  | byTimestamp, byTreeSize, root :: rest => do
      verifyRoot acceptLegacy operatorPublicKey root
      compare "same_timestamp" byTimestamp root.timestamp root
      compare "same_tree_size" byTreeSize root.treeSize root
      scan acceptLegacy operatorPublicKey
        (AssocList.put (root.logId, root.timestamp) ⟨root.fingerprint, root⟩ byTimestamp)
        (AssocList.put (root.logId, root.treeSize) ⟨root.fingerprint, root⟩ byTreeSize) rest

/-- `detect_mirror_disagreement`. -/
def detectMirrorDisagreement (acceptLegacy : Bool) (roots : List (MirroredRoot crypto))
    (operatorPublicKey : Option String) : Except (ScanError crypto) Unit :=
  scan acceptLegacy operatorPublicKey [] [] roots

/-! ## What the scan remembers -/

/-- A table remembers roots: an entry for each of them with its fingerprint, and nothing else. -/
structure Remembers (position : MirroredRoot crypto → Int) (table : Table crypto)
    (seen : List (MirroredRoot crypto)) : Prop where
  complete : ∀ root ∈ seen, ∃ entry, AssocList.get? (root.logId, position root) table = some entry ∧
    entry.fingerprint = root.fingerprint
  sound : ∀ key entry, AssocList.get? key table = some entry →
    entry.root ∈ seen ∧ (entry.root.logId, position entry.root) = key ∧
      entry.fingerprint = entry.root.fingerprint

variable {position : MirroredRoot crypto → Int} {table : Table crypto}
  {seen : List (MirroredRoot crypto)} {root : MirroredRoot crypto}

theorem remembers_nil : Remembers position ([] : Table crypto) [] where
  complete := fun _ h => absurd h List.not_mem_nil
  sound := fun _ _ h => nomatch h

/-- A root agrees with all roots of its key. -/
def AgreesAt (position : MirroredRoot crypto → Int) (a b : MirroredRoot crypto) : Prop :=
  a.logId = b.logId → position a = position b → a.fingerprint = b.fingerprint

/-- The comparison passes exactly where the root agrees with every root seen so far. -/
theorem Remembers.compare_eq_ok (h : Remembers position table seen) {collisionType : String} :
    compare collisionType table (position root) root = .ok () ↔
      ∀ previous ∈ seen, AgreesAt position previous root := by
  unfold compare
  cases hget : AssocList.get? (root.logId, position root) table with
  | none =>
    refine iff_of_true rfl fun previous hprevious hlog hposition => ?_
    obtain ⟨entry, hentry, -⟩ := h.complete previous hprevious
    rw [hlog, hposition, hget] at hentry
    exact nomatch hentry
  | some entry =>
    obtain ⟨hmem, hkey, hfingerprint⟩ := h.sound _ _ hget
    obtain ⟨hlogEntry, hpositionEntry⟩ := Prod.mk.inj hkey
    by_cases hsame : entry.fingerprint = root.fingerprint
    · simp only [if_pos hsame, true_iff]
      intro previous hprevious hlog hposition
      obtain ⟨entry', hentry', hfingerprint'⟩ := h.complete previous hprevious
      rw [hlog, hposition, hget] at hentry'
      cases hentry'
      exact hfingerprint'.symm.trans hsame
    · simp only [if_neg hsame, reduceCtorEq, false_iff]
      intro hall
      exact hsame (hfingerprint.trans (hall entry.root hmem hlogEntry hpositionEntry))

/-- Where the comparison raises, it reports a root seen before that disagrees. -/
theorem Remembers.compare_eq_error (h : Remembers position table seen) {collisionType : String}
    {e : ScanError crypto} (herror : compare collisionType table (position root) root = .error e) :
    ∃ previous ∈ seen, ¬ AgreesAt position previous root ∧
      e = .mirrorDisagreement ⟨root.logId, collisionType, position root, previous, root⟩ := by
  unfold compare at herror
  cases hget : AssocList.get? (root.logId, position root) table with
  | none => simp [hget] at herror
  | some entry =>
    obtain ⟨hmem, hkey, hfingerprint⟩ := h.sound _ _ hget
    obtain ⟨hlog, hposition⟩ := Prod.mk.inj hkey
    by_cases hsame : entry.fingerprint = root.fingerprint
    · simp [hget, hsame] at herror
    · simp only [hget, if_neg hsame, Except.error.injEq] at herror
      exact ⟨entry.root, hmem, fun hagrees => hsame (hfingerprint.trans (hagrees hlog hposition)),
        herror.symm⟩

/-- The table remembers a root that agrees with those seen before. -/
theorem Remembers.put (h : Remembers position table seen)
    (hagrees : ∀ previous ∈ seen, AgreesAt position previous root) :
    Remembers position (AssocList.put (root.logId, position root) ⟨root.fingerprint, root⟩ table)
      (root :: seen) where
  complete := by
    intro previous hprevious
    rw [AssocList.get?_put]
    by_cases hkey : (previous.logId, position previous) = (root.logId, position root)
    · obtain ⟨hlog, hposition⟩ := Prod.mk.inj hkey
      rw [if_pos hkey]
      rcases List.mem_cons.1 hprevious with rfl | hprevious
      · exact ⟨_, rfl, rfl⟩
      · exact ⟨_, rfl, (hagrees previous hprevious hlog hposition).symm⟩
    · rw [if_neg hkey]
      rcases List.mem_cons.1 hprevious with rfl | hprevious
      · exact absurd rfl hkey
      · exact h.complete previous hprevious
  sound := by
    intro key entry hget
    rw [AssocList.get?_put] at hget
    by_cases hkey : key = (root.logId, position root)
    · rw [if_pos hkey] at hget
      cases hget
      exact ⟨List.mem_cons_self, hkey.symm, rfl⟩
    · rw [if_neg hkey] at hget
      obtain ⟨hmem, hrest⟩ := h.sound key entry hget
      exact ⟨List.mem_cons_of_mem _ hmem, hrest⟩

/-! ## The whole scan -/

/-- The key of a root in the first table. -/
abbrev timestampOf (root : MirroredRoot crypto) : Int :=
  root.timestamp

/-- The key of a root in the second table. -/
abbrev treeSizeOf (root : MirroredRoot crypto) : Int :=
  root.treeSize

/-- Two roots of one log with one time or one tree size have one fingerprint. -/
def Agree (a b : MirroredRoot crypto) : Prop :=
  AgreesAt timestampOf a b ∧ AgreesAt treeSizeOf a b

theorem Agree.refl (a : MirroredRoot crypto) : Agree a a :=
  ⟨fun _ _ => rfl, fun _ _ => rfl⟩

theorem Agree.symm {a b : MirroredRoot crypto} (h : Agree a b) : Agree b a :=
  ⟨fun hlog hposition => (h.1 hlog.symm hposition.symm).symm,
    fun hlog hposition => (h.2 hlog.symm hposition.symm).symm⟩

theorem verifyRoot_eq_ok {acceptLegacy : Bool} {operatorPublicKey : Option String} :
    verifyRoot acceptLegacy operatorPublicKey root = .ok () ↔
      root.verifySignedRoot crypto acceptLegacy operatorPublicKey = .ok () := by
  unfold verifyRoot
  cases root.verifySignedRoot crypto acceptLegacy operatorPublicKey with
  | ok => simp
  | error message => simp

theorem forall_agree_cons {roots : List (MirroredRoot crypto)} :
    (∀ previous ∈ root :: seen, ∀ b ∈ roots, Agree previous b) ↔
      (∀ b ∈ roots, Agree root b) ∧ ∀ previous ∈ seen, ∀ b ∈ roots, Agree previous b :=
  List.forall_mem_cons

/-- The scan passes over verified roots exactly where they agree with each other and with those seen
    before. -/
theorem scan_eq_ok {acceptLegacy : Bool} {operatorPublicKey : Option String}
    {roots : List (MirroredRoot crypto)} {byTimestamp byTreeSize : Table crypto}
    (hverified : ∀ root ∈ roots,
      root.verifySignedRoot crypto acceptLegacy operatorPublicKey = .ok ())
    (htimes : Remembers timestampOf byTimestamp seen)
    (hsizes : Remembers treeSizeOf byTreeSize seen) :
    scan acceptLegacy operatorPublicKey byTimestamp byTreeSize roots = .ok () ↔
      (∀ previous ∈ seen, ∀ root ∈ roots, Agree previous root) ∧ roots.Pairwise Agree := by
  induction roots generalizing byTimestamp byTreeSize seen with
  | nil => simp [scan]
  | cons root rest ih =>
    obtain ⟨hroot, hrest⟩ := List.forall_mem_cons.1 hverified
    rw [scan, Check.andThen_eq_ok, Check.andThen_eq_ok, Check.andThen_eq_ok,
      htimes.compare_eq_ok, hsizes.compare_eq_ok]
    constructor
    · rintro ⟨-, htimesAgree, hsizesAgree, htail⟩
      obtain ⟨hseen, hpairs⟩ := (ih hrest (htimes.put htimesAgree) (hsizes.put hsizesAgree)).1 htail
      obtain ⟨hroots, hseen⟩ := forall_agree_cons.1 hseen
      refine ⟨fun previous hprevious => List.forall_mem_cons.2
        ⟨⟨htimesAgree previous hprevious, hsizesAgree previous hprevious⟩, hseen previous hprevious⟩, ?_⟩
      exact List.pairwise_cons.2 ⟨hroots, hpairs⟩
    · rintro ⟨hseen, hpairs⟩
      obtain ⟨hroots, hpairs⟩ := List.pairwise_cons.1 hpairs
      have hagree : ∀ previous ∈ seen, Agree previous root := fun previous hprevious =>
        hseen previous hprevious root List.mem_cons_self
      have htimesAgree := fun previous hprevious => (hagree previous hprevious).1
      have hsizesAgree := fun previous hprevious => (hagree previous hprevious).2
      refine ⟨verifyRoot_eq_ok.2 hroot, htimesAgree, hsizesAgree,
        (ih hrest (htimes.put htimesAgree) (hsizes.put hsizesAgree)).2 ⟨forall_agree_cons.2 ⟨hroots, ?_⟩,
          hpairs⟩⟩
      exact fun previous hprevious b hb => hseen previous hprevious b (List.mem_cons_of_mem _ hb)

/-- Where the scan raises over verified roots, it reports two of them that do not agree. -/
theorem scan_eq_error {acceptLegacy : Bool} {operatorPublicKey : Option String}
    {roots : List (MirroredRoot crypto)} {byTimestamp byTreeSize : Table crypto} {e : ScanError crypto}
    (hverified : ∀ root ∈ roots,
      root.verifySignedRoot crypto acceptLegacy operatorPublicKey = .ok ())
    (htimes : Remembers timestampOf byTimestamp seen)
    (hsizes : Remembers treeSizeOf byTreeSize seen)
    (h : scan acceptLegacy operatorPublicKey byTimestamp byTreeSize roots = .error e) :
    ∃ evidence, e = .mirrorDisagreement evidence ∧ evidence.rootA ∈ seen ++ roots ∧
      evidence.rootB ∈ roots ∧ ¬ Agree evidence.rootA evidence.rootB := by
  induction roots generalizing byTimestamp byTreeSize seen with
  | nil => exact nomatch h
  | cons root rest ih =>
    obtain ⟨hroot, hrest⟩ := List.forall_mem_cons.1 hverified
    rw [scan, Check.andThen_eq_error, Check.andThen_eq_error, Check.andThen_eq_error,
      verifyRoot_eq_ok.2 hroot] at h
    rcases h with h | ⟨-, h | ⟨htimesOk, h | ⟨hsizesOk, h⟩⟩⟩
    · exact nomatch h
    · obtain ⟨previous, hprevious, hnot, rfl⟩ := htimes.compare_eq_error h
      exact ⟨_, rfl, List.mem_append_left _ hprevious, List.mem_cons_self, fun hagree => hnot hagree.1⟩
    · obtain ⟨previous, hprevious, hnot, rfl⟩ := hsizes.compare_eq_error h
      exact ⟨_, rfl, List.mem_append_left _ hprevious, List.mem_cons_self, fun hagree => hnot hagree.2⟩
    · obtain ⟨evidence, rfl, hrootA, hrootB, hnot⟩ := ih hrest
        (htimes.put (htimes.compare_eq_ok.1 htimesOk)) (hsizes.put (hsizes.compare_eq_ok.1 hsizesOk)) h
      refine ⟨evidence, rfl, ?_, List.mem_cons_of_mem _ hrootB, hnot⟩
      simp only [List.cons_append, List.mem_cons, List.mem_append] at hrootA ⊢
      tauto

/-- Verified roots pass exactly where any two of them agree, and else two of them are reported. -/
theorem detect_eq_ok {acceptLegacy : Bool} {operatorPublicKey : Option String}
    {roots : List (MirroredRoot crypto)} (hverified : ∀ root ∈ roots,
      root.verifySignedRoot crypto acceptLegacy operatorPublicKey = .ok ()) :
    detectMirrorDisagreement acceptLegacy roots operatorPublicKey = .ok () ↔
      ∀ a ∈ roots, ∀ b ∈ roots, Agree a b := by
  rw [detectMirrorDisagreement, scan_eq_ok hverified remembers_nil remembers_nil]
  constructor
  · rintro ⟨-, hpairs⟩ a ha b hb
    exact hpairs.forall_of_forall_of_flip (fun c _ => Agree.refl c) (hpairs.imp fun h => h.symm) ha hb
  · intro h
    exact ⟨fun _ hprevious => absurd hprevious List.not_mem_nil,
      List.pairwise_of_forall_mem_list h⟩

theorem detect_eq_error {acceptLegacy : Bool} {operatorPublicKey : Option String}
    {roots : List (MirroredRoot crypto)} {e : ScanError crypto} (hverified : ∀ root ∈ roots,
      root.verifySignedRoot crypto acceptLegacy operatorPublicKey = .ok ())
    (h : detectMirrorDisagreement acceptLegacy roots operatorPublicKey = .error e) :
    ∃ evidence, e = .mirrorDisagreement evidence ∧ evidence.rootA ∈ roots ∧ evidence.rootB ∈ roots ∧
      ¬ Agree evidence.rootA evidence.rootB :=
  scan_eq_error hverified remembers_nil remembers_nil h

/-- Among roots that agree, comparing with the last one of a key is comparing with all of them. -/
theorem find?_agrees_iff (root : MirroredRoot crypto)
    (hseen : ∀ a ∈ seen, ∀ b ∈ seen, AgreesAt position a b) :
    (∀ previous ∈ seen.find? fun item => item.logId = root.logId ∧ position item = position root,
      previous.fingerprint = root.fingerprint) ↔ ∀ previous ∈ seen, AgreesAt position previous root := by
  cases hfind : seen.find? fun item => item.logId = root.logId ∧ position item = position root with
  | none =>
    refine iff_of_true (fun _ h => nomatch h) fun previous hprevious hlog hposition => ?_
    have hnot := List.find?_eq_none.1 hfind previous hprevious
    exact absurd (decide_eq_true ⟨hlog, hposition⟩) hnot
  | some found =>
    have hmem := List.mem_of_find?_eq_some hfind
    have hkey : found.logId = root.logId ∧ position found = position root := by
      simpa using List.find?_some hfind
    constructor
    · intro h previous hprevious hlog hposition
      exact (hseen previous hprevious found hmem (hlog.trans hkey.1.symm)
        (hposition.trans hkey.2.symm)).trans (h found rfl)
    · rintro h _ ⟨⟩
      exact h found hmem hkey.1 hkey.2

/-- The scan with the list of the roots seen so far, as the verifier's model has it, passes exactly where
    the scan with the two tables does. -/
theorem rootVerifier_detect_eq_ok {acceptLegacy : Bool} {roots : List (MirroredRoot crypto)}
    {byTimestamp byTreeSize : Table crypto} (hseen : ∀ a ∈ seen, ∀ b ∈ seen, Agree a b)
    (htimes : Remembers timestampOf byTimestamp seen) (hsizes : Remembers treeSizeOf byTreeSize seen) :
    RootVerifier.detectMirrorDisagreement acceptLegacy seen roots = .ok () ↔
      scan acceptLegacy none byTimestamp byTreeSize roots = .ok () := by
  induction roots generalizing byTimestamp byTreeSize seen with
  | nil => exact iff_of_true rfl rfl
  | cons root rest ih =>
    have hfindTimes := find?_agrees_iff root fun a ha b hb => (hseen a ha b hb).1
    have hfindSizes := find?_agrees_iff root fun a ha b hb => (hseen a ha b hb).2
    rw [scan, Check.andThen_eq_ok, Check.andThen_eq_ok, Check.andThen_eq_ok, verifyRoot_eq_ok,
      htimes.compare_eq_ok, hsizes.compare_eq_ok, RootVerifier.detectMirrorDisagreement,
      Check.andThen_eq_ok, Check.andThen_eq_ok, Check.andThen_eq_ok, Check.require_eq_ok,
      Check.require_eq_ok, hfindTimes, hfindSizes]
    refine and_congr_right fun _ => and_congr_right fun htimesAgree =>
      and_congr_right fun hsizesAgree => ?_
    refine ih ?_ (htimes.put htimesAgree) (hsizes.put hsizesAgree)
    have hroot : ∀ previous ∈ seen, Agree previous root := fun previous hprevious =>
      ⟨htimesAgree previous hprevious, hsizesAgree previous hprevious⟩
    intro a ha b hb
    rcases List.mem_cons.1 ha with rfl | haSeen
    · rcases List.mem_cons.1 hb with rfl | hbSeen
      · exact Agree.refl _
      · exact (hroot b hbSeen).symm
    · rcases List.mem_cons.1 hb with rfl | hbSeen
      · exact hroot a haSeen
      · exact hseen a haSeen b hbSeen

theorem verified_of_scan {acceptLegacy : Bool} {operatorPublicKey : Option String}
    {roots : List (MirroredRoot crypto)} {byTimestamp byTreeSize : Table crypto}
    (h : scan acceptLegacy operatorPublicKey byTimestamp byTreeSize roots = .ok ()) :
    ∀ root ∈ roots, root.verifySignedRoot crypto acceptLegacy operatorPublicKey = .ok () := by
  induction roots generalizing byTimestamp byTreeSize with
  | nil => exact fun _ hroot => absurd hroot List.not_mem_nil
  | cons root rest ih =>
    rw [scan, Check.andThen_eq_ok, Check.andThen_eq_ok, Check.andThen_eq_ok, verifyRoot_eq_ok] at h
    exact List.forall_mem_cons.2 ⟨h.1, ih h.2.2.2⟩

/-- Roots that the verifier's scan passes agree with each other. -/
theorem agree_of_rootVerifier_detect {acceptLegacy : Bool} {roots : List (MirroredRoot crypto)}
    (h : RootVerifier.detectMirrorDisagreement acceptLegacy [] roots = .ok ()) :
    ∀ a ∈ roots, ∀ b ∈ roots, Agree a b := by
  have hscan := (rootVerifier_detect_eq_ok (fun _ ha => absurd ha List.not_mem_nil) remembers_nil
    remembers_nil).1 h
  exact (detect_eq_ok (verified_of_scan hscan)).1 hscan

end MirrorDisagreement

/-! ## Evidence from two roots -/

/-- `make_equivocation_proof`. -/
def EquivocationProof.makeEquivocationProof (acceptLegacy : Bool) (rootA rootB : MirroredRoot crypto)
    (collisionType : Option String) (detectedAt : Int) : Except String (EquivocationProof crypto) := do
  rootA.verifySignedRoot crypto acceptLegacy none
  rootB.verifySignedRoot crypto acceptLegacy none
  let collisionType := (collisionType.filter (· ≠ "")).or
    (RootVerifier.equivocationCollisionType rootA rootB)
  Check.require (collisionType = some "same_tree_size" ∨ collisionType = some "same_timestamp")
    "mirrors disagree about a signed transparency log root"
  pure
    { type := logEquivocationProofType, version := logVersion, logId := rootA.logId,
      collisionType := collisionType.getD "", rootA, rootB, detectedAt }

namespace SignedRoot

/-- A root that verifies for an expected operator verifies. -/
theorem verifySignedRoot_none {acceptLegacy : Bool} {root : SignedRoot}
    {operatorPublicKey : Option String}
    (h : root.verifySignedRoot crypto acceptLegacy operatorPublicKey = .ok ()) :
    root.verifySignedRoot crypto acceptLegacy none = .ok () := by
  simp only [verifySignedRoot, Check.bind_eq_ok, Check.require_eq_ok] at h ⊢
  obtain ⟨_, htype, _, htree, _, hhash, _, hsignature, _, hsize, _, htime, _, hroot, _, hfields, _, -,
    _, hlog, hrest⟩ := h
  exact ⟨(), htype, (), htree, (), hhash, (), hsignature, (), hsize, (), htime, _, hroot, (), hfields,
    (), fun _ hexpected => (nomatch hexpected), (), hlog, hrest⟩

/-- The log id of a root that verifies is that of its key. -/
theorem logId_eq_of_verify {acceptLegacy : Bool} {root : SignedRoot}
    {operatorPublicKey : Option String}
    (h : root.verifySignedRoot crypto acceptLegacy operatorPublicKey = .ok ()) :
    root.logId = logIdFromPublicKey crypto (Text.strip root.operatorPublicKey) := by
  simp only [verifySignedRoot, Check.bind_eq_ok, Check.require_eq_ok] at h
  obtain ⟨_, -, _, -, _, -, _, -, _, -, _, -, _, -, _, -, _, -, _, hlog, -⟩ := h
  exact hlog

/-! ### The text of a root determines it -/

theorem name_of_mem_optionalMember {name : String} {value : Option Json} {item : String × Json}
    (h : item ∈ optionalMember name value) : item.1 = name := by
  cases value with
  | none => exact absurd h List.not_mem_nil
  | some value => rw [List.mem_singleton.1 h]

theorem forall_ne_optionalMember_append {name other : String} {value : Option Json}
    {rest : List (String × Json)} (hne : other ≠ name) (hrest : ∀ item ∈ rest, item.1 ≠ name) :
    ∀ item ∈ optionalMember other value ++ rest, item.1 ≠ name := by
  intro item hitem
  rcases List.mem_append.1 hitem with hitem | hitem
  · rw [name_of_mem_optionalMember hitem]
    exact hne
  · exact hrest item hitem

theorem optionalMember_append_inj {name : String} {a b : Option Json} {rest rest' : List (String × Json)}
    (h : optionalMember name a ++ rest = optionalMember name b ++ rest')
    (hrest : ∀ item ∈ rest, item.1 ≠ name) (hrest' : ∀ item ∈ rest', item.1 ≠ name) :
    a = b ∧ rest = rest' := by
  cases a with
  | none =>
    cases b with
    | none => exact ⟨rfl, h⟩
    | some b =>
      rw [show rest = (name, b) :: rest' from h] at hrest
      exact absurd rfl (hrest (name, b) List.mem_cons_self)
  | some a =>
    cases b with
    | none =>
      rw [show rest' = (name, a) :: rest from h.symm] at hrest'
      exact absurd rfl (hrest' (name, a) List.mem_cons_self)
    | some b =>
      obtain ⟨hhead, htail⟩ := List.cons.inj (show (name, a) :: rest = (name, b) :: rest' from h)
      exact ⟨congrArg some (Prod.mk.inj hhead).2, htail⟩

theorem fingerprint_of_toJson {a b : MirroredRoot crypto}
    (h : a.toSignedRoot.toJson = b.toSignedRoot.toJson) : a.fingerprint = b.fingerprint := by
  simp only [toJson, members, Option.map_some, optionalMember, lastMembers, List.cons_append,
    List.nil_append, List.append_assoc, Json.obj.injEq, List.cons.injEq, Prod.mk.injEq, true_and,
    Json.str.injEq] at h
  obtain ⟨-, -, -, hroot, -, -, hrest⟩ := h
  -- the three optional members are told apart by their names
  have hlast : ∀ (root : MirroredRoot crypto) (name : String),
      name ∈ ["spend_map_algorithm", "spend_map_root", "spend_map_size"] →
      ∀ item ∈ [("timestamp", Json.int root.timestamp), ("tree_algorithm", .str root.treeAlgorithm),
        ("tree_size", .int root.treeSize), ("type", .str root.type), ("version", .int root.version)],
      item.1 ≠ name := by
    intro root name hname
    simp only [List.mem_cons, List.not_mem_nil, or_false] at hname
    rcases hname with rfl | rfl | rfl <;> simp
  obtain ⟨-, hrest⟩ := optionalMember_append_inj hrest
    (forall_ne_optionalMember_append (by decide) (forall_ne_optionalMember_append (by decide)
      (hlast a _ (by simp))))
    (forall_ne_optionalMember_append (by decide) (forall_ne_optionalMember_append (by decide)
      (hlast b _ (by simp))))
  obtain ⟨hmap, hrest⟩ := optionalMember_append_inj hrest
    (forall_ne_optionalMember_append (by decide) (hlast a _ (by simp)))
    (forall_ne_optionalMember_append (by decide) (hlast b _ (by simp)))
  obtain ⟨hsize, hrest⟩ := optionalMember_append_inj hrest (hlast a _ (by simp)) (hlast b _ (by simp))
  simp only [List.cons.injEq, Prod.mk.injEq, true_and, Json.int.injEq] at hrest
  have hmap : a.spendMapRoot = b.spendMapRoot :=
    Option.map_injective (fun _ _ h => Json.str.inj h) hmap
  have hsize : a.spendMapSize = b.spendMapSize :=
    Option.map_injective (fun _ _ h => Json.int.inj h) hsize
  simp only [MirroredRoot.fingerprint, hrest.2.2.1, hroot, hmap, hsize]

end SignedRoot

namespace MirrorDisagreement

/-- SHA3-256 takes different values on the texts of the roots, and on their keys, where these differ. -/
structure CollisionFree (roots : List (MirroredRoot crypto)) : Prop where
  texts : ∀ a ∈ roots, ∀ b ∈ roots,
    crypto.sha3_256 a.toJson.bytes = crypto.sha3_256 b.toJson.bytes → a.toJson.bytes = b.toJson.bytes
  keys : ∀ a ∈ roots, ∀ b ∈ roots,
    crypto.sha3_256 (Text.utf8 (Text.strip a.operatorPublicKey))
      = crypto.sha3_256 (Text.utf8 (Text.strip b.operatorPublicKey)) →
    Text.utf8 (Text.strip a.operatorPublicKey) = Text.utf8 (Text.strip b.operatorPublicKey)

theorem id_eq_sha3 (root : MirroredRoot crypto) : root.id = crypto.sha3Hex root.toJson.bytes := by
  obtain ⟨raw, hraw, hid⟩ := Check.bind_eq_ok.1 root.id_eq
  rw [(canonicalBytes_eq_ok.1 hraw).2]
  exact (Except.ok.inj hid).symm

variable {roots : List (MirroredRoot crypto)} {a b : MirroredRoot crypto}

/-- The scan and `equivocation_collision_type` find the same pairs. -/
theorem CollisionFree.collisionType_ne_none_iff (hfree : CollisionFree roots) (ha : a ∈ roots)
    (hb : b ∈ roots) : RootVerifier.equivocationCollisionType a b ≠ none ↔ ¬ Agree a b := by
  have hids : a.id = b.id → a.fingerprint = b.fingerprint := by
    intro hid
    rw [id_eq_sha3, id_eq_sha3] at hid
    have htexts := hfree.texts a ha b hb (Text.hex_injective hid)
    exact SignedRoot.fingerprint_of_toJson (Json.bytes_inj htexts)
  simp only [RootVerifier.equivocationCollisionType, Agree, AgreesAt, timestampOf, treeSizeOf]
  by_cases hlog : a.logId = b.logId
  · by_cases hid : a.id = b.id
    · simp [hid, hids hid]
    · by_cases hfingerprint : a.fingerprint = b.fingerprint
      · simp [hfingerprint]
      · by_cases hsize : a.treeSize = b.treeSize
        · simp [hlog, hid, hfingerprint, hsize]
        · by_cases htime : a.timestamp = b.timestamp
          · simp [hlog, hid, hfingerprint, hsize, htime]
          · simp [hlog, hid, hfingerprint, hsize, htime]
  · simp [hlog]

/-- A collision type is one of two. -/
theorem collisionType_cases {collisionType : String}
    (h : RootVerifier.equivocationCollisionType a b = some collisionType) :
    a.logId = b.logId ∧ (collisionType = "same_tree_size" ∨ collisionType = "same_timestamp") := by
  unfold RootVerifier.equivocationCollisionType at h
  split at h
  · exact nomatch h
  · next hlog =>
    refine ⟨not_not.1 hlog, ?_⟩
    split at h
    · exact nomatch h
    · split at h
      · exact Or.inl (Option.some.inj h).symm
      · split at h
        · exact Or.inr (Option.some.inj h).symm
        · exact nomatch h

/-- From two verified roots that collide anyone can build evidence that everybody accepts. -/
theorem CollisionFree.exists_proof (hfree : CollisionFree roots) (ha : a ∈ roots) (hb : b ∈ roots)
    {acceptLegacy : Bool} (hverifiedA : a.verifySignedRoot crypto acceptLegacy none = .ok ())
    (hverifiedB : b.verifySignedRoot crypto acceptLegacy none = .ok ())
    (hcollide : RootVerifier.equivocationCollisionType a b ≠ none) {detectedAt : Int}
    (hdetected : 0 ≤ detectedAt) :
    ∃ proof, EquivocationProof.makeEquivocationProof acceptLegacy a b none detectedAt = .ok proof ∧
      proof.verifyEquivocationProof acceptLegacy = .ok () := by
  obtain ⟨collisionType, hcollide⟩ := Option.ne_none_iff_exists'.1 hcollide
  obtain ⟨hlog, hkind⟩ := collisionType_cases hcollide
  have hlogA := SignedRoot.logId_eq_of_verify hverifiedA
  have hlogB := SignedRoot.logId_eq_of_verify hverifiedB
  -- the log id of the evidence is that of either key, so the keys are the same
  have hkeys : Text.strip a.operatorPublicKey = Text.strip b.operatorPublicKey := by
    have hhash := (hlogA.symm.trans hlog).trans hlogB
    simp only [logIdFromPublicKey, Text.strip_strip] at hhash
    exact Text.utf8_injective (hfree.keys a ha b hb (Text.hex_injective hhash))
  have hstrip : Text.strip a.logId = a.logId := by
    rw [hlogA]
    exact Text.strip_hex _
  refine ⟨⟨logEquivocationProofType, logVersion, a.logId, collisionType, a, b, detectedAt⟩, ?_, ?_⟩
  · simp only [EquivocationProof.makeEquivocationProof, hverifiedA, hverifiedB, hcollide, Check.ok_bind,
      Option.filter_none, Option.none_or, Option.some.injEq, Check.bind_eq_ok, Check.require_eq_ok]
    exact ⟨(), hkind, rfl⟩
  · simp only [EquivocationProof.verifyEquivocationProof, hverifiedA, hverifiedB, Check.bind_eq_ok,
      Check.require_eq_ok, requireMin_eq_ok]
    exact ⟨(), trivial, (), trivial, (), hdetected, (), hkind, (), trivial, (), trivial, (), hkeys, (),
      ⟨hstrip.symm, hlog.symm.trans hstrip.symm⟩, (), by rw [hstrip, ← hlogA], hcollide⟩

open MirroredBundles (parityCrypto parityCrypto_ne leafRoot leafRoot_spec)

end MirrorDisagreement
