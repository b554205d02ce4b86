import InternationalDollar.Lib.AssocList
import InternationalDollar.Lib.Select
import InternationalDollar.RecoveryWitness
import Mathlib.Data.List.Dedup
import Mathlib.Data.List.Infix
import Mathlib.Data.Prod.Lex
import Mathlib.Data.String.Basic

set_option autoImplicit false

/-! # Recovery feeds (`transparency_server.catch_up_from_recovery_feeds`)

An operator that comes back reads the announcements it missed from recovery feeds. It appends what enough
distinct feeds carry, up to the high watermark that enough feeds have reached, in an order that does not
depend on the order of the feeds. The carriers are counted by their identities, the watermarks are counted
by the records: a feed that is loaded twice counts twice. -/

/-- What `_transfer_details_from_announcement` reads from an announcement. -/
structure Announced (Message : Type) where
  message : Message
  messageHash : String
  transferHash : String
  transferTimestamp : Int
  announcedAt : Int

/-- An entry of a feed: an announcement, or a record that holds one with its witnesses. The witnesses of
    a malformed record are no list. -/
inductive FeedEntry (Message : Type) where
  | announcement (message : Message)
  | record (message : Message) (witnesses : List Json) (witness : Option Json)
  | malformed (error : String)

/-- A loaded feed without its entries. -/
structure FeedHead where
  feedId : String
  feedPublicKey : String
  highWatermark : Int
  stableAt : Int

/-- A loaded feed. -/
structure FeedRecord (Message : Type) extends FeedHead where
  entries : List (FeedEntry Message)

/-- An announcement as the feeds together carry it. -/
structure Candidate (Message : Type) extends Announced Message where
  witnesses : List Json
  feeds : List (String × String)

/-- What an operator has set for its recovery, and the time. -/
structure RecoverySettings where
  crypto : Crypto
  minFeeds : Int
  stableSeconds : Int
  enforceLateWitnesses : Bool
  maxRootLagSeconds : Int
  now : Int

/-- The log that announcements are appended to: `_transfer_details_from_announcement`, `_entry_exists`, the
    verification of an announcement, and the transaction that appends its transfer unless it conflicts
    with a recorded spend. -/
structure AnnouncementLog (Message State : Type) where
  details : Message → Except String (Announced Message)
  entryExists : State → String → Option Int
  verify : State → Message → Except String Unit
  append : State → Announced Message → Except String (Int × State)

/-- An item of `report["appended"]`. -/
structure AppendedEntry where
  messageHash : String
  entryHash : String
  leafIndex : Int
deriving DecidableEq

/-- The report of a catch-up. A rejected entry that could not be read has no message hash. -/
structure CatchUpReport where
  feedsSeen : Nat
  stableHighWatermarks : List (String × Int)
  appended : List AppendedEntry
  duplicates : List AppendedEntry
  missingFeedQuorum : List (String × Nat)
  quarantined : List (String × String)
  rejected : List (Option String × String)

namespace RecoveryFeeds

/-! ## Feeds -/

/-- What a feed is told apart by. -/
def identity (head : FeedHead) : String × String :=
  (head.feedId, head.feedPublicKey)

/-- The set of the identities. -/
def identities (heads : List FeedHead) : List (String × String) :=
  (heads.map identity).dedup

/-- The checks on one loaded feed. -/
def checkFeed (settings : RecoverySettings) (head : FeedHead) : Except String Unit := do
  Check.require (head.feedId ≠ "" ∨ head.feedPublicKey ≠ "") "recovery feed identity is not pinned"
  Check.require (¬ (head.stableAt ≠ 0 ∧ settings.now - head.stableAt < settings.stableSeconds))
    "recovery feed high-watermark is not stable yet"

/-- `values[index]`. A negative index counts from the end. -/
def itemAt (values : List Int) (index : Int) : Option Int :=
  if 0 ≤ index then values[index.toNat]?
  else if 0 ≤ index + values.length then values[(index + values.length).toNat]?
  else none

/-- The `quorum_high_watermark`, after all checks on the feeds. -/
def quorumHighWatermark (settings : RecoverySettings) (heads : List FeedHead) : Except String Int := do
  Check.requireAll (checkFeed settings) heads
  Check.require (settings.minFeeds ≤ (identities heads).length) "recovery feed quorum is not available"
  let highWatermarks := (heads.map fun head => head.highWatermark).insertionSort (· ≤ ·)
  Check.ofOption (itemAt highWatermarks (-settings.minFeeds)) "list index out of range"

variable {Message State : Type}

/-- `_normalize_recovery_feed_entry`. -/
def normalizeRecoveryFeedEntry (log : AnnouncementLog Message State) :
    FeedEntry Message → Except String (Announced Message × List Json)
  | .announcement message => do
      let details ← log.details message
      pure (details, [])
  | .record message witnesses witness => do
      let details ← log.details message
      pure (details, witnesses ++ witness.toList)
  | .malformed error => .error error

/-- `candidates.setdefault(...)` for an announcement, with the feed and the witnesses that are added. -/
def addCandidate (candidates : List (Candidate Message)) (feed : String × String)
    (announced : Announced Message) (witnesses : List Json) : List (Candidate Message) :=
  (dictSetDefault (fun candidate => candidate.messageHash) candidates ⟨announced, [], []⟩).map
    fun candidate =>
      if candidate.messageHash = announced.messageHash then
        { candidate with
          feeds := candidate.feeds.insert feed
          witnesses := candidate.witnesses ++ witnesses }
      else candidate

/-- One step of the loop over the entries, on the candidates and the errors of malformed entries. -/
def collectEntry (log : AnnouncementLog Message State) (watermark : Int) (feed : String × String)
    (state : List (Candidate Message) × List String) (entry : FeedEntry Message) :
    List (Candidate Message) × List String :=
  match normalizeRecoveryFeedEntry log entry with
  | .error error => (state.1, state.2 ++ [error])
  | .ok (announced, witnesses) =>
    if watermark < announced.announcedAt then state
    else (addCandidate state.1 feed announced witnesses, state.2)

/-- The loop over the feeds and their entries. -/
def collectCandidates (log : AnnouncementLog Message State) (watermark : Int)
    (feeds : List (FeedRecord Message)) : List (Candidate Message) × List String :=
  feeds.foldl (fun state feed =>
    feed.entries.foldl (collectEntry log watermark (identity feed.toFeedHead)) state) ([], [])

/-- The order in which candidates are appended. -/
def sortKey (announced : Announced Message) : Int ×ₗ Int ×ₗ String :=
  toLex (announced.transferTimestamp, toLex (announced.announcedAt, announced.messageHash))

/-! ## The log -/

/-- The witnesses that `append_transfer_announcement` asks for after the root-lag window. -/
def checkLateWitnesses (settings : RecoverySettings) (announced : Announced Message)
    (witnesses : List Json) : Except String Unit :=
  if settings.enforceLateWitnesses = true ∧
      settings.maxRootLagSeconds < settings.now - announced.transferTimestamp then do
    let _ ← RecoveryWitness.recoveryWitnessQuorum settings.crypto witnesses announced.messageHash
      announced.transferTimestamp settings.minFeeds settings.maxRootLagSeconds none
  else pure ()

/-- `append_transfer_announcement` during a recovery. -/
def appendTransferAnnouncement (settings : RecoverySettings) (log : AnnouncementLog Message State)
    (state : State) (message : Message) (witnesses : List Json) :
    Except String (AppendedEntry × State) := do
  log.verify state message
  let announced ← log.details message
  checkLateWitnesses settings announced witnesses
  let (leafIndex, state) ← log.append state announced
  pure (⟨announced.messageHash, announced.transferHash, leafIndex⟩, state)

/-- The exceptions for which an announcement is quarantined. -/
def isConflict (error : String) : Prop :=
  "conflict".toList <:+: (Text.lower error).toList ∨ "contradict".toList <:+: (Text.lower error).toList

instance (error : String) : Decidable (isConflict error) :=
  inferInstanceAs (Decidable (_ ∨ _))

/-- One step of the loop over the ordered candidates. -/
def appendCandidate (settings : RecoverySettings) (log : AnnouncementLog Message State)
    (run : CatchUpReport × State) (candidate : Candidate Message) : CatchUpReport × State :=
  let report := run.1
  if (candidate.feeds.length : Int) < settings.minFeeds then
    ({ report with
        missingFeedQuorum := report.missingFeedQuorum ++
          [(candidate.messageHash, candidate.feeds.length)] }, run.2)
  else
    match log.entryExists run.2 candidate.transferHash with
    | some leaf =>
      ({ report with
          duplicates := report.duplicates ++
            [⟨candidate.messageHash, candidate.transferHash, leaf⟩] }, run.2)
    | none =>
      match appendTransferAnnouncement settings log run.2 candidate.message candidate.witnesses with
      | .ok (entry, state) =>
        ({ report with
            appended := report.appended ++ [{ entry with messageHash := candidate.messageHash }] }, state)
      | .error error =>
        if isConflict error then
          ({ report with quarantined := report.quarantined ++ [(candidate.messageHash, error)] }, run.2)
        else
          ({ report with rejected := report.rejected ++ [(some candidate.messageHash, error)] }, run.2)

/-- The report before the first candidate is appended. -/
def startReport (heads : List FeedHead) (malformed : List String) : CatchUpReport where
  feedsSeen := (identities heads).length
  stableHighWatermarks := heads.foldl
    (fun table head => AssocList.put head.feedId head.highWatermark table) []
  appended := []
  duplicates := []
  missingFeedQuorum := []
  quarantined := []
  rejected := malformed.map fun error => (none, error)

/-- `catch_up_from_recovery_feeds`, once the feeds are loaded. -/
def catchUpFromRecoveryFeeds (settings : RecoverySettings) (log : AnnouncementLog Message State)
    (state : State) (feeds : List (FeedRecord Message)) : Except String (CatchUpReport × State) := do
  let heads := feeds.map FeedRecord.toFeedHead
  let watermark ← quorumHighWatermark settings heads
  let collected := collectCandidates log watermark feeds
  let ordered := Select.orderBy (fun candidate => sortKey candidate.toAnnounced) collected.1
  pure (ordered.foldl (appendCandidate settings log) (startReport heads collected.2, state))

/-! ## What the feeds carry -/

/-- Whether a feed has an entry with a message. -/
def carries (log : AnnouncementLog Message State) (messageHash : String)
    (feed : FeedRecord Message) : Bool :=
  feed.entries.any fun entry =>
    match normalizeRecoveryFeedEntry log entry with
    | .ok (announced, _) => announced.messageHash = messageHash
    | .error _ => false

/-- How many distinct identities carry a message. -/
def carrierCount (log : AnnouncementLog Message State) (messageHash : String)
    (feeds : List (FeedRecord Message)) : Nat :=
  (identities ((feeds.filter (carries log messageHash)).map FeedRecord.toFeedHead)).length

/-- How many distinct identities have reached a moment. -/
def reachedCount (heads : List FeedHead) (moment : Int) : Nat :=
  (identities (heads.filter fun head => moment ≤ head.highWatermark)).length

/-- An announcement of an entry. -/
def Offered (log : AnnouncementLog Message State) (feeds : List (FeedRecord Message))
    (announced : Announced Message) : Prop :=
  ∃ feed ∈ feeds, ∃ entry ∈ feed.entries, ∃ witnesses,
    normalizeRecoveryFeedEntry log entry = .ok (announced, witnesses)

/-- A message hash stands for one announcement. -/
def NoCollision (log : AnnouncementLog Message State) (feeds : List (FeedRecord Message)) : Prop :=
  ∀ a b, Offered log feeds a → Offered log feeds b → a.messageHash = b.messageHash → a = b

/-- The feeds in another order, each with its entries in another order. -/
def Reordered (feeds feeds' : List (FeedRecord Message)) : Prop :=
  ∃ ordered, feeds.Perm ordered ∧
    List.Forall₂ (fun feed feed' => feed.toFeedHead = feed'.toFeedHead ∧ feed.entries.Perm feed'.entries)
      ordered feeds'

/-- What a catch-up has appended, and the log after it. -/
def outcome (result : Except String (CatchUpReport × State)) : Option (List AppendedEntry × State) :=
  match result with
  | .ok (report, state) => some (report.appended, state)
  | .error _ => none

/-! ## Collecting -/

/-- An entry that counts: who carries it, its announcement and its witnesses. -/
structure Offer (Message : Type) where
  feed : String × String
  announced : Announced Message
  witnesses : List Json

/-- The entry as it counts, unless it is malformed or above the watermark. -/
def offerOf (log : AnnouncementLog Message State) (watermark : Int) (feed : String × String)
    (entry : FeedEntry Message) : Option (Offer Message) :=
  match normalizeRecoveryFeedEntry log entry with
  | .error _ => none
  | .ok (announced, witnesses) =>
    if watermark < announced.announcedAt then none else some ⟨feed, announced, witnesses⟩

/-- All entries that count. -/
def offersOf (log : AnnouncementLog Message State) (watermark : Int)
    (feeds : List (FeedRecord Message)) : List (Offer Message) :=
  feeds.flatMap fun feed => feed.entries.filterMap (offerOf log watermark (identity feed.toFeedHead))

/-- An entry that counts is merged into the candidates. -/
def addOffer (candidates : List (Candidate Message)) (offer : Offer Message) : List (Candidate Message) :=
  addCandidate candidates offer.feed offer.announced offer.witnesses

section Collect

variable {log : AnnouncementLog Message State} {watermark : Int}

theorem foldl_collectEntry (feed : String × String) (entries : List (FeedEntry Message))
    (state : List (Candidate Message) × List String) :
    (entries.foldl (collectEntry log watermark feed) state).1 =
      (entries.filterMap (offerOf log watermark feed)).foldl addOffer state.1 := by
  induction entries generalizing state with
  | nil => rfl
  | cons entry entries ih =>
    rw [List.foldl_cons, ih]
    unfold collectEntry
    rw [List.filterMap_cons]
    unfold offerOf
    cases normalizeRecoveryFeedEntry log entry with
    | error error => rfl
    | ok result =>
      obtain ⟨announced, witnesses⟩ := result
      by_cases hlate : watermark < announced.announcedAt
      · simp only [if_pos hlate]
      · simp only [if_neg hlate]
        rfl

/-- The loop over the feeds merges the entries that count, one after the other. -/
theorem collectCandidates_fst (feeds : List (FeedRecord Message)) :
    (collectCandidates log watermark feeds).1 = (offersOf log watermark feeds).foldl addOffer [] := by
  unfold collectCandidates
  suffices h : ∀ state : List (Candidate Message) × List String,
      (feeds.foldl (fun state feed => feed.entries.foldl
        (collectEntry log watermark (identity feed.toFeedHead)) state) state).1 =
      (offersOf log watermark feeds).foldl addOffer state.1 from h ([], [])
  intro state
  induction feeds generalizing state with
  | nil => rfl
  | cons feed feeds ih =>
    rw [List.foldl_cons, ih, foldl_collectEntry, ← List.foldl_append]
    rfl

theorem mem_offersOf {feeds : List (FeedRecord Message)} {offer : Offer Message} :
    offer ∈ offersOf log watermark feeds ↔ ∃ feed ∈ feeds, ∃ entry ∈ feed.entries,
      offer.feed = identity feed.toFeedHead ∧ offer.announced.announcedAt ≤ watermark ∧
        normalizeRecoveryFeedEntry log entry = .ok (offer.announced, offer.witnesses) := by
  simp only [offersOf, List.mem_flatMap, List.mem_filterMap]
  refine exists_congr fun feed => and_congr_right fun _ => exists_congr fun entry =>
    and_congr_right fun _ => ?_
  unfold offerOf
  cases normalizeRecoveryFeedEntry log entry with
  | error error => simp
  | ok result =>
    obtain ⟨announced, witnesses⟩ := result
    by_cases hlate : watermark < announced.announcedAt
    · simp only [if_pos hlate, Except.ok.injEq, Prod.mk.injEq]
      constructor
      · exact fun h => (nomatch h)
      · rintro ⟨-, hle, rfl, -⟩
        omega
    · simp only [if_neg hlate, Option.some.injEq, Except.ok.injEq, Prod.mk.injEq]
      constructor
      · rintro rfl
        exact ⟨rfl, not_lt.1 hlate, rfl, rfl⟩
      · rintro ⟨hfeed, -, hannounced, hwitnesses⟩
        rw [hannounced, hwitnesses, ← hfeed]

/-- What one candidate holds of the entries that count: one of their announcements, and of all entries with
    its hash the identities, each once, and the witnesses. -/
structure Merges (offers : List (Offer Message)) (c : Candidate Message) : Prop where
  announced : ∃ offer ∈ offers, offer.announced = c.toAnnounced
  nodup_feeds : c.feeds.Nodup
  mem_feeds : ∀ feed, feed ∈ c.feeds ↔
    ∃ offer ∈ offers, offer.announced.messageHash = c.messageHash ∧ offer.feed = feed
  mem_witnesses : ∀ witness, witness ∈ c.witnesses ↔
    ∃ offer ∈ offers, offer.announced.messageHash = c.messageHash ∧ witness ∈ offer.witnesses

/-- What the candidates hold: every hash once, and all that the entries with it carry. -/
structure Collected (offers : List (Offer Message)) (candidates : List (Candidate Message)) : Prop where
  nodup : (candidates.map fun c => c.messageHash).Nodup
  offered : ∀ offer ∈ offers, offer.announced.messageHash ∈ candidates.map fun c => c.messageHash
  merges : ∀ c ∈ candidates, Merges offers c

theorem keys_addCandidate (candidates : List (Candidate Message)) (feed : String × String)
    (announced : Announced Message) (witnesses : List Json) :
    (addCandidate candidates feed announced witnesses).map (fun c => c.messageHash) =
      (dictSetDefault (fun c : Candidate Message => c.messageHash) candidates ⟨announced, [], []⟩).map
        fun c => c.messageHash := by
  unfold addCandidate
  rw [List.map_map]
  refine List.map_congr_left fun c _ => ?_
  rw [Function.comp_apply]
  split <;> rfl

/-- A candidate after an entry is merged: one with another hash, the one with its hash as extended, or a new
    one. -/
theorem mem_addCandidate {candidates : List (Candidate Message)} {feed : String × String}
    {announced : Announced Message} {witnesses : List Json} {c : Candidate Message}
    (h : c ∈ addCandidate candidates feed announced witnesses) :
    (c ∈ candidates ∧ c.messageHash ≠ announced.messageHash) ∨
      (∃ old ∈ candidates, old.messageHash = announced.messageHash ∧
        c = { old with feeds := old.feeds.insert feed, witnesses := old.witnesses ++ witnesses }) ∨
      ((announced.messageHash ∉ candidates.map fun c => c.messageHash) ∧
        c = ⟨announced, witnesses, [feed]⟩) := by
  obtain ⟨old, hold, rfl⟩ := List.mem_map.1 h
  by_cases hhash : old.messageHash = announced.messageHash
  · rw [if_pos hhash]
    right
    unfold dictSetDefault at hold
    split at hold
    · exact Or.inl ⟨old, hold, hhash, rfl⟩
    · next hnew =>
      rcases List.mem_append.1 hold with hold | hold
      · exact Or.inl ⟨old, hold, hhash, rfl⟩
      · rw [List.mem_singleton] at hold
        subst hold
        exact Or.inr ⟨hnew, rfl⟩
  · rw [if_neg hhash]
    refine Or.inl ⟨(mem_of_mem_dictSetDefault hold).resolve_right ?_, hhash⟩
    rintro rfl
    exact hhash rfl

theorem Collected.addOffer {offers : List (Offer Message)} {candidates : List (Candidate Message)}
    (h : Collected offers candidates) (offer : Offer Message) :
    Collected (offers ++ [offer]) (addOffer candidates offer) := by
  refine ⟨?_, ?_, ?_⟩
  · unfold RecoveryFeeds.addOffer
    rw [keys_addCandidate]
    exact nodup_dictSetDefault h.nodup
  · intro other hother
    unfold RecoveryFeeds.addOffer
    rw [keys_addCandidate, mem_keys_dictSetDefault]
    rcases List.mem_append.1 hother with hother | hother
    · exact Or.inl (h.offered other hother)
    · rw [List.mem_singleton] at hother
      exact Or.inr (hother ▸ rfl)
  · intro c hc
    rcases mem_addCandidate hc with ⟨hc, hne⟩ | ⟨old, hold, hhash, rfl⟩ | ⟨hnew, rfl⟩
    · -- the entry has another hash
      obtain ⟨announced, nodup, feeds, witnesses⟩ := h.merges c hc
      refine ⟨?_, nodup, ?_, ?_⟩
      · obtain ⟨first, hfirst, heq⟩ := announced
        exact ⟨first, List.mem_append_left _ hfirst, heq⟩
      · intro feed
        rw [feeds feed]
        simp [hne.symm]
      · intro witness
        rw [witnesses witness]
        simp [hne.symm]
    · -- the entry is added to what its hash already has
      obtain ⟨announced, nodup, feeds, witnesses⟩ := h.merges old hold
      refine ⟨?_, nodup.insert, ?_, ?_⟩
      · obtain ⟨first, hfirst, heq⟩ := announced
        exact ⟨first, List.mem_append_left _ hfirst, heq⟩
      · intro feed
        simp only [List.mem_insert_iff, feeds feed, List.mem_append, List.mem_singleton, or_and_right,
          exists_or, exists_eq_left, hhash, true_and]
        rw [or_comm, eq_comm]
      · intro witness
        simp only [List.mem_append, witnesses witness, List.mem_singleton, or_and_right, exists_or,
          exists_eq_left, hhash, true_and]
    · -- no entry before had this hash
      have hother : ∀ other ∈ offers, other.announced.messageHash ≠ offer.announced.messageHash := by
        intro other hmem heq
        exact hnew (heq ▸ h.offered other hmem)
      refine ⟨⟨offer, by simp, rfl⟩, List.nodup_singleton _, ?_, ?_⟩
      · intro feed
        simp only [List.mem_append, List.mem_singleton, or_and_right, exists_or, exists_eq_left, true_and]
        constructor
        · rintro rfl
          exact Or.inr rfl
        · rintro (⟨other, hmem, heq, -⟩ | rfl)
          · exact absurd heq (hother other hmem)
          · rfl
      · intro witness
        simp only [List.mem_append, List.mem_singleton, or_and_right, exists_or, exists_eq_left, true_and]
        constructor
        · exact Or.inr
        · rintro (⟨other, hmem, heq, -⟩ | hwitness)
          · exact absurd heq (hother other hmem)
          · exact hwitness

theorem collected_foldl (offers : List (Offer Message)) : Collected offers (offers.foldl addOffer []) := by
  suffices h : ∀ (rest done : List (Offer Message)) (candidates : List (Candidate Message)),
      Collected done candidates → Collected (done ++ rest) (rest.foldl addOffer candidates) from
    h offers [] [] ⟨List.nodup_nil, fun _ h => (nomatch h), fun _ h => (nomatch h)⟩
  intro rest
  induction rest with
  | nil =>
    intro done candidates h
    rwa [List.append_nil]
  | cons offer rest ih =>
    intro done candidates h
    have hstep := ih _ _ (h.addOffer offer)
    rwa [List.append_assoc, List.singleton_append] at hstep

theorem collected_collectCandidates (feeds : List (FeedRecord Message)) :
    Collected (offersOf log watermark feeds) (collectCandidates log watermark feeds).1 := by
  rw [collectCandidates_fst]
  exact collected_foldl _

end Collect

end RecoveryFeeds
