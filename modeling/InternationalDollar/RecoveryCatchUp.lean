import InternationalDollar.RecoveryFeeds

set_option autoImplicit false

/-! # Catching up by a quorum of feeds

What a catch-up appends does not depend on the order of the feeds and of their entries: the candidates
hold the same whatever the order, and they are appended in an order of their own. Enough distinct
identities carry what is appended. That as many have reached its announcement holds where the watermark
that is counted by records is one that is reached by as many identities. -/

namespace RecoveryFeeds

variable {Message State : Type} {settings : RecoverySettings} {log : AnnouncementLog Message State}
  {watermark : Int}

/-! ## Counting -/

theorem length_identities_mono {heads heads' : List FeedHead} (h : heads ⊆ heads') :
    (identities heads).length ≤ (identities heads').length := by
  refine (List.subperm_of_subset (List.nodup_dedup _) ?_).length_le
  intro id hid
  obtain ⟨head, hhead, rfl⟩ := List.mem_map.1 (List.mem_dedup.1 hid)
  exact List.mem_dedup.2 (List.mem_map_of_mem (h hhead))

theorem length_identities_congr {heads heads' : List FeedHead} (h : ∀ head, head ∈ heads ↔ head ∈ heads') :
    (identities heads).length = (identities heads').length :=
  le_antisymm (length_identities_mono fun _ hm => (h _).1 hm)
    (length_identities_mono fun _ hm => (h _).2 hm)

/-- An earlier moment is reached by at least as many identities. -/
theorem reachedCount_anti {heads : List FeedHead} {moment moment' : Int} (h : moment ≤ moment') :
    reachedCount heads moment' ≤ reachedCount heads moment := by
  refine length_identities_mono fun head hhead => ?_
  rw [List.mem_filter, decide_eq_true_iff] at hhead ⊢
  exact ⟨hhead.1, h.trans hhead.2⟩

/-- The identities of a candidate all carry its message. -/
theorem length_feeds_le_carrierCount {feeds : List (FeedRecord Message)} {c : Candidate Message}
    (h : Merges (offersOf log watermark feeds) c) :
    c.feeds.length ≤ carrierCount log c.messageHash feeds := by
  refine (List.subperm_of_subset h.nodup_feeds ?_).length_le
  intro id hid
  obtain ⟨offer, hoffer, hhash, rfl⟩ := (h.mem_feeds id).1 hid
  obtain ⟨feed, hfeed, entry, hentry, hidentity, -, hok⟩ := mem_offersOf.1 hoffer
  have hcarries : carries log c.messageHash feed = true := by
    refine List.any_eq_true.2 ⟨entry, hentry, ?_⟩
    rw [hok]
    exact decide_eq_true hhash
  rw [hidentity]
  exact List.mem_dedup.2 (List.mem_map_of_mem (List.mem_map_of_mem
    (List.mem_filter.2 ⟨hfeed, hcarries⟩)))

/-! ## One candidate -/

theorem appendTransferAnnouncement_eq_ok {state : State} {message : Message} {witnesses : List Json}
    {result : AppendedEntry × State} :
    appendTransferAnnouncement settings log state message witnesses = .ok result ↔
      log.verify state message = .ok () ∧ ∃ announced, log.details message = .ok announced ∧
        checkLateWitnesses settings announced witnesses = .ok () ∧
        ∃ leaf, log.append state announced = .ok leaf ∧
          (⟨announced.messageHash, announced.transferHash, leaf.1⟩, leaf.2) = result := by
  simp only [appendTransferAnnouncement, Check.bind_eq_ok, Check.pure_eq_ok]
  constructor
  · rintro ⟨_, hverify, announced, hdetails, _, hlate, leaf, happend, hresult⟩
    exact ⟨hverify, announced, hdetails, hlate, leaf, happend, hresult⟩
  · rintro ⟨hverify, announced, hdetails, hlate, leaf, happend, hresult⟩
    exact ⟨(), hverify, announced, hdetails, (), hlate, leaf, happend, hresult⟩

/-- More witnesses do not break the quorum of witnesses. -/
theorem checkLateWitnesses_mono {announced : Announced Message} {witnesses witnesses' : List Json}
    (hsubset : witnesses ⊆ witnesses')
    (h : checkLateWitnesses settings announced witnesses = .ok ()) :
    checkLateWitnesses settings announced witnesses' = .ok () := by
  unfold checkLateWitnesses at h ⊢
  split
  · next hlate =>
    rw [if_pos hlate] at h
    obtain ⟨accepted, hquorum, -⟩ := Check.bind_eq_ok.1 h
    obtain ⟨hnodup, hmin, hvouched⟩ := RecoveryWitness.vouched_of_quorum hquorum
    rw [← List.length_map RecoveryWitness.identity] at hmin
    obtain ⟨accepted', hquorum'⟩ := RecoveryWitness.exists_quorum
      (RecoveryWitness.recoveryWitnessQuorum_eq_ok.1 hquorum).1 hnodup hmin fun id hid => by
        obtain ⟨value, hvalue, w⟩ := hvouched id hid
        exact ⟨value, hsubset hvalue, w⟩
    exact Check.bind_eq_ok.2 ⟨accepted', hquorum', rfl⟩
  · rfl

/-- A candidate whose announcement is appended, and the entry and the log that result. -/
def Appends (settings : RecoverySettings) (log : AnnouncementLog Message State) (state : State)
    (c : Candidate Message) (result : AppendedEntry × State) : Prop :=
  settings.minFeeds ≤ c.feeds.length ∧ log.entryExists state c.transferHash = none ∧
    appendTransferAnnouncement settings log state c.message c.witnesses = .ok result

/-- A step of the loop appends the announcement, or leaves what was appended and the log as they are. -/
theorem appendCandidate_cases (settings : RecoverySettings) (log : AnnouncementLog Message State)
    (run : CatchUpReport × State) (c : Candidate Message) :
    (∃ result, Appends settings log run.2 c result ∧
      (appendCandidate settings log run c).1.appended =
        run.1.appended ++ [{ result.1 with messageHash := c.messageHash }] ∧
      (appendCandidate settings log run c).2 = result.2) ∨
    (¬ ∃ result, Appends settings log run.2 c result) ∧
      (appendCandidate settings log run c).1.appended = run.1.appended ∧
      (appendCandidate settings log run c).2 = run.2 := by
  unfold appendCandidate
  by_cases hmin : (c.feeds.length : Int) < settings.minFeeds
  · rw [if_pos hmin]
    refine Or.inr ⟨?_, rfl, rfl⟩
    rintro ⟨_, hle, -⟩
    omega
  rw [if_neg hmin]
  cases hexists : log.entryExists run.2 c.transferHash with
  | some leaf =>
    refine Or.inr ⟨?_, rfl, rfl⟩
    rintro ⟨_, -, hnone, -⟩
    exact nomatch hexists.symm.trans hnone
  | none =>
    cases happend : appendTransferAnnouncement settings log run.2 c.message c.witnesses with
    | ok result => exact Or.inl ⟨result, ⟨not_lt.1 hmin, hexists, happend⟩, rfl, rfl⟩
    | error error =>
      refine Or.inr ⟨?_, ?_⟩
      · rintro ⟨_, -, -, hok⟩
        exact nomatch happend.symm.trans hok
      · simp only
        split <;> exact ⟨rfl, rfl⟩

/-- Only the identities that a candidate holds decide whether it is appended, and they are enough. -/
theorem mem_appended_foldl {candidates : List (Candidate Message)} {run : CatchUpReport × State}
    {item : AppendedEntry}
    (h : item ∈ (candidates.foldl (appendCandidate settings log) run).1.appended) :
    item ∈ run.1.appended ∨ ∃ c ∈ candidates, settings.minFeeds ≤ c.feeds.length ∧
      item.messageHash = c.messageHash := by
  induction candidates generalizing run with
  | nil => exact Or.inl h
  | cons c candidates ih =>
    rcases ih h with hstep | ⟨other, hother, hmin⟩
    · rcases appendCandidate_cases settings log run c with ⟨result, ⟨hmin, -⟩, happended, -⟩ | ⟨-, hsame, -⟩
      · rw [happended, List.mem_append, List.mem_singleton] at hstep
        rcases hstep with hold | rfl
        · exact Or.inl hold
        · exact Or.inr ⟨c, List.mem_cons_self, hmin, rfl⟩
      · exact Or.inl (hsame ▸ hstep)
    · exact Or.inr ⟨other, List.mem_cons_of_mem _ hother, hmin⟩

/-! ## The order of the feeds -/

/-- Two candidates that hold the same, up to the order of the identities and the witnesses. -/
structure Alike (c c' : Candidate Message) : Prop where
  announced : c.toAnnounced = c'.toAnnounced
  feeds : c.feeds.length = c'.feeds.length
  witnesses : ∀ witness, witness ∈ c.witnesses ↔ witness ∈ c'.witnesses

theorem Alike.symm {c c' : Candidate Message} (h : Alike c c') : Alike c' c :=
  ⟨h.announced.symm, h.feeds.symm, fun witness => (h.witnesses witness).symm⟩

theorem Alike.appends {c c' : Candidate Message} (h : Alike c c') {state : State}
    {result : AppendedEntry × State} (happends : Appends settings log state c result) :
    Appends settings log state c' result := by
  obtain ⟨hmin, hnone, hok⟩ := happends
  obtain ⟨hverify, announced, hdetails, hlate, hleaf⟩ := appendTransferAnnouncement_eq_ok.1 hok
  have hmessage : c.message = c'.message := congrArg (fun a => a.message) h.announced
  have htransfer : c.transferHash = c'.transferHash := congrArg (fun a => a.transferHash) h.announced
  refine ⟨h.feeds ▸ hmin, htransfer ▸ hnone, appendTransferAnnouncement_eq_ok.2 ?_⟩
  rw [← hmessage]
  exact ⟨hverify, announced, hdetails,
    checkLateWitnesses_mono (fun witness hw => (h.witnesses witness).1 hw) hlate, hleaf⟩

/-- Two runs over candidates that hold the same append the same. -/
theorem foldl_appendCandidate_congr {candidates candidates' : List (Candidate Message)}
    (h : List.Forall₂ Alike candidates candidates') {run run' : CatchUpReport × State}
    (happended : run.1.appended = run'.1.appended) (hstate : run.2 = run'.2) :
    (candidates.foldl (appendCandidate settings log) run).1.appended =
        (candidates'.foldl (appendCandidate settings log) run').1.appended ∧
      (candidates.foldl (appendCandidate settings log) run).2 =
        (candidates'.foldl (appendCandidate settings log) run').2 := by
  induction h generalizing run run' with
  | nil => exact ⟨happended, hstate⟩
  | @cons c c' candidates candidates' halike _ ih =>
    have hhash : c.messageHash = c'.messageHash := congrArg (fun a => a.messageHash) halike.announced
    suffices hstep : (appendCandidate settings log run c).1.appended =
          (appendCandidate settings log run' c').1.appended ∧
        (appendCandidate settings log run c).2 = (appendCandidate settings log run' c').2 from
      ih hstep.1 hstep.2
    rcases appendCandidate_cases settings log run c with ⟨result, happends, ha, hs⟩ | ⟨hnot, ha, hs⟩
    · rcases appendCandidate_cases settings log run' c' with ⟨result', happends', ha', hs'⟩ | ⟨hnot', -⟩
      · have hresult : result = result' := by
          have hsame := halike.appends happends
          rw [hstate] at hsame
          exact Except.ok.inj (hsame.2.2.symm.trans happends'.2.2)
        rw [ha, ha', hs, hs', happended, hresult, hhash]
        exact ⟨rfl, rfl⟩
      · exact absurd ⟨result, hstate ▸ halike.appends happends⟩ hnot'
    · rcases appendCandidate_cases settings log run' c' with ⟨result', happends', -⟩ | ⟨-, ha', hs'⟩
      · exact absurd ⟨result', hstate ▸ halike.symm.appends happends'⟩ hnot
      · rw [ha, ha', hs, hs']
        exact ⟨happended, hstate⟩

theorem Merges.alike {offers offers' : List (Offer Message)} {c c' : Candidate Message}
    (h : Merges offers c) (h' : Merges offers' c') (hperm : offers.Perm offers')
    (heq : c.toAnnounced = c'.toAnnounced) : Alike c c' := by
  have hhash : c.messageHash = c'.messageHash := congrArg (fun a => a.messageHash) heq
  refine ⟨heq, List.Perm.length_eq ?_, fun witness => ?_⟩
  · refine (List.perm_ext_iff_of_nodup h.nodup_feeds h'.nodup_feeds).2 fun feed => ?_
    rw [h.mem_feeds, h'.mem_feeds, hhash]
    simp only [hperm.mem_iff]
  · rw [h.mem_witnesses, h'.mem_witnesses, hhash]
    simp only [hperm.mem_iff]

theorem sortKey_injective_of_le {a b : Announced Message} (h : sortKey a ≤ sortKey b)
    (h' : sortKey b ≤ sortKey a) : a.messageHash = b.messageHash :=
  congrArg (fun key => (ofLex (ofLex key).2).2) (le_antisymm h h')

/-- The announcements of the candidates are those of the entries, each once. -/
theorem Collected.perm_announced {offers offers' : List (Offer Message)}
    {candidates candidates' : List (Candidate Message)} (h : Collected offers candidates)
    (h' : Collected offers' candidates') (hperm : offers.Perm offers')
    (hone : ∀ a ∈ offers, ∀ b ∈ offers, a.announced.messageHash = b.announced.messageHash →
      a.announced = b.announced) :
    (candidates.map Candidate.toAnnounced).Perm (candidates'.map Candidate.toAnnounced) := by
  -- a candidate's announcement is the one of every entry with its hash
  have hmem : ∀ {offers candidates}, Collected offers candidates →
      (∀ a ∈ offers, ∀ b ∈ offers, a.announced.messageHash = b.announced.messageHash →
        a.announced = b.announced) → ∀ announced : Announced Message,
      announced ∈ candidates.map Candidate.toAnnounced ↔ ∃ offer ∈ offers, offer.announced = announced := by
    intro offers candidates h hone announced
    rw [List.mem_map]
    constructor
    · rintro ⟨c, hc, rfl⟩
      exact (h.merges c hc).announced
    · rintro ⟨offer, hoffer, rfl⟩
      obtain ⟨c, hc, hhash⟩ := List.mem_map.1 (h.offered offer hoffer)
      obtain ⟨first, hfirst, heq⟩ := (h.merges c hc).announced
      refine ⟨c, hc, ?_⟩
      rw [← heq]
      refine hone first hfirst offer hoffer ?_
      rw [heq]
      exact hhash
  have hnodup : ∀ {offers} {candidates : List (Candidate Message)}, Collected offers candidates →
      (candidates.map Candidate.toAnnounced).Nodup := by
    intro offers candidates h
    have hkeys := h.nodup
    refine List.Nodup.of_map (fun a : Announced Message => a.messageHash) ?_
    rwa [List.map_map]
  refine (List.perm_ext_iff_of_nodup (hnodup h) (hnodup h')).2 fun announced => ?_
  rw [hmem h hone, hmem h' fun a ha b hb => hone a (hperm.mem_iff.2 ha) b (hperm.mem_iff.2 hb)]
  simp only [hperm.mem_iff]

/-- The ordered candidates of the same entries hold the same. -/
theorem Collected.alike_orderBy {offers offers' : List (Offer Message)}
    {candidates candidates' : List (Candidate Message)} (h : Collected offers candidates)
    (h' : Collected offers' candidates') (hperm : offers.Perm offers')
    (hone : ∀ a ∈ offers, ∀ b ∈ offers, a.announced.messageHash = b.announced.messageHash →
      a.announced = b.announced) :
    List.Forall₂ Alike (Select.orderBy (fun c => sortKey c.toAnnounced) candidates)
      (Select.orderBy (fun c => sortKey c.toAnnounced) candidates') := by
  let ordered := Select.orderBy (fun c : Candidate Message => sortKey c.toAnnounced) candidates
  let ordered' := Select.orderBy (fun c : Candidate Message => sortKey c.toAnnounced) candidates'
  have hpermAnnounced : (ordered.map Candidate.toAnnounced).Perm (ordered'.map Candidate.toAnnounced) :=
    ((List.perm_insertionSort _ candidates).map _).trans
      ((h.perm_announced h' hperm hone).trans ((List.perm_insertionSort _ candidates').map _).symm)
  have hsame : ordered.map Candidate.toAnnounced = ordered'.map Candidate.toAnnounced := by
    refine @List.Perm.eq_of_pairwise _ (fun a b => sortKey a ≤ sortKey b) _ _ ?_
      (List.pairwise_map.2 (Select.sorted_orderBy _ candidates))
      (List.pairwise_map.2 (Select.sorted_orderBy _ candidates')) hpermAnnounced
    intro a b ha hb hab hba
    obtain ⟨c, hc, rfl⟩ := List.mem_map.1 ha
    obtain ⟨c', hc', rfl⟩ := List.mem_map.1 (hpermAnnounced.mem_iff.2 hb)
    obtain ⟨first, hfirst, heq⟩ := (h.merges c (Select.mem_orderBy.1 hc)).announced
    obtain ⟨first', hfirst', heq'⟩ := (h.merges c' (Select.mem_orderBy.1 hc')).announced
    rw [← heq, ← heq'] at hab hba ⊢
    exact hone first hfirst first' hfirst' (sortKey_injective_of_le hab hba)
  have hforall : List.Forall₂ (fun c c' : Candidate Message => c.toAnnounced = c'.toAnnounced)
      ordered ordered' := by
    refine List.forall₂_map_left_iff.1 (List.forall₂_map_right_iff.1 ?_)
    rw [List.forall₂_eq_eq_eq]
    exact hsame
  refine List.forall₂_iff_zip.2 ⟨hforall.length_eq, fun {c c'} hzip => ?_⟩
  obtain ⟨hc, hc'⟩ := List.of_mem_zip hzip
  exact (h.merges c (Select.mem_orderBy.1 hc)).alike (h'.merges c' (Select.mem_orderBy.1 hc')) hperm
    (List.forall₂_zip hforall hzip)

theorem Reordered.perm_heads {feeds feeds' : List (FeedRecord Message)} (h : Reordered feeds feeds') :
    (feeds.map FeedRecord.toFeedHead).Perm (feeds'.map FeedRecord.toFeedHead) := by
  obtain ⟨ordered, hperm, hforall⟩ := h
  have hsame : ordered.map FeedRecord.toFeedHead = feeds'.map FeedRecord.toFeedHead := by
    clear hperm
    induction hforall with
    | nil => rfl
    | cons hhead _ ih => rw [List.map_cons, List.map_cons, hhead.1, ih]
  exact hsame ▸ hperm.map _

theorem Reordered.perm_offers {feeds feeds' : List (FeedRecord Message)} (h : Reordered feeds feeds') :
    (offersOf log watermark feeds).Perm (offersOf log watermark feeds') := by
  obtain ⟨ordered, hperm, hforall⟩ := h
  unfold offersOf
  refine (hperm.flatMap_right _).trans ?_
  clear hperm
  induction hforall with
  | nil => exact .refl _
  | cons hhead _ ih =>
    rw [List.flatMap_cons, List.flatMap_cons, hhead.1]
    exact (hhead.2.filterMap _).append ih

/-! ## The watermark -/

/-- How many records have reached a moment. -/
def recordCount (heads : List FeedHead) (moment : Int) : Nat :=
  (heads.filter fun head => moment ≤ head.highWatermark).length

/-- The feeds pass the checks and are of enough identities. -/
def Accepted (settings : RecoverySettings) (heads : List FeedHead) : Prop :=
  (∀ head ∈ heads, checkFeed settings head = .ok ()) ∧ settings.minFeeds ≤ (identities heads).length

theorem quorumHighWatermark_eq_ok {heads : List FeedHead} {w : Int} :
    quorumHighWatermark settings heads = .ok w ↔ Accepted settings heads ∧
      itemAt ((heads.map fun head => head.highWatermark).insertionSort (· ≤ ·)) (-settings.minFeeds) =
        some w := by
  simp only [quorumHighWatermark, Accepted, Check.check_bind_eq_ok, Check.requireAll_eq_ok,
    Check.require_eq_ok, Check.ofOption_eq_ok, and_assoc]

theorem length_identities_le (heads : List FeedHead) : (identities heads).length ≤ heads.length := by
  unfold identities
  exact (List.dedup_sublist _).length_le.trans_eq (List.length_map _)

/-- The last `k` entries of a sorted list are all at or above a moment exactly if the first of them is. -/
theorem le_countP_sorted_iff {l : List Int} (hsorted : l.Pairwise (· ≤ ·)) {k : Nat}
    (hlength : k ≤ l.length) {w : Int} (hw : l[l.length - k]? = some w) (moment : Int) :
    k ≤ l.countP (fun value => moment ≤ value) ↔ moment ≤ w := by
  obtain ⟨hlt, hget⟩ := List.getElem?_eq_some_iff.1 hw
  have hdrop : l.drop (l.length - k) = w :: l.drop (l.length - k + 1) := by
    rw [List.drop_eq_getElem_cons hlt, hget]
  have hsplit : l = l.take (l.length - k) ++ w :: l.drop (l.length - k + 1) := by
    rw [← hdrop, List.take_append_drop]
  have hback : (l.drop (l.length - k + 1)).length + 1 = k := by
    rw [List.length_drop]
    omega
  rw [hsplit, List.pairwise_append, List.pairwise_cons] at hsorted
  obtain ⟨-, ⟨hafter, -⟩, hbefore⟩ := hsorted
  rw [hsplit, List.countP_append, List.countP_cons]
  constructor
  · -- below the moment, the first of them and all before it do not count
    intro hcount
    by_contra hlate
    have hfront : (l.take (l.length - k)).countP (fun value => moment ≤ value) = 0 := by
      refine List.countP_eq_zero.2 fun value hvalue => ?_
      have hle := hbefore value hvalue w List.mem_cons_self
      rw [decide_eq_true_iff]
      omega
    have htail : (l.drop (l.length - k + 1)).countP (fun value => moment ≤ value) ≤
        (l.drop (l.length - k + 1)).length := List.countP_le_length
    rw [hfront, if_neg (by rwa [decide_eq_true_iff])] at hcount
    omega
  · intro hle
    have hall : (l.drop (l.length - k + 1)).countP (fun value => moment ≤ value) =
        (l.drop (l.length - k + 1)).length := by
      refine List.countP_eq_length.2 fun value hvalue => ?_
      have habove := hafter value hvalue
      rw [decide_eq_true_iff]
      omega
    rw [hall, if_pos (decide_eq_true hle)]
    omega

/-- As many records as asked for have reached a moment exactly if the watermark has. -/
theorem le_recordCount_iff {heads : List FeedHead} {w : Int} (hmin : 0 < settings.minFeeds)
    (hw : quorumHighWatermark settings heads = .ok w) (moment : Int) :
    settings.minFeeds ≤ recordCount heads moment ↔ moment ≤ w := by
  obtain ⟨⟨-, henough⟩, hitem⟩ := quorumHighWatermark_eq_ok.1 hw
  obtain ⟨k, hk⟩ := Int.eq_ofNat_of_zero_le hmin.le
  rw [hk] at hmin henough hitem ⊢
  have hperm := List.perm_insertionSort (· ≤ ·) (heads.map fun head => head.highWatermark)
  have hlength := hperm.length_eq
  rw [List.length_map] at hlength
  have hle := length_identities_le heads
  unfold itemAt at hitem
  rw [if_neg (by omega), if_pos (by omega)] at hitem
  have hindex : (-(k : Int) + ((heads.map fun head => head.highWatermark).insertionSort (· ≤ ·)).length).toNat =
      ((heads.map fun head => head.highWatermark).insertionSort (· ≤ ·)).length - k := by omega
  rw [hindex] at hitem
  rw [Int.ofNat_le, ← le_countP_sorted_iff (List.pairwise_insertionSort _ _) (by omega) hitem moment,
    hperm.countP_eq, List.countP_map, List.countP_eq_length_filter]
  rfl

theorem Accepted.exists_quorumHighWatermark {heads : List FeedHead} (h : Accepted settings heads)
    (hmin : 0 < settings.minFeeds) : ∃ w, quorumHighWatermark settings heads = .ok w := by
  let highWatermarks := (heads.map fun head => head.highWatermark).insertionSort (· ≤ ·)
  have hlength : highWatermarks.length = heads.length := by
    rw [List.length_insertionSort, List.length_map]
  have hle := length_identities_le heads
  have henough := h.2
  obtain ⟨w, hw⟩ : ∃ w, itemAt highWatermarks (-settings.minFeeds) = some w := by
    unfold itemAt
    rw [if_neg (by omega), if_pos (by omega)]
    exact ⟨_, List.getElem?_eq_getElem (by omega)⟩
  exact ⟨w, quorumHighWatermark_eq_ok.2 ⟨h, hw⟩⟩

theorem quorumHighWatermark_perm {heads heads' : List FeedHead} (h : heads.Perm heads') (w : Int) :
    quorumHighWatermark settings heads = .ok w ↔ quorumHighWatermark settings heads' = .ok w := by
  have hsort : (heads.map fun head => head.highWatermark).insertionSort (· ≤ ·) =
      (heads'.map fun head => head.highWatermark).insertionSort (· ≤ ·) := by
    refine List.Perm.eq_of_pairwise (fun a b _ _ => le_antisymm) (List.pairwise_insertionSort _ _)
      (List.pairwise_insertionSort _ _) ?_
    exact (List.perm_insertionSort _ _).trans ((h.map _).trans (List.perm_insertionSort _ _).symm)
  have hidentities := @length_identities_congr heads heads' fun head => h.mem_iff
  rw [quorumHighWatermark_eq_ok, quorumHighWatermark_eq_ok, hsort]
  unfold Accepted
  rw [hidentities]
  simp only [h.mem_iff]

/-! ## The catch-up -/

theorem catchUp_eq_ok {state : State} {feeds : List (FeedRecord Message)} {result : CatchUpReport × State} :
    catchUpFromRecoveryFeeds settings log state feeds = .ok result ↔
      ∃ w, quorumHighWatermark settings (feeds.map FeedRecord.toFeedHead) = .ok w ∧
        (Select.orderBy (fun c => sortKey c.toAnnounced) (collectCandidates log w feeds).1).foldl
          (appendCandidate settings log) (startReport (feeds.map FeedRecord.toFeedHead)
            (collectCandidates log w feeds).2, state) = result := by
  simp only [catchUpFromRecoveryFeeds, Check.bind_eq_ok, Check.pure_eq_ok]

/-- **The order of the feeds and of their entries changes neither what is appended nor in what order.** -/
theorem outcome_reordered {feeds feeds' : List (FeedRecord Message)} (state : State)
    (hreordered : Reordered feeds feeds') (hone : NoCollision log feeds) :
    outcome (catchUpFromRecoveryFeeds settings log state feeds) =
      outcome (catchUpFromRecoveryFeeds settings log state feeds') := by
  have hwatermark := @quorumHighWatermark_perm settings _ _ hreordered.perm_heads
  cases hresult : catchUpFromRecoveryFeeds settings log state feeds with
  | error e =>
    cases hresult' : catchUpFromRecoveryFeeds settings log state feeds' with
    | error e' => rfl
    | ok result' =>
      obtain ⟨w, hw, -⟩ := catchUp_eq_ok.1 hresult'
      obtain ⟨result, hok⟩ : ∃ result, catchUpFromRecoveryFeeds settings log state feeds = .ok result :=
        ⟨_, catchUp_eq_ok.2 ⟨w, (hwatermark w).2 hw, rfl⟩⟩
      exact nomatch hresult.symm.trans hok
  | ok result =>
    obtain ⟨w, hw, hrun⟩ := catchUp_eq_ok.1 hresult
    obtain ⟨result', hrun'⟩ : ∃ result', (Select.orderBy (fun c => sortKey c.toAnnounced)
        (collectCandidates log w feeds').1).foldl (appendCandidate settings log)
        (startReport (feeds'.map FeedRecord.toFeedHead) (collectCandidates log w feeds').2, state) =
          result' := ⟨_, rfl⟩
    rw [catchUp_eq_ok.2 ⟨w, (hwatermark w).1 hw, hrun'⟩]
    have halike := (@collected_collectCandidates _ _ log w feeds).alike_orderBy
      (collected_collectCandidates feeds') hreordered.perm_offers ?_
    · obtain ⟨happended, hstate⟩ := @foldl_appendCandidate_congr _ _ settings log _ _ halike
        (startReport (feeds.map FeedRecord.toFeedHead) (collectCandidates log w feeds).2, state)
        (startReport (feeds'.map FeedRecord.toFeedHead) (collectCandidates log w feeds').2, state) rfl rfl
      rw [hrun, hrun'] at happended hstate
      exact congrArg some (Prod.ext happended hstate)
    · intro a ha b hb
      obtain ⟨feed, hfeed, entry, hentry, -, -, hok⟩ := mem_offersOf.1 ha
      obtain ⟨feed', hfeed', entry', hentry', -, -, hok'⟩ := mem_offersOf.1 hb
      exact hone _ _ ⟨feed, hfeed, entry, hentry, _, hok⟩ ⟨feed', hfeed', entry', hentry', _, hok'⟩

/-- Everything that was appended was carried by enough identities. -/
def Carried (settings : RecoverySettings) (log : AnnouncementLog Message State)
    (feeds : List (FeedRecord Message)) (report : CatchUpReport) : Prop :=
  ∀ item ∈ report.appended, settings.minFeeds ≤ carrierCount log item.messageHash feeds

/-- Enough identities have reached the announcement of everything that was appended. -/
def Reached (settings : RecoverySettings) (log : AnnouncementLog Message State)
    (feeds : List (FeedRecord Message)) (report : CatchUpReport) : Prop :=
  ∀ item ∈ report.appended, ∃ announced, Offered log feeds announced ∧
    announced.messageHash = item.messageHash ∧
    settings.minFeeds ≤ reachedCount (feeds.map FeedRecord.toFeedHead) announced.announcedAt

/-- Where an appended item comes from: enough identities carry its message, and its announcement is not above
    the watermark. -/
theorem exists_offered_of_appended {state : State} {feeds : List (FeedRecord Message)}
    {result : CatchUpReport × State} {w : Int}
    (hw : quorumHighWatermark settings (feeds.map FeedRecord.toFeedHead) = .ok w)
    (h : catchUpFromRecoveryFeeds settings log state feeds = .ok result) {item : AppendedEntry}
    (hitem : item ∈ result.1.appended) :
    settings.minFeeds ≤ carrierCount log item.messageHash feeds ∧
      ∃ announced, Offered log feeds announced ∧ announced.messageHash = item.messageHash ∧
        announced.announcedAt ≤ w := by
  obtain ⟨w', hw', hrun⟩ := catchUp_eq_ok.1 h
  obtain rfl := Except.ok.inj (hw.symm.trans hw')
  rw [← hrun] at hitem
  rcases mem_appended_foldl hitem with hnil | ⟨c, hc, hmin, hhash⟩
  · exact nomatch hnil
  have hmerges := (collected_collectCandidates feeds).merges c (Select.mem_orderBy.1 hc)
  have hcarriers := length_feeds_le_carrierCount hmerges
  rw [hhash]
  refine ⟨by omega, c.toAnnounced, ?_, rfl, ?_⟩
  · obtain ⟨offer, hoffer, heq⟩ := hmerges.announced
    obtain ⟨feed, hfeed, entry, hentry, -, -, hok⟩ := mem_offersOf.1 hoffer
    exact ⟨feed, hfeed, entry, hentry, offer.witnesses, heq ▸ hok⟩
  · obtain ⟨offer, hoffer, heq⟩ := hmerges.announced
    obtain ⟨feed, hfeed, entry, hentry, -, hle, -⟩ := mem_offersOf.1 hoffer
    rwa [heq] at hle

/-- What a catch-up from some feeds owes, whatever their entries are and whatever the log does: enough
    identities carry what is appended, enough have reached it, and the order of feeds and entries does not
    matter. -/
def RespectsQuorum (settings : RecoverySettings) (heads : List FeedHead) : Prop :=
  ∀ (Message State : Type) (log : AnnouncementLog Message State) (state : State)
    (feeds : List (FeedRecord Message)), feeds.map FeedRecord.toFeedHead = heads →
    (∀ result, catchUpFromRecoveryFeeds settings log state feeds = .ok result →
      Carried settings log feeds result.1 ∧ Reached settings log feeds result.1) ∧
    ∀ feeds', Reordered feeds feeds' → NoCollision log feeds →
      outcome (catchUpFromRecoveryFeeds settings log state feeds) =
        outcome (catchUpFromRecoveryFeeds settings log state feeds')

/-! ## One announcement that every feed carries -/

/-- A log to which an announcement made at a moment can be appended. -/
def openLog (settings : RecoverySettings) (moment : Int) : AnnouncementLog Unit Unit where
  details _ := .ok ⟨(), "", "", settings.now - settings.maxRootLagSeconds, moment⟩
  entryExists _ _ := none
  verify _ _ := .ok ()
  append _ _ := .ok (0, ())

/-- Every feed carries the announcement. -/
def announcing (heads : List FeedHead) : List (FeedRecord Unit) :=
  heads.map fun head => { head with entries := [.announcement ()] }

theorem map_toFeedHead_announcing (heads : List FeedHead) :
    (announcing heads).map FeedRecord.toFeedHead = heads := by
  unfold announcing
  rw [List.map_map]
  exact List.map_id heads

theorem exists_mem_appended_foldl {candidates : List (Candidate Message)} {c : Candidate Message}
    (hc : c ∈ candidates) (happends : ∀ state, ∃ result, Appends settings log state c result)
    (run : CatchUpReport × State) :
    ∃ item ∈ (candidates.foldl (appendCandidate settings log) run).1.appended,
      item.messageHash = c.messageHash := by
  -- what is appended stays
  have hmono : ∀ (candidates : List (Candidate Message)) (run : CatchUpReport × State) (item : AppendedEntry),
      item ∈ run.1.appended →
      item ∈ (candidates.foldl (appendCandidate settings log) run).1.appended := by
    intro candidates
    induction candidates with
    | nil => exact fun _ _ h => h
    | cons c candidates ih =>
      intro run item h
      refine ih _ item ?_
      rcases appendCandidate_cases settings log run c with ⟨result, -, ha, -⟩ | ⟨-, ha, -⟩
      · rw [ha]
        exact List.mem_append_left _ h
      · rwa [ha]
  induction candidates generalizing run with
  | nil => exact nomatch hc
  | cons first candidates ih =>
    rcases List.mem_cons.1 hc with rfl | hc
    · rcases appendCandidate_cases settings log run c with ⟨result, -, ha, -⟩ | ⟨hnot, -⟩
      · exact ⟨_, hmono candidates _ _ (by rw [ha]; exact List.mem_append_right _ (List.mem_singleton_self _)),
          rfl⟩
      · exact absurd (happends run.2) hnot
    · exact ih hc _

/-- An announcement that every feed carries is appended if enough records have reached it, so that enough
    identities must have. -/
theorem RespectsQuorum.le_reachedCount {heads : List FeedHead} (h : RespectsQuorum settings heads)
    (haccepted : Accepted settings heads) {moment : Int}
    (hrecords : settings.minFeeds ≤ recordCount heads moment) :
    settings.minFeeds ≤ reachedCount heads moment := by
  by_cases hmin : 0 < settings.minFeeds
  swap
  · omega
  let log := openLog settings moment
  obtain ⟨w, hw⟩ := haccepted.exists_quorumHighWatermark hmin
  have hle := (le_recordCount_iff hmin hw moment).1 hrecords
  have hcollected := @collected_collectCandidates _ _ log w (announcing heads)
  have hoffers : ∀ head ∈ heads,
      (⟨identity head, ⟨(), "", "", settings.now - settings.maxRootLagSeconds, moment⟩, []⟩ : Offer Unit) ∈
        offersOf log w (announcing heads) := by
    intro head hhead
    exact mem_offersOf.2 ⟨_, List.mem_map_of_mem hhead, _, List.mem_singleton_self _, rfl, hle, rfl⟩
  obtain ⟨head, hhead⟩ : ∃ head, head ∈ heads := by
    refine List.exists_mem_of_length_pos ?_
    have hlength := length_identities_le heads
    have henough := haccepted.2
    omega
  obtain ⟨c, hc, hhash⟩ := List.mem_map.1 (hcollected.offered _ (hoffers head hhead))
  have hmerges := hcollected.merges c hc
  have hfeeds : (identities heads).length ≤ c.feeds.length := by
    refine (List.subperm_of_subset (List.nodup_dedup _) fun id hid => ?_).length_le
    obtain ⟨other, hother, rfl⟩ := List.mem_map.1 (List.mem_dedup.1 hid)
    exact (hmerges.mem_feeds _).2 ⟨_, hoffers other hother, hhash.symm, rfl⟩
  have hnoWitnesses : c.witnesses = [] := by
    refine List.eq_nil_iff_forall_not_mem.2 fun witness hwitness => ?_
    obtain ⟨offer, hoffer, -, hin⟩ := (hmerges.mem_witnesses witness).1 hwitness
    obtain ⟨feed, hfeed, entry, hentry, -, -, hok⟩ := mem_offersOf.1 hoffer
    obtain ⟨other, -, rfl⟩ := List.mem_map.1 hfeed
    rw [List.mem_singleton] at hentry
    subst hentry
    have hwitnesses : [] = offer.witnesses := congrArg Prod.snd (Except.ok.inj hok)
    rw [← hwitnesses] at hin
    exact nomatch hin
  have happends : ∀ state, ∃ result, Appends settings log state c result := by
    intro state
    refine ⟨_, by have henough := haccepted.2; omega, rfl, appendTransferAnnouncement_eq_ok.2
      ⟨rfl, _, rfl, ?_, _, rfl, rfl⟩⟩
    refine if_neg fun hlate => ?_
    have hafter : settings.maxRootLagSeconds <
        settings.now - (settings.now - settings.maxRootLagSeconds) := hlate.2
    omega
  have hheads := map_toFeedHead_announcing heads
  obtain ⟨result, hresult⟩ : ∃ result, catchUpFromRecoveryFeeds settings log () (announcing heads) =
      .ok result := ⟨_, catchUp_eq_ok.2 ⟨w, by rwa [hheads], rfl⟩⟩
  have hreached := (((h _ _ log () _ hheads).1 result hresult).2)
  obtain ⟨w', hw', hrun⟩ := catchUp_eq_ok.1 hresult
  rw [hheads] at hw'
  obtain rfl := Except.ok.inj (hw.symm.trans hw')
  obtain ⟨item, hitem, -⟩ := exists_mem_appended_foldl
    (Select.mem_orderBy.2 hc : c ∈ Select.orderBy (fun c => sortKey c.toAnnounced) _) happends
    (startReport ((announcing heads).map FeedRecord.toFeedHead) _, ())
  rw [hrun] at hitem
  obtain ⟨announced, ⟨feed, hfeed, entry, hentry, witnesses, hok⟩, -, hcount⟩ := hreached item hitem
  obtain ⟨other, -, rfl⟩ := List.mem_map.1 hfeed
  rw [List.mem_singleton] at hentry
  subst hentry
  have hannounced : moment = announced.announcedAt :=
    congrArg (fun pair => pair.1.announcedAt) (Except.ok.inj hok)
  rwa [hheads, ← hannounced] at hcount

/-- **A catch-up respects the quorum exactly if records that repeat an identity make no difference to it**:
    whenever as many records as asked for have reached a moment, so have as many identities. -/
theorem respectsQuorum_iff (settings : RecoverySettings) (heads : List FeedHead) :
    RespectsQuorum settings heads ↔ (Accepted settings heads →
      ∀ moment, settings.minFeeds ≤ recordCount heads moment →
        settings.minFeeds ≤ reachedCount heads moment) := by
  constructor
  · intro h haccepted moment hrecords
    exact h.le_reachedCount haccepted hrecords
  · rintro hcondition Message State log state feeds rfl
    refine ⟨?_, fun feeds' => outcome_reordered state⟩
    intro result hresult
    obtain ⟨w, hw, -⟩ := catchUp_eq_ok.1 hresult
    refine ⟨fun item hitem => (exists_offered_of_appended hw hresult hitem).1, ?_⟩
    intro item hitem
    obtain ⟨-, announced, hoffered, hhash, hle⟩ := exists_offered_of_appended hw hresult hitem
    refine ⟨announced, hoffered, hhash, ?_⟩
    by_cases hmin : 0 < settings.minFeeds
    · have hrecords := (le_recordCount_iff hmin hw _).2 hle
      exact hcondition (quorumHighWatermark_eq_ok.1 hw).1 _ hrecords
    · omega

/-- Records of distinct identities are counted as identities are. -/
theorem reachedCount_eq_recordCount {heads : List FeedHead} (h : (heads.map identity).Nodup)
    (moment : Int) : reachedCount heads moment = recordCount heads moment := by
  have hnodup : ((heads.filter fun head => moment ≤ head.highWatermark).map identity).Nodup :=
    h.sublist ((List.filter_sublist).map _)
  unfold reachedCount recordCount identities
  rw [hnodup.dedup, List.length_map]

/-- One feed is loaded twice, and its watermark is taken for a quorum of two. -/
theorem not_respectsQuorum : ¬ ∀ (settings : RecoverySettings) (heads : List FeedHead),
    RespectsQuorum settings heads := by
  intro hall
  let settings : RecoverySettings := ⟨sampleCrypto, 2, 60, true, 60, 1000⟩
  let heads : List FeedHead := [⟨"feed-a", "key-a", 100, 0⟩, ⟨"feed-a", "key-a", 100, 0⟩,
    ⟨"feed-b", "key-b", 10, 0⟩]
  have haccepted : Accepted settings heads := by
    refine ⟨fun head hhead => ?_, by decide⟩
    simp only [heads, List.mem_cons, List.not_mem_nil, or_false] at hhead
    rcases hhead with rfl | rfl | rfl <;> rfl
  have hreached := @RespectsQuorum.le_reachedCount _ _ (hall settings heads) haccepted 50 (by decide)
  exact absurd hreached (by decide)

end RecoveryFeeds
