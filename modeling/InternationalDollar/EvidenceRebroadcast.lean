import InternationalDollar.Lib.AssocList
import InternationalDollar.WireJson

set_option autoImplicit false

/-! # The rebroadcast loop (`node_client`)

Every few seconds a node goes through its queue. Evidence that was not broadcast for five minutes is marked as
broadcast now and collected, and the batch of what was collected is cut to its limit when it is sent. What
the cut drops is marked all the same, so it waits for five minutes and is dropped again.

`sound_of_meets` says in which runs evidence is sent whenever it is due: if no round has more of it than a
batch holds, and nothing stops the round before the batch is sent. -/

/-- The settings of the loop. -/
structure Rebroadcaster where
  crypto : Crypto
  inflate : Bytes → Option Bytes
  batchMaxMessages : Nat
  criticalFanout : Int
  fanout : Int
  batchMaxMessages_pos : 0 < batchMaxMessages

/-- What a round meets: the queue, the peers, the address of the node, the time, and two shuffles. -/
structure Round where
  queued : List String
  peers : List String
  publicIp : Except String String
  now : Int
  shufflePeers : List String → List String
  shuffleMessages : List String → List String
  perm_shufflePeers : ∀ peers, (shufflePeers peers).Perm peers

/-- What a round leaves: the times of the last broadcasts, and the batches with the peers they went to. -/
structure RoundOutcome where
  last : List (String × Int)
  sends : List (String × List String)

namespace Rebroadcaster

/-- `evidence_types`. -/
def evidenceTypes : List String :=
  ["ind.conflict_proof.v3", "ind.transparency_equivocation_proof.v3",
    "ind.transparency_operator_policy_violation.v3"]

variable (b : Rebroadcaster)

/-- `unpack_type`. A value that is no object has no `get`. -/
def unpackType (raw : String) : Except String (Option Json × String) :=
  match WireJson.unpackedJson b.inflate raw with
  | .error _ => .ok (some (.str ""), "")
  | .ok (.obj members) =>
      match sha3Json b.crypto (.obj members) with
      | .error _ => .ok (some (.str ""), "")
      | .ok hash => .ok (members.lookup "type", hash)
  | .ok _ => .error "object has no attribute 'get'"

/-- `message_type in evidence_types`. -/
def isEvidenceType : Option Json → Except String Bool
  | some (.str type) => .ok (type ∈ evidenceTypes)
  | some (.arr _) => .error "unhashable type: 'list'"
  | some (.obj _) => .error "unhashable type: 'dict'"
  | _ => .ok false

/-- The hash of a queued message that is evidence. -/
def evidenceHash (raw : String) : Except String (Option String) := do
  let (messageType, hash) ← b.unpackType raw
  let isEvidence ← isEvidenceType messageType
  pure (if isEvidence then some hash else none)

/-- Five minutes have passed since the last broadcast. -/
def isDue (last : List (String × Int)) (now : Int) (hash : String) : Bool :=
  hash ≠ "" ∧ 300 ≤ now - (AssocList.get? hash last).getD 0

/-- What a scan of the queue has collected. -/
structure Scan where
  last : List (String × Int)
  dueEvidence : List String
  normalCandidates : List String

/-- The scan of the queue, and the exception that ended it. -/
def scan (now : Int) : List String → Scan → Scan × Option String
  | [], acc => (acc, none)
  | raw :: rest, acc =>
      match b.evidenceHash raw with
      | .error error => (acc, some error)
      | .ok none => scan now rest { acc with normalCandidates := acc.normalCandidates ++ [raw] }
      | .ok (some hash) =>
          if isDue acc.last now hash then
            scan now rest { acc with last := AssocList.put hash now acc.last,
                                     dueEvidence := acc.dueEvidence ++ [raw] }
          else scan now rest acc

/-- The text of a batch. -/
def payload (messages : List String) : Json :=
  .obj [("messages", .arr (messages.map .str)), ("type", .str "ind.gossip_batch.v1")]

/-- `live_peer_sample`. -/
def livePeerSample (r : Round) (fanout : Int) (myIp : String) : List String :=
  (r.shufflePeers (r.peers.filter fun peer => peer ≠ "" ∧ peer ≠ myIp)).take (max 1 fanout).toNat

/-- `send_batch`: the peers that get the batch. A text that is too large is sent to nobody. -/
def sendBatch (r : Round) (rawItems : List String) (fanout : Int) :
    Except String (List (String × List String)) :=
  match rawItems.filter fun item => item ≠ "" with
  | [] => .ok []
  | items => do
      let messages := items.take b.batchMaxMessages
      let myIp ← r.publicIp
      pure (if (payload messages).render.length ≤ WireJson.maxWireDecompressedBytes then
        (livePeerSample r fanout myIp).map fun peer => (peer, messages) else [])

/-- One round. An exception ends it, and what was marked stays marked. -/
def round (last : List (String × Int)) (r : Round) : RoundOutcome :=
  if r.queued = [] ∨ r.peers = [] then ⟨last, []⟩
  else
    match b.scan r.now r.queued ⟨last, [], []⟩ with
    | (scanned, some _) => ⟨scanned.last, []⟩
    | (scanned, none) =>
        match b.sendBatch r scanned.dueEvidence b.criticalFanout with
        | .error _ => ⟨scanned.last, []⟩
        | .ok critical =>
            match b.sendBatch r
              ((r.shuffleMessages scanned.normalCandidates).take b.batchMaxMessages) b.fanout with
            | .error _ => ⟨scanned.last, critical⟩
            | .ok normal => ⟨scanned.last, critical ++ normal⟩

/-! ## Runs -/

/-- The times of the last broadcasts after some rounds of the loop. -/
def after (rounds : List Round) : List (String × Int) :=
  rounds.foldl (fun last r => (b.round last r).last) []

/-- A round sends a message with some hash. -/
def Sends (last : List (String × Int)) (r : Round) (hash : String) : Prop :=
  ∃ send ∈ (b.round last r).sends, ∃ raw ∈ send.2, b.evidenceHash raw = .ok (some hash)

/-- The rounds of some after others in which a message is due. -/
def dueRounds (done : List Round) (hash : String) : List Round → Nat
  | [] => 0
  | r :: rest => (if isDue (b.after done) r.now hash then 1 else 0) + dueRounds (done ++ [r]) hash rest

/-- The evidence in a queue. -/
def evidence (queued : List String) : List String :=
  queued.filter fun raw => match b.evidenceHash raw with
    | .ok (some _) => true
    | _ => false

/-- Evidence is sent, not just marked. -/
structure Sound (rounds : List Round) : Prop where
  /-- A round records a time only for what it sends. -/
  marked : ∀ done r, done ++ [r] <+: rounds → ∀ hash,
    AssocList.get? hash (b.round (b.after done) r).last ≠ AssocList.get? hash (b.after done) →
      b.Sends (b.after done) r hash
  /-- While the evidence stays the same, each message of it is sent within as many of the rounds in which it is
      due as there are batches of the whole evidence. -/
  sent : ∀ done during, done ++ during <+: rounds → ∀ messages,
    (∀ r ∈ during, b.evidence r.queued = messages) → ∀ raw ∈ messages, ∀ hash,
    b.evidenceHash raw = .ok (some hash) →
    (messages.length + b.batchMaxMessages - 1) / b.batchMaxMessages ≤ b.dueRounds done hash during →
      ∃ before r, before ++ [r] <+: during ∧ b.Sends (b.after (done ++ before)) r hash

/-- The evidence of a queue that is due, each message once. -/
def overdue (last : List (String × Int)) (now : Int) : List String → List String
  | [] => []
  | raw :: rest =>
      match b.evidenceHash raw with
      | .ok (some hash) =>
          if isDue last now hash then
            raw :: (overdue last now rest).filter fun other => b.evidenceHash other ≠ .ok (some hash)
          else overdue last now rest
      | _ => overdue last now rest

/-- A round can send all the evidence that is due: the queue can be read, there is a peer to send to, and the
    evidence fits one batch. -/
def Meets (last : List (String × Int)) (r : Round) : Prop :=
  b.overdue last r.now r.queued ≠ [] →
    (∀ raw ∈ r.queued, ∃ hash, b.evidenceHash raw = .ok hash) ∧
    (b.overdue last r.now r.queued).length ≤ b.batchMaxMessages ∧
    (payload (b.overdue last r.now r.queued)).render.length ≤ WireJson.maxWireDecompressedBytes ∧
    ∃ myIp, r.publicIp = .ok myIp ∧ ∃ peer ∈ r.peers, peer ≠ "" ∧ peer ≠ myIp

variable {b} {last : List (String × Int)} {now : Int} {queued : List String} {hash raw : String} {r : Round}

/-! ## The scan -/

/-- A message that is marked is not due again in the same round. -/
theorem isDue_put (hash' : String) :
    isDue (AssocList.put hash now last) now hash' = (decide (hash' ≠ hash) && isDue last now hash') := by
  unfold isDue
  by_cases heq : hash' = hash
  · simp [AssocList.get?_put, heq]
  · simp [AssocList.get?_put, heq]

/-- A mark takes the other copies of a message out of what is due. -/
theorem overdue_put : b.overdue (AssocList.put hash now last) now queued
    = (b.overdue last now queued).filter fun other => b.evidenceHash other ≠ .ok (some hash) := by
  induction queued with
  | nil => rfl
  | cons raw rest ih =>
    rw [overdue, overdue]
    split
    · next hash' hhash =>
      rw [isDue_put]
      by_cases heq : hash' = hash
      · subst heq
        rw [decide_eq_false (by simp), Bool.false_and, if_neg Bool.false_ne_true, ih]
        split
        · rw [List.filter_cons_of_neg (by simp [hhash]), List.filter_filter]
          simp only [Bool.and_self]
        · rfl
      · rw [decide_eq_true heq, Bool.true_and]
        split
        · rw [List.filter_cons_of_pos (by simp [hhash, heq]), ih, List.filter_filter, List.filter_filter]
          simp only [Bool.and_comm]
        · exact ih
    · exact ih

/-- A queue that can be read is scanned to its end, and what is due is collected. -/
theorem scan_of_reads (now : Int) (h : ∀ raw ∈ queued, ∃ hash, b.evidenceHash raw = .ok hash) (acc : Scan) :
    (b.scan now queued acc).2 = none ∧
      (b.scan now queued acc).1.dueEvidence = acc.dueEvidence ++ b.overdue acc.last now queued := by
  induction queued generalizing acc with
  | nil => exact ⟨rfl, (List.append_nil _).symm⟩
  | cons raw rest ih =>
    rw [List.forall_mem_cons] at h
    obtain ⟨⟨found, hfound⟩, hrest⟩ := h
    rw [scan, overdue, hfound]
    cases found with
    | none => exact ih hrest _
    | some hash =>
      dsimp only
      by_cases hdue : isDue acc.last now hash = true
      · rw [if_pos hdue, if_pos hdue]
        obtain ⟨hnone, hcollected⟩ := ih hrest { acc with
          last := AssocList.put hash now acc.last
          dueEvidence := acc.dueEvidence ++ [raw] }
        refine ⟨hnone, hcollected.trans ?_⟩
        rw [overdue_put, List.append_assoc]
        rfl
      · rw [if_neg hdue, if_neg hdue]
        exact ih hrest acc

/-- A message that is due has a copy in what is due. -/
theorem exists_mem_overdue (hraw : raw ∈ queued) (hhash : b.evidenceHash raw = .ok (some hash))
    (hdue : isDue last now hash = true) :
    ∃ other ∈ b.overdue last now queued, b.evidenceHash other = .ok (some hash) := by
  induction queued with
  | nil => cases hraw
  | cons first rest ih =>
    rw [overdue]
    by_cases hsame : b.evidenceHash first = .ok (some hash)
    · rw [hsame]
      dsimp only
      rw [if_pos hdue]
      exact ⟨first, List.mem_cons_self, hsame⟩
    · have hne : raw ≠ first := fun heq => hsame (heq ▸ hhash)
      obtain ⟨other, hother, hotherhash⟩ := ih ((List.mem_cons.1 hraw).resolve_left hne)
      split
      · next hash' hfirst =>
        have hdiffers : hash ≠ hash' := fun heq => hsame (heq ▸ hfirst)
        split
        · refine ⟨other, List.mem_cons_of_mem _ (List.mem_filter.2 ⟨hother, ?_⟩), hotherhash⟩
          simp [hotherhash, hdiffers]
        · exact ⟨other, hother, hotherhash⟩
      · exact ⟨other, hother, hotherhash⟩

/-- Only what is due is marked, even if the scan does not come to its end. -/
theorem exists_overdue_of_marked (acc : Scan)
    (h : AssocList.get? hash (b.scan now queued acc).1.last ≠ AssocList.get? hash acc.last) :
    ∃ raw ∈ b.overdue acc.last now queued, b.evidenceHash raw = .ok (some hash) := by
  induction queued generalizing acc with
  | nil => exact absurd rfl h
  | cons raw rest ih =>
    rw [scan] at h
    rw [overdue]
    cases hfound : b.evidenceHash raw with
    | error error =>
      rw [hfound] at h
      exact absurd rfl h
    | ok found =>
      rw [hfound] at h
      cases found with
      | none => exact ih { acc with normalCandidates := acc.normalCandidates ++ [raw] } h
      | some hash' =>
        dsimp only at h ⊢
        by_cases hdue : isDue acc.last now hash' = true
        · rw [if_pos hdue] at h ⊢
          by_cases heq : hash = hash'
          · exact ⟨raw, List.mem_cons_self, heq ▸ hfound⟩
          · -- another message: it was marked later, and is due before
            have hput : AssocList.get? hash (AssocList.put hash' now acc.last) = AssocList.get? hash acc.last := by
              rw [AssocList.get?_put, if_neg heq]
            rw [← hput] at h
            obtain ⟨other, hother, hotherhash⟩ := ih { acc with
              last := AssocList.put hash' now acc.last
              dueEvidence := acc.dueEvidence ++ [raw] } h
            rw [overdue_put] at hother
            exact ⟨other, List.mem_cons_of_mem _ hother, hotherhash⟩
        · rw [if_neg hdue] at h ⊢
          exact ih acc h

theorem evidenceHash_of_mem_overdue (h : raw ∈ b.overdue last now queued) :
    raw ∈ queued ∧ ∃ hash, b.evidenceHash raw = .ok (some hash) := by
  induction queued with
  | nil => cases h
  | cons first rest ih =>
    rw [overdue] at h
    split at h
    · next hash hfirst =>
      split at h
      · rcases List.mem_cons.1 h with rfl | h
        · exact ⟨List.mem_cons_self, hash, hfirst⟩
        · obtain ⟨hmem, hhash⟩ := ih (List.mem_filter.1 h).1
          exact ⟨List.mem_cons_of_mem _ hmem, hhash⟩
      · obtain ⟨hmem, hhash⟩ := ih h
        exact ⟨List.mem_cons_of_mem _ hmem, hhash⟩
    · obtain ⟨hmem, hhash⟩ := ih h
      exact ⟨List.mem_cons_of_mem _ hmem, hhash⟩

/-- An empty text is no evidence. -/
theorem evidenceHash_empty : b.evidenceHash "" = .ok none := rfl

/-! ## The batch -/

/-- A batch that is not empty and fits goes to a peer, if the node knows one beside itself. -/
theorem exists_sendBatch {items : List String} (fanout : Int) (hitems : items ≠ [])
    (hnonempty : ∀ item ∈ items, item ≠ "") (hlength : items.length ≤ b.batchMaxMessages)
    (hsize : (payload items).render.length ≤ WireJson.maxWireDecompressedBytes) {myIp peer : String}
    (hip : r.publicIp = .ok myIp) (hpeer : peer ∈ r.peers) (hne : peer ≠ "") (hother : peer ≠ myIp) :
    ∃ sends, b.sendBatch r items fanout = .ok sends ∧ ∃ send ∈ sends, send.2 = items := by
  have hfilter : items.filter (fun item => item ≠ "") = items :=
    List.filter_eq_self.2 fun item hitem => decide_eq_true (hnonempty item hitem)
  -- the sample takes at least one of the peers
  have hsample : livePeerSample r fanout myIp ≠ [] := by
    have hmem : peer ∈ r.shufflePeers (r.peers.filter fun peer => peer ≠ "" ∧ peer ≠ myIp) :=
      (r.perm_shufflePeers _).mem_iff.2 (List.mem_filter.2 ⟨hpeer, decide_eq_true ⟨hne, hother⟩⟩)
    have hcount : (max 1 fanout).toNat ≠ 0 := by omega
    rw [livePeerSample, Ne, List.take_eq_nil_iff, not_or]
    exact ⟨hcount, List.ne_nil_of_mem hmem⟩
  obtain ⟨chosen, rest, hchosen⟩ := List.exists_cons_of_ne_nil hsample
  obtain ⟨first, later, rfl⟩ := List.exists_cons_of_ne_nil hitems
  refine ⟨(livePeerSample r fanout myIp).map fun peer => (peer, first :: later), ?_, (chosen, first :: later), ?_,
    rfl⟩
  · rw [sendBatch, hfilter, hip]
    show Except.ok (if (payload ((first :: later).take b.batchMaxMessages)).render.length
      ≤ WireJson.maxWireDecompressedBytes then _ else _) = _
    rw [List.take_of_length_le hlength, if_pos hsize]
  · rw [hchosen]
    exact List.mem_cons_self

/-- A round that meets the conditions sends all the evidence that is due. -/
theorem exists_send (hmeets : b.Meets last r) (hoverdue : b.overdue last r.now r.queued ≠ []) :
    ∃ send ∈ (b.round last r).sends, send.2 = b.overdue last r.now r.queued := by
  obtain ⟨hreads, hlength, hsize, myIp, hip, peer, hpeer, hne, hother⟩ := hmeets hoverdue
  obtain ⟨hnone, hcollected⟩ := scan_of_reads r.now hreads ⟨last, [], []⟩
  rw [List.nil_append] at hcollected
  have hnonempty : ∀ item ∈ b.overdue last r.now r.queued, item ≠ "" := by
    rintro item hitem rfl
    obtain ⟨-, hash, hhash⟩ := evidenceHash_of_mem_overdue hitem
    cases hhash
  obtain ⟨sends, hsends, send, hsend, hmessages⟩ := exists_sendBatch b.criticalFanout hoverdue
    hnonempty hlength hsize hip hpeer hne hother
  have hqueued : r.queued ≠ [] := by
    intro hnil
    rw [hnil] at hoverdue
    exact hoverdue rfl
  refine ⟨send, ?_, hmessages⟩
  rw [round, if_neg (not_or.2 ⟨hqueued, List.ne_nil_of_mem hpeer⟩)]
  generalize b.scan r.now r.queued ⟨last, [], []⟩ = scanned at *
  obtain ⟨scanned, error⟩ := scanned
  dsimp only at hnone hcollected ⊢
  subst hnone
  dsimp only
  rw [hcollected, hsends]
  dsimp only
  split
  · exact hsend
  · exact List.mem_append_left _ hsend

/-- What is due is sent. -/
theorem sends_of_due (hmeets : b.Meets last r) (hraw : raw ∈ b.overdue last r.now r.queued)
    (hhash : b.evidenceHash raw = .ok (some hash)) : b.Sends last r hash := by
  obtain ⟨send, hsend, hmessages⟩ := exists_send hmeets (List.ne_nil_of_mem hraw)
  exact ⟨send, hsend, raw, hmessages ▸ hraw, hhash⟩

/-- What is marked was due. -/
theorem exists_overdue_of_round
    (h : AssocList.get? hash (b.round last r).last ≠ AssocList.get? hash last) :
    ∃ raw ∈ b.overdue last r.now r.queued, b.evidenceHash raw = .ok (some hash) := by
  refine exists_overdue_of_marked ⟨last, [], []⟩ fun hsame => h ?_
  have hlast : (b.round last r).last = last ∨
      (b.round last r).last = (b.scan r.now r.queued ⟨last, [], []⟩).1.last := by
    unfold round
    split
    · exact .inl rfl
    · split
      · next scanned error hscan => exact .inr (by rw [hscan])
      · next scanned hscan =>
        have hscanned : (b.scan r.now r.queued ⟨last, [], []⟩).1.last = scanned.last := by rw [hscan]
        rw [hscanned]
        split
        · exact .inr rfl
        · split
          · exact .inr rfl
          · exact .inr rfl
  rcases hlast with hlast | hlast
  · rw [hlast]
  · rw [hlast, hsame]

/-! ## All the rounds -/

theorem exists_dueRound {done during : List Round} (h : 0 < b.dueRounds done hash during) :
    ∃ before r, before ++ [r] <+: during ∧ isDue (b.after (done ++ before)) r.now hash = true := by
  induction during generalizing done with
  | nil => cases h
  | cons r rest ih =>
    rw [dueRounds] at h
    by_cases hdue : isDue (b.after done) r.now hash = true
    · exact ⟨[], r, List.prefix_append _ _, by rwa [List.append_nil]⟩
    · rw [if_neg hdue, Nat.zero_add] at h
      obtain ⟨before, r', hbefore, hdue'⟩ := ih h
      refine ⟨r :: before, r', List.prefix_cons_inj r |>.2 hbefore, ?_⟩
      rwa [List.append_assoc] at hdue'

/-- **Evidence is sent when it is due**, in every run whose rounds can send all of what is due. -/
theorem sound_of_meets {rounds : List Round}
    (h : ∀ done r, done ++ [r] <+: rounds → b.Meets (b.after done) r) : b.Sound rounds where
  marked done r hrounds hash hmarked := by
    obtain ⟨raw, hraw, hhash⟩ := exists_overdue_of_round hmarked
    exact sends_of_due (h done r hrounds) hraw hhash
  sent done during hrounds messages hmessages raw hraw hash hhash hcount := by
    have hpos : 0 < b.dueRounds done hash during := by
      refine lt_of_lt_of_le (Nat.div_pos ?_ b.batchMaxMessages_pos) hcount
      have hlength := List.length_pos_of_mem hraw
      omega
    obtain ⟨before, r, hbefore, hdue⟩ := exists_dueRound hpos
    have hqueued : raw ∈ r.queued := by
      have hin : r ∈ during := hbefore.subset (List.mem_append_right _ List.mem_cons_self)
      rw [← hmessages r hin] at hraw
      exact (List.mem_filter.1 hraw).1
    have hround : done ++ before ++ [r] <+: rounds := by
      rw [List.append_assoc]
      exact ((List.prefix_append_right_inj done).2 hbefore).trans hrounds
    obtain ⟨other, hother, hotherhash⟩ := exists_mem_overdue hqueued hhash hdue
    exact ⟨before, r, hbefore, sends_of_due (h _ r hround) hother hotherhash⟩

/-! ### Two messages and batches of one -/

/-- A loop whose batches hold one message. -/
def sample : Rebroadcaster where
  crypto := sampleCrypto
  inflate _ := none
  batchMaxMessages := 1
  criticalFanout := 1
  fanout := 1
  batchMaxMessages_pos := Nat.one_pos

/-- Evidence with some members. -/
def sampleEvidence (members : List (String × Json)) : Json :=
  .obj (members ++ [("type", .str "ind.conflict_proof.v3")])

/-- A round at some time with a peer and some queue. -/
def sampleRound (queued : List String) (now : Int) : Round where
  queued := queued
  peers := ["10.0.0.2"]
  publicIp := .ok "10.0.0.1"
  now := now
  shufflePeers peers := peers
  shuffleMessages messages := messages
  perm_shufflePeers _ := .refl _

/-- The text of a message. -/
def sampleRaw (members : List (String × Json)) : String :=
  String.ofList (sampleEvidence members).render

theorem unpackedJson_first : WireJson.unpackedJson (fun _ => none) (sampleRaw []) = .ok (sampleEvidence []) := by
  decide +kernel

theorem unpackedJson_second :
    WireJson.unpackedJson (fun _ => none) (sampleRaw [("a", .int 1)]) = .ok (sampleEvidence [("a", .int 1)]) := by
  decide +kernel

/-- The hash of a message. -/
def sampleHashText (members : List (String × Json)) : String :=
  sampleCrypto.sha3Hex (sampleEvidence members).bytes

theorem evidenceHash_sample {members : List (String × Json)}
    (hunpacked : WireJson.unpackedJson (fun _ => none) (sampleRaw members) = .ok (sampleEvidence members))
    (hvalid : canonicalBytes (sampleEvidence members) = .ok (sampleEvidence members).bytes)
    (htype : (members ++ [("type", Json.str "ind.conflict_proof.v3")]).lookup "type"
      = some (Json.str "ind.conflict_proof.v3")) :
    sample.evidenceHash (sampleRaw members) = .ok (some (sampleHashText members)) := by
  have hhash : sha3Json sampleCrypto (sampleEvidence members) = .ok (sampleHashText members) := by
    rw [sha3Json, hvalid]
    rfl
  have htypes : sample.unpackType (sampleRaw members)
      = .ok (some (.str "ind.conflict_proof.v3"), sampleHashText members) := by
    have hinflate : WireJson.unpackedJson sample.inflate (sampleRaw members) = .ok (sampleEvidence members) :=
      hunpacked
    rw [unpackType, hinflate]
    show (match sha3Json sampleCrypto (sampleEvidence members) with
      | .error _ => _
      | .ok hash => Except.ok (_, hash)) = _
    rw [hhash, htype]
  rw [evidenceHash, htypes]
  rfl

theorem evidenceHash_first : sample.evidenceHash (sampleRaw []) = .ok (some (sampleHashText [])) :=
  evidenceHash_sample unpackedJson_first rfl rfl

theorem evidenceHash_second :
    sample.evidenceHash (sampleRaw [("a", .int 1)]) = .ok (some (sampleHashText [("a", .int 1)])) :=
  evidenceHash_sample unpackedJson_second rfl rfl

theorem sampleHashText_ne : sampleHashText [] ≠ sampleHashText [("a", .int 1)] := by
  decide +kernel

theorem isDue_sample {last : List (String × Int)} {now : Int} (members : List (String × Json))
    (h : 300 ≤ now - (AssocList.get? (sampleHashText members) last).getD 0) :
    isDue last now (sampleHashText members) = true :=
  decide_eq_true ⟨(sampleCrypto.isHex32_sha3Hex _).ne_empty, h⟩

/-- The queue of the sample. -/
def sampleQueue : List String := [sampleRaw [], sampleRaw [("a", .int 1)]]

theorem sendBatch_sample (now : Int) : sample.sendBatch (sampleRound sampleQueue now) sampleQueue 1
    = .ok [("10.0.0.2", [sampleRaw []])] := by
  have hfilter : sampleQueue.filter (fun item => item ≠ "") = sampleQueue := by decide +kernel
  have hsize : (payload [sampleRaw []]).render.length ≤ WireJson.maxWireDecompressedBytes := by decide +kernel
  have hpeers : livePeerSample (sampleRound sampleQueue now) 1 "10.0.0.1" = ["10.0.0.2"] := by
    show (["10.0.0.2"].filter fun peer => peer ≠ "" ∧ peer ≠ "10.0.0.1").take 1 = _
    decide
  rw [sendBatch, hfilter]
  show Except.ok (if (payload [sampleRaw []]).render.length ≤ WireJson.maxWireDecompressedBytes then
    (livePeerSample (sampleRound sampleQueue now) 1 "10.0.0.1").map _ else _) = _
  rw [if_pos hsize, hpeers]
  rfl

/-- If both messages are due both are marked, and the first is sent. -/
theorem round_sample {last : List (String × Int)} {now : Int}
    (hfirst : isDue last now (sampleHashText []) = true)
    (hsecond : isDue last now (sampleHashText [("a", .int 1)]) = true) :
    sample.round last (sampleRound sampleQueue now) =
      ⟨AssocList.put (sampleHashText [("a", .int 1)]) now (AssocList.put (sampleHashText []) now last),
        [("10.0.0.2", [sampleRaw []])]⟩ := by
  have hsecond' : isDue (AssocList.put (sampleHashText []) now last) now (sampleHashText [("a", .int 1)])
      = true := by
    rw [isDue_put, hsecond, decide_eq_true sampleHashText_ne.symm]
    rfl
  have hscan : sample.scan now sampleQueue ⟨last, [], []⟩ =
      (⟨AssocList.put (sampleHashText [("a", .int 1)]) now (AssocList.put (sampleHashText []) now last),
        sampleQueue, []⟩, none) := by
    rw [sampleQueue, scan, evidenceHash_first]
    dsimp only
    rw [if_pos hfirst, scan, evidenceHash_second]
    dsimp only
    rw [if_pos hsecond', scan, List.nil_append, List.singleton_append]
  have hqueue : ¬ ((sampleRound sampleQueue now).queued = [] ∨ (sampleRound sampleQueue now).peers = []) := by
    rintro (h | h)
    · exact List.cons_ne_nil _ _ h
    · exact List.cons_ne_nil _ _ h
  have hscan' : sample.scan (sampleRound sampleQueue now).now (sampleRound sampleQueue now).queued ⟨last, [], []⟩
      = _ := hscan
  have hnormal : sample.sendBatch (sampleRound sampleQueue now)
      (((sampleRound sampleQueue now).shuffleMessages []).take sample.batchMaxMessages) sample.fanout
        = .ok [] := rfl
  have hcritical : sample.sendBatch (sampleRound sampleQueue now) sampleQueue sample.criticalFanout = _ :=
    sendBatch_sample now
  rw [round, if_neg hqueue, hscan']
  dsimp only
  rw [hcritical]
  dsimp only
  rw [hnormal]
  dsimp only
  rw [List.append_nil]

/-- The messages of the sample are due after five minutes. -/
theorem isDue_of_le {last : List (String × Int)} {now before : Int} {members : List (String × Json)}
    (hlast : AssocList.get? (sampleHashText members) last = some before) (h : 300 ≤ now - before) :
    isDue last now (sampleHashText members) = true :=
  isDue_sample members (by rwa [hlast])

theorem after_first : sample.after [sampleRound sampleQueue 1000] =
    AssocList.put (sampleHashText [("a", .int 1)]) 1000 (AssocList.put (sampleHashText []) 1000 []) := by
  show (sample.round [] _).last = _
  rw [round_sample (isDue_sample _ (by decide)) (isDue_sample _ (by decide))]

theorem eq_of_prefix_singleton {done : List Round} {r x : Round} (h : done ++ [r] <+: [x]) :
    done = [] ∧ r = x := by
  rcases done with _ | ⟨first, done⟩
  · exact ⟨rfl, by simpa using h⟩
  · simp at h

theorem eq_of_prefix_pair {before : List Round} {r x y : Round} (h : before ++ [r] <+: [x, y]) :
    (before = [] ∧ r = x) ∨ (before = [x] ∧ r = y) := by
  rcases before with _ | ⟨first, before⟩
  · exact .inl ⟨rfl, by simpa using h⟩
  · rw [List.cons_append, List.cons_prefix_cons] at h
    obtain ⟨rfl, rfl⟩ := eq_of_prefix_singleton h.2
    exact .inr ⟨by rw [h.1], rfl⟩

/-- Of two messages and batches of one the second is never sent: not in the first round, and not when both are
    due again. -/
theorem not_sound_sample : ¬ sample.Sound [sampleRound sampleQueue 1000, sampleRound sampleQueue 2000] := by
  intro h
  have hsecond : AssocList.get? (sampleHashText [("a", .int 1)])
      (sample.after [sampleRound sampleQueue 1000]) = some 1000 := by
    rw [after_first, AssocList.get?_put, if_pos rfl]
  have hfirst : AssocList.get? (sampleHashText []) (sample.after [sampleRound sampleQueue 1000]) = some 1000 := by
    rw [after_first, AssocList.get?_put, if_neg sampleHashText_ne, AssocList.get?_put, if_pos rfl]
  have hdue₁ : ∀ members, isDue [] 1000 (sampleHashText members) = true :=
    fun members => isDue_sample members (by rw [AssocList.get?]; decide)
  have hdue₂ : isDue (sample.after [sampleRound sampleQueue 1000]) 2000 (sampleHashText [("a", .int 1)]) = true :=
    isDue_of_le hsecond (by decide)
  have hround₁ := round_sample (hdue₁ []) (hdue₁ [("a", .int 1)])
  have hround₂ := round_sample (isDue_of_le hfirst (by decide : (300 : Int) ≤ 2000 - 1000)) hdue₂
  have hevidence : sample.evidence sampleQueue = sampleQueue := by
    rw [sampleQueue, evidence, List.filter_cons_of_pos (by rw [evidenceHash_first]),
      List.filter_cons_of_pos (by rw [evidenceHash_second]), List.filter_nil]
  have hcount : sample.dueRounds [] (sampleHashText [("a", .int 1)])
      [sampleRound sampleQueue 1000, sampleRound sampleQueue 2000] = 2 := by
    have hdue₁' : isDue (sample.after []) (sampleRound sampleQueue 1000).now
        (sampleHashText [("a", .int 1)]) = true := hdue₁ _
    have hdue₂' : isDue (sample.after ([] ++ [sampleRound sampleQueue 1000])) (sampleRound sampleQueue 2000).now
        (sampleHashText [("a", .int 1)]) = true := hdue₂
    rw [dueRounds, if_pos hdue₁', dueRounds, if_pos hdue₂', dueRounds]
  -- in both rounds the batch holds the first message only
  have hnever : ∀ last now, (sample.round last (sampleRound sampleQueue now)).sends
      = [("10.0.0.2", [sampleRaw []])] →
      ¬ sample.Sends last (sampleRound sampleQueue now) (sampleHashText [("a", .int 1)]) := by
    rintro last now hsends ⟨send, hsend, raw, hraw, hhash⟩
    rw [hsends, List.mem_singleton] at hsend
    rw [hsend, List.mem_singleton] at hraw
    rw [hraw, evidenceHash_first] at hhash
    exact sampleHashText_ne (Option.some.inj (Except.ok.inj hhash))
  have hmessages : ∀ r ∈ [sampleRound sampleQueue 1000, sampleRound sampleQueue 2000],
      sample.evidence r.queued = sampleQueue := by
    simp only [List.forall_mem_cons]
    exact ⟨hevidence, hevidence, List.forall_mem_nil _⟩
  obtain ⟨before, r, hbefore, hsends⟩ := h.sent [] _ List.prefix_rfl sampleQueue hmessages
    (sampleRaw [("a", .int 1)]) (List.mem_cons_of_mem _ List.mem_cons_self) _ evidenceHash_second
    (by rw [hcount]; exact le_rfl)
  rcases eq_of_prefix_pair hbefore with ⟨rfl, rfl⟩ | ⟨rfl, rfl⟩
  · exact hnever [] 1000 (congrArg RoundOutcome.sends hround₁) hsends
  · exact hnever _ _ (congrArg RoundOutcome.sends hround₂) hsends

/-- One message is sent. -/
theorem sound_sample : sample.Sound [sampleRound [sampleRaw []] 1000] := by
  refine sound_of_meets fun done r hprefix => ?_
  obtain ⟨rfl, rfl⟩ := eq_of_prefix_singleton hprefix
  have hoverdue : sample.overdue (sample.after []) (sampleRound [sampleRaw []] 1000).now
      (sampleRound [sampleRaw []] 1000).queued = [sampleRaw []] := by
    have hdue : isDue (sample.after []) (sampleRound [sampleRaw []] 1000).now (sampleHashText []) = true :=
      isDue_sample [] (by show (300 : Int) ≤ 1000 - 0; decide)
    show sample.overdue _ _ [sampleRaw []] = _
    rw [overdue, evidenceHash_first]
    dsimp only
    rw [if_pos hdue]
    rfl
  intro _
  rw [hoverdue]
  refine ⟨?_, le_rfl, by decide +kernel, "10.0.0.1", rfl, "10.0.0.2", List.mem_cons_self, by decide, by decide⟩
  intro raw hraw
  rw [List.mem_singleton.1 hraw]
  exact ⟨_, evidenceHash_first⟩

end Rebroadcaster
