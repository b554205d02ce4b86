import InternationalDollar.ConflictPrevalidation
import InternationalDollar.EvidenceRebroadcast
import InternationalDollar.GossipPool
import InternationalDollar.Lib.Threads
import InternationalDollar.PeerRateLimiter
import InternationalDollar.SeenSet
import InternationalDollar.WirePacking
import Mathlib.Algebra.Order.Floor.Defs
import Mathlib.Data.Rat.Floor

set_option autoImplicit false

/-! # Incoming gossip (`node_client`)

A node handles the gossip of its peers in many threads. A handler reads a message, looks it up in the set of recent
messages and hands it to the store, or puts it into one of two queues, from which workers take it; a worker tries
again where the store could not decide yet. Each step that takes a lock, or calls the store, is one action. -/

/-- `PeerPenaltyBook`: a score for each peer, with the time of its last change. -/
structure PeerPenaltyBook where
  threshold : Int
  decaySeconds : Int
  maxEntries : Nat
  scores : List (String × Int × Int)

namespace PeerPenaltyBook

/-- `_trim`. -/
def trim (book : PeerPenaltyBook) : PeerPenaltyBook :=
  { book with
    scores := ((Select.orderBy (fun entry => entry.2.2) book.scores).take
      (book.scores.length - book.maxEntries)).foldl (fun kept entry => AssocList.pop entry.1 kept) book.scores }

/-- `_current`. -/
def current (book : PeerPenaltyBook) (peer : String) (now : Int) : Int × Int :=
  let found := (AssocList.get? peer book.scores).getD (0, now)
  if now - found.2 ≥ book.decaySeconds then (0, now) else found

/-- `penalize`. -/
def penalize (book : PeerPenaltyBook) (peer : String) (now : Int) : PeerPenaltyBook :=
  let score := (book.current peer now).1 + 1
  trim { book with scores := AssocList.put peer (score, now) book.scores }

/-- `allow`. -/
def allow (book : PeerPenaltyBook) (peer : String) (now : Int) : Bool × PeerPenaltyBook :=
  let found := book.current peer now
  (found.1 < book.threshold, trim { book with scores := AssocList.put peer found book.scores })

end PeerPenaltyBook

/-- What `prepare_incoming_gossip` gives for a message that is to be ingested. -/
structure Prepared where
  messageHash : String
  message : Json
  lane : String
  evidenceKey : Option String
  preverified : Bool

/-- `_prepared_seen_keys`. -/
def Prepared.seenKeys (prepared : Prepared) : List String :=
  (prepared.messageHash :: prepared.evidenceKey.toList).filter (· ≠ "")

/-- An exception: a `ValidationError`, a `WireSizeError`, or one that the handlers do not catch. -/
inductive GossipError where
  | validation (text : String)
  | wireSize (text : String)
  | uncaught (text : String)

/-- What `ingest_message` of the store returns. -/
structure IngestResult where
  accepted : Bool
  relay : Bool
  gossipMessages : List Json
  conflictProof : Option Json

/-- The outcome of one `_ingest_prepared_gossip`. -/
inductive IngestOutcome where
  | accepted
  | rejected (error : String)
  | retryable (error : String)

/-- The `status` of a gossip result. -/
inductive GossipStatus where
  | accepted
  | queued
  | duplicate
  | rejected
  | rateLimited
  deriving DecidableEq

/-- A gossip result. -/
structure GossipResult where
  status : GossipStatus
  messageHash : String := ""
  retryAfterSeconds : ℚ := 0
  error : String := ""

/-- What the threads of a node share. The last three fields record what happened: the keys of accepted messages,
    the items that were acknowledged, and those whose ingestion has ended. -/
structure GossipNode (Store : Type) where
  store : Store
  seenGossip : BoundedSeenSet String
  critical : List (String × Prepared)
  gossip : List (String × Prepared)
  buckets : PeerRateLimiter.Buckets
  penalties : PeerPenaltyBook
  gossipPool : GossipPool
  now : ℚ
  accepted : List String
  acknowledged : List (String × Prepared)
  finished : List (String × Prepared)
  relayable : List String

/-- The settings of a node and its store. `validateEnvelope` is `validate_gossip_envelope_shape`, and the store
    ingests a message of a peer. -/
structure GossipHandlers (Store : Type) where
  crypto : Crypto
  zlib : Zlib
  limiter : PeerRateLimiter.Config
  criticalMax : Nat
  gossipMax : Nat
  poolLimit : Int
  transientAttempts : Nat
  transientSeconds : ℚ
  validateEnvelope : Json → Except GossipError Unit
  ingestMessage : String → Prepared → Store → Except String IngestResult × Store

/-- `message.get("type")`. -/
def messageType : Json → Option Json
  | .obj members => AssocList.get? "type" members
  | _ => none

/-- `_high_priority_gossip_type`, for a type that is a text. -/
def highPriorityGossipType (type : Option Json) : Bool :=
  match type with
  | some (.str text) => decide (text ∈ Rebroadcaster.evidenceTypes)
  | _ => false

/-- The markers of `_transient_ingest_error`. -/
def transientMarkers : List String :=
  ["not enough usable transparency root mirrors", "not enough usable current transparency root mirrors",
    "no mirrored transparency root close enough", "mirror is lagging", "mirror has no historical root",
    "static http mirror has no historical root", "current transparency root does not contain v3 transfer",
    "current transparency root does not contain v3 checkpoint", "mirror has no signed roots",
    "consistency check cannot reach"]

/-- `_transient_ingest_error`. -/
def transientIngestError (error : String) : Bool :=
  transientMarkers.any fun marker => decide (marker.toList <:+: (Text.lower error).toList)

/-- `_should_penalize_ingest_error`. -/
def shouldPenalizeIngestError (error : String) : Bool :=
  !transientIngestError error &&
    !decide ("unsupported gossip message type".toList <:+: (Text.lower error).toList)

/-- The messages with which a text on the wire is too large, which are no fault of the peer. -/
def wireSizeTexts : List String :=
  ["wire message is too large", "compressed wire message is too large",
    "wire message expands beyond safety limit"]

/-- A `ValidationError` of the wire format. -/
def GossipError.ofWire (text : String) : GossipError :=
  if text ∈ wireSizeTexts then .wireSize text else .validation text

namespace GossipHandlers

variable {Store : Type} (h : GossipHandlers Store)

/-- A program of one of the threads. -/
abbrev Handling (Store α : Type) : Type := Prog (GossipNode Store) α

/-- `_prevalidate_v3_gossip_envelope`: the evidence key of a conflict proof. A type that is a list or an object
    cannot be looked up in a set. -/
def prevalidate (clock : Int) (members : List (String × Json)) : Except GossipError (Option String) :=
  match AssocList.get? "type" members with
  | some (.arr _) => .error (.uncaught "unhashable type: 'list'")
  | some (.obj _) => .error (.uncaught "unhashable type: 'dict'")
  | some (.str type) =>
      if type = ConflictProofV3.conflictProofType then
        match ConflictProofV3.cheapPrevalidateV3ConflictProof h.crypto (.obj members) clock with
        | .ok key => .ok (some key)
        | .error text => .error (.validation text)
      else if type ∈ ["ind.transparency_root_announcement.v3", "ind.transparency_equivocation_proof.v3",
          "ind.transparency_operator_policy_violation.v3"] then .ok none
      else
        match h.validateEnvelope (.obj members) with
        | .ok _ => .ok none
        | .error e => .error e
  | _ =>
      match h.validateEnvelope (.obj members) with
      | .ok _ => .ok none
      | .error e => .error e

/-- What a raw message is: its members, its evidence key and its hash. -/
def decodeGossip (clock : Int) (raw : String) :
    Except GossipError (List (String × Json) × Option String × String) :=
  match h.zlib.unpackedJson raw with
  | .error text => .error (.ofWire text)
  | .ok (.obj members) =>
      match h.prevalidate clock members with
      | .error e => .error e
      | .ok evidenceKey =>
          match sha3Json h.crypto (.obj members) with
          | .error text => .error (.validation text)
          | .ok messageHash => .ok (members, evidenceKey, messageHash)
  | .ok _ => .error (.validation "malformed gossip message")

/-! ## Actions -/

/-- `key in seen`. -/
def contains (key : String) : Handling Store Bool :=
  Prog.act fun s => (decide (key ∈ s.seenGossip.items), s)

/-- `seen.add(key)`. -/
def addSeen (key : String) : Handling Store Unit :=
  Prog.act fun s => ((), { s with seenGossip := (s.seenGossip.add key).2 })

/-- `seen.discard(key)`. -/
def discardSeen (key : String) : Handling Store Unit :=
  Prog.act fun s => ((), { s with seenGossip := s.seenGossip.discard key })

/-- `for key in seen_keys: seen.add(key)`. -/
def addKeys : List String → Handling Store Unit
  | [] => pure ()
  | key :: rest => do
      addSeen key
      addKeys rest

/-- `for key in seen_keys: seen.discard(key)`. -/
def discardKeys : List String → Handling Store Unit
  | [] => pure ()
  | key :: rest => do
      discardSeen key
      discardKeys rest

/-- The time. -/
def readClock : Handling Store Int :=
  Prog.act fun s => (⌊s.now⌋, s)

/-- `rate_limiter.allow_lane`. -/
def allowLane (peer lane : String) : Handling Store PeerRateLimiter.RateLimitDecision :=
  Prog.act fun s =>
    let checked := PeerRateLimiter.check h.limiter s.buckets ⟨peer, lane, 1, s.now⟩
    (checked.2, { s with buckets := checked.1 })

/-- `penalties.penalize`. -/
def penalize (peer : String) : Handling Store Unit :=
  Prog.act fun s => ((), { s with penalties := s.penalties.penalize peer ⌊s.now⌋ })

/-- `penalties.allow`. -/
def allowPeer (peer : String) : Handling Store Bool :=
  Prog.act fun s =>
    let allowed := s.penalties.allow peer ⌊s.now⌋
    (allowed.1, { s with penalties := allowed.2 })

/-- `append_gossip`. -/
def appendGossip (raw : String) (highPriority : Bool) : Handling Store Unit :=
  Prog.act fun s => ((), { s with
    gossipPool := (s.gossipPool.add h.crypto h.zlib.inflate raw highPriority (some h.poolLimit)).2 })

/-- The messages that an ingestion makes a node send, each with whether it is urgent: the message itself, if it is
    to be relayed, and those that the store returned. -/
def relays (prepared : Prepared) (result : IngestResult) : List (Json × Bool) :=
  (if result.accepted && result.relay then
    [(prepared.message, highPriorityGossipType (messageType prepared.message))] else []) ++
    result.gossipMessages.map (fun message => (message, highPriorityGossipType (messageType message))) ++
    result.conflictProof.toList.map fun proof => (proof, true)

/-- `store.ingest_message`, and what it records. -/
def ingestMessageOf (peer : String) (prepared : Prepared) : Handling Store (Except String IngestResult) :=
  Prog.act fun s =>
    let ingested := h.ingestMessage peer prepared s.store
    (ingested.1, { s with
      store := ingested.2
      accepted :=
        match ingested.1 with
        | .ok result => if result.accepted then prepared.seenKeys ++ s.accepted else s.accepted
        | .error _ => s.accepted
      relayable :=
        match ingested.1 with
        | .ok result => (relays prepared result).filterMap (fun e => (h.zlib.packedJson e.1).toOption) ++ s.relayable
        | .error _ => s.relayable })

/-- The appends of `_ingest_prepared_gossip` and `queue_store_result_gossip`. A message that cannot be packed ends
    them with an exception. -/
def appendAll : List (Json × Bool) → Handling Store (Except GossipError Unit)
  | [] => pure (.ok ())
  | (message, highPriority) :: rest =>
      match h.zlib.packedJson message with
      | .error text => pure (.error (.ofWire text))
      | .ok raw => do
          h.appendGossip raw highPriority
          appendAll rest

/-! ## Ingestion -/

/-- `_ingest_prepared_gossip`. -/
def ingestPreparedGossip (peer : String) (prepared : Prepared) (keepSeenOnRetry : Bool) :
    Handling Store (Except GossipError IngestOutcome) := do
  let ingested ← h.ingestMessageOf peer prepared
  match ingested with
  | .error error =>
      if transientIngestError error then
        if keepSeenOnRetry then addKeys prepared.seenKeys else discardKeys prepared.seenKeys
        pure (.ok (.retryable error))
      else
        if shouldPenalizeIngestError error then penalize peer
        discardKeys prepared.seenKeys
        pure (.ok (.rejected error))
  | .ok result =>
      if result.accepted then addKeys prepared.seenKeys else discardKeys prepared.seenKeys
      match ← h.appendAll (relays prepared result) with
      | .error e => pure (.error e)
      | .ok _ => pure (.ok (if result.accepted then .accepted else .rejected ""))

/-- The attempts of `_ingest_prepared_gossip_with_transient_retry`. -/
def retryIngest (peer : String) (prepared : Prepared) (last : IngestOutcome) :
    Nat → Handling Store (Except GossipError IngestOutcome)
  | 0 => do
      discardKeys prepared.seenKeys
      pure (.ok last)
  | attempts + 1 => do
      match ← h.ingestPreparedGossip peer prepared (attempts ≠ 0) with
      | .ok (.retryable error) => retryIngest peer prepared (.retryable error) attempts
      | result => pure result

/-- `_ingest_prepared_gossip_with_transient_retry`. -/
def ingestWithTransientRetry (peer : String) (prepared : Prepared) :
    Handling Store (Except GossipError IngestOutcome) :=
  h.retryIngest peer prepared (.rejected "") (max 1 h.transientAttempts)

/-- A worker with an item that it took from a queue, up to `task_done`. -/
def work (item : String × Prepared) : Handling Store Unit := do
  let _ ← h.ingestWithTransientRetry item.1 item.2
  Prog.act fun s => ((), { s with finished := item :: s.finished })

/-! ## Handlers -/

/-- `put_nowait` into the queue of a lane. -/
def putNowait (item : String × Prepared) : Handling Store Bool :=
  Prog.act fun s =>
    if item.2.lane = "critical" then
      if s.critical.length < h.criticalMax then
        (true, { s with critical := s.critical ++ [item], acknowledged := item :: s.acknowledged })
      else (false, s)
    else
      if s.gossip.length < h.gossipMax then
        (true, { s with gossip := s.gossip ++ [item], acknowledged := item :: s.acknowledged })
      else (false, s)

/-- The delay that a full queue asks for. -/
def queueDelay (lane : String) : Handling Store ℚ :=
  Prog.act fun s =>
    let (size, maxsize) := if lane = "critical" then (s.critical.length, h.criticalMax)
      else (s.gossip.length, h.gossipMax)
    (max 1 (min 30 (1 + (size : ℚ) / (maxsize : ℚ) * 10)), s)

/-- `GossipIngestQueue.enqueue`. -/
def enqueue (peer : String) (prepared : Prepared) : Handling Store PeerRateLimiter.RateLimitDecision := do
  addKeys prepared.seenKeys
  if ← h.putNowait (peer, prepared) then
    pure ⟨true, 0⟩
  else do
    discardKeys prepared.seenKeys
    let delay ← h.queueDelay prepared.lane
    pure ⟨false, delay⟩

/-- What `prepare_incoming_gossip` returns. -/
inductive Preparation where
  | ready (prepared : Prepared)
  | duplicate (messageHash : String)
  | rateLimited (messageHash : String) (retryAfterSeconds : ℚ)

/-- `prepare_incoming_gossip`. -/
def prepareIncomingGossip (peer raw : String) : Handling Store (Except GossipError Preparation) := do
  let clock ← readClock
  match h.decodeGossip clock raw with
  | .error e => pure (.error e)
  | .ok (members, evidenceKey, messageHash) =>
      if ← contains messageHash then pure (.ok (.duplicate messageHash))
      else
        match evidenceKey with
        | some key =>
            if ← contains key then pure (.ok (.duplicate messageHash))
            else do
              let decision ← h.allowLane peer "evidence"
              if decision.allowed then do
                let clock ← readClock
                match ConflictProofV3.verifyMessage h.crypto (.obj members) clock with
                | .error text => pure (.error (.validation text))
                | .ok _ => pure (.ok (.ready ⟨messageHash, .obj members, "critical", some key, true⟩))
              else pure (.ok (.rateLimited messageHash decision.retryAfterSeconds))
        | none => do
            let lane := if highPriorityGossipType (AssocList.get? "type" members) then "critical" else "gossip"
            let decision ← h.allowLane peer lane
            if decision.allowed then pure (.ok (.ready ⟨messageHash, .obj members, lane, none, false⟩))
            else pure (.ok (.rateLimited messageHash decision.retryAfterSeconds))

/-- What a handler does with a malformed message. -/
def rejectMalformed (peer error : String) (penalized : Bool) : Handling Store (Except GossipError GossipResult) := do
  if penalized then penalize peer
  let decision ← h.allowLane peer "invalid"
  pure (.ok (if decision.allowed then { status := .rejected, error }
    else { status := .rateLimited, retryAfterSeconds := decision.retryAfterSeconds }))

/-- What a handler answers after it ingested a message itself. -/
def syncResult (messageHash : String) : IngestOutcome → GossipResult
  | .retryable error =>
      { status := .rateLimited, messageHash, retryAfterSeconds := max 1 h.transientSeconds, error }
  | .accepted => { status := .accepted, messageHash }
  | .rejected _ => { status := .rejected, messageHash }

/-- What a handler does with a message that is ready: a conflict proof is ingested, the others are queued. -/
def handlePrepared (peer : String) (prepared : Prepared) : Handling Store (Except GossipError GossipResult) := do
  let allowed ← allowPeer peer
  if !allowed && !highPriorityGossipType (messageType prepared.message) then
    pure (.ok { status := .rateLimited, retryAfterSeconds := 1 })
  else if messageType prepared.message = some (.str ConflictProofV3.conflictProofType) then do
    match ← h.ingestPreparedGossip peer prepared false with
    | .error e => pure (.error e)
    | .ok outcome => pure (.ok (h.syncResult prepared.messageHash outcome))
  else do
    let decision ← h.enqueue peer prepared
    if decision.allowed then pure (.ok { status := .queued, messageHash := prepared.messageHash })
    else
      pure (.ok { status := .rateLimited, messageHash := prepared.messageHash,
                  retryAfterSeconds := decision.retryAfterSeconds })

/-- `_incoming_gossip_result` with a queue. -/
def incomingGossipResult (peer raw : String) : Handling Store (Except GossipError GossipResult) := do
  match ← h.prepareIncomingGossip peer raw with
  | .error (.uncaught text) => pure (.error (.uncaught text))
  | .error (.validation text) => h.rejectMalformed peer text true
  | .error (.wireSize text) => h.rejectMalformed peer text false
  | .ok (.duplicate messageHash) => pure (.ok { status := .duplicate, messageHash })
  | .ok (.rateLimited messageHash retryAfterSeconds) =>
      pure (.ok { status := .rateLimited, messageHash, retryAfterSeconds })
  | .ok (.ready prepared) => h.handlePrepared peer prepared

/-- The messages of a batch one after another, as in `handle_incoming_gossip_batch`, up to an exception. -/
def handleBatch (peer : String) : List String → Handling Store (Except GossipError (List GossipResult))
  | [] => pure (.ok [])
  | raw :: rest => do
      match ← h.incomingGossipResult peer raw with
      | .error e => pure (.error e)
      | .ok result =>
          match ← handleBatch peer rest with
          | .error e => pure (.error e)
          | .ok results => pure (.ok (result :: results))

end GossipHandlers
