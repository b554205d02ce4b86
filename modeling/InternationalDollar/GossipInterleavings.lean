import InternationalDollar.GossipIngest

set_option autoImplicit false

/-! # What the set of recent messages means

A handler marks a message as seen before it queues it, and takes the mark back where the message is not accepted.
Another thread may mark the same message between the two. `Contained` says what is true at every point all the
same: a message is marked only while some thread is responsible for it, or since the store accepted it; what was
acknowledged is not lost; and a node relays only what its store accepted or made. -/

theorem BoundedSeenSet.mem_evict {α : Type} [DecidableEq α] {limit : Int} {order : List α} {items : Finset α} {x : α}
    (h : x ∈ (evict limit order items).2.1) : x ∈ items := by
  induction order generalizing items with
  | nil => simpa [evict] using h
  | cons first rest ih =>
    unfold evict at h
    split at h
    · exact Finset.mem_of_mem_erase (ih h)
    · exact h

/-- An add puts nothing else into the set. -/
theorem BoundedSeenSet.mem_of_mem_add {α : Type} [DecidableEq α] {s : BoundedSeenSet α} {value x : α}
    (h : x ∈ (s.add value).2.items) : x = value ∨ x ∈ s.items := by
  unfold BoundedSeenSet.add at h
  split at h
  · exact .inr h
  · have hevict : x ∈ (evict s.limit (s.order ++ [value]) (insert value s.items)).2.1 := by
      generalize evict s.limit (s.order ++ [value]) (insert value s.items) = e at h
      obtain ⟨_ | _, items, order⟩ := e <;> exact h
    exact Finset.mem_insert.1 (mem_evict hevict)

namespace GossipPool

variable {crypto : Crypto} {inflate : Bytes → Option Bytes} {p : GossipPool} {e : GossipEntry}

theorem mem_of_mem_popped {highPriority : Bool} {items rest : List GossipEntry} {removed : GossipEntry}
    (h : popped highPriority items = some (removed, rest)) (he : e ∈ rest) : e ∈ items := by
  unfold popped at h
  split at h
  · simp only [Option.map_eq_some_iff, Prod.mk.injEq] at h
    obtain ⟨_, -, -, rfl⟩ := h
    exact List.mem_of_mem_dropLast he
  · cases items with
    | nil => cases h
    | cons first tail =>
      obtain ⟨-, rfl⟩ := Prod.mk.inj (Option.some.inj h)
      exact List.mem_cons_of_mem _ he

theorem mem_trimLoop {highPriority : Bool} {limit : Int} {n : Nat}
    (h : e ∈ (trimLoop crypto inflate highPriority limit n p).2.items) : e ∈ p.items := by
  induction n generalizing p with
  | zero => exact h
  | succ n ih =>
    unfold trimLoop at h
    split at h
    · split at h
      · exact h
      · next removed rest hpopped => exact mem_of_mem_popped hpopped (ih h)
    · exact h

/-- An add puts no other message into the pool. -/
theorem mem_of_mem_add {raw : String} {highPriority : Bool} {limit : Option Int}
    (h : e ∈ (p.add crypto inflate raw highPriority limit).2.items) : e.raw = raw ∨ e ∈ p.items := by
  unfold GossipPool.add at h
  dsimp only at h
  split at h
  · exact .inr h
  · have htrim : e ∈ (trimLocked crypto inflate highPriority limit
        (p.insertEntry (entryForRaw crypto inflate raw highPriority) highPriority)).2.items := by
      generalize trimLocked crypto inflate highPriority limit _ = r at h
      obtain ⟨_ | _, q⟩ := r <;> exact h
    have hinsert := mem_trimLoop htrim
    unfold insertEntry at hinsert
    dsimp only at hinsert
    have hcases : e = entryForRaw crypto inflate raw highPriority ∨ e ∈ p.items := by
      split at hinsert <;> simpa [or_comm] using hinsert
    exact hcases.imp_left fun he => congrArg GossipEntry.raw he

end GossipPool

namespace GossipHandlers

open Prog

variable {Store : Type} {h : GossipHandlers Store}

/-! ## Tokens -/

/-- What a thread answers for or knows: a key of the set of recent messages, an item of a queue that it ingests,
    that a key is of an accepted message, that a message may be relayed. -/
inductive Token where
  | key (text : String)
  | job (item : String × Prepared)
  | known (text : String)
  | relay (raw : String)

/-- What waits in the two queues. -/
def waiting (s : GossipNode Store) : List (String × Prepared) :=
  s.critical ++ s.gossip

/-- What holds of the shared state for the tokens that the threads hold. -/
structure Sound (s : GossipNode Store) (held : Set Token) : Prop where
  unpoisoned : ∀ key ∈ s.seenGossip.items,
    key ∈ s.accepted ∨ .key key ∈ held ∨ ∃ item ∈ waiting s, key ∈ item.2.seenKeys
  kept : ∀ item ∈ s.acknowledged, item ∈ waiting s ∨ .job item ∈ held ∨ item ∈ s.finished
  known : ∀ key, .known key ∈ held → key ∈ s.accepted
  relay : ∀ raw, .relay raw ∈ held → raw ∈ s.relayable
  pool : ∀ e ∈ s.gossipPool.items, e.raw ∈ s.relayable

variable {s u : GossipNode Store} {held kept allowed : Set Token} {keys : List String} {peer raw : String}
  {prepared : Prepared}

/-- The tokens of some keys. -/
def keyTokens (keys : List String) : Set Token :=
  {t | ∃ key ∈ keys, t = .key key}

/-- A thread may take more to answer for, and may forget what it knows. -/
theorem Sound.trade (hs : Sound s held) (hkey : ∀ key, .key key ∈ held → .key key ∈ kept ∨ key ∈ s.accepted)
    (hjob : ∀ item, .job item ∈ held → .job item ∈ kept)
    (hknown : ∀ key, .known key ∈ kept → .known key ∈ held)
    (hrelay : ∀ raw, .relay raw ∈ kept → .relay raw ∈ held) : Sound s kept where
  unpoisoned key hitem := by
    rcases hs.unpoisoned key hitem with haccepted | hheld | hwaiting
    · exact .inl haccepted
    · exact (hkey key hheld).elim (fun hkept => .inr (.inl hkept)) .inl
    · exact .inr (.inr hwaiting)
  kept item hitem := (hs.kept item hitem).imp_right (Or.imp_left (hjob item))
  known key hheld := hs.known key (hknown key hheld)
  relay raw hheld := hs.relay raw (hrelay raw hheld)
  pool := hs.pool

/-- An action that touches nothing that the tokens are about. -/
theorem Sound.frame (hs : Sound s held) (hseen : u.seenGossip.items ⊆ s.seenGossip.items)
    (hwaiting : waiting u = waiting s) (haccepted : u.accepted = s.accepted)
    (hacknowledged : u.acknowledged = s.acknowledged) (hfinished : u.finished = s.finished)
    (hrelayable : u.relayable = s.relayable) (hpool : u.gossipPool = s.gossipPool) : Sound u held where
  unpoisoned key hitem := by
    rw [hwaiting, haccepted]
    exact hs.unpoisoned key (hseen hitem)
  kept item hitem := by
    rw [hwaiting, hfinished]
    exact hs.kept item (hacknowledged ▸ hitem)
  known key hheld := haccepted ▸ hs.known key hheld
  relay raw hheld := hrelayable ▸ hs.relay raw hheld
  pool e he := hrelayable ▸ hs.pool e (hpool ▸ he)

/-! ## Actions -/

theorem keeps_frame {α : Type} {f : GossipNode Store → α × GossipNode Store} (hheld : held ⊆ allowed)
    (hf : ∀ s tokens, Sound s tokens → Sound (f s).2 tokens) :
    (Prog.act f).Keeps Sound allowed held fun _ kept => kept = held :=
  Keeps.act fun s _ hs => ⟨held, hheld, hf s _ hs, rfl⟩

theorem keeps_readClock (hheld : held ⊆ allowed) :
    (readClock : Handling Store Int).Keeps Sound allowed held fun _ kept => kept = held :=
  keeps_frame hheld fun _ _ hs => hs

theorem keeps_contains (key : String) (hheld : held ⊆ allowed) :
    (contains key : Handling Store Bool).Keeps Sound allowed held fun _ kept => kept = held :=
  keeps_frame hheld fun _ _ hs => hs

theorem keeps_allowLane (peer lane : String) (hheld : held ⊆ allowed) :
    (h.allowLane peer lane).Keeps Sound allowed held fun _ kept => kept = held :=
  keeps_frame hheld fun _ _ hs => hs.frame (Finset.Subset.refl _) rfl rfl rfl rfl rfl rfl

theorem keeps_penalize (peer : String) (hheld : held ⊆ allowed) :
    (penalize peer : Handling Store Unit).Keeps Sound allowed held fun _ kept => kept = held :=
  keeps_frame hheld fun _ _ hs => hs.frame (Finset.Subset.refl _) rfl rfl rfl rfl rfl rfl

theorem keeps_allowPeer (peer : String) (hheld : held ⊆ allowed) :
    (allowPeer peer : Handling Store Bool).Keeps Sound allowed held fun _ kept => kept = held :=
  keeps_frame hheld fun _ _ hs => hs.frame (Finset.Subset.refl _) rfl rfl rfl rfl rfl rfl

theorem keeps_queueDelay (lane : String) (hheld : held ⊆ allowed) :
    (h.queueDelay lane).Keeps Sound allowed held fun _ kept => kept = held :=
  keeps_frame hheld fun _ _ hs => hs

theorem keyTokens_cons (key : String) (rest : List String) :
    keyTokens (key :: rest) = {.key key} ∪ keyTokens rest := by
  ext t
  simp [keyTokens]

theorem keyTokens_nil : keyTokens [] = ∅ := by
  ext t
  simp [keyTokens]

/-- Who marks a message answers for it. -/
theorem keeps_addSeen {key : String} (hallowed : held ∪ {.key key} ⊆ allowed) :
    (addSeen key : Handling Store Unit).Keeps Sound allowed held fun _ kept => kept = held ∪ {.key key} := by
  refine Keeps.act fun s others hs => ⟨_, hallowed, ?_, rfl⟩
  rw [← Set.union_assoc]
  refine ⟨fun x hx => ?_, fun item hitem => ?_, fun x hx => ?_, fun raw hraw => ?_, hs.pool⟩
  · rcases BoundedSeenSet.mem_of_mem_add hx with rfl | hx
    · exact .inr (.inl (.inr rfl))
    · exact (hs.unpoisoned x hx).imp_right (Or.imp_left .inl)
  · exact (hs.kept item hitem).imp_right (Or.imp_left .inl)
  · exact hs.known x (hx.resolve_right (by simp))
  · exact hs.relay raw (hraw.resolve_right (by simp))

theorem keeps_addKeys (hallowed : held ∪ keyTokens keys ⊆ allowed) :
    (addKeys keys : Handling Store Unit).Keeps Sound allowed held fun _ kept => kept = held ∪ keyTokens keys := by
  induction keys generalizing held with
  | nil => exact Keeps.pure (by rw [keyTokens_nil, Set.union_empty])
  | cons key rest ih =>
    rw [keyTokens_cons, ← Set.union_assoc] at hallowed ⊢
    refine Keeps.bind (keeps_addSeen (Set.subset_union_left.trans hallowed)) ?_
    rintro ⟨⟩ _ rfl
    exact ih hallowed

/-- A message that the store accepted may be marked by anyone. -/
theorem keeps_addSeen_known {key : String} (hheld : held ⊆ allowed) (hknown : .known key ∈ held) :
    (addSeen key : Handling Store Unit).Keeps Sound allowed held fun _ kept => kept = held := by
  refine Keeps.act fun s others hs => ⟨held, hheld, ?_, rfl⟩
  refine ⟨fun x hx => ?_, hs.kept, hs.known, hs.relay, hs.pool⟩
  rcases BoundedSeenSet.mem_of_mem_add hx with rfl | hx
  · exact .inl (hs.known x (.inr hknown))
  · exact hs.unpoisoned x hx

theorem keeps_addKeys_known (hheld : held ⊆ allowed) (hknown : ∀ key ∈ keys, .known key ∈ held) :
    (addKeys keys : Handling Store Unit).Keeps Sound allowed held fun _ kept => kept = held := by
  induction keys with
  | nil => exact Keeps.pure rfl
  | cons key rest ih =>
    refine Keeps.bind (keeps_addSeen_known hheld (hknown key List.mem_cons_self)) ?_
    rintro ⟨⟩ _ rfl
    exact ih fun key hkey => hknown key (List.mem_cons_of_mem _ hkey)

/-- Who takes the mark of a message back answers for it no longer. -/
theorem keeps_discardSeen {key : String} (hheld : held ⊆ allowed) :
    (discardSeen key : Handling Store Unit).Keeps Sound allowed (held ∪ {.key key}) fun _ kept => kept = held := by
  refine Keeps.act fun s others hs => ⟨held, hheld, ?_, rfl⟩
  rw [← Set.union_assoc] at hs
  refine ⟨fun x hx => ?_, fun item hitem => ?_, fun x hx => hs.known x (.inl hx),
    fun raw hraw => hs.relay raw (.inl hraw), hs.pool⟩
  · obtain ⟨hne, hx⟩ := Finset.mem_erase.1 hx
    refine (hs.unpoisoned x hx).imp_right (Or.imp_left fun hmem => hmem.resolve_right ?_)
    rintro ⟨⟩
    exact hne rfl
  · exact (hs.kept item hitem).imp_right (Or.imp_left fun hmem => hmem.resolve_right (by simp))

theorem keeps_discardKeys (hallowed : held ∪ keyTokens keys ⊆ allowed) :
    (discardKeys keys : Handling Store Unit).Keeps Sound allowed (held ∪ keyTokens keys)
      fun _ kept => kept = held := by
  induction keys with
  | nil => exact Keeps.pure (by rw [keyTokens_nil, Set.union_empty])
  | cons key rest ih =>
    rw [keyTokens_cons] at hallowed ⊢
    rw [Set.union_comm {Token.key key}, ← Set.union_assoc] at hallowed ⊢
    refine Keeps.bind (keeps_discardSeen (Set.subset_union_left.trans hallowed)) ?_
    rintro ⟨⟩ _ rfl
    exact ih (Set.subset_union_left.trans hallowed)

/-! ## Ingestion -/

/-- What a thread knows of keys that the store accepted. -/
def knownTokens (keys : List String) : Set Token :=
  {t | ∃ key ∈ keys, t = .known key}

/-- What a thread knows of messages that it may send. -/
def relayTokens (h : GossipHandlers Store) (messages : List (Json × Bool)) : Set Token :=
  {t | ∃ e ∈ messages, ∃ raw, h.zlib.packedJson e.1 = .ok raw ∧ t = .relay raw}

/-- What a thread may hold that works on messages with some keys, and on some items. -/
def workTokens (keys : Set String) (items : Set (String × Prepared)) : Set Token :=
  {t | match t with
    | .key key => key ∈ keys
    | .job item => item ∈ items
    | .known _ => True
    | .relay _ => True}

variable {base : Set Token} {ownKeys : Set String} {ownItems : Set (String × Prepared)}

theorem keyTokens_subset (hkeys : ∀ key ∈ keys, key ∈ ownKeys) : keyTokens keys ⊆ workTokens ownKeys ownItems := by
  rintro _ ⟨key, hkey, rfl⟩
  exact hkeys key hkey

theorem knownTokens_subset (keys : List String) : knownTokens keys ⊆ workTokens ownKeys ownItems := by
  rintro _ ⟨key, hkey, rfl⟩
  trivial

theorem relayTokens_subset (messages : List (Json × Bool)) :
    h.relayTokens messages ⊆ workTokens ownKeys ownItems := by
  rintro _ ⟨e, he, raw, hraw, rfl⟩
  trivial

/-- A message that an ingestion released may be sent. -/
theorem keeps_appendGossip {raw : String} (highPriority : Bool) (hheld : held ⊆ allowed) (hrelay : .relay raw ∈ held) :
    (h.appendGossip raw highPriority).Keeps Sound allowed held fun _ kept => kept = held := by
  refine Keeps.act fun s others hs => ⟨held, hheld, ?_, rfl⟩
  refine ⟨hs.unpoisoned, hs.kept, hs.known, hs.relay, fun e he => ?_⟩
  rcases GossipPool.mem_of_mem_add he with heq | he
  · rw [heq]
    exact hs.relay raw (.inr hrelay)
  · exact hs.pool e he

theorem keeps_appendAll {messages : List (Json × Bool)} (hheld : held ⊆ allowed)
    (hrelay : h.relayTokens messages ⊆ held) :
    (h.appendAll messages).Keeps Sound allowed held fun _ kept => kept = held := by
  induction messages with
  | nil => exact Keeps.pure rfl
  | cons e rest ih =>
    obtain ⟨message, highPriority⟩ := e
    unfold appendAll
    cases hraw : h.zlib.packedJson message with
    | error text => exact Keeps.pure rfl
    | ok raw =>
      refine Keeps.bind (keeps_appendGossip highPriority hheld
        (hrelay ⟨_, List.mem_cons_self, raw, hraw, rfl⟩)) ?_
      rintro ⟨⟩ _ rfl
      refine ih fun t ht => hrelay ?_
      obtain ⟨e, he, hmore⟩ := ht
      exact ⟨e, List.mem_cons_of_mem _ he, hmore⟩

/-- The call of the store. -/
theorem keeps_ingestMessageOf (hbase : base ⊆ workTokens ownKeys ownItems)
    (hkeys : ∀ key ∈ prepared.seenKeys, key ∈ ownKeys) :
    (h.ingestMessageOf peer prepared).Keeps Sound (workTokens ownKeys ownItems)
      (base ∪ keyTokens prepared.seenKeys) fun ingested kept =>
        match ingested with
        | .error _ => kept = base ∪ keyTokens prepared.seenKeys
        | .ok result => kept = (base ∪ h.relayTokens (relays prepared result)) ∪
            if result.accepted then knownTokens prepared.seenKeys else keyTokens prepared.seenKeys := by
  refine Keeps.act fun s others hs => ?_
  dsimp only
  have hown : base ∪ keyTokens prepared.seenKeys ⊆ workTokens ownKeys ownItems :=
    Set.union_subset hbase (keyTokens_subset hkeys)
  cases hingest : (h.ingestMessage peer prepared s.store).1 with
  | error text => exact ⟨_, hown, ⟨hs.unpoisoned, hs.kept, hs.known, hs.relay, hs.pool⟩, rfl⟩
  | ok result =>
    refine ⟨_, ?_, ⟨fun key hkey => ?_, fun item hitem => ?_, fun key hkey => ?_, fun raw hraw => ?_,
      fun e he => List.mem_append_right _ (hs.pool e he)⟩, rfl⟩
    · refine Set.union_subset (Set.union_subset hbase (relayTokens_subset _)) ?_
      split
      · exact knownTokens_subset _
      · exact keyTokens_subset hkeys
    · dsimp only
      rcases hs.unpoisoned key hkey with haccepted | (hothers | hheld | hown) | hwaiting
      · refine .inl ?_
        split
        · exact List.mem_append_right _ haccepted
        · exact haccepted
      · exact .inr (.inl (.inl hothers))
      · exact .inr (.inl (.inr (.inl (.inl hheld))))
      · by_cases haccept : result.accepted = true
        · obtain ⟨key', hkey', heq⟩ := hown
          cases heq
          refine .inl ?_
          rw [if_pos haccept]
          exact List.mem_append_left _ hkey'
        · refine .inr (.inl (.inr (.inr ?_)))
          rw [if_neg haccept]
          exact hown
      · exact .inr (.inr hwaiting)
    · refine (hs.kept item hitem).imp_right (Or.imp_left ?_)
      rintro (hothers | hheld | ⟨_, -, heq⟩)
      · exact .inl hothers
      · exact .inr (.inl (.inl hheld))
      · cases heq
    · dsimp only
      have hold : .known key ∈ others ∪ base → key ∈ s.accepted := by
        rintro (hothers | hheld)
        · exact hs.known key (.inl hothers)
        · exact hs.known key (.inr (.inl hheld))
      split
      · next haccept =>
        rw [if_pos haccept] at hkey
        rcases hkey with hothers | (hheld | ⟨_, -, _, -, heq⟩) | ⟨key', hkey', heq⟩
        · exact List.mem_append_right _ (hold (.inl hothers))
        · exact List.mem_append_right _ (hold (.inr hheld))
        · cases heq
        · cases heq
          exact List.mem_append_left _ hkey'
      · next haccept =>
        rw [if_neg haccept] at hkey
        rcases hkey with hothers | (hheld | ⟨_, -, _, -, heq⟩) | ⟨_, -, heq⟩
        · exact hold (.inl hothers)
        · exact hold (.inr hheld)
        · cases heq
        · cases heq
    · rcases hraw with hothers | (hheld | ⟨e, he, _, hpacked, heq⟩) | hrest
      · exact List.mem_append_right _ (hs.relay raw (.inl hothers))
      · exact List.mem_append_right _ (hs.relay raw (.inr (.inl hheld)))
      · cases heq
        refine List.mem_append_left _ (List.mem_filterMap.2 ⟨e, he, ?_⟩)
        rw [hpacked]
        rfl
      · split at hrest
        · obtain ⟨_, -, heq⟩ := hrest
          cases heq
        · obtain ⟨_, -, heq⟩ := hrest
          cases heq

/-- Whoever takes on a message for which the store answers. -/
theorem trades_of_knowledge {tokens : Set Token}
    (htokens : ∀ t ∈ tokens, (∃ key, t = .known key) ∨ ∃ raw, t = .relay raw) :
    Trades (@Sound Store) (base ∪ tokens) base := by
  intro s others hs
  refine hs.trade (fun key hkey => ?_) (fun item hitem => ?_) (fun key hkey => ?_) fun raw hraw => ?_
  · rcases hkey with hothers | hheld | htoken
    · exact .inl (.inl hothers)
    · exact .inl (.inr hheld)
    · rcases htokens _ htoken with ⟨_, heq⟩ | ⟨_, heq⟩ <;> cases heq
  · rcases hitem with hothers | hheld | htoken
    · exact .inl hothers
    · exact .inr hheld
    · rcases htokens _ htoken with ⟨_, heq⟩ | ⟨_, heq⟩ <;> cases heq
  · exact hkey.imp_right .inl
  · exact hraw.imp_right .inl

/-- Anyone may answer for a message. -/
theorem trades_take (tokens : List String) :
    Trades (@Sound Store) base (base ∪ keyTokens tokens) := by
  intro s others hs
  refine hs.trade (fun key hkey => .inl (hkey.imp_right .inl)) (fun item hitem => hitem.imp_right .inl) ?_ ?_
  · rintro key (hothers | hheld | ⟨_, -, heq⟩)
    · exact .inl hothers
    · exact .inr hheld
    · cases heq
  · rintro raw (hothers | hheld | ⟨_, -, heq⟩)
    · exact .inl hothers
    · exact .inr hheld
    · cases heq

/-- **One ingestion.** Where it is to be repeated, the thread may go on answering for the message. -/
theorem keeps_ingestPreparedGossip (hbase : base ⊆ workTokens ownKeys ownItems)
    (hkeys : ∀ key ∈ prepared.seenKeys, key ∈ ownKeys) (keep : Bool) :
    (h.ingestPreparedGossip peer prepared keep).Keeps Sound (workTokens ownKeys ownItems)
      (base ∪ keyTokens prepared.seenKeys) fun outcome kept =>
        match outcome with
        | .ok (.retryable _) => kept = if keep then base ∪ keyTokens prepared.seenKeys else base
        | _ => kept = base := by
  have hown : base ∪ keyTokens prepared.seenKeys ⊆ workTokens ownKeys ownItems :=
    Set.union_subset hbase (keyTokens_subset hkeys)
  refine Keeps.bind (keeps_ingestMessageOf hbase hkeys) fun ingested kept hkept => ?_
  cases ingested with
  | error error =>
    obtain rfl := hkept
    dsimp only
    split
    · cases keep with
      | true =>
        refine Keeps.bind (keeps_addKeys ?_) ?_
        · rwa [Set.union_assoc, Set.union_self]
        · rintro ⟨⟩ _ rfl
          refine Keeps.pure ?_
          simp [Set.union_assoc]
      | false =>
        refine Keeps.bind (keeps_discardKeys hown) ?_
        rintro ⟨⟩ _ rfl
        exact Keeps.pure rfl
    · have hreject : (discardKeys prepared.seenKeys >>= fun _ =>
          pure (.ok (.rejected error)) : Handling Store (Except GossipError IngestOutcome)).Keeps Sound
          (workTokens ownKeys ownItems) (base ∪ keyTokens prepared.seenKeys) fun outcome kept =>
            match outcome with
            | .ok (.retryable _) => kept = if keep then base ∪ keyTokens prepared.seenKeys else base
            | _ => kept = base := by
        refine Keeps.bind (keeps_discardKeys hown) ?_
        rintro ⟨⟩ _ rfl
        exact Keeps.pure rfl
      split
      · refine Keeps.bind (keeps_penalize peer hown) ?_
        rintro ⟨⟩ _ rfl
        exact hreject
      · exact hreject
  | ok result =>
    obtain rfl := hkept
    have hrelay : h.relayTokens (relays prepared result) ⊆ workTokens ownKeys ownItems := relayTokens_subset _
    dsimp only
    split
    · next haccept =>
      -- The keys are those of an accepted message, so the thread does not answer for them any longer.
      have hheld : base ∪ h.relayTokens (relays prepared result) ∪ knownTokens prepared.seenKeys ⊆
          workTokens ownKeys ownItems :=
        Set.union_subset (Set.union_subset hbase hrelay) (knownTokens_subset _)
      refine Keeps.bind (keeps_addKeys_known hheld fun key hkey => .inr ⟨key, hkey, rfl⟩) ?_
      rintro ⟨⟩ _ rfl
      refine Keeps.bind (keeps_appendAll hheld fun t ht => .inl (.inr ht)) ?_
      rintro sent _ rfl
      have htrades : Trades (@Sound Store)
          (base ∪ h.relayTokens (relays prepared result) ∪ knownTokens prepared.seenKeys) base := by
        rw [Set.union_assoc]
        refine trades_of_knowledge ?_
        rintro t (⟨_, -, raw, -, rfl⟩ | ⟨key, -, rfl⟩)
        · exact .inr ⟨raw, rfl⟩
        · exact .inl ⟨key, rfl⟩
      cases sent with
      | error e => exact ⟨base, htrades, rfl⟩
      | ok _ => exact ⟨base, htrades, rfl⟩
    · next haccept =>
      have hheld := Set.union_subset hbase hrelay
      refine Keeps.bind (keeps_discardKeys (Set.union_subset hheld (keyTokens_subset hkeys))) ?_
      rintro ⟨⟩ _ rfl
      refine Keeps.bind (keeps_appendAll hheld fun t ht => .inr ht) ?_
      rintro sent _ rfl
      have htrades : Trades (@Sound Store) (base ∪ h.relayTokens (relays prepared result)) base := by
        refine trades_of_knowledge ?_
        rintro t ⟨_, -, raw, -, rfl⟩
        exact .inr ⟨raw, rfl⟩
      cases sent with
      | error e => exact ⟨base, htrades, rfl⟩
      | ok _ => exact ⟨base, htrades, rfl⟩

/-- The attempts of a thread, which answers for its message while another one is to come. -/
theorem keeps_retryIngest (hbase : base ⊆ workTokens ownKeys ownItems)
    (hkeys : ∀ key ∈ prepared.seenKeys, key ∈ ownKeys) (last : IngestOutcome) (attempts : Nat) :
    (h.retryIngest peer prepared last attempts).Keeps Sound (workTokens ownKeys ownItems)
      (base ∪ keyTokens prepared.seenKeys) fun _ kept => kept = base := by
  induction attempts generalizing last with
  | zero =>
    refine Keeps.bind (keeps_discardKeys (Set.union_subset hbase (keyTokens_subset hkeys))) ?_
    rintro ⟨⟩ _ rfl
    exact Keeps.pure rfl
  | succ attempts ih =>
    refine Keeps.bind (keeps_ingestPreparedGossip hbase hkeys _) fun outcome kept hkept => ?_
    cases outcome with
    | error e =>
      obtain rfl := hkept
      exact Keeps.pure rfl
    | ok outcome =>
      cases outcome with
      | accepted | rejected =>
        obtain rfl := hkept
        exact Keeps.pure rfl
      | retryable error =>
        obtain rfl := hkept
        refine (ih (.retryable error)).start ?_
        split
        · exact Trades.refl _
        · exact trades_take _

/-- A worker with an item. -/
theorem keeps_work {item : String × Prepared} (hkeys : ∀ key ∈ item.2.seenKeys, key ∈ ownKeys)
    (hitem : item ∈ ownItems) :
    (h.work item).Keeps Sound (workTokens ownKeys ownItems) ({.job item} ∪ keyTokens item.2.seenKeys)
      fun _ kept => kept = ∅ := by
  have hbase : {Token.job item} ⊆ workTokens ownKeys ownItems := by
    rintro _ rfl
    exact hitem
  refine Keeps.bind (keeps_retryIngest hbase hkeys _ _) ?_
  rintro _ _ rfl
  refine Keeps.act fun s others hs => ⟨∅, Set.empty_subset _, ?_, rfl⟩
  rw [Set.union_empty]
  refine ⟨fun key hkey => ?_, fun other hother => ?_, fun key hkey => hs.known key (.inl hkey),
    fun raw hraw => hs.relay raw (.inl hraw), hs.pool⟩
  · refine (hs.unpoisoned key hkey).imp_right (Or.imp_left ?_)
    rintro (hothers | heq)
    · exact hothers
    · cases heq
  · rcases hs.kept other hother with hwaiting | (hothers | heq) | hfinished
    · exact .inl hwaiting
    · exact .inr (.inl hothers)
    · cases heq
      exact .inr (.inr List.mem_cons_self)
    · exact .inr (.inr (List.mem_cons_of_mem _ hfinished))

/-! ## Handlers -/

/-- An item that was put into a queue is the queue's. -/
theorem keeps_putNowait {item : String × Prepared} (hkeys : ∀ key ∈ item.2.seenKeys, key ∈ ownKeys) :
    (h.putNowait item).Keeps Sound (workTokens ownKeys ownItems) (∅ ∪ keyTokens item.2.seenKeys)
      fun put kept => kept = if put then ∅ else ∅ ∪ keyTokens item.2.seenKeys := by
  have hown : ∅ ∪ keyTokens item.2.seenKeys ⊆ workTokens ownKeys ownItems :=
    Set.union_subset (Set.empty_subset _) (keyTokens_subset hkeys)
  refine Keeps.act fun s others hs => ?_
  have hput : ∀ u : GossipNode Store, (∀ other, other ∈ waiting u ↔ other ∈ waiting s ∨ other = item) →
      u.seenGossip = s.seenGossip → u.accepted = s.accepted → u.acknowledged = item :: s.acknowledged →
      u.finished = s.finished → u.relayable = s.relayable → u.gossipPool = s.gossipPool →
        Sound u (others ∪ ∅) := by
    intro u hwaiting hseen haccepted hacknowledged hfinished hrelayable hpool
    rw [Set.union_empty]
    refine ⟨fun key hkey => ?_, fun other hother => ?_, fun key hkey => ?_, fun raw hraw => ?_, fun e he => ?_⟩
    · rw [haccepted]
      rcases hs.unpoisoned key (hseen ▸ hkey) with haccepted | (hothers | hempty | hown) | ⟨other, hother, hkey⟩
      · exact .inl haccepted
      · exact .inr (.inl hothers)
      · exact absurd hempty (Set.notMem_empty _)
      · obtain ⟨key', hkey', heq⟩ := hown
        cases heq
        exact .inr (.inr ⟨item, (hwaiting item).2 (.inr rfl), hkey'⟩)
      · exact .inr (.inr ⟨other, (hwaiting other).2 (.inl hother), hkey⟩)
    · rw [hwaiting, hfinished]
      rw [hacknowledged] at hother
      rcases List.mem_cons.1 hother with rfl | hother
      · exact .inl (.inr rfl)
      · rcases hs.kept other hother with hother | (hothers | hempty | ⟨_, -, heq⟩) | hother
        · exact .inl (.inl hother)
        · exact .inr (.inl hothers)
        · exact absurd hempty (Set.notMem_empty _)
        · cases heq
        · exact .inr (.inr hother)
    · exact haccepted ▸ hs.known key (.inl hkey)
    · exact hrelayable ▸ hs.relay raw (.inl hraw)
    · exact hrelayable ▸ hs.pool e (hpool ▸ he)
  split
  · split
    · refine ⟨∅, Set.empty_subset _, hput _ (fun other => ?_) rfl rfl rfl rfl rfl rfl, rfl⟩
      simp only [waiting, List.mem_append, List.mem_singleton]
      tauto
    · exact ⟨_, hown, hs, rfl⟩
  · split
    · refine ⟨∅, Set.empty_subset _, hput _ (fun other => ?_) rfl rfl rfl rfl rfl rfl, rfl⟩
      simp only [waiting, List.mem_append, List.mem_singleton]
      tauto
    · exact ⟨_, hown, hs, rfl⟩

theorem keeps_enqueue (hkeys : ∀ key ∈ prepared.seenKeys, key ∈ ownKeys) :
    (h.enqueue peer prepared).Keeps Sound (workTokens ownKeys ownItems) ∅ fun _ kept => kept = ∅ := by
  have hown : ∅ ∪ keyTokens prepared.seenKeys ⊆ workTokens ownKeys ownItems :=
    Set.union_subset (Set.empty_subset _) (keyTokens_subset hkeys)
  refine Keeps.bind (keeps_addKeys hown) ?_
  rintro ⟨⟩ _ rfl
  refine Keeps.bind (@keeps_putNowait _ _ _ _ (peer, prepared) hkeys) ?_
  rintro put _ rfl
  cases put with
  | true => exact Keeps.pure rfl
  | false =>
    refine Keeps.bind (keeps_discardKeys hown) ?_
    rintro ⟨⟩ _ rfl
    refine Keeps.bind (keeps_queueDelay _ (Set.empty_subset _)) ?_
    rintro delay _ rfl
    exact Keeps.pure rfl

/-- A raw message is recorded under a key, at some time. -/
def Carries (h : GossipHandlers Store) (raw key : String) : Prop :=
  ∃ clock members evidenceKey messageHash,
    h.decodeGossip clock raw = .ok (members, evidenceKey, messageHash) ∧ key ∈ messageHash :: evidenceKey.toList

theorem keeps_prepareIncomingGossip (peer raw : String) :
    (h.prepareIncomingGossip peer raw).Keeps Sound allowed ∅ fun preparation kept =>
      kept = ∅ ∧ ∀ prepared, preparation = .ok (.ready prepared) →
        ∀ key ∈ prepared.seenKeys, h.Carries raw key := by
  have hempty : (∅ : Set Token) ⊆ allowed := Set.empty_subset _
  refine Keeps.bind (keeps_readClock hempty) ?_
  rintro clock _ rfl
  cases hdecode : h.decodeGossip clock raw with
  | error e => exact Keeps.pure ⟨rfl, fun _ heq => by cases heq⟩
  | ok decoded =>
    obtain ⟨members, evidenceKey, messageHash⟩ := decoded
    refine Keeps.bind (keeps_contains messageHash hempty) ?_
    rintro seen _ rfl
    have hready : ∀ prepared : Prepared, prepared.messageHash = messageHash → prepared.evidenceKey = evidenceKey →
        ∀ key ∈ prepared.seenKeys, h.Carries raw key := by
      rintro prepared rfl rfl key hkey
      exact ⟨clock, members, _, _, hdecode, (List.mem_filter.1 hkey).1⟩
    split
    · exact Keeps.pure ⟨rfl, fun _ heq => by cases heq⟩
    cases evidenceKey with
    | some key =>
      refine Keeps.bind (keeps_contains key hempty) ?_
      rintro seen _ rfl
      split
      · exact Keeps.pure ⟨rfl, fun _ heq => by cases heq⟩
      refine Keeps.bind (keeps_allowLane peer _ hempty) ?_
      rintro decision _ rfl
      split
      · refine Keeps.bind (keeps_readClock hempty) ?_
        rintro clock _ rfl
        split
        · exact Keeps.pure ⟨rfl, fun _ heq => by cases heq⟩
        · refine Keeps.pure ⟨rfl, ?_⟩
          rintro prepared ⟨⟩
          exact hready _ rfl rfl
      · exact Keeps.pure ⟨rfl, fun _ heq => by cases heq⟩
    | none =>
      refine Keeps.bind (keeps_allowLane peer _ hempty) ?_
      rintro decision _ rfl
      split
      · refine Keeps.pure ⟨rfl, ?_⟩
        rintro prepared ⟨⟩
        exact hready _ rfl rfl
      · exact Keeps.pure ⟨rfl, fun _ heq => by cases heq⟩

theorem keeps_rejectMalformed (peer error : String) (penalized : Bool) :
    (h.rejectMalformed peer error penalized).Keeps Sound allowed ∅ fun _ kept => kept = ∅ := by
  have hempty : (∅ : Set Token) ⊆ allowed := Set.empty_subset _
  have hanswer : ∀ answer : PeerRateLimiter.RateLimitDecision → Except GossipError GossipResult,
      (h.allowLane peer "invalid" >>= fun decision => pure (answer decision)).Keeps Sound allowed ∅
        fun _ kept => kept = ∅ := by
    intro answer
    refine Keeps.bind (keeps_allowLane peer _ hempty) ?_
    rintro decision _ rfl
    exact Keeps.pure rfl
  unfold rejectMalformed
  split
  · refine Keeps.bind (keeps_penalize peer hempty) ?_
    rintro ⟨⟩ _ rfl
    exact hanswer _
  · exact hanswer _

theorem keeps_handlePrepared (hkeys : ∀ key ∈ prepared.seenKeys, key ∈ ownKeys) :
    (h.handlePrepared peer prepared).Keeps Sound (workTokens ownKeys ownItems) ∅ fun _ kept => kept = ∅ := by
  have hempty : (∅ : Set Token) ⊆ workTokens ownKeys ownItems := Set.empty_subset _
  refine Keeps.bind (keeps_allowPeer peer hempty) ?_
  rintro allowed _ rfl
  split
  · exact Keeps.pure rfl
  split
  · refine Keeps.bind ((keeps_ingestPreparedGossip hempty hkeys false).start (trades_take _)) ?_
    intro outcome kept hkept
    have hkept : kept = ∅ := by
      split at hkept
      · exact hkept
      · exact hkept
    subst hkept
    cases outcome with
    | error e => exact Keeps.pure rfl
    | ok outcome => exact Keeps.pure rfl
  · refine Keeps.bind (keeps_enqueue hkeys) ?_
    rintro decision _ rfl
    split
    · exact Keeps.pure rfl
    · exact Keeps.pure rfl

theorem keeps_incomingGossipResult (hkeys : ∀ key, h.Carries raw key → key ∈ ownKeys) :
    (h.incomingGossipResult peer raw).Keeps Sound (workTokens ownKeys ownItems) ∅ fun _ kept => kept = ∅ := by
  refine Keeps.bind (keeps_prepareIncomingGossip peer raw) ?_
  rintro preparation _ ⟨rfl, hready⟩
  rcases preparation with (_ | _ | _) | _ | _ | _
  · exact keeps_rejectMalformed _ _ _
  · exact keeps_rejectMalformed _ _ _
  · exact Keeps.pure rfl
  · exact keeps_handlePrepared fun key hkey => hkeys key (hready _ rfl key hkey)
  · exact Keeps.pure rfl
  · exact Keeps.pure rfl

theorem keeps_handleBatch {raws : List String} (hkeys : ∀ raw ∈ raws, ∀ key, h.Carries raw key → key ∈ ownKeys) :
    (h.handleBatch peer raws).Keeps Sound (workTokens ownKeys ownItems) ∅ fun _ kept => kept = ∅ := by
  induction raws with
  | nil => exact Keeps.pure rfl
  | cons raw rest ih =>
    refine Keeps.bind (keeps_incomingGossipResult (hkeys raw List.mem_cons_self)) ?_
    rintro result _ rfl
    cases result with
    | error e => exact Keeps.pure rfl
    | ok result =>
      refine Keeps.bind (ih fun raw hraw => hkeys raw (List.mem_cons_of_mem _ hraw)) ?_
      rintro results _ rfl
      cases results with
      | error e => exact Keeps.pure rfl
      | ok results => exact Keeps.pure rfl

/-! ## The node -/

/-- What a thread works on: the messages of a request, or an item of a queue. -/
inductive Work where
  | handling (peer : String) (raws : List String)
  | ingesting (item : String × Prepared)

/-- The program of a thread. -/
def program (h : GossipHandlers Store) : Work → Handling Store Unit
  | .handling peer raws => do
      let _ ← h.handleBatch peer raws
      pure ()
  | .ingesting item => h.work item

/-- A node with its threads. -/
abbrev Node (Store : Type) : Type := Threads Work (GossipNode Store)

/-- What happens at a node: a thread acts, a request comes in with one message or a batch, a worker takes an item
    from one of the queues, time passes. A worker looks at the critical queue first, which may be filled again before
    it takes an item from the other. -/
inductive Event where
  | advance (i : Nat)
  | request (peer : String) (raws : List String)
  | takeCritical
  | takeGossip
  | tick (now : ℚ)

/-- The node with a thread more. -/
def spawn (h : GossipHandlers Store) (shared : GossipNode Store) (w : Work) (s : Node Store) : Node Store :=
  ⟨shared, s.threads ++ [⟨w, h.program w⟩]⟩

/-- The node after an event. -/
def step (h : GossipHandlers Store) (s : Node Store) : Event → Option (Node Store)
  | .advance i => s.advance i
  | .request peer raws => some (h.spawn s.shared (.handling peer raws) s)
  | .takeCritical =>
      match s.shared.critical with
      | [] => none
      | item :: rest => some (h.spawn { s.shared with critical := rest } (.ingesting item) s)
  | .takeGossip =>
      match s.shared.gossip with
      | [] => none
      | item :: rest => some (h.spawn { s.shared with gossip := rest } (.ingesting item) s)
  | .tick now => some { s with shared := { s.shared with now } }

/-- A node that starts. -/
def start (store : Store) (seenLimit poolLimit : Int) (penalties : PeerPenaltyBook) : Node Store :=
  ⟨{ store, penalties, seenGossip := .new seenLimit, critical := [], gossip := [], buckets := [],
     gossipPool := .new poolLimit, now := 0, accepted := [], acknowledged := [], finished := [], relayable := [] }, []⟩

/-- A thread works on a message with a key. -/
def WorksOn (h : GossipHandlers Store) (key : String) : Work → Prop
  | .handling _ raws => ∃ raw ∈ raws, h.Carries raw key
  | .ingesting item => key ∈ item.2.seenKeys

/-- A message with a key waits in a queue, or a thread works on it. -/
def InFlight (h : GossipHandlers Store) (s : Node Store) (key : String) : Prop :=
  (∃ item ∈ waiting s.shared, key ∈ item.2.seenKeys) ∨
    ∃ t ∈ s.threads, t.prog.isRunning = true ∧ h.WorksOn key t.label

/-- What is true at every point of a run. -/
structure Contained (h : GossipHandlers Store) (s : Node Store) : Prop where
  /-- A message that no one works on is taken for a duplicate only if the store accepted it, or another one with
      its evidence key. -/
  unpoisoned : ∀ key ∈ s.shared.seenGossip.items, key ∈ s.shared.accepted ∨ h.InFlight s key
  /-- An acknowledged message waits, or is being ingested, or its ingestion has ended. -/
  kept : ∀ item ∈ s.shared.acknowledged, item ∈ waiting s.shared ∨ item ∈ s.shared.finished ∨
    ∃ t ∈ s.threads, t.prog.isRunning = true ∧ t.label = .ingesting item
  /-- What is relayed comes from an ingestion. -/
  relayed : ∀ e ∈ s.shared.gossipPool.items, e.raw ∈ s.shared.relayable

/-- What a thread may hold. -/
def tokensOf (h : GossipHandlers Store) (w : Work) : Set Token :=
  workTokens {key | h.WorksOn key w} {item | w = .ingesting item}

variable {n m : Node Store}

theorem keeps_handling (peer : String) (raws : List String) :
    (h.program (.handling peer raws)).Keeps Sound (h.tokensOf (.handling peer raws)) ∅ fun _ kept => kept = ∅ := by
  refine Keeps.bind (keeps_handleBatch fun raw hraw key hcarries => ⟨raw, hraw, hcarries⟩) ?_
  rintro _ _ rfl
  exact Keeps.pure rfl

/-- An item that a worker takes from a queue becomes the worker's. -/
theorem orderly_take (hn : n.Orderly Sound h.tokensOf) {item : String × Prepared} {shared : GossipNode Store}
    (hwaiting : ∀ other, other ∈ waiting n.shared ↔ other = item ∨ other ∈ waiting shared)
    (hseen : shared.seenGossip = n.shared.seenGossip) (haccepted : shared.accepted = n.shared.accepted)
    (hacknowledged : shared.acknowledged = n.shared.acknowledged) (hfinished : shared.finished = n.shared.finished)
    (hrelayable : shared.relayable = n.shared.relayable) (hpool : shared.gossipPool = n.shared.gossipPool) :
    (h.spawn shared (.ingesting item) n).Orderly Sound h.tokensOf := by
  have hwork : (h.work item).Keeps Sound (h.tokensOf (.ingesting item)) ({.job item} ∪ keyTokens item.2.seenKeys)
      fun _ kept => kept = ∅ :=
    keeps_work (fun _ hkey => hkey) rfl
  refine Threads.Orderly.spawn hn ({Token.job item} ∪ keyTokens item.2.seenKeys) ?_ hwork fun others hs => ?_
  · rintro _ (rfl | ⟨key, hkey, rfl⟩)
    · rfl
    · exact hkey
  · refine ⟨fun key hkey => ?_, fun other hother => ?_, fun key hkey => ?_, fun raw hraw => ?_, fun e he => ?_⟩
    · rw [haccepted]
      rcases hs.unpoisoned key (hseen ▸ hkey) with haccepted | hothers | ⟨other, hother, hkey⟩
      · exact .inl haccepted
      · exact .inr (.inl (.inl hothers))
      · rcases (hwaiting other).1 hother with rfl | hother
        · exact .inr (.inl (.inr (.inr ⟨key, hkey, rfl⟩)))
        · exact .inr (.inr ⟨other, hother, hkey⟩)
    · rw [hfinished]
      rcases hs.kept other (hacknowledged ▸ hother) with hother | hothers | hother
      · rcases (hwaiting other).1 hother with rfl | hother
        · exact .inr (.inl (.inr (.inl rfl)))
        · exact .inl hother
      · exact .inr (.inl (.inl hothers))
      · exact .inr (.inr hother)
    · rw [haccepted]
      rcases hkey with hothers | heq | ⟨_, -, heq⟩
      · exact hs.known key hothers
      · cases heq
      · cases heq
    · rw [hrelayable]
      rcases hraw with hothers | heq | ⟨_, -, heq⟩
      · exact hs.relay raw hothers
      · cases heq
      · cases heq
    · rw [hrelayable]
      exact hs.pool e (hpool ▸ he)

/-- **One event keeps the order of the threads.** -/
theorem orderly_step {e : Event} (hn : n.Orderly Sound h.tokensOf) (hstep : h.step n e = some m) :
    m.Orderly Sound h.tokensOf := by
  cases e with
  | advance i => exact hn.advance hstep
  | request peer raws =>
    obtain rfl := Option.some.inj hstep
    refine Threads.Orderly.spawn hn ∅ (Set.empty_subset _) (keeps_handling peer raws) fun others hs => ?_
    rwa [Set.union_empty]
  | takeCritical =>
    rw [step] at hstep
    split at hstep
    · cases hstep
    · next item rest hcritical =>
      obtain rfl := Option.some.inj hstep
      refine orderly_take hn (fun other => ?_) rfl rfl rfl rfl rfl rfl
      simp [waiting, hcritical]
  | takeGossip =>
    rw [step] at hstep
    split at hstep
    · cases hstep
    · next item rest hgossip =>
      obtain rfl := Option.some.inj hstep
      refine orderly_take hn (fun other => ?_) rfl rfl rfl rfl rfl rfl
      simp [waiting, hgossip, or_left_comm]
  | tick now =>
    obtain rfl := Option.some.inj hstep
    exact hn.change fun others hs => hs.frame (Finset.Subset.refl _) rfl rfl rfl rfl rfl rfl

theorem orderly_start (store : Store) (seenLimit poolLimit : Int) (penalties : PeerPenaltyBook) :
    (start store seenLimit poolLimit penalties).Orderly Sound h.tokensOf := by
  refine ⟨[], rfl, by simp, ⟨?_, ?_, ?_, ?_, ?_⟩⟩
  · intro key hkey
    exact absurd hkey (Finset.notMem_empty key)
  · intro item hitem
    exact absurd hitem List.not_mem_nil
  · rintro key ⟨e, he, -⟩
    exact absurd he List.not_mem_nil
  · rintro raw ⟨e, he, -⟩
    exact absurd he List.not_mem_nil
  · intro e he
    exact absurd he List.not_mem_nil

/-- What the order of the threads comes to. -/
theorem contained_of_orderly (hn : n.Orderly Sound h.tokensOf) : h.Contained n := by
  obtain ⟨tokens, htokens, hs⟩ := hn.inProgress
  refine ⟨fun key hkey => ?_, fun item hitem => ?_, hs.pool⟩
  · rcases hs.unpoisoned key hkey with haccepted | hheld | hwaiting
    · exact .inl haccepted
    · obtain ⟨t, ht, hrunning, hkey⟩ := htokens hheld
      exact .inr (.inr ⟨t, ht, hrunning, hkey⟩)
    · exact .inr (.inl hwaiting)
  · rcases hs.kept item hitem with hwaiting | hheld | hfinished
    · exact .inl hwaiting
    · obtain ⟨t, ht, hrunning, hitem⟩ := htokens hheld
      exact .inr (.inr ⟨t, ht, hrunning, hitem⟩)
    · exact .inr (.inl hfinished)

/-- A run keeps the order of the threads. -/
theorem orderly_of_reaches {store : Store} {seenLimit poolLimit : Int} {penalties : PeerPenaltyBook}
    (hreaches : Runs.Reaches h.step (fun _ _ => True) (start store seenLimit poolLimit penalties) n) :
    n.Orderly Sound h.tokensOf :=
  hreaches.invariant (fun _ _ _ hs _ hstep => orderly_step hs hstep) (orderly_start store seenLimit poolLimit penalties)

/-- **Gossip is contained.** However the threads of a node alternate, and whatever its peers send and its store
    answers, a message is taken for a duplicate only while someone works on it or after the store accepted it, no
    acknowledged message is lost, and only what an ingestion released is relayed. -/
theorem contained_of_reaches {store : Store} {seenLimit poolLimit : Int} {penalties : PeerPenaltyBook}
    (hreaches : Runs.Reaches h.step (fun _ _ => True) (start store seenLimit poolLimit penalties) n) :
    h.Contained n :=
  contained_of_orderly (orderly_of_reaches hreaches)

/-- A node whose store accepts everything. -/
def sampleHandlers : GossipHandlers Nat where
  crypto := sampleCrypto
  zlib := WireMessage.sampleZlib
  limiter := PeerRateLimiter.sampleConfig
  criticalMax := 1
  gossipMax := 2
  poolLimit := 5
  transientAttempts := 12
  transientSeconds := 5
  validateEnvelope := fun _ => .ok ()
  ingestMessage := fun _ _ store => (.ok ⟨true, true, [], none⟩, store + 1)

/-- A node that two peers sent a message each. -/
def sampleNode : Node Nat :=
  sampleHandlers.spawn ⟨0, .new 10, [], [], [], ⟨5, 600, 5000, []⟩, .new 5, 7, [], [], [], []⟩
    (.handling "198.51.100.1" ["{}"])
    (sampleHandlers.spawn ⟨0, .new 10, [], [], [], ⟨5, 600, 5000, []⟩, .new 5, 7, [], [], [], []⟩
      (.handling "192.0.2.1" ["{}"]) (start 0 10 5 ⟨5, 600, 5000, []⟩))

theorem reaches_sampleNode : Runs.Reaches sampleHandlers.step (fun _ _ => True)
    (start 0 10 5 ⟨5, 600, 5000, []⟩) sampleNode :=
  have htick : sampleHandlers.step (start 0 10 5 ⟨5, 600, 5000, []⟩) (.tick 7) = some _ := rfl
  ((Runs.Reaches.refl.next trivial htick).next trivial (e := .request "192.0.2.1" ["{}"]) rfl).next trivial
    (e := .request "198.51.100.1" ["{}"]) rfl

theorem contained_of_reaches_sample : sampleHandlers.Contained sampleNode :=
  contained_of_reaches reaches_sampleNode

end GossipHandlers
