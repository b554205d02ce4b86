import InternationalDollar.Lib.Runs
import InternationalDollar.TransportSession

set_option autoImplicit false

/-! # Runs of encrypted sessions

Two ends send texts to each other in any order, the network delivers the bytes in pieces of any size, and
somebody else may put other bytes on the way.

A text of no bytes is sent but not received: its ciphertext is just the tag, and the receiver takes a frame
of that length for one that is too large. `delivers_of_reaches` says what holds if no text is empty: the
other end returns the texts in order, and accepts a frame exactly if it is the next one. -/

/-! ## Runs -/

namespace TransportSession

/-- The two ends. -/
inductive Side where
  | client
  | server
deriving DecidableEq

/-- The other end. -/
def Side.peer : Side → Side
  | .client => .server
  | .server => .client

/-- Two sessions and the bytes on their way to each, with what happened: the texts that each end sent, those it
    received with the counter at which it did, every key and nonce that encrypted something, and whether
    somebody else put bytes on the way. -/
structure State where
  session : Side → TransportSession
  incoming : Side → List Bytes
  sent : Side → List String
  received : Side → List (Nat × String)
  nonces : List (Bytes × Bytes)
  tampered : Side → Bool

/-- What happens: the two ends send and receive, the bytes arrive in other pieces, or others than those
    that were sent arrive. -/
inductive Event where
  | send (side : Side) (text : String)
  | recv (side : Side)
  | pieces (side : Side) (conn : List Bytes)
  | tamper (side : Side) (conn : List Bytes)

variable (p : TransportPrimitives) (limit : Side → Int)

open TransportPrimitives

/-- The nonce that a call of `send_text` has used with the key of the session. -/
def usedNonces (before after : TransportSession) : List (Bytes × Bytes) :=
  if before.sendCounter = after.sendCounter then []
  else (nonce before.sendCounter).toList.map fun nonce => (before.sendKey, nonce)

/-- One end sends; the other end's limit is passed. -/
def send (s : State) (side : Side) (text : String) : State :=
  let (result, session) := p.sendText (s.session side) text (limit side.peer)
  { s with
    session := Function.update s.session side session
    nonces := s.nonces ++ usedNonces (s.session side) session
    incoming := match result with
      | .ok frame => Function.update s.incoming side.peer (s.incoming side.peer ++ [frame])
      | .error _ => s.incoming
    sent := match result with
      | .ok _ => Function.update s.sent side (s.sent side ++ [text])
      | .error _ => s.sent }

/-- One end receives. -/
def recv (s : State) (side : Side) : State :=
  let (result, session, conn) := p.recvText (s.session side) (s.incoming side) (limit side)
  { s with
    session := Function.update s.session side session
    incoming := Function.update s.incoming side conn
    received := match result with
      | .ok text =>
          Function.update s.received side (s.received side ++ [((s.session side).recvCounter, text)])
      | .error _ => s.received }

/-- One step. An end that has nothing to read waits. -/
def step (s : State) : Event → Option State
  | .send side text => some (send p limit s side text)
  | .recv side => if s.incoming side = [] then none else some (recv p limit s side)
  | .pieces side conn =>
      if conn.flatten = (s.incoming side).flatten ∧ [] ∉ conn then
        some { s with incoming := Function.update s.incoming side conn }
      else none
  | .tamper side conn =>
      if [] ∈ conn then none
      else some { s with incoming := Function.update s.incoming side conn,
                         tampered := Function.update s.tampered side true }

/-- The state after the handshake. -/
def initial (client server : TransportSession) : State where
  session := fun | .client => client | .server => server
  incoming _ := []
  sent _ := []
  received _ := []
  nonces := []
  tampered _ := false

/-! ## What is delivered -/

variable {p limit} {s : State} {side : Side}

/-- The frame number that an end expects was made by the other end of a text. -/
def IsNext (p : TransportPrimitives) (s : State) (side : Side) (text : String) (ciphertext : Bytes) : Prop :=
  (s.sent side.peer)[(s.session side).recvCounter]? = some text ∧
    ∃ n ∈ nonce (s.session side).recvCounter,
      ciphertext = p.chacha20Poly1305.encrypt (s.session side).recvKey n (Text.utf8 text) []

/-- A ciphertext is no forgery: it is decrypted only if it is the one that the other end made. This is what
    an ideal cipher gives. -/
def Unforged (p : TransportPrimitives) (s : State) (side : Side) (ciphertext : Bytes) : Prop :=
  ∀ n ∈ nonce (s.session side).recvCounter, ∀ plaintext,
    p.chacha20Poly1305.decrypt (s.session side).recvKey n ciphertext [] = some plaintext →
      ∃ text, IsNext p s side text ciphertext

/-- The session delivers every text. -/
structure Delivers (p : TransportPrimitives) (limit : Side → Int) (s : State) : Prop where
  nonces : s.nonces.Nodup
  inOrder : ∀ side, (s.received side).Pairwise (fun a b => a.1 < b.1) ∧
    ∀ r ∈ s.received side, (s.sent side.peer)[r.1]? = some r.2
  exactly : ∀ side, s.tampered side = false → ∃ rest,
    s.sent side.peer = (s.received side).map Prod.snd ++ rest ∧
    ∀ text ∈ rest.head?, (p.recvText (s.session side) (s.incoming side) (limit side)).1 = .ok text
  accepts : ∀ side ciphertext conn text, BeginsWith ciphertext conn → Unforged p s side ciphertext →
    ((p.recvText (s.session side) conn (limit side)).1 = .ok text ↔
      IsNext p s side text ciphertext ∧ (Text.utf8 text).length ≤ limit side)

/-- A ciphertext fits the four bytes of a header and a counter twelve bytes, and what somebody else puts on the
    way is no forgery. -/
def Fits (p : TransportPrimitives) (s : State) : Event → Prop
  | .send side text => (Text.utf8 text).length + 16 < 256 ^ 4 ∧ (s.session side).sendCounter < 256 ^ 12
  | .recv side => s.tampered side = true → ∀ ciphertext, BeginsWith ciphertext (s.incoming side) →
      Unforged p s side ciphertext
  | _ => True

/-- No text is empty. -/
def Event.NotEmpty : Event → Prop
  | .send _ text => text ≠ ""
  | _ => True

variable {text : String} {ciphertext : Bytes}

/-! ## The two ends keep in step -/

/-- The frames of texts from number `k` on. -/
def frames (p : TransportPrimitives) (key : Bytes) : Nat → List String → Bytes
  | _, [] => []
  | k, text :: texts => p.frame key k text ++ frames p key (k + 1) texts

theorem frames_append (key : Bytes) (k : Nat) (texts : List String) (text : String) :
    frames p key k (texts ++ [text]) = frames p key k texts ++ p.frame key (k + texts.length) text := by
  induction texts generalizing k with
  | nil => simp [frames]
  | cons head texts ih =>
    have hk : k + 1 + texts.length = k + (text :: texts).length := by
      rw [List.length_cons]
      omega
    rw [List.cons_append, frames, ih, frames, List.append_assoc, hk]
    rfl

@[simp] theorem peer_peer (side : Side) : side.peer.peer = side := by
  cases side <;> rfl

theorem peer_ne (side : Side) : side.peer ≠ side := by
  cases side <;> decide

theorem eq_peer_of_ne {a b : Side} (h : a ≠ b) : a = b.peer := by
  cases a <;> cases b <;> first | rfl | exact absurd rfl h

/-- What holds in every state: the keys of a direction agree, the sender has counted its texts, the nonces are
    the ones counted, what was received was sent at its place, and as long as nobody else wrote to an end the
    frames of the other texts are on their way to it. -/
structure Synced (p : TransportPrimitives) (limit : Side → Int) (s : State) : Prop where
  keys : ∀ side, (s.session side).recvKey = (s.session side.peer).sendKey
  distinct : (s.session .client).sendKey ≠ (s.session .server).sendKey
  counted : ∀ side, (s.session side).sendCounter = (s.sent side).length
  bounded : ∀ side, (s.sent side).length ≤ 256 ^ 12
  texts : ∀ side, ∀ text ∈ s.sent side, text ≠ "" ∧ (Text.utf8 text).length + 16 < 256 ^ 4 ∧
    (Text.utf8 text).length ≤ limit side.peer
  nodup : s.nonces.Nodup
  used : ∀ used ∈ s.nonces, ∃ side, used.1 = (s.session side).sendKey ∧
    ∃ k < (s.sent side).length, nonce k = some used.2
  increasing : ∀ side, (s.received side).Pairwise fun a b => a.1 < b.1
  received : ∀ side, ∀ r ∈ s.received side, r.1 < (s.session side).recvCounter ∧
    (s.sent side.peer)[r.1]? = some r.2
  pieces : ∀ side, [] ∉ s.incoming side
  onWay : ∀ side, s.tampered side = false →
    (s.received side).map Prod.snd = (s.sent side.peer).take (s.session side).recvCounter ∧
    (s.session side).recvCounter ≤ (s.sent side.peer).length ∧
    (s.incoming side).flatten = frames p (s.session side).recvKey (s.session side).recvCounter
      ((s.sent side.peer).drop (s.session side).recvCounter)

theorem length_utf8_pos (h : text ≠ "") : 0 < (Text.utf8 text).length := by
  refine Nat.pos_of_ne_zero fun hzero => h (Text.utf8_injective ?_)
  rw [List.length_eq_zero_iff.1 hzero]
  rfl

namespace Synced

variable (h : Synced p limit s)
include h

/-- The frame that an end expects, if it is there already. -/
theorem isNext_length (hnext : IsNext p s side text ciphertext) :
    ciphertext.length = (Text.utf8 text).length + 16 ∧ 16 < ciphertext.length ∧
      ciphertext.length < 256 ^ 4 := by
  obtain ⟨htext, n, -, rfl⟩ := hnext
  obtain ⟨hne, hlt, -⟩ := h.texts side.peer text (List.mem_of_getElem? htext)
  have hpos := length_utf8_pos hne
  rw [p.chacha20Poly1305.length_encrypt]
  omega

/-- A frame is accepted exactly if it is the next one and within the limit. -/
theorem accepts {conn : List Bytes} (hbegins : BeginsWith ciphertext conn)
    (hunforged : Unforged p s side ciphertext) :
    (p.recvText (s.session side) conn (limit side)).1 = .ok text ↔
      IsNext p s side text ciphertext ∧ (Text.utf8 text).length ≤ limit side := by
  constructor
  · intro hok
    obtain ⟨ciphertext', n, hbegins', hnonce, -, -, hopen, -⟩ := recvText_eq_ok hbegins.1 hok
    obtain rfl := eq_of_beginsWith hbegins hbegins'
    obtain ⟨hdecrypt, hlimit⟩ := openText_eq_ok.1 hopen
    obtain ⟨text', hnext⟩ := hunforged n hnonce _ hdecrypt
    obtain ⟨hsent, n', hn', rfl⟩ := id hnext
    -- it is the frame of `text'`, which is decrypted to `text'`
    obtain rfl : n = n' := Option.some.inj (hnonce.symm.trans hn')
    obtain rfl : text' = text := Text.utf8_injective (p.chacha20Poly1305.eq_of_decrypt_encrypt hdecrypt)
    exact ⟨hnext, hlimit⟩
  · rintro ⟨hnext, hlimit⟩
    obtain ⟨hlength, hsize, -⟩ := h.isNext_length hnext
    obtain ⟨hsent, n, hn, rfl⟩ := id hnext
    obtain ⟨left, hrecv, -, -⟩ := recvText_of_beginsWith hbegins hsize
      (show (_ : Int) ≤ limit side + 16 by omega) hn
    rw [hrecv]
    exact openText_eq_ok.2 ⟨p.chacha20Poly1305.decrypt_encrypt _ _ _ _, hlimit⟩

omit h in
/-- The frame of a text that was sent is no forgery. -/
theorem unforged_of_isNext (hnext : IsNext p s side text ciphertext) : Unforged p s side ciphertext :=
  fun _ _ _ _ => ⟨text, hnext⟩

/-- As long as nobody else wrote to an end, the frame of the next text is in front of what is on its way. -/
theorem isNext_of_tail (htampered : s.tampered side = false) {rest : List String}
    (hrest : (s.sent side.peer).drop (s.session side).recvCounter = text :: rest) :
    ∃ ciphertext, IsNext p s side text ciphertext ∧ BeginsWith ciphertext (s.incoming side) ∧
      (s.incoming side).flatten = bigEndian 4 ciphertext.length [] ++ ciphertext ++
        frames p (s.session side).recvKey ((s.session side).recvCounter + 1) rest := by
  obtain ⟨-, -, hflatten⟩ := h.onWay side htampered
  have hsent : (s.sent side.peer)[(s.session side).recvCounter]? = some text := by
    rw [← List.head?_drop, hrest]
    rfl
  have hcounter : (s.session side).recvCounter < 256 ^ 12 :=
    (List.getElem?_eq_some_iff.1 hsent).1.trans_le (h.bounded side.peer)
  have hnext : IsNext p s side text (p.chacha20Poly1305.encrypt (s.session side).recvKey
      (bigEndian 12 (s.session side).recvCounter []).reverse (Text.utf8 text) []) :=
    ⟨hsent, _, if_pos hcounter, rfl⟩
  rw [hrest] at hflatten
  exact ⟨_, hnext, ⟨h.pieces side, (h.isNext_length hnext).2.2, _, hflatten⟩, hflatten⟩

/-- There is such a text if anything is on its way. -/
theorem exists_tail (htampered : s.tampered side = false) (hincoming : s.incoming side ≠ []) :
    ∃ text rest, (s.sent side.peer).drop (s.session side).recvCounter = text :: rest := by
  obtain ⟨-, -, hflatten⟩ := h.onWay side htampered
  refine List.exists_cons_of_ne_nil fun hnil => ?_
  rw [hnil, frames, List.flatten_eq_nil_iff] at hflatten
  obtain ⟨part, conn, hconn⟩ := List.exists_cons_of_ne_nil hincoming
  have hpart : part ∈ s.incoming side := by
    rw [hconn]
    exact List.mem_cons_self
  exact h.pieces side (hflatten part hpart ▸ hpart)

end Synced

/-! ## The steps -/

/-- A text that fits is on its way behind the others. -/
theorem send_of_fits (hlimit : (Text.utf8 text).length ≤ limit side.peer)
    (hheader : (Text.utf8 text).length + 16 < 256 ^ 4) (hcounter : (s.session side).sendCounter < 256 ^ 12) :
    send p limit s side text = { s with
      session := Function.update s.session side
        { s.session side with sendCounter := (s.session side).sendCounter + 1 }
      nonces := s.nonces ++ [((s.session side).sendKey, (bigEndian 12 (s.session side).sendCounter []).reverse)]
      incoming := Function.update s.incoming side.peer
        (s.incoming side.peer ++ [p.frame (s.session side).sendKey (s.session side).sendCounter text])
      sent := Function.update s.sent side (s.sent side ++ [text]) } := by
  rw [send, sendText_of_fits hlimit hheader hcounter]
  have hused : usedNonces (s.session side)
      { s.session side with sendCounter := (s.session side).sendCounter + 1 } =
        [((s.session side).sendKey, (bigEndian 12 (s.session side).sendCounter []).reverse)] := by
    rw [usedNonces, if_neg (Nat.ne_of_lt (Nat.lt_succ_self _)), nonce, if_pos hcounter]
    rfl
  simp only [hused]

/-- A text that is too large changes nothing. -/
theorem send_of_large (hlimit : ¬ ((Text.utf8 text).length : Int) ≤ limit side.peer) :
    send p limit s side text = s := by
  have hused : usedNonces (s.session side) (s.session side) = [] := if_pos rfl
  rw [send, sendText_of_large hlimit]
  simp only [hused, List.append_nil, Function.update_eq_self]

theorem frame_ne_nil (key : Bytes) (k : Nat) (text : String) : p.frame key k text ≠ [] := by
  refine List.ne_nil_of_length_pos ?_
  rw [frame, List.length_append, length_bigEndian]
  omega

/-- What is sent on one side is what the other expects. -/
theorem eq_or_eq_peer (side other : Side) : other = side ∨ other = side.peer := by
  cases side <;> cases other <;> simp [Side.peer]

namespace Synced

variable (h : Synced p limit s)
include h

theorem sendKey_ne (side : Side) : (s.session side).sendKey ≠ (s.session side.peer).sendKey := by
  cases side with
  | client => exact h.distinct
  | server => exact h.distinct.symm

theorem send (hne : text ≠ "") (hheader : (Text.utf8 text).length + 16 < 256 ^ 4)
    (hcounter : (s.session side).sendCounter < 256 ^ 12) :
    Synced p limit (TransportSession.send p limit s side text) := by
  by_cases hlimit : ((Text.utf8 text).length : Int) ≤ limit side.peer
  · rw [send_of_fits hlimit hheader hcounter]
    have hpeer := peer_ne side
    have hcounted := h.counted side
    -- the session differs in the counter only
    have hsession : ∀ other, ∃ k, Function.update s.session side
        { s.session side with sendCounter := (s.session side).sendCounter + 1 } other =
          { s.session other with sendCounter := k } := by
      intro other
      by_cases hother : other = side
      · exact ⟨_, by rw [hother, Function.update_self]⟩
      · exact ⟨_, by rw [Function.update_of_ne hother]⟩
    have hsent : ∀ other, s.sent other <+: Function.update s.sent side (s.sent side ++ [text]) other := by
      intro other
      by_cases hother : other = side
      · rw [hother, Function.update_self]
        exact List.prefix_append _ _
      · exact ⟨[], by rw [Function.update_of_ne hother, List.append_nil]⟩
    refine { keys := ?_, distinct := ?_, counted := ?_, bounded := ?_, texts := ?_, nodup := ?_, used := ?_,
             increasing := h.increasing, received := ?_, pieces := ?_, onWay := ?_ }
    · intro other
      obtain ⟨k, hk⟩ := hsession other
      obtain ⟨k', hk'⟩ := hsession other.peer
      simp only [hk, hk']
      exact h.keys other
    · obtain ⟨k, hk⟩ := hsession .client
      obtain ⟨k', hk'⟩ := hsession .server
      simp only [hk, hk']
      exact h.distinct
    · intro other
      rcases eq_or_eq_peer side other with rfl | rfl
      · simp only [Function.update_self, List.length_append, List.length_singleton, hcounted]
      · simp only [Function.update_of_ne hpeer]
        exact h.counted _
    · intro other
      rcases eq_or_eq_peer side other with rfl | rfl
      · simp only [Function.update_self, List.length_append, List.length_singleton]
        omega
      · simp only [Function.update_of_ne hpeer]
        exact h.bounded _
    · intro other
      rcases eq_or_eq_peer side other with rfl | rfl
      · simp only [Function.update_self, List.mem_append, List.mem_singleton]
        rintro text' (hmem | rfl)
        · exact h.texts _ text' hmem
        · exact ⟨hne, hheader, hlimit⟩
      · simp only [Function.update_of_ne hpeer]
        exact h.texts _
    · -- the counter has not been used with this key, and the other end has another key
      refine List.nodup_append.2 ⟨h.nodup, List.nodup_singleton _, fun used hused new hnew heq => ?_⟩
      rw [heq, List.mem_singleton.1 hnew] at hused
      obtain ⟨other, hkey, k, hk, hnonce⟩ := h.used _ hused
      rcases eq_or_eq_peer side other with rfl | rfl
      · have heq' := nonce_inj (if_pos hcounter) hnonce
        omega
      · exact h.sendKey_ne side hkey
    · intro used hused
      rcases List.mem_append.1 hused with hused | hused
      · obtain ⟨other, hkey, k, hk, hnonce⟩ := h.used _ hused
        obtain ⟨k', hk'⟩ := hsession other
        refine ⟨other, ?_, k, hk.trans_le (hsent other).length_le, hnonce⟩
        simp only [hk']
        exact hkey
      · rw [List.mem_singleton.1 hused]
        refine ⟨side, ?_, (s.session side).sendCounter, ?_, if_pos hcounter⟩
        · simp only [Function.update_self]
        · simp only [Function.update_self, List.length_append, List.length_singleton]
          omega
    · intro other r hr
      obtain ⟨hlt, hget⟩ := h.received other r hr
      obtain ⟨k, hk⟩ := hsession other
      obtain ⟨later, hlater⟩ := hsent other.peer
      refine ⟨by simp only [hk]; exact hlt, ?_⟩
      show (Function.update s.sent side (s.sent side ++ [text]) other.peer)[r.1]? = _
      rw [← hlater, List.getElem?_append_left (List.getElem?_eq_some_iff.1 hget).1, hget]
    · intro other
      rcases eq_or_eq_peer side other with rfl | rfl
      · simp only [Function.update_of_ne hpeer.symm]
        exact h.pieces _
      · simp only [Function.update_self, List.mem_append, List.mem_singleton, not_or]
        exact ⟨h.pieces _, (frame_ne_nil _ _ _).symm⟩
    · intro other htampered
      obtain ⟨hreceived, hle, hflatten⟩ := h.onWay other htampered
      obtain ⟨k, hk⟩ := hsession other
      simp only [hk]
      rcases eq_or_eq_peer side other with rfl | rfl
      · simp only [Function.update_of_ne hpeer, Function.update_of_ne hpeer.symm]
        exact ⟨hreceived, hle, hflatten⟩
      · have hkeys := h.keys side.peer
        rw [peer_peer] at hreceived hle hflatten hkeys ⊢
        simp only [Function.update_self, List.take_append_of_le_length hle, List.drop_append_of_le_length hle,
          List.flatten_append, List.flatten_singleton, frames_append, List.length_append, List.length_drop]
        refine ⟨hreceived, by omega, ?_⟩
        rw [hflatten, hkeys, hcounted, Nat.add_sub_cancel' hle]
  · rw [send_of_large hlimit]
    exact h

/-- An end that nobody else wrote to receives the next text. -/
theorem recvText_of_tail (htampered : s.tampered side = false) {rest : List String}
    (hrest : (s.sent side.peer).drop (s.session side).recvCounter = text :: rest) :
    ∃ left, p.recvText (s.session side) (s.incoming side) (limit side) = (.ok text,
        { s.session side with recvCounter := (s.session side).recvCounter + 1 }, left) ∧
      left.flatten = frames p (s.session side).recvKey ((s.session side).recvCounter + 1) rest := by
  obtain ⟨ciphertext, hnext, hbegins, hflatten⟩ := h.isNext_of_tail htampered hrest
  obtain ⟨hlength, hsize, -⟩ := h.isNext_length hnext
  have hlimit : (Text.utf8 text).length ≤ limit side := by
    have htexts := h.texts side.peer text (List.mem_of_getElem? hnext.1)
    rw [peer_peer] at htexts
    exact htexts.2.2
  obtain ⟨-, n, hn, rfl⟩ := id hnext
  obtain ⟨left, hrecv, hleft, -⟩ := recvText_of_beginsWith hbegins hsize
    (show (_ : Int) ≤ limit side + 16 by omega) hn
  have hopen := openText_eq_ok.2 ⟨p.chacha20Poly1305.decrypt_encrypt (s.session side).recvKey n
    (Text.utf8 text) [], hlimit⟩
  refine ⟨left, by rw [hrecv, hopen], ?_⟩
  rw [hflatten] at hleft
  exact (List.append_cancel_left hleft).symm

theorem recv (hincoming : s.incoming side ≠ [])
    (hunforged : ∀ ciphertext, BeginsWith ciphertext (s.incoming side) → Unforged p s side ciphertext) :
    Synced p limit (TransportSession.recv p limit s side) := by
  obtain ⟨k, hsession, hk⟩ := recvText_session p (s.session side) (s.incoming side) (limit side)
  have hmem : [] ∉ (p.recvText (s.session side) (s.incoming side) (limit side)).2.2 :=
    recvText_not_mem (h.pieces side)
  -- a text that is received is the next one
  have hok : ∀ text, (p.recvText (s.session side) (s.incoming side) (limit side)).1 = .ok text →
      k = (s.session side).recvCounter + 1 ∧
        (s.sent side.peer)[(s.session side).recvCounter]? = some text := by
    intro text htext
    obtain ⟨ciphertext, n, hbegins, -, -, -, -, hnext⟩ := recvText_eq_ok (h.pieces side) htext
    refine ⟨congrArg TransportSession.recvCounter (hsession.symm.trans hnext), ?_⟩
    exact ((h.accepts hbegins (hunforged ciphertext hbegins)).1 htext).1.1
  have htail := fun htampered : s.tampered side = false => h.exists_tail htampered hincoming
  have hreceives := fun (htampered : s.tampered side = false) (text : String) (rest : List String)
      (hrest : (s.sent side.peer).drop (s.session side).recvCounter = text :: rest) =>
    h.recvText_of_tail htampered hrest
  rw [TransportSession.recv]
  generalize p.recvText (s.session side) (s.incoming side) (limit side) = r at *
  obtain ⟨result, session, conn⟩ := r
  dsimp only at hsession hmem hok hreceives ⊢
  subst hsession
  have hpeer := peer_ne side
  -- the session differs in the counter only, which has not gone back
  have hupdate : ∀ other, ∃ j, Function.update s.session side { s.session side with recvCounter := k } other =
      { s.session other with recvCounter := j } ∧ (s.session other).recvCounter ≤ j := by
    intro other
    by_cases hother : other = side
    · exact ⟨k, by rw [hother, Function.update_self], hother ▸ hk⟩
    · exact ⟨(s.session other).recvCounter, by rw [Function.update_of_ne hother], le_rfl⟩
  refine { keys := ?_, distinct := ?_, counted := ?_, bounded := h.bounded, texts := h.texts,
           nodup := h.nodup, used := ?_, increasing := ?_, received := ?_, pieces := ?_, onWay := ?_ }
  · intro other
    obtain ⟨j, hj, -⟩ := hupdate other
    obtain ⟨j', hj', -⟩ := hupdate other.peer
    simp only [hj, hj']
    exact h.keys other
  · obtain ⟨j, hj, -⟩ := hupdate .client
    obtain ⟨j', hj', -⟩ := hupdate .server
    simp only [hj, hj']
    exact h.distinct
  · intro other
    obtain ⟨j, hj, -⟩ := hupdate other
    simp only [hj]
    exact h.counted other
  · intro used hused
    obtain ⟨other, hkey, hnonce⟩ := h.used used hused
    obtain ⟨j, hj, -⟩ := hupdate other
    refine ⟨other, ?_, hnonce⟩
    simp only [hj]
    exact hkey
  · intro other
    cases result with
    | error error => exact h.increasing other
    | ok text =>
      by_cases hother : other = side
      · subst hother
        simp only [Function.update_self]
        refine List.pairwise_append.2 ⟨h.increasing other, List.pairwise_singleton _ _, fun a ha b hb => ?_⟩
        rw [List.mem_singleton.1 hb]
        exact (h.received other a ha).1
      · simp only [Function.update_of_ne hother]
        exact h.increasing other
  · intro other r hr
    obtain ⟨j, hj, hle⟩ := hupdate other
    have hold : ∀ r ∈ s.received other, r.1 < j ∧ (s.sent other.peer)[r.1]? = some r.2 := fun r hr =>
      ⟨(h.received other r hr).1.trans_le hle, (h.received other r hr).2⟩
    simp only [hj]
    cases result with
    | error error => exact hold r hr
    | ok text =>
      by_cases hother : other = side
      · subst hother
        obtain ⟨rfl, hget⟩ := hok text rfl
        simp only [Function.update_self, List.mem_append, List.mem_singleton] at hr hj
        rcases hr with hr | rfl
        · exact hold r hr
        · have hcounter := congrArg TransportSession.recvCounter hj
          dsimp only at hcounter
          exact ⟨by omega, hget⟩
      · simp only [Function.update_of_ne hother] at hr
        exact hold r hr
  · intro other
    by_cases hother : other = side
    · subst hother
      simp only [Function.update_self]
      exact hmem
    · simp only [Function.update_of_ne hother]
      exact h.pieces other
  · intro other htampered
    by_cases hother : other = side
    · subst hother
      obtain ⟨text, rest, hrest⟩ := htail htampered
      obtain ⟨left, hreceive, hleft⟩ := hreceives htampered text rest hrest
      obtain ⟨hreceived, hle, -⟩ := h.onWay other htampered
      obtain ⟨rfl, hr⟩ := Prod.mk.inj hreceive
      obtain ⟨-, rfl⟩ := Prod.mk.inj hr
      obtain ⟨rfl, hget⟩ := hok text rfl
      have hlt := (List.getElem?_eq_some_iff.1 hget).1
      simp only [Function.update_self]
      refine ⟨?_, hlt, ?_⟩
      · rw [List.map_append, hreceived, List.take_add_one, hget]
        rfl
      · rw [hleft, ← List.drop_drop, hrest, List.drop_one, List.tail_cons]
    · simp only [Function.update_of_ne hother]
      have hreceived : (match result with
          | .ok text => Function.update s.received side (s.received side ++ [((s.session side).recvCounter, text)])
          | .error _ => s.received) other = s.received other := by
        cases result with
        | error error => rfl
        | ok text => exact Function.update_of_ne hother _ _
      rw [hreceived]
      exact h.onWay other htampered

theorem step {e : Event} (hfits : Fits p s e) (hne : e.NotEmpty) {s' : State}
    (hstep : TransportSession.step p limit s e = some s') : Synced p limit s' := by
  cases e with
  | send side text =>
    obtain ⟨hheader, hcounter⟩ := hfits
    cases hstep
    exact h.send hne hheader hcounter
  | recv side =>
    by_cases hincoming : s.incoming side = []
    · rw [TransportSession.step, if_pos hincoming] at hstep
      cases hstep
    · rw [TransportSession.step, if_neg hincoming] at hstep
      cases hstep
      refine h.recv hincoming fun ciphertext hbegins => ?_
      by_cases htampered : s.tampered side = true
      · exact hfits htampered ciphertext hbegins
      · obtain ⟨text, rest, hrest⟩ := h.exists_tail (Bool.eq_false_iff.2 htampered) hincoming
        obtain ⟨ciphertext', hnext, hbegins', -⟩ := h.isNext_of_tail (Bool.eq_false_iff.2 htampered) hrest
        rw [eq_of_beginsWith hbegins hbegins']
        exact unforged_of_isNext hnext
  | pieces side conn =>
    obtain ⟨⟨hflatten, hmem⟩, hstep⟩ := Option.ite_none_right_eq_some.1 hstep
    cases hstep
    refine { h with pieces := fun other => ?_, onWay := fun other htampered => ?_ }
    · by_cases hother : other = side
      · simpa only [hother, Function.update_self] using hmem
      · simpa only [Function.update_of_ne hother] using h.pieces other
    · obtain ⟨hreceived, hle, honWay⟩ := h.onWay other htampered
      refine ⟨hreceived, hle, ?_⟩
      by_cases hother : other = side
      · subst hother
        simp only [Function.update_self]
        exact hflatten.trans honWay
      · simpa only [Function.update_of_ne hother] using honWay
  | tamper side conn =>
    rw [TransportSession.step] at hstep
    split at hstep
    · cases hstep
    · next hmem =>
      cases hstep
      refine { h with pieces := fun other => ?_, onWay := fun other htampered => ?_ }
      · by_cases hother : other = side
        · simpa only [hother, Function.update_self] using hmem
        · simpa only [Function.update_of_ne hother] using h.pieces other
      · by_cases hother : other = side
        · subst hother
          simp only [Function.update_self] at htampered
          cases htampered
        · simp only [Function.update_of_ne hother] at htampered ⊢
          exact h.onWay other htampered

theorem delivers : Delivers p limit s where
  nonces := h.nodup
  inOrder side := ⟨h.increasing side, fun r hr => (h.received side r hr).2⟩
  exactly side htampered := by
    obtain ⟨hreceived, -, -⟩ := h.onWay side htampered
    refine ⟨_, by rw [hreceived, List.take_append_drop], fun text htext => ?_⟩
    obtain ⟨rest, hrest⟩ := List.head?_eq_some_iff.1 htext
    obtain ⟨left, hrecv, -⟩ := h.recvText_of_tail htampered hrest
    rw [hrecv]
  accepts _ _ _ _ hbegins hunforged := h.accepts hbegins hunforged

end Synced

/-- The two handshakes derive the keys in opposite roles. -/
theorem keys_of_handshake {clientEphPrivate staticPrivate serverEphPrivate : Bytes} {pinned : Option Bytes}
    {rejectChanges : Bool} {client server : TransportSession}
    (h : p.handshake clientEphPrivate staticPrivate serverEphPrivate pinned rejectChanges = .ok (client, server)) :
    ∃ sendKey recvKey, client = ⟨sendKey, recvKey, 0, 0⟩ ∧ server = ⟨recvKey, sendKey, 0, 0⟩ := by
  obtain ⟨server', hserver, h⟩ := Check.bind_eq_ok.1 h
  obtain ⟨client', hclient, h⟩ := Check.bind_eq_ok.1 h
  cases h
  obtain ⟨-, hserver⟩ := Check.check_bind_eq_ok.1 hserver
  obtain ⟨-, hclient⟩ := Check.check_bind_eq_ok.1 hclient
  obtain ⟨-, hclient⟩ := Check.check_bind_eq_ok.1 hclient
  rw [p.exchange_comm clientEphPrivate staticPrivate, p.exchange_comm clientEphPrivate serverEphPrivate] at hclient
  cases hserver
  cases hclient
  exact ⟨_, _, rfl, rfl⟩

theorem synced_initial {sendKey recvKey : Bytes} (hkeys : sendKey ≠ recvKey) :
    Synced p limit (initial ⟨sendKey, recvKey, 0, 0⟩ ⟨recvKey, sendKey, 0, 0⟩) where
  keys side := by cases side <;> rfl
  distinct := hkeys
  counted side := by cases side <;> rfl
  bounded _ := Nat.zero_le _
  texts _ _ hmem := nomatch hmem
  nodup := List.nodup_nil
  used _ hmem := nomatch hmem
  increasing _ := .nil
  received _ _ hmem := nomatch hmem
  pieces _ := List.not_mem_nil
  onWay side _ := by cases side <;> exact ⟨rfl, Nat.zero_le _, rfl⟩

/-- **The session delivers every text** in every run in which no text is empty. -/
theorem delivers_of_reaches {clientEphPrivate staticPrivate serverEphPrivate : Bytes} {pinned : Option Bytes}
    {rejectChanges : Bool} {client server : TransportSession}
    (hhandshake : p.handshake clientEphPrivate staticPrivate serverEphPrivate pinned rejectChanges
      = .ok (client, server))
    (hkeys : client.sendKey ≠ client.recvKey)
    (hreach : Runs.Reaches (step p limit) (fun s e => Fits p s e ∧ e.NotEmpty) (initial client server) s) :
    Delivers p limit s := by
  obtain ⟨sendKey, recvKey, rfl, rfl⟩ := keys_of_handshake hhandshake
  have hsynced : Synced p limit s :=
    hreach.invariant (fun _ _ _ h he hstep => h.step he.1 he.2 hstep) (synced_initial hkeys)
  exact hsynced.delivers

/-! ### A session in the clear -/

theorem length_padded (privateKey : Bytes) : ((privateKey ++ List.replicate 32 0).take 32).length = 32 := by
  simp

/-- Primitives that derive the same two keys from every handshake. -/
def sample : TransportPrimitives where
  publicKey privateKey := (privateKey ++ List.replicate 32 0).take 32
  exchange _ _ := []
  sha256 data := data
  hkdf _ _ _ := List.replicate 32 1 ++ List.replicate 32 2
  chacha20Poly1305 := .plain
  length_publicKey := length_padded
  exchange_comm _ _ := rfl

/-- The session of the sample's client. -/
def sampleClient : TransportSession := ⟨List.replicate 32 1, List.replicate 32 2, 0, 0⟩

/-- The session of the sample's server. -/
def sampleServer : TransportSession := ⟨List.replicate 32 2, List.replicate 32 1, 0, 0⟩

theorem handshake_sample : sample.handshake [1] [2] [3] none true = .ok (sampleClient, sampleServer) := rfl

theorem sampleKeys_ne : sampleClient.sendKey ≠ sampleClient.recvKey := by decide

/-- Each end sends a text and receives the other's. -/
def sampleEvents : List Event :=
  [.send .client "ping", .send .server "pong", .recv .server, .recv .client]

theorem exists_sampleRun : ∃ s, Runs.exec (step sample fun _ => 100) (initial sampleClient sampleServer)
    sampleEvents = some s ∧ s.received .server = [(0, "ping")] ∧ s.received .client = [(0, "pong")] :=
  ⟨_, rfl, rfl, rfl⟩

theorem delivers_sample : ∃ s : State, s.received .server = [(0, "ping")] ∧
    s.received .client = [(0, "pong")] ∧ Delivers sample (fun _ => 100) s := by
  obtain ⟨s, hexec, hserver, hclient⟩ := exists_sampleRun
  refine ⟨s, hserver, hclient, delivers_of_reaches handshake_sample sampleKeys_ne
    (Runs.reaches_of_exec hexec ?_)⟩
  have hping : "ping" ≠ "" := by decide
  have hpong : "pong" ≠ "" := by decide
  refine ⟨⟨⟨by decide, by decide⟩, hping⟩, fun s₁ h₁ => ?_⟩
  cases h₁
  refine ⟨⟨⟨by decide, by decide⟩, hpong⟩, fun s₂ h₂ => ?_⟩
  cases h₂
  refine ⟨⟨fun htampered => (nomatch htampered), trivial⟩, fun s₃ h₃ => ?_⟩
  cases h₃
  exact ⟨⟨fun htampered => (nomatch htampered), trivial⟩, fun _ _ => trivial⟩

/-- The session of the sample when the client has sent an empty text. -/
def emptySent : State :=
  send sample (fun _ => 100) (initial sampleClient sampleServer) .client ""

theorem recvText_emptySent :
    (sample.recvText (emptySent.session .server) (emptySent.incoming .server) 100).1
      = .error "encrypted transport frame is too large" := rfl

/-- An empty text is sent within the limit, and the other end takes its frame for one that is too large. -/
theorem not_delivers_sample : ∃ s,
    sample.handshake [1] [2] [3] none true = .ok (sampleClient, sampleServer) ∧
    sampleClient.sendKey ≠ sampleClient.recvKey ∧
    Runs.Reaches (step sample fun _ => 100) (Fits sample) (initial sampleClient sampleServer) s ∧
    s.sent .client = [""] ∧ ¬ Delivers sample (fun _ => 100) s := by
  have hfits : Fits sample (initial sampleClient sampleServer) (.send .client "") := ⟨by decide, by decide⟩
  refine ⟨emptySent, handshake_sample, sampleKeys_ne, Runs.Reaches.refl.next hfits rfl, rfl, fun h => ?_⟩
  obtain ⟨rest, hsent, hrecv⟩ := h.exactly .server rfl
  obtain rfl : rest = [""] := hsent.symm
  have hok := hrecv "" rfl
  rw [recvText_emptySent] at hok
  cases hok

end TransportSession
