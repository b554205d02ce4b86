import InternationalDollar.Lib.Aead
import InternationalDollar.Lib.Check
import InternationalDollar.WireJson

set_option autoImplicit false

/-! # Encrypted sessions (`transport`)

Two ends derive two keys from one handshake, one for each direction. A text is sent as a frame: the length of
the ciphertext in four bytes and the ciphertext, whose nonce is a counter that each end keeps for itself.

The bytes arrive in pieces of any size. What is read from them is a frame, or the session rejects it. -/

/-- X25519, HKDF over SHA-256 and ChaCha20-Poly1305. -/
structure TransportPrimitives where
  publicKey : Bytes → Bytes
  exchange : (privateKey publicKey : Bytes) → Bytes
  sha256 : Bytes → Bytes
  hkdf : (salt info material : Bytes) → Bytes
  chacha20Poly1305 : Aead
  length_publicKey : ∀ privateKey, (publicKey privateKey).length = 32
  exchange_comm : ∀ a b, exchange a (publicKey b) = exchange b (publicKey a)

/-- One end of a session. -/
structure TransportSession where
  sendKey : Bytes
  recvKey : Bytes
  sendCounter : Nat
  recvCounter : Nat

namespace TransportPrimitives

variable (p : TransportPrimitives)

/-! ## The handshake -/

/-- `PROTOCOL_NAME`. -/
def protocolName : String := "INDN1_X25519_ChaCha20Poly1305_SHA256"

/-- `FRAME_HEADER_BYTES`. -/
def frameHeaderBytes : Nat := 4

/-- `AEAD_TAG_BYTES`. -/
def aeadTagBytes : Nat := 16

/-- `_derive_keys`: the key from the client to the server, and the other one. -/
def deriveKeys (clientEphPub serverStaticPub serverEphPub sharedStatic sharedEphemeral : Bytes) : Bytes × Bytes :=
  let transcript := (Text.utf8 "|").intercalate [Text.utf8 "INDN1", clientEphPub, serverStaticPub, serverEphPub]
  let keyMaterial := p.hkdf (p.sha256 transcript) (Text.utf8 protocolName) (sharedStatic ++ sharedEphemeral)
  (keyMaterial.take 32, keyMaterial.drop 32)

/-- `verify_or_pin_peer_key`, for the key that is pinned for the peer. -/
def verifyOrPinPeerKey (pinned : Option Bytes) (rejectChanges : Bool) (publicKey : Bytes) :
    Except String Unit :=
  Check.require (¬ (rejectChanges = true ∧ ∃ previous ∈ pinned, previous ≠ publicKey))
    "peer transport key changed"

/-- `client_handshake`, with the keys of the server's line. -/
def clientHandshake (clientEphPrivate serverStaticPub serverEphPub : Bytes) (pinned : Option Bytes)
    (rejectChanges : Bool) : Except String TransportSession := do
  Check.require (serverStaticPub.length = 32 ∧ serverEphPub.length = 32) "malformed transport public key"
  verifyOrPinPeerKey pinned rejectChanges serverStaticPub
  let (clientToServer, serverToClient) := p.deriveKeys (p.publicKey clientEphPrivate) serverStaticPub serverEphPub
    (p.exchange clientEphPrivate serverStaticPub) (p.exchange clientEphPrivate serverEphPub)
  pure ⟨clientToServer, serverToClient, 0, 0⟩

/-- `server_handshake`, with the key of the client's line. -/
def serverHandshake (staticPrivate serverEphPrivate clientEphPub : Bytes) : Except String TransportSession := do
  Check.require (clientEphPub.length = 32) "malformed transport client key"
  let (clientToServer, serverToClient) := p.deriveKeys clientEphPub (p.publicKey staticPrivate)
    (p.publicKey serverEphPrivate) (p.exchange staticPrivate clientEphPub)
    (p.exchange serverEphPrivate clientEphPub)
  pure ⟨serverToClient, clientToServer, 0, 0⟩

/-- The sessions of a client and a server whose handshakes meet. -/
def handshake (clientEphPrivate staticPrivate serverEphPrivate : Bytes) (pinned : Option Bytes)
    (rejectChanges : Bool) : Except String (TransportSession × TransportSession) := do
  let server ← p.serverHandshake staticPrivate serverEphPrivate (p.publicKey clientEphPrivate)
  let client ← p.clientHandshake clientEphPrivate (p.publicKey staticPrivate) (p.publicKey serverEphPrivate)
    pinned rejectChanges
  pure (client, server)

/-! ## Frames -/

/-- `_nonce`; `none` where `to_bytes` raises. -/
def nonce (counter : Nat) : Option Bytes :=
  if counter < 256 ^ 12 then some (bigEndian 12 counter []).reverse else none

/-- `send_text`: the frame that is sent. The counter has moved on when the length does not fit the header. -/
def sendText (s : TransportSession) (data : String) (maxPlaintextBytes : Int) :
    Except String Bytes × TransportSession :=
  if maxPlaintextBytes < (Text.utf8 data).length then (.error "encrypted transport payload is too large", s)
  else
    match nonce s.sendCounter with
    | none => (.error "int too big to convert", s)
    | some nonce =>
        let ciphertext := p.chacha20Poly1305.encrypt s.sendKey nonce (Text.utf8 data) []
        (if ciphertext.length < 256 ^ 4 then .ok (bigEndian 4 ciphertext.length [] ++ ciphertext)
          else .error "argument out of range",
          { s with sendCounter := s.sendCounter + 1 })

/-- `_recv_exact`: `conn.recv` returns some of the bytes that have arrived, and none at the end. -/
def recvExact : Nat → List Bytes → Except String (Bytes × List Bytes)
  | 0, conn => .ok ([], conn)
  | _ + 1, [] => .error "encrypted transport frame ended early"
  | size + 1, part :: conn =>
      if part = [] then .error "encrypted transport frame ended early"
      else if size + 1 < part.length then .ok (part.take (size + 1), part.drop (size + 1) :: conn)
      else do
        let (received, conn) ← recvExact (size + 1 - part.length) conn
        pure (part ++ received, conn)

/-- The text of a ciphertext. -/
def openText (key nonce ciphertext : Bytes) (maxPlaintextBytes : Int) : Except String String := do
  let plaintext ← Check.ofOption (p.chacha20Poly1305.decrypt key nonce ciphertext []) "InvalidTag"
  Check.require (plaintext.length ≤ maxPlaintextBytes) "encrypted transport payload is too large"
  Check.ofOption (Text.utf8Decode plaintext) "invalid start byte"

/-- `recv_text`: the text, the session and the bytes that are left. -/
def recvText (s : TransportSession) (conn : List Bytes) (maxPlaintextBytes : Int) :
    Except String String × TransportSession × List Bytes :=
  match recvExact frameHeaderBytes conn with
  | .error error => (.error error, s, [])
  | .ok (header, conn) =>
      let ciphertextSize := Text.bytesValue header 0
      if ciphertextSize ≤ aeadTagBytes ∨ maxPlaintextBytes + aeadTagBytes < ciphertextSize then
        (.error "encrypted transport frame is too large", s, conn)
      else
        match recvExact ciphertextSize conn with
        | .error error => (.error error, s, [])
        | .ok (ciphertext, conn) =>
            match nonce s.recvCounter with
            | none => (.error "int too big to convert", s, conn)
            | some nonce =>
                (p.openText s.recvKey nonce ciphertext maxPlaintextBytes,
                  { s with recvCounter := s.recvCounter + 1 }, conn)

end TransportPrimitives

/-! ## Bytes of a connection -/

theorem bytesValue_bigEndian (n value : Nat) (acc : Bytes) :
    Text.bytesValue (bigEndian n value acc) 0 = value % 256 ^ n * 256 ^ acc.length + Text.bytesValue acc 0 := by
  induction n generalizing value acc with
  | zero => rw [bigEndian, pow_zero, Nat.mod_one, Nat.zero_mul, Nat.zero_add]
  | succ n ih =>
    have hbyte : (UInt8.ofNat value).toNat = value % 256 := rfl
    have hmod : value % 256 ^ (n + 1) = value % 256 + 256 * (value / 256 % 256 ^ n) := by
      rw [pow_succ, Nat.mul_comm, Nat.mod_mul]
    rw [bigEndian, ih, List.length_cons, Text.bytesValue_cons, hbyte, hmod, pow_succ]
    ring

/-- A number that fits its bytes is read back. -/
theorem bytesValue_bigEndian_of_lt {n value : Nat} (h : value < 256 ^ n) :
    Text.bytesValue (bigEndian n value []) 0 = value := by
  rw [bytesValue_bigEndian, Nat.mod_eq_of_lt h]
  simp [Text.bytesValue]

namespace TransportPrimitives

variable {p : TransportPrimitives} {size : Nat} {conn left : List Bytes} {bytes ciphertext : Bytes}

theorem nonce_inj {j k : Nat} {n : Bytes} (hj : nonce j = some n) (hk : nonce k = some n) : j = k := by
  obtain ⟨hjlt, hjn⟩ := Option.ite_none_right_eq_some.1 hj
  obtain ⟨hklt, hkn⟩ := Option.ite_none_right_eq_some.1 hk
  have heq : bigEndian 12 j [] = bigEndian 12 k [] := by
    rw [← List.reverse_inj]
    exact (Option.some.inj hjn).trans (Option.some.inj hkn).symm
  rw [← bytesValue_bigEndian_of_lt hjlt, heq, bytesValue_bigEndian_of_lt hklt]

/-- What is read is the front of what has arrived, in whatever pieces it did. -/
theorem recvExact_eq_ok (h : recvExact size conn = .ok (bytes, left)) :
    conn.flatten = bytes ++ left.flatten ∧ bytes.length = size ∧ ([] ∉ conn → [] ∉ left) := by
  induction conn generalizing size bytes with
  | nil =>
    cases size with
    | zero =>
      cases h
      exact ⟨rfl, rfl, id⟩
    | succ size => cases h
  | cons part conn ih =>
    cases size with
    | zero =>
      cases h
      exact ⟨rfl, rfl, id⟩
    | succ size =>
      rw [recvExact] at h
      split at h
      · cases h
      · split at h
        · next hlt =>
          cases h
          refine ⟨?_, List.length_take_of_le hlt.le, fun hmem => ?_⟩
          · rw [List.flatten_cons, List.flatten_cons, ← List.append_assoc, List.take_append_drop]
          · have hdrop : part.drop (size + 1) ≠ [] := by
              rw [Ne, List.drop_eq_nil_iff]
              omega
            rw [List.mem_cons, not_or] at hmem ⊢
            exact ⟨hdrop.symm, hmem.2⟩
        · next hne hle =>
          obtain ⟨⟨more, rest⟩, hmore, hrest⟩ := Check.bind_eq_ok.1 h
          cases hrest
          obtain ⟨hflatten, hlength, hmem⟩ := ih hmore
          refine ⟨?_, ?_, fun hnot => hmem fun hin => hnot (List.mem_cons_of_mem _ hin)⟩
          · rw [List.flatten_cons, hflatten, List.append_assoc]
          · rw [List.length_append, hlength]
            omega

theorem exists_recvExact (hmem : [] ∉ conn) (h : size ≤ conn.flatten.length) :
    ∃ bytes left, recvExact size conn = .ok (bytes, left) := by
  induction conn generalizing size with
  | nil =>
    cases size with
    | zero => exact ⟨_, _, rfl⟩
    | succ size => exact absurd h (Nat.not_succ_le_zero size)
  | cons part conn ih =>
    cases size with
    | zero => exact ⟨_, _, rfl⟩
    | succ size =>
      rw [List.mem_cons, not_or] at hmem
      rw [recvExact, if_neg (Ne.symm hmem.1)]
      split
      · exact ⟨_, _, rfl⟩
      · rw [List.flatten_cons, List.length_append] at h
        obtain ⟨more, rest, hmore⟩ := @ih (size + 1 - part.length) hmem.2 (by omega)
        exact ⟨_, _, Check.bind_eq_ok.2 ⟨_, hmore, rfl⟩⟩

theorem recvExact_append {front rest : Bytes} (hmem : [] ∉ conn) (h : conn.flatten = front ++ rest) :
    ∃ left, recvExact front.length conn = .ok (front, left) ∧ left.flatten = rest ∧ [] ∉ left := by
  obtain ⟨bytes, left, hrecv⟩ := exists_recvExact hmem (show front.length ≤ conn.flatten.length by simp [h])
  obtain ⟨hflatten, hlength, hleft⟩ := recvExact_eq_ok hrecv
  rw [h] at hflatten
  obtain ⟨rfl, rfl⟩ := List.append_inj hflatten hlength.symm
  exact ⟨left, hrecv, rfl, hleft hmem⟩

/-! ## Sending and receiving -/

/-- Bytes that begin with a frame. -/
def BeginsWith (ciphertext : Bytes) (conn : List Bytes) : Prop :=
  [] ∉ conn ∧ ciphertext.length < 256 ^ 4 ∧
    ∃ rest, conn.flatten = bigEndian 4 ciphertext.length [] ++ ciphertext ++ rest

/-- The frame of a text that is the number `k` under a key. -/
def frame (p : TransportPrimitives) (key : Bytes) (k : Nat) (text : String) : Bytes :=
  let ciphertext := p.chacha20Poly1305.encrypt key (bigEndian 12 k []).reverse (Text.utf8 text) []
  bigEndian 4 ciphertext.length [] ++ ciphertext

variable {session session' : TransportSession} {text : String} {limit : Int}

theorem sendText_of_fits (hlimit : (Text.utf8 text).length ≤ limit)
    (hheader : (Text.utf8 text).length + 16 < 256 ^ 4) (hcounter : session.sendCounter < 256 ^ 12) :
    p.sendText session text limit = (.ok (p.frame session.sendKey session.sendCounter text),
      { session with sendCounter := session.sendCounter + 1 }) := by
  rw [sendText, if_neg (not_lt.2 hlimit), nonce, if_pos hcounter]
  refine Prod.ext (if_pos ?_) rfl
  rw [p.chacha20Poly1305.length_encrypt]
  exact hheader

theorem sendText_of_large (hlimit : ¬ ((Text.utf8 text).length : Int) ≤ limit) :
    p.sendText session text limit = (.error "encrypted transport payload is too large", session) :=
  if_pos (not_le.1 hlimit)

/-- Bytes begin with at most one frame. -/
theorem eq_of_beginsWith {ciphertext' : Bytes} (h : BeginsWith ciphertext conn)
    (h' : BeginsWith ciphertext' conn) : ciphertext = ciphertext' := by
  obtain ⟨-, hlt, rest, hrest⟩ := h
  obtain ⟨-, hlt', rest', hrest'⟩ := h'
  rw [hrest, List.append_assoc, List.append_assoc] at hrest'
  obtain ⟨hheader, hbytes⟩ := List.append_inj hrest' (by rw [length_bigEndian, length_bigEndian])
  have hlength : ciphertext.length = ciphertext'.length := by
    rw [← bytesValue_bigEndian_of_lt hlt, hheader, bytesValue_bigEndian_of_lt hlt']
  exact (List.append_inj hbytes hlength).1

/-- What happens to a frame whose length is allowed. -/
theorem recvText_of_beginsWith (h : BeginsWith ciphertext conn)
    (hsize : 16 < ciphertext.length) (hlimit : (ciphertext.length : Int) ≤ limit + 16) {n : Bytes}
    (hnonce : nonce session.recvCounter = some n) :
    ∃ left, p.recvText session conn limit = (p.openText session.recvKey n ciphertext limit,
      { session with recvCounter := session.recvCounter + 1 }, left) ∧
      conn.flatten = bigEndian 4 ciphertext.length [] ++ ciphertext ++ left.flatten ∧ [] ∉ left := by
  obtain ⟨hmem, hlt, rest, hrest⟩ := h
  rw [List.append_assoc] at hrest
  obtain ⟨conn', hheader, hflatten, hmem'⟩ := recvExact_append hmem hrest
  obtain ⟨left, hbody, hleft, hmem''⟩ := recvExact_append hmem' hflatten
  rw [length_bigEndian] at hheader
  refine ⟨left, ?_, by rw [hleft, hrest, List.append_assoc], hmem''⟩
  have hallowed : ¬ (ciphertext.length ≤ aeadTagBytes ∨ limit + aeadTagBytes < ciphertext.length) := by
    show ¬ (ciphertext.length ≤ 16 ∨ limit + 16 < ciphertext.length)
    omega
  have hheader' : recvExact frameHeaderBytes conn = .ok (bigEndian 4 ciphertext.length [], conn') := hheader
  rw [recvText, hheader']
  simp only [bytesValue_bigEndian_of_lt hlt, if_neg hallowed, hbody, hnonce]

/-- Where the session goes, whatever arrives. -/
theorem recvText_session (p : TransportPrimitives) (session : TransportSession) (conn : List Bytes)
    (limit : Int) : ∃ k, (p.recvText session conn limit).2.1 = { session with recvCounter := k } ∧
      session.recvCounter ≤ k := by
  unfold recvText
  split
  · exact ⟨_, rfl, le_rfl⟩
  · dsimp only
    split
    · exact ⟨_, rfl, le_rfl⟩
    · split
      · exact ⟨_, rfl, le_rfl⟩
      · split
        · exact ⟨_, rfl, le_rfl⟩
        · exact ⟨_, rfl, Nat.le_succ _⟩

theorem recvText_not_mem (hmem : [] ∉ conn) : [] ∉ (p.recvText session conn limit).2.2 := by
  unfold recvText
  split
  · exact List.not_mem_nil
  · next header conn' hheader =>
    have hmem' := (recvExact_eq_ok hheader).2.2 hmem
    dsimp only
    split
    · exact hmem'
    · split
      · exact List.not_mem_nil
      · next ciphertext left hbody =>
        have hleft := (recvExact_eq_ok hbody).2.2 hmem'
        split
        · exact hleft
        · exact hleft

theorem eq_utf8_of_utf8Decode {raw : Bytes} (h : Text.utf8Decode raw = some text) : raw = Text.utf8 text := by
  unfold Text.utf8Decode String.fromUTF8? at h
  split at h
  · cases h
    simp [Text.utf8, String.fromUTF8]
  · cases h

theorem openText_eq_ok {key n : Bytes} : p.openText key n ciphertext limit = .ok text ↔
    p.chacha20Poly1305.decrypt key n ciphertext [] = some (Text.utf8 text) ∧
      (Text.utf8 text).length ≤ limit := by
  rw [openText]
  simp only [Check.bind_eq_ok, Check.ofOption_eq_ok, Check.require_eq_ok]
  constructor
  · rintro ⟨plaintext, hdecrypt, _, hlimit, hdecode⟩
    obtain rfl := eq_utf8_of_utf8Decode hdecode
    exact ⟨hdecrypt, hlimit⟩
  · rintro ⟨hdecrypt, hlimit⟩
    exact ⟨_, hdecrypt, (), hlimit, Text.utf8Decode_utf8 text⟩

/-- A text that is received was decrypted from the frame in front. -/
theorem recvText_eq_ok (hmem : [] ∉ conn) (h : (p.recvText session conn limit).1 = .ok text) :
    ∃ ciphertext n, BeginsWith ciphertext conn ∧ nonce session.recvCounter = some n ∧
      16 < ciphertext.length ∧ (ciphertext.length : Int) ≤ limit + 16 ∧
      p.openText session.recvKey n ciphertext limit = .ok text ∧
      (p.recvText session conn limit).2.1 = { session with recvCounter := session.recvCounter + 1 } := by
  unfold recvText at h ⊢
  split at h
  · cases h
  · next header conn' hheader =>
    obtain ⟨hflatten, (hlength : header.length = 4), -⟩ := recvExact_eq_ok hheader
    dsimp only at h ⊢
    split at h
    · cases h
    · next hallowed =>
      rw [if_neg hallowed]
      split at h
      · cases h
      · next ciphertext left hbody =>
        obtain ⟨hflatten', hlength', -⟩ := recvExact_eq_ok hbody
        split at h
        · cases h
        · next n hnonce =>
          have hvalue : bigEndian 4 ciphertext.length [] = header := by
            have hlt := Text.bytesValue_lt header
            rw [hlength] at hlt
            refine Text.bytesValue_inj (by rw [length_bigEndian, hlength, List.length_nil]) ?_
            rw [hlength', bytesValue_bigEndian_of_lt hlt]
          have hlt := Text.bytesValue_lt header
          rw [hlength, ← hlength'] at hlt
          rw [← hlength', not_or, Nat.not_le, not_lt] at hallowed
          refine ⟨ciphertext, n, ⟨hmem, hlt, left.flatten, ?_⟩, hnonce, hallowed.1, hallowed.2, h, ?_⟩
          · rw [hflatten, hflatten', hvalue, List.append_assoc]
          · rfl

end TransportPrimitives
