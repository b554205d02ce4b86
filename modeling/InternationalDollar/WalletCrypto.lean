import InternationalDollar.Lib.Aead
import InternationalDollar.Lib.Check
import InternationalDollar.Lib.Runs

set_option autoImplicit false

/-! # The encrypted wallet (`wallet_crypto`)

The payload of a wallet is encrypted under a random key, the master key of the wallet, which is wrapped once
for each password and once for the recovery phrase. A rotation gives the wrapper of the current password a
deadline and adds one for the new password.

`neverLockedOut_of_reaches` says who can unlock the wallet after any number of rotations and changes of the
payload. Argon2id and AES-GCM are parameters; that they are ideal means that no secret of the run unwraps
what was wrapped under another one. -/

namespace WalletCrypto

/-- `FORMAT`. -/
def format : String := "INDW3"

/-- `Argon2Params`. -/
structure Argon2Params where
  memoryCostKib : Int
  iterations : Int
  parallelism : Int
deriving DecidableEq

/-- `DEFAULT_ARGON2_PARAMS`. -/
def defaultArgon2Params : Argon2Params := ⟨256 * 1024, 3, 4⟩

/-- The types of wrappers that are written. -/
inductive WrapperType where
  | password
  | recoveryPhrase
deriving DecidableEq

/-- `PASSWORD_WRAPPER`, `RECOVERY_PHRASE_WRAPPER`. -/
def WrapperType.text : WrapperType → String
  | .password => "password"
  | .recoveryPhrase => "recovery_phrase"

/-- What `_encrypt_aesgcm` returns, with the bytes that its texts stand for. -/
structure Box where
  cipher : String
  nonce : Bytes
  ciphertext : Bytes

/-- The master key under a secret. -/
structure Wrapper where
  type : WrapperType
  kdf : String
  params : Argon2Params
  salt : Bytes
  box : Box
  expiresAt : Option Int
  graceReason : Option String

/-- An encrypted wallet. -/
structure WalletRecord where
  format : String
  version : Int
  address : String
  createdAt : Int
  mwkBytes : Int
  mwkStorage : String
  payload : Box
  wrappers : List Wrapper
  updatedAt : Option Int

/-- AES-GCM, Argon2id and the score of a password, by `zxcvbn` or without it. -/
structure Primitives where
  aesgcm : Aead
  deriveArgon2id : (secret salt : Bytes) → Argon2Params → Bytes
  passwordScore : String → Int

/-! ## Texts of bytes -/

/-- The digit of six bits. -/
def base64Digit (n : Nat) : Char :=
  "ABCDEFGHIJKLMNOPQRSTUVWXYZabcdefghijklmnopqrstuvwxyz0123456789-_".toList.getD n '='

/-- `base64.urlsafe_b64encode`. -/
def urlsafeB64encode : Bytes → List Char
  | a :: b :: c :: rest =>
      [base64Digit (a.toNat / 4), base64Digit (a.toNat % 4 * 16 + b.toNat / 16),
        base64Digit (b.toNat % 16 * 4 + c.toNat / 64), base64Digit (c.toNat % 64)] ++ urlsafeB64encode rest
  | [a, b] =>
      [base64Digit (a.toNat / 4), base64Digit (a.toNat % 4 * 16 + b.toNat / 16),
        base64Digit (b.toNat % 16 * 4), '=']
  | [a] => [base64Digit (a.toNat / 4), base64Digit (a.toNat % 4 * 16), '=', '=']
  | [] => []

/-- `_payload_aad`. -/
def payloadAad (address : String) : Bytes :=
  Text.utf8 (format ++ ":payload:" ++ address)

/-- `_wrapper_aad`. -/
def wrapperAad (address : String) (wrapperType : WrapperType) (salt : Bytes) : Bytes :=
  Text.utf8 (format ++ ":mwk-wrapper:" ++ address ++ ":" ++ wrapperType.text ++ ":" ++
    String.ofList (urlsafeB64encode salt))

/-! ## Boxes and wrappers -/

namespace Primitives

variable (p : Primitives)

/-- `validate_wallet_password`. -/
def validateWalletPassword (password : String) : Except String Unit := do
  Check.require (10 ≤ password.length) "Wallet password must be at least 10 characters."
  Check.require (3 ≤ p.passwordScore password)
    "Wallet password is too easy to guess. Use a longer mixed phrase."

/-- `_encrypt_aesgcm`. -/
def encryptAesgcm (key nonce plaintext aad : Bytes) : Box :=
  ⟨"AES-256-GCM", nonce, p.aesgcm.encrypt key nonce plaintext aad⟩

/-- `_decrypt_aesgcm`. -/
def decryptAesgcm (key : Bytes) (box : Box) (aad : Bytes) : Except String Bytes := do
  Check.require (box.cipher = "AES-256-GCM") "unsupported wallet cipher"
  Check.ofOption (p.aesgcm.decrypt key box.nonce box.ciphertext aad) "InvalidTag"

/-- `_wrapper_from_secret`. -/
def wrapperFromSecret (address : String) (wrapperType : WrapperType) (secret : String) (mwk : Bytes)
    (params : Argon2Params) (expiresAt : Option Int) (salt nonce : Bytes) : Wrapper where
  type := wrapperType
  kdf := "Argon2id"
  params := params
  salt := salt
  box := p.encryptAesgcm (p.deriveArgon2id (Text.utf8 secret) salt params) nonce mwk
    (wrapperAad address wrapperType salt)
  expiresAt := expiresAt
  graceReason := none

/-- `_unwrap_with_secret`. -/
def unwrapWithSecret (address : String) (wrapper : Wrapper) (secret : String) : Except String Bytes := do
  Check.require (wrapper.kdf = "Argon2id") "unsupported wallet KDF"
  p.decryptAesgcm (p.deriveArgon2id (Text.utf8 secret) wrapper.salt wrapper.params) wrapper.box
    (wrapperAad address wrapper.type wrapper.salt)

/-! ## Records -/

/-- `create_wallet_record`, with the bytes that `os.urandom` gives. -/
def createWalletRecord (address : String) (walletPayload : Bytes) (walletPassword : String)
    (recoveryPhrase : Option String) (kdfParams : Option Argon2Params) (urandom : Nat → Bytes) (now : Int) :
    Except String WalletRecord := do
  p.validateWalletPassword walletPassword
  let params := kdfParams.getD defaultArgon2Params
  let address := Text.strip address
  let mwk := urandom 0
  let recovery := (recoveryPhrase.filter fun phrase => phrase ≠ "").toList.map fun phrase =>
    p.wrapperFromSecret address .recoveryPhrase phrase mwk params none (urandom 3) (urandom 4)
  pure { format, version := 3, address, createdAt := now, mwkBytes := 32, mwkStorage := "wrapped-only",
         payload := p.encryptAesgcm mwk (urandom 5) walletPayload (payloadAad address),
         wrappers := p.wrapperFromSecret address .password walletPassword mwk params none (urandom 1)
           (urandom 2) :: recovery,
         updatedAt := none }

/-- A wrapper that is tried with a secret. -/
def tryWrapper (record : WalletRecord) (secret : String) (wrapper : Wrapper) : Except String (Bytes × Bytes) := do
  let mwk ← p.unwrapWithSecret (Text.strip record.address) wrapper secret
  let payload ← p.decryptAesgcm mwk record.payload (payloadAad (Text.strip record.address))
  pure (payload, mwk)

/-- A wrapper that has not expired. -/
def isOpen (wrapperTypes : List WrapperType) (now : Int) (wrapper : Wrapper) : Bool :=
  wrapper.type ∈ wrapperTypes ∧ ∀ deadline ∈ wrapper.expiresAt, now ≤ deadline

/-- `decrypt_wallet_record`: the payload and the master key. -/
def decryptWalletRecord (record : WalletRecord) (secret : String) (wrapperTypes : List WrapperType)
    (now : Int) : Except String (Bytes × Bytes) := do
  Check.require (record.format = format) "unsupported wallet format"
  Check.ofOption ((record.wrappers.filter (isOpen wrapperTypes now)).findSome? fun wrapper =>
    (p.tryWrapper record secret wrapper).toOption) "wallet secret did not unlock any allowed wrapper"

/-- `update_wallet_payload`. -/
def updateWalletPayload (record : WalletRecord) (walletPayload mwk nonce : Bytes) (now : Int) :
    Except String WalletRecord := do
  Check.require (record.format = format) "unsupported wallet format"
  pure { record with
    payload := p.encryptAesgcm mwk nonce walletPayload (payloadAad (Text.strip record.address))
    updatedAt := some now }

/-- The wrapper of the current password gets a deadline. -/
def displace (graceUntil : Int) (wrapper : Wrapper) : Wrapper :=
  if wrapper.type = .password ∧ wrapper.expiresAt = none then
    { wrapper with expiresAt := some graceUntil, graceReason := some "previous_password" }
  else wrapper

/-- `rotate_password`. It reads the clock twice. -/
def rotatePassword (record : WalletRecord) (currentPassword newPassword : String) (graceSeconds : Int)
    (salt nonce : Bytes) (unlockedAt now : Int) : Except String (WalletRecord × Bytes × Int) := do
  p.validateWalletPassword newPassword
  let (payload, mwk) ← p.decryptWalletRecord record currentPassword [.password] unlockedAt
  let graceUntil := now + graceSeconds
  let updated := { record with
    wrappers := record.wrappers.map (displace graceUntil) ++
      [p.wrapperFromSecret (Text.strip record.address) .password newPassword mwk defaultArgon2Params none salt
        nonce]
    updatedAt := some now }
  let _ ← p.decryptAesgcm mwk updated.payload (payloadAad updated.address)
  pure (updated, payload, graceUntil)

end Primitives

/-! ## Runs -/

/-- A wallet file and the session of a process, with what happened to them: the payload, the newest password,
    and the passwords that were displaced, with the deadlines that the rotations returned. -/
structure State where
  record : WalletRecord
  sessionMwk : Option Bytes
  payload : Bytes
  newest : String
  displaced : List (String × Int)

/-- The passwords that should unlock a wallet: the newest one, and any other up to its deadline. -/
def State.Opens (s : State) (password : String) (now : Int) : Prop :=
  password = s.newest ∨ ∃ deadline, (password, deadline) ∈ s.displaced ∧ now ≤ deadline

/-- The passwords of a wallet are among some secrets. -/
def State.PasswordsIn (s : State) (secrets : Set String) : Prop :=
  s.newest ∈ secrets ∧ ∀ d ∈ s.displaced, d.1 ∈ secrets

/-- What the owner does. -/
inductive Event where
  | unlock (password : String) (now : Int)
  | clearSession
  | updatePayload (payload nonce : Bytes) (now : Int)
  | rotate (currentPassword newPassword : String) (graceSeconds : Int) (salt nonce : Bytes)
      (unlockedAt now : Int)

/-- The secrets of an event. -/
def Event.secrets : Event → List String
  | .unlock password _ => [password]
  | .rotate currentPassword newPassword _ _ _ _ _ => [currentPassword, newPassword]
  | _ => []

namespace Primitives

variable (p : Primitives)

/-- `wallet_decrypt`: the master key is kept for the session. -/
def unlock (s : State) (password : String) (now : Int) : State :=
  match p.decryptWalletRecord s.record password [.password] now with
  | .ok (_, mwk) => { s with sessionMwk := some mwk }
  | .error _ => s

/-- `wallet_reencrypt_unlocked`. -/
def updatePayload (s : State) (payload nonce : Bytes) (now : Int) : State :=
  match s.sessionMwk with
  | none => s
  | some mwk =>
      match p.updateWalletPayload s.record payload mwk nonce now with
      | .ok record => { s with record, payload }
      | .error _ => s

/-- A rotation that is kept if it returns. -/
def rotate (s : State) (currentPassword newPassword : String) (graceSeconds : Int) (salt nonce : Bytes)
    (unlockedAt now : Int) : State :=
  match p.rotatePassword s.record currentPassword newPassword graceSeconds salt nonce unlockedAt now with
  | .ok (record, _, graceUntil) =>
      { s with record, newest := newPassword, displaced := s.displaced ++ [(s.newest, graceUntil)] }
  | .error _ => s

/-- One step. -/
def step (s : State) : Event → Option State
  | .unlock password now => some (p.unlock s password now)
  | .clearSession => some { s with sessionMwk := none }
  | .updatePayload payload nonce now => some (p.updatePayload s payload nonce now)
  | .rotate currentPassword newPassword graceSeconds salt nonce unlockedAt now =>
      some (p.rotate s currentPassword newPassword graceSeconds salt nonce unlockedAt now)

/-- A new wallet. -/
def initial (record : WalletRecord) (payload : Bytes) (password : String) : State :=
  ⟨record, none, payload, password, []⟩

/-- The primitives are ideal for some secrets: none unwraps what was wrapped under another. -/
def Ideal (secrets : Set String) : Prop :=
  ∀ a ∈ secrets, ∀ b ∈ secrets, a ≠ b → ∀ salt params nonce plaintext aad,
    p.aesgcm.decrypt (p.deriveArgon2id (Text.utf8 b) salt params) nonce
      (p.aesgcm.encrypt (p.deriveArgon2id (Text.utf8 a) salt params) nonce plaintext aad) aad = none

/-- The owner is never locked out, and nobody else gets in with an old password. -/
structure NeverLockedOut (secrets : Set String) (recoveryPhrase : Option String) (s : State) : Prop where
  oneCurrent : ∃ w, s.record.wrappers.filter (fun w => w.type = .password ∧ w.expiresAt = none) = [w]
  newest : ∀ now, ∃ mwk, p.decryptWalletRecord s.record s.newest [.password] now = .ok (s.payload, mwk)
  older : ∀ password ∈ secrets, ∀ now,
    (s.Opens password now →
      ∃ mwk, p.decryptWalletRecord s.record password [.password] now = .ok (s.payload, mwk)) ∧
    (¬ s.Opens password now → p.decryptWalletRecord s.record password [.password] now
      = .error "wallet secret did not unlock any allowed wrapper")
  recovery : ∀ phrase ∈ recoveryPhrase, phrase ≠ "" → ∀ now,
    ∃ mwk, p.decryptWalletRecord s.record phrase [.recoveryPhrase] now = .ok (s.payload, mwk)
  failedRotation : ∀ currentPassword newPassword graceSeconds salt nonce unlockedAt now error,
    p.rotatePassword s.record currentPassword newPassword graceSeconds salt nonce unlockedAt now
      = .error error →
    p.rotate s currentPassword newPassword graceSeconds salt nonce unlockedAt now = s

/-! ## One wrapper -/

/-- The wrapper holds the master key under a secret. -/
structure Wraps (address : String) (wrapperType : WrapperType) (secret : String) (mwk : Bytes)
    (wrapper : Wrapper) : Prop where
  type : wrapper.type = wrapperType
  kdf : wrapper.kdf = "Argon2id"
  box : ∃ nonce, wrapper.box = p.encryptAesgcm
    (p.deriveArgon2id (Text.utf8 secret) wrapper.salt wrapper.params) nonce mwk
    (wrapperAad address wrapperType wrapper.salt)

variable {p} {address secret : String} {wrapperType : WrapperType} {mwk : Bytes} {wrapper : Wrapper}
  {secrets : Set String} {record : WalletRecord}

theorem wraps_wrapperFromSecret (params : Argon2Params) (expiresAt : Option Int) (salt nonce : Bytes) :
    p.Wraps address wrapperType secret mwk
      (p.wrapperFromSecret address wrapperType secret mwk params expiresAt salt nonce) :=
  ⟨rfl, rfl, nonce, rfl⟩

/-- A deadline is no part of what is encrypted. -/
theorem Wraps.displace (h : p.Wraps address wrapperType secret mwk wrapper) (graceUntil : Int) :
    p.Wraps address wrapperType secret mwk (displace graceUntil wrapper) := by
  unfold Primitives.displace
  split
  · exact ⟨h.type, h.kdf, h.box⟩
  · exact h

theorem decryptAesgcm_encryptAesgcm (key nonce plaintext aad : Bytes) :
    p.decryptAesgcm key (p.encryptAesgcm key nonce plaintext aad) aad = .ok plaintext := by
  show Check.ofOption (p.aesgcm.decrypt key nonce (p.aesgcm.encrypt key nonce plaintext aad) aad) _ = _
  rw [p.aesgcm.decrypt_encrypt]
  rfl

theorem Wraps.unwrap (h : p.Wraps address wrapperType secret mwk wrapper) :
    p.unwrapWithSecret address wrapper secret = .ok mwk := by
  obtain ⟨nonce, hbox⟩ := h.box
  rw [unwrapWithSecret, Check.require_of h.kdf, Check.ok_bind, hbox, h.type]
  exact decryptAesgcm_encryptAesgcm _ _ _ _

theorem Wraps.unwrap_of_ne (h : p.Wraps address wrapperType secret mwk wrapper) (hideal : p.Ideal secrets)
    (hsecret : secret ∈ secrets) {other : String} (hother : other ∈ secrets) (hne : secret ≠ other) :
    p.unwrapWithSecret address wrapper other = .error "InvalidTag" := by
  obtain ⟨nonce, hbox⟩ := h.box
  rw [unwrapWithSecret, Check.require_of h.kdf, Check.ok_bind, hbox, h.type]
  show Check.ofOption (p.aesgcm.decrypt _ nonce (p.aesgcm.encrypt _ nonce mwk _) _) _ = _
  rw [hideal secret hsecret other hother hne]
  rfl

/-! ## A wallet under one master key -/

/-- Every wrapper holds one master key, which decrypts the payload: the wrappers of the displaced passwords
    with their deadlines, the wrapper of the newest, and the one of the recovery phrase. -/
structure OneKey (p : Primitives) (recoveryPhrase : Option String) (s : State) (mwk : Bytes)
    (olds : List (Wrapper × String × Int)) (current : Wrapper) : Prop where
  format : s.record.format = format
  address : Text.strip s.record.address = s.record.address
  payload : ∃ nonce, s.record.payload = p.encryptAesgcm mwk nonce s.payload (payloadAad s.record.address)
  session : ∀ key ∈ s.sessionMwk, key = mwk
  passwords : s.record.wrappers.filter (fun w => w.type = .password) = olds.map (fun old => old.1) ++ [current]
  displaced : s.displaced = olds.map fun old => old.2
  old : ∀ old ∈ olds, p.Wraps s.record.address .password old.2.1 mwk old.1 ∧ old.1.expiresAt = some old.2.2
  current : p.Wraps s.record.address .password s.newest mwk current ∧ current.expiresAt = none
  recovery : ∀ phrase ∈ recoveryPhrase, phrase ≠ "" →
    ∃ w, s.record.wrappers.filter (fun w => w.type = .recoveryPhrase) = [w] ∧
      p.Wraps s.record.address .recoveryPhrase phrase mwk w ∧ w.expiresAt = none

variable {recoveryPhrase : Option String} {s : State} {olds : List (Wrapper × String × Int)}
  {current : Wrapper} {now : Int}

namespace OneKey

theorem tryWrapper (h : p.OneKey recoveryPhrase s mwk olds current)
    (hw : p.Wraps s.record.address wrapperType secret mwk wrapper) :
    p.tryWrapper s.record secret wrapper = .ok (s.payload, mwk) := by
  obtain ⟨nonce, hpayload⟩ := h.payload
  rw [Primitives.tryWrapper, h.address, hw.unwrap, Check.ok_bind, hpayload, decryptAesgcm_encryptAesgcm]
  rfl

theorem tryWrapper_of_ne (h : p.OneKey recoveryPhrase s mwk olds current) (hideal : p.Ideal secrets)
    (hw : p.Wraps s.record.address wrapperType secret mwk wrapper) (hsecret : secret ∈ secrets)
    {other : String} (hother : other ∈ secrets) (hne : secret ≠ other) :
    (p.tryWrapper s.record other wrapper).toOption = none := by
  rw [Primitives.tryWrapper, h.address, hw.unwrap_of_ne hideal hsecret hother hne]
  rfl

/-- The wrappers that a password is tried with. -/
theorem mem_open (h : p.OneKey recoveryPhrase s mwk olds current) :
    wrapper ∈ s.record.wrappers.filter (isOpen [.password] now) ↔
      wrapper = current ∨ ∃ old ∈ olds, old.1 = wrapper ∧ now ≤ old.2.2 := by
  have hmem : wrapper ∈ s.record.wrappers.filter (isOpen [.password] now) ↔
      wrapper ∈ s.record.wrappers.filter (fun w => w.type = .password) ∧
        ∀ deadline ∈ wrapper.expiresAt, now ≤ deadline := by
    simp only [List.mem_filter, isOpen, List.mem_singleton, decide_eq_true_eq, and_assoc]
  rw [hmem, h.passwords, List.mem_append, List.mem_map, List.mem_singleton]
  constructor
  · rintro ⟨⟨old, hold, rfl⟩ | rfl, hopen⟩
    · exact .inr ⟨old, hold, rfl, hopen _ (h.old old hold).2⟩
    · exact .inl rfl
  · rintro (rfl | ⟨old, hold, rfl, hopen⟩)
    · refine ⟨.inr rfl, fun deadline hdeadline => ?_⟩
      rw [h.current.2] at hdeadline
      cases hdeadline
    · refine ⟨.inl ⟨old, hold, rfl⟩, fun deadline hdeadline => ?_⟩
      rw [(h.old old hold).2, Option.mem_some_iff] at hdeadline
      exact hdeadline ▸ hopen

/-- A wrapper that is tried holds the key under a password which opens the wallet. -/
theorem wraps_of_mem_open (h : p.OneKey recoveryPhrase s mwk olds current)
    (hopen : wrapper ∈ s.record.wrappers.filter (isOpen [.password] now)) :
    ∃ password, s.Opens password now ∧ p.Wraps s.record.address .password password mwk wrapper := by
  obtain rfl | ⟨old, hold, rfl, hdeadline⟩ := h.mem_open.1 hopen
  · exact ⟨s.newest, .inl rfl, h.current.1⟩
  · refine ⟨old.2.1, .inr ⟨old.2.2, ?_, hdeadline⟩, (h.old old hold).1⟩
    rw [h.displaced]
    exact List.mem_map_of_mem hold

theorem exists_mem_open (h : p.OneKey recoveryPhrase s mwk olds current) {password : String}
    (hopens : s.Opens password now) :
    ∃ wrapper ∈ s.record.wrappers.filter (isOpen [.password] now),
      p.Wraps s.record.address .password password mwk wrapper := by
  obtain rfl | ⟨deadline, hmem, hdeadline⟩ := hopens
  · exact ⟨current, h.mem_open.2 (.inl rfl), h.current.1⟩
  · rw [h.displaced] at hmem
    obtain ⟨old, hold, heq⟩ := List.mem_map.1 hmem
    refine ⟨old.1, h.mem_open.2 (.inr ⟨old, hold, rfl, by rw [heq]; exact hdeadline⟩), ?_⟩
    have hwraps := (h.old old hold).1
    rwa [heq] at hwraps

theorem mem_of_opens (hin : s.PasswordsIn secrets) {password : String} (hopens : s.Opens password now) :
    password ∈ secrets := by
  obtain rfl | ⟨deadline, hmem, -⟩ := hopens
  · exact hin.1
  · exact hin.2 _ hmem

theorem decrypt_eq (h : p.OneKey recoveryPhrase s mwk olds current) (wrapperTypes : List WrapperType) :
    p.decryptWalletRecord s.record secret wrapperTypes now = Check.ofOption
      ((s.record.wrappers.filter (isOpen wrapperTypes now)).findSome? fun wrapper =>
        (p.tryWrapper s.record secret wrapper).toOption)
      "wallet secret did not unlock any allowed wrapper" := by
  rw [decryptWalletRecord, Check.require_of h.format]
  rfl

/-- A password that opens the wallet unlocks the current payload. -/
theorem decrypt_of_opens (h : p.OneKey recoveryPhrase s mwk olds current) (hideal : p.Ideal secrets)
    (hin : s.PasswordsIn secrets) {password : String} (hopens : s.Opens password now) :
    p.decryptWalletRecord s.record password [.password] now = .ok (s.payload, mwk) := by
  rw [h.decrypt_eq]
  refine Check.ofOption_eq_ok.2 ?_
  -- every wrapper that is tried gives this result or none
  have hall : ∀ w ∈ s.record.wrappers.filter (isOpen [.password] now), ∀ result,
      (p.tryWrapper s.record password w).toOption = some result → result = (s.payload, mwk) := by
    intro w hw result hresult
    obtain ⟨other, hother, hwraps⟩ := h.wraps_of_mem_open hw
    by_cases heq : other = password
    · rw [heq] at hwraps
      rw [h.tryWrapper hwraps] at hresult
      exact (Option.some.inj hresult).symm
    · rw [h.tryWrapper_of_ne hideal hwraps (mem_of_opens hin hother) (mem_of_opens hin hopens) heq] at hresult
      cases hresult
  obtain ⟨w, hw, hwraps⟩ := h.exists_mem_open hopens
  cases hfound : (s.record.wrappers.filter (isOpen [.password] now)).findSome? fun wrapper =>
      (p.tryWrapper s.record password wrapper).toOption with
  | none =>
    have hnone := List.findSome?_eq_none_iff.1 hfound w hw
    rw [h.tryWrapper hwraps] at hnone
    cases hnone
  | some result =>
    obtain ⟨w', hw', hresult⟩ := List.exists_of_findSome?_eq_some hfound
    rw [hall w' hw' result hresult]

/-- Another secret does not. -/
theorem decrypt_of_not_opens (h : p.OneKey recoveryPhrase s mwk olds current) (hideal : p.Ideal secrets)
    (hin : s.PasswordsIn secrets) {password : String} (hpassword : password ∈ secrets)
    (hopens : ¬ s.Opens password now) :
    p.decryptWalletRecord s.record password [.password] now
      = .error "wallet secret did not unlock any allowed wrapper" := by
  rw [h.decrypt_eq]
  have hnone : (s.record.wrappers.filter (isOpen [.password] now)).findSome? (fun wrapper =>
      (p.tryWrapper s.record password wrapper).toOption) = none := by
    refine List.findSome?_eq_none_iff.2 fun w hw => ?_
    obtain ⟨other, hother, hwraps⟩ := h.wraps_of_mem_open hw
    refine h.tryWrapper_of_ne hideal hwraps (mem_of_opens hin hother) hpassword fun heq => hopens ?_
    rwa [← heq]
  rw [hnone]
  rfl

/-- The recovery phrase is tried with its own wrapper. -/
theorem decrypt_recovery (h : p.OneKey recoveryPhrase s mwk olds current) {phrase : String}
    (hphrase : phrase ∈ recoveryPhrase) (hne : phrase ≠ "") :
    p.decryptWalletRecord s.record phrase [.recoveryPhrase] now = .ok (s.payload, mwk) := by
  obtain ⟨w, hfilter, hwraps, hexpires⟩ := h.recovery phrase hphrase hne
  have hopen : s.record.wrappers.filter (isOpen [.recoveryPhrase] now) = [w] := by
    have hsplit : s.record.wrappers.filter (isOpen [.recoveryPhrase] now) =
        (s.record.wrappers.filter fun w => w.type = .recoveryPhrase).filter fun w =>
          ∀ deadline ∈ w.expiresAt, now ≤ deadline := by
      rw [List.filter_filter]
      refine List.filter_congr fun w _ => ?_
      simp only [isOpen, List.mem_singleton, Bool.decide_and, Bool.and_comm]
    rw [hsplit, hfilter, List.filter_cons_of_pos (by rw [hexpires]; simp), List.filter_nil]
  rw [h.decrypt_eq, hopen, List.findSome?_cons, h.tryWrapper hwraps]
  rfl

/-- What is unlocked is the current payload, with the master key. -/
theorem eq_of_decrypt (h : p.OneKey recoveryPhrase s mwk olds current) (hideal : p.Ideal secrets)
    (hin : s.PasswordsIn secrets) {password : String} (hpassword : password ∈ secrets)
    {result : Bytes × Bytes}
    (hdecrypt : p.decryptWalletRecord s.record password [.password] now = .ok result) :
    result = (s.payload, mwk) := by
  by_cases hopens : s.Opens password now
  · rw [h.decrypt_of_opens hideal hin hopens] at hdecrypt
    exact (Except.ok.inj hdecrypt).symm
  · rw [h.decrypt_of_not_opens hideal hin hpassword hopens] at hdecrypt
    cases hdecrypt

end OneKey

/-! ## The steps -/

/-- Some master key. -/
def Sound (p : Primitives) (secrets : Set String) (recoveryPhrase : Option String) (s : State) : Prop :=
  s.PasswordsIn secrets ∧ ∃ mwk olds current, p.OneKey recoveryPhrase s mwk olds current

theorem Sound.unlock (h : p.Sound secrets recoveryPhrase s) (hideal : p.Ideal secrets) {password : String}
    (hpassword : password ∈ secrets) : p.Sound secrets recoveryPhrase (p.unlock s password now) := by
  unfold Primitives.unlock
  split
  · next payload key hdecrypt =>
    obtain ⟨hin, mwk, olds, current, hkey⟩ := h
    have heq := hkey.eq_of_decrypt hideal hin hpassword hdecrypt
    refine ⟨hin, mwk, olds, current, { hkey with session := fun key' hkey' => ?_ }⟩
    cases hkey'
    exact congrArg Prod.snd heq
  · exact h

theorem Sound.updatePayload (h : p.Sound secrets recoveryPhrase s) (payload nonce : Bytes) :
    p.Sound secrets recoveryPhrase (p.updatePayload s payload nonce now) := by
  obtain ⟨hin, mwk, olds, current, hkey⟩ := h
  unfold Primitives.updatePayload
  split
  · exact ⟨hin, mwk, olds, current, hkey⟩
  · next key hsession =>
    obtain rfl := hkey.session key hsession
    have hupdate : p.updateWalletPayload s.record payload key nonce now = .ok { s.record with
        payload := p.encryptAesgcm key nonce payload (payloadAad s.record.address)
        updatedAt := some now } := by
      rw [updateWalletPayload, Check.require_of hkey.format, Check.ok_bind, hkey.address]
      rfl
    rw [hupdate]
    exact ⟨hin, key, olds, current, { hkey with payload := ⟨nonce, rfl⟩ }⟩

/-- What a rotation returns. -/
theorem rotatePassword_eq_ok {currentPassword newPassword : String} {graceSeconds unlockedAt graceUntil : Int}
    {salt nonce payload : Bytes} {record' : WalletRecord}
    (h : p.rotatePassword record currentPassword newPassword graceSeconds salt nonce unlockedAt now
      = .ok (record', payload, graceUntil)) :
    ∃ mwk, p.decryptWalletRecord record currentPassword [.password] unlockedAt = .ok (payload, mwk) ∧
      record' = { record with
        wrappers := record.wrappers.map (displace graceUntil) ++
          [p.wrapperFromSecret (Text.strip record.address) .password newPassword mwk defaultArgon2Params none
            salt nonce]
        updatedAt := some now } := by
  rw [rotatePassword, Check.check_bind_eq_ok] at h
  obtain ⟨-, h⟩ := h
  obtain ⟨⟨payload', mwk⟩, hdecrypt, h⟩ := Check.bind_eq_ok.1 h
  obtain ⟨_, -, h⟩ := Check.bind_eq_ok.1 h
  obtain ⟨rfl, rfl, rfl⟩ : _ = record' ∧ payload' = payload ∧ _ = graceUntil := by
    simpa using Except.ok.inj h
  exact ⟨mwk, hdecrypt, rfl⟩

theorem displace_type (graceUntil : Int) (w : Wrapper) : (displace graceUntil w).type = w.type := by
  unfold displace
  split <;> rfl

theorem displace_of_ne {graceUntil : Int} {w : Wrapper} (h : w.type ≠ .password ∨ w.expiresAt ≠ none) :
    displace graceUntil w = w :=
  if_neg fun hboth => h.elim (fun h => h hboth.1) fun h => h hboth.2

theorem filter_displace (graceUntil : Int) (wrapperType : WrapperType) (ws : List Wrapper) :
    (ws.map (displace graceUntil)).filter (fun w => w.type = wrapperType)
      = (ws.filter fun w => w.type = wrapperType).map (displace graceUntil) := by
  rw [List.filter_map]
  refine congrArg _ (List.filter_congr fun w _ => ?_)
  rw [Function.comp_apply, displace_type]

theorem Sound.rotate (h : p.Sound secrets recoveryPhrase s) (hideal : p.Ideal secrets)
    {currentPassword newPassword : String} (hcurrent : currentPassword ∈ secrets)
    (hnew : newPassword ∈ secrets) (graceSeconds : Int) (salt nonce : Bytes) (unlockedAt : Int) :
    p.Sound secrets recoveryPhrase
      (p.rotate s currentPassword newPassword graceSeconds salt nonce unlockedAt now) := by
  unfold Primitives.rotate
  split
  · next record payload graceUntil hrotate =>
    obtain ⟨hin, mwk, olds, current, hkey⟩ := h
    obtain ⟨key, hdecrypt, rfl⟩ := rotatePassword_eq_ok hrotate
    obtain ⟨-, rfl⟩ := Prod.mk.inj (hkey.eq_of_decrypt hideal hin hcurrent hdecrypt)
    have hpasswords : ∀ d ∈ s.displaced ++ [(s.newest, graceUntil)], d.1 ∈ secrets := by
      intro d hd
      obtain hd | hd := List.mem_append.1 hd
      · exact hin.2 d hd
      · rw [List.mem_singleton.1 hd]
        exact hin.1
    have hexpires : (displace graceUntil current).expiresAt = some graceUntil := by
      have htype := hkey.current.1.type
      rw [displace, if_pos ⟨htype, hkey.current.2⟩]
    have holds : (olds.map fun old => old.1).map (displace graceUntil) = olds.map fun old => old.1 := by
      rw [List.map_map]
      refine List.map_congr_left fun old hold => displace_of_ne (.inr ?_)
      rw [(hkey.old old hold).2]
      exact Option.some_ne_none _
    refine ⟨⟨hnew, hpasswords⟩, key, olds ++ [(displace graceUntil current, s.newest, graceUntil)],
      p.wrapperFromSecret s.record.address .password newPassword key defaultArgon2Params none salt nonce,
      { format := hkey.format, address := hkey.address, payload := hkey.payload, session := hkey.session,
        passwords := ?_, displaced := ?_, old := ?_, current := ⟨?_, rfl⟩, recovery := ?_ }⟩
    · show (_ ++ [_]).filter _ = _
      rw [List.filter_append, filter_displace, hkey.passwords, List.map_append, holds, hkey.address,
        List.map_append]
      rfl
    · show s.displaced ++ _ = _
      rw [hkey.displaced, List.map_append]
      rfl
    · intro old hold
      obtain hold | hold := List.mem_append.1 hold
      · exact hkey.old old hold
      · rw [List.mem_singleton.1 hold]
        exact ⟨hkey.current.1.displace graceUntil, hexpires⟩
    · exact wraps_wrapperFromSecret _ _ _ _
    · intro phrase hphrase hne
      obtain ⟨w, hfilter, hwraps, hnone⟩ := hkey.recovery phrase hphrase hne
      have hkept : displace graceUntil w = w := displace_of_ne (.inl (by rw [hwraps.type]; decide))
      refine ⟨w, ?_, hwraps, hnone⟩
      show (_ ++ [_]).filter _ = _
      rw [List.filter_append, filter_displace, hfilter, List.map_singleton, hkept]
      rfl
  · exact h

theorem Sound.step (h : p.Sound secrets recoveryPhrase s) (hideal : p.Ideal secrets) {e : Event}
    (hsecrets : ∀ secret ∈ e.secrets, secret ∈ secrets) {s' : State} (hstep : p.step s e = some s') :
    p.Sound secrets recoveryPhrase s' := by
  cases e with
  | unlock password now =>
    cases hstep
    exact h.unlock hideal (hsecrets password List.mem_cons_self)
  | clearSession =>
    cases hstep
    obtain ⟨hin, mwk, olds, current, hkey⟩ := h
    exact ⟨hin, mwk, olds, current, { hkey with session := fun _ hkey' => nomatch hkey' }⟩
  | updatePayload payload nonce now =>
    cases hstep
    exact h.updatePayload payload nonce
  | rotate currentPassword newPassword graceSeconds salt nonce unlockedAt now =>
    cases hstep
    exact h.rotate hideal (hsecrets _ List.mem_cons_self)
      (hsecrets _ (List.mem_cons_of_mem _ List.mem_cons_self)) graceSeconds salt nonce unlockedAt

/-- A new wallet has one wrapper for the password and at most one for the recovery phrase. -/
theorem sound_initial {payload : Bytes} {password : String} {kdfParams : Option Argon2Params}
    {urandom : Nat → Bytes} (hpassword : password ∈ secrets)
    (hcreate : p.createWalletRecord address payload password recoveryPhrase kdfParams urandom now = .ok record) :
    p.Sound secrets recoveryPhrase (initial record payload password) := by
  rw [createWalletRecord, Check.check_bind_eq_ok] at hcreate
  obtain ⟨-, hcreate⟩ := hcreate
  cases hcreate
  refine ⟨⟨hpassword, fun _ hd => nomatch hd⟩, urandom 0, [],
    p.wrapperFromSecret (Text.strip address) .password password (urandom 0)
      (kdfParams.getD defaultArgon2Params) none (urandom 1) (urandom 2),
    { format := rfl, address := Text.strip_strip address, payload := ⟨urandom 5, rfl⟩,
      session := fun _ hkey => (nomatch hkey), passwords := ?_, displaced := rfl,
      old := fun _ hold => (nomatch hold), current := ⟨?_, rfl⟩, recovery := ?_ }⟩
  · rw [List.map_nil, List.nil_append]
    refine List.filter_cons_of_pos (by rfl) |>.trans (congrArg _ (List.filter_eq_nil_iff.2 ?_))
    intro w hw
    obtain ⟨phrase, -, rfl⟩ := List.mem_map.1 hw
    exact Bool.false_ne_true
  · exact wraps_wrapperFromSecret _ _ _ _
  · intro phrase hphrase hne
    rw [Option.mem_def] at hphrase
    subst hphrase
    refine ⟨p.wrapperFromSecret (Text.strip address) .recoveryPhrase phrase (urandom 0)
      (kdfParams.getD defaultArgon2Params) none (urandom 3) (urandom 4), ?_, wraps_wrapperFromSecret _ _ _ _, rfl⟩
    have hgiven : (some phrase).filter (fun phrase => phrase ≠ "") = some phrase :=
      if_pos (decide_eq_true hne)
    show List.filter _ (_ :: _) = _
    rw [hgiven]
    rfl

/-- A wallet under one master key locks nobody out. -/
theorem Sound.neverLockedOut (h : p.Sound secrets recoveryPhrase s) (hideal : p.Ideal secrets) :
    p.NeverLockedOut secrets recoveryPhrase s := by
  obtain ⟨hin, mwk, olds, current, hkey⟩ := h
  refine ⟨⟨current, ?_⟩, fun now => ⟨mwk, hkey.decrypt_of_opens hideal hin (.inl rfl)⟩,
    fun password hpassword now => ⟨fun hopens => ⟨mwk, hkey.decrypt_of_opens hideal hin hopens⟩,
      hkey.decrypt_of_not_opens hideal hin hpassword⟩,
    fun phrase hphrase hne now => ⟨mwk, hkey.decrypt_recovery hphrase hne⟩, ?_⟩
  · have hsplit : s.record.wrappers.filter (fun w => w.type = .password ∧ w.expiresAt = none)
        = (s.record.wrappers.filter fun w => w.type = .password).filter fun w => w.expiresAt = none := by
      rw [List.filter_filter]
      refine List.filter_congr fun w _ => ?_
      simp only [Bool.decide_and, Bool.and_comm]
    have holds : (olds.map fun old => old.1).filter (fun w => w.expiresAt = none) = [] := by
      refine List.filter_eq_nil_iff.2 fun w hw => ?_
      obtain ⟨old, hold, rfl⟩ := List.mem_map.1 hw
      rw [(hkey.old old hold).2]
      simp
    rw [hsplit, hkey.passwords, List.filter_append, holds, List.nil_append]
    exact List.filter_cons_of_pos (decide_eq_true hkey.current.2)
  · intro currentPassword newPassword graceSeconds salt nonce unlockedAt now error herror
    rw [Primitives.rotate, herror]

/-- **The owner is never locked out**, after any rotations and changes of the payload. -/
theorem neverLockedOut_of_reaches {payload : Bytes} {password : String} {kdfParams : Option Argon2Params}
    {urandom : Nat → Bytes} (hideal : p.Ideal secrets) (hpassword : password ∈ secrets)
    (hcreate : p.createWalletRecord address payload password recoveryPhrase kdfParams urandom now = .ok record)
    (hreach : Runs.Reaches p.step (fun _ e => ∀ secret ∈ e.secrets, secret ∈ secrets)
      (initial record payload password) s) :
    p.NeverLockedOut secrets recoveryPhrase s := by
  have hsound : p.Sound secrets recoveryPhrase s :=
    hreach.invariant (fun _ _ _ h he hstep => h.step hideal he hstep) (sound_initial hpassword hcreate)
  exact hsound.neverLockedOut hideal

/-! ### A wallet with two passwords -/

/-- Secrets that differ in their first bytes are their own keys. -/
def sample : Primitives where
  aesgcm := .plain
  deriveArgon2id secret _ _ := secret
  passwordScore _ := 4

/-- The passwords of the sample. -/
def sampleSecrets : Set String := {"amber-harbour-41", "violet-anchor-37"}

theorem ideal_sample : sample.Ideal sampleSecrets := by
  rintro a (rfl | rfl) b (rfl | rfl) hne salt params nonce plaintext aad
  · exact absurd rfl hne
  · exact Aead.plain_decrypt_of_ne (Aead.plainTag_ne_of_head (by decide) _ _ _ _)
  · exact Aead.plain_decrypt_of_ne (Aead.plainTag_ne_of_head (by decide) _ _ _ _)
  · exact absurd rfl hne

/-- A rotation, and a change of the payload with the new password. -/
def sampleEvents : List Event :=
  [.rotate "amber-harbour-41" "violet-anchor-37" 2592000 [3] [4] 100 100, .unlock "violet-anchor-37" 200,
    .updatePayload [7, 7] [5] 200]

/-- The record of the sample when it is created. -/
def sampleCreate : Except String WalletRecord :=
  sample.createWalletRecord "owner" [1] "amber-harbour-41" (some "phrase") none (fun n => [n.toUInt8]) 50

theorem exists_sampleRun : ∃ record s, sampleCreate = .ok record ∧
    Runs.exec sample.step (initial record [1] "amber-harbour-41") sampleEvents = some s ∧
    s.newest = "violet-anchor-37" ∧ s.payload = [7, 7] ∧ s.displaced = [("amber-harbour-41", 2592100)] :=
  ⟨_, _, rfl, rfl, rfl, rfl, rfl⟩

theorem neverLockedOut_sample : ∃ s : State, s.newest = "violet-anchor-37" ∧ s.payload = [7, 7] ∧
    s.displaced = [("amber-harbour-41", 2592100)] ∧
    sample.NeverLockedOut sampleSecrets (some "phrase") s := by
  obtain ⟨record, s, hcreate, hexec, hnewest, hpayload, hdisplaced⟩ := exists_sampleRun
  have hmeets : ∀ e ∈ sampleEvents, ∀ secret ∈ e.secrets, secret ∈ sampleSecrets := by
    simp [sampleEvents, Event.secrets, sampleSecrets]
  exact ⟨s, hnewest, hpayload, hdisplaced, neverLockedOut_of_reaches ideal_sample (.inl rfl) hcreate
    (Runs.reaches_of_exec hexec (Runs.meetsAll_of_forall fun _ => hmeets))⟩

end Primitives

end WalletCrypto
