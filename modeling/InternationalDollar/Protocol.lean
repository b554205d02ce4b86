import InternationalDollar.Lib.Check
import InternationalDollar.Lib.Json

set_option autoImplicit false

/-! # Shared protocol rules (`protocol`)

The constants of the protocol, canonical JSON under its size limits, denominations and serials, and
the cryptographic primitives every other module takes as a parameter. -/

/-- SHA3-256 and Ed25519. The laws are the documented ones: lengths of digests, keys and signatures,
    and that a signature made with a seed verifies under the public key of the seed. Nothing is
    assumed about collisions or forgeries. -/
structure Crypto where
  sha3_256 : Bytes → Bytes
  publicKeyFromSeed : Bytes → Bytes
  sign : Bytes → Bytes → Bytes
  verify : Bytes → Bytes → Bytes → Bool
  length_sha3_256 : ∀ data, (sha3_256 data).length = 32
  length_publicKeyFromSeed : ∀ seed, (publicKeyFromSeed seed).length = 32
  length_sign : ∀ seed message, (sign seed message).length = 64
  verify_sign : ∀ seed message, seed.length = 32 →
    verify (publicKeyFromSeed seed) (sign seed message) message = true

/-- `sha3_hex`. -/
def Crypto.sha3Hex (crypto : Crypto) (data : Bytes) : String :=
  Text.hex (crypto.sha3_256 data)

/-! ## A stand-in for the primitives

Runs on fixed inputs need primitives that can be computed. This stand-in hashes by a polynomial over
256-bit numbers and signs by hashing, with the seed as public key. -/

/-- The `n` lowest bytes of a number, most significant first, before `acc`. -/
def bigEndian : Nat → Nat → Bytes → Bytes
  | 0, _, acc => acc
  | n + 1, value, acc => bigEndian n (value / 256) (UInt8.ofNat value :: acc)

theorem length_bigEndian (n value : Nat) (acc : Bytes) :
    (bigEndian n value acc).length = n + acc.length := by
  induction n generalizing value acc with
  | zero => simp [bigEndian]
  | succ n ih =>
    rw [bigEndian, ih, List.length_cons]
    omega

/-- The polynomial hash of a byte string. -/
def sampleHash (data : Bytes) : Bytes :=
  bigEndian 32 (data.foldl (fun acc b =>
    (acc * 100000000000000000000000000000000000133 + b.toNat + 1) % 2 ^ 256) 1) []

/-- The signature of a message under a seed. -/
def sampleSign (seed message : Bytes) : Bytes :=
  sampleHash (seed ++ message) ++ sampleHash (message ++ seed)

/-- The stand-in for SHA3-256 and Ed25519. -/
def sampleCrypto : Crypto where
  sha3_256 := sampleHash
  publicKeyFromSeed := fun seed => (seed ++ List.replicate 32 0).take 32
  sign := sampleSign
  verify := fun publicKey signature message => signature == sampleSign publicKey message
  length_sha3_256 := fun _ => length_bigEndian 32 _ []
  length_publicKeyFromSeed := fun seed => by simp
  length_sign := fun seed message => by
    simp [sampleSign, sampleHash, length_bigEndian]
  verify_sign := fun seed message h => by
    have hkey : (seed ++ List.replicate 32 0).take 32 = seed := by
      rw [List.take_append_of_le_length (by omega), List.take_of_length_le (by omega)]
    rw [hkey]
    exact beq_self_eq_true _

/-! ## Constants -/

/-- `MAX_PROTOCOL_TIMESTAMP`. -/
def maxProtocolTimestamp : Int := 9223372036854775807

/-- `MAX_TRANSFER_FUTURE_SKEW_SECONDS`. -/
def maxTransferFutureSkewSeconds : Int := 300

/-- `MAX_TRANSFERS_PER_BILL_PER_DAY`. -/
def maxTransfersPerBillPerDay : Int := 10

/-- `MAX_TRANSFER_METADATA_BYTES`. -/
def maxTransferMetadataBytes : Nat := 256

/-- `MAX_GENESIS_METADATA_BYTES`. -/
def maxGenesisMetadataBytes : Nat := 1024

/-- `TOTAL_SUPPLY`. -/
def totalSupply : Int := 33000000000

/-- The default limits on JSON values. -/
def jsonLimits : Json.Limits where
  maxDepth := 64
  maxListItems := 100000
  maxObjectKeys := 1024
  maxStringBytes := 65536
  maxIntegerAbs := 9223372036854775807

/-- `DENOMINATION_SERIAL_CAPS`: every allowed denomination with the number of its serials. -/
def denominationSerialCaps : List (Int × Int) :=
  [(1, 6000000000), (2, 5500000000), (5, 5000000000), (10, 4500000000), (20, 4000000000),
    (50, 2000000000), (100, 1500000000), (200, 1000000000), (500, 800000000), (1000, 700000000),
    (2000, 600000000), (5000, 500000000), (10000, 400000000), (20000, 250000000),
    (50000, 150000000), (100000, 100000000)]

/-! ## Canonical JSON -/

/-- `_canonical_bytes`: the size limits, then the canonical text. -/
def canonicalBytes (data : Json) : Except String Bytes := do
  data.validate jsonLimits "protocol object" 0
  pure data.bytes

theorem canonicalBytes_eq_ok {data : Json} {raw : Bytes} :
    canonicalBytes data = .ok raw ↔
      data.validate jsonLimits "protocol object" 0 = .ok () ∧ data.bytes = raw := by
  simp [canonicalBytes]

theorem canonicalBytes_inj {a b : Json} {raw : Bytes} (ha : canonicalBytes a = .ok raw)
    (hb : canonicalBytes b = .ok raw) : a = b :=
  Json.bytes_inj ((canonicalBytes_eq_ok.1 ha).2.trans (canonicalBytes_eq_ok.1 hb).2.symm)

/-- A text of moderate length is within the limits. -/
theorem validate_text {s label : String} {depth : Nat} (hdepth : depth ≤ jsonLimits.maxDepth)
    (hlen : s.length ≤ 16384) : (Json.str s).validate jsonLimits label depth = .ok () := by
  refine Json.validate_str.2 ⟨hdepth, ?_⟩
  have := Json.utf8ByteSize_le s
  change s.utf8ByteSize ≤ 65536
  omega

theorem validate_number {n : Int} {label : String} {depth : Nat}
    (hdepth : depth ≤ jsonLimits.maxDepth) (hn : n.natAbs ≤ jsonLimits.maxIntegerAbs) :
    (Json.int n).validate jsonLimits label depth = .ok () :=
  Json.validate_int.2 ⟨hdepth, hn⟩

/-- The hash of the canonical text of a value. -/
def sha3Json (crypto : Crypto) (data : Json) : Except String String := do
  let raw ← canonicalBytes data
  pure (crypto.sha3Hex raw)

/-- Whether a value is an object. -/
def Json.isObject : Json → Bool
  | .obj _ => true
  | _ => false

/-- `_require_metadata`. -/
def requireMetadata (metadata : Json) (limit : Nat) (label : String) : Except String Unit := do
  Check.require (metadata.isObject = true) (label ++ " metadata must be an object")
  metadata.validate jsonLimits (label ++ " metadata") 0
  let raw ← canonicalBytes metadata
  Check.require (raw.length ≤ limit) (label ++ " metadata is too large")

/-- Join label and message parts. -/
def labelled (label message : String) : String :=
  label ++ " " ++ message

/-! ## Integers and hashes -/

/-- `_require_int` with a minimum. That the value is an integer is its type here. -/
def requireMin (value minimum : Int) (label : String) : Except String Unit :=
  Check.require (minimum ≤ value) (labelled label "is below the allowed range")

/-- `_require_int` with a maximum. -/
def requireMax (value maximum : Int) (label : String) : Except String Unit :=
  Check.require (value ≤ maximum) (labelled label "is above the allowed range")

/-- `_hex32` of the binary objects: 64 characters that `bytes.fromhex` reads. -/
def hex32 (value label : String) : Except String String := do
  Check.require (value.length = 64 ∧ (Text.fromhex value).isSome) ("invalid " ++ label)
  pure (Text.lower value)

/-- `_hex32` where `None` is allowed. -/
def hex32Nullable (value : Option String) (label : String) : Except String Unit :=
  match value with
  | none => .ok ()
  | some text => do
      let _ ← hex32 text label

/-- `current_time(now)`. -/
def currentTime (now : Int) : Except String Int := do
  requireMin now 0 "current time"
  requireMax now maxProtocolTimestamp "current time"
  pure now

/-! ## Denominations -/

/-- `validate_bill_value`. -/
def validateBillValue (value : Int) (label : String) : Except String Int := do
  requireMin value 1 label
  Check.require (value ∈ denominationSerialCaps.map Prod.fst)
    (labelled label "is not an allowed IND denomination")
  pure value

/-- `validate_bill_serial`. -/
def validateBillSerial (value serial : Int) (label : String) : Except String Int := do
  let value ← validateBillValue value "bill serial value"
  let cap := (denominationSerialCaps.lookup value).getD 0
  requireMin serial 1 label
  requireMax serial cap label
  pure serial

/-! ## What the checks establish -/

/-- A text that `_hex32` accepts. -/
def IsHex32 (value : String) : Prop :=
  value.length = 64 ∧ (Text.fromhex value).isSome

/-- An allowed denomination. -/
def IsBillValue (value : Int) : Prop :=
  1 ≤ value ∧ value ∈ denominationSerialCaps.map Prod.fst

/-- A serial that its denomination has. -/
def IsBillSerial (value serial : Int) : Prop :=
  IsBillValue value ∧ 1 ≤ serial ∧ serial ≤ (denominationSerialCaps.lookup value).getD 0

@[simp] theorem requireMin_eq_ok {value minimum : Int} {label : String} {u : Unit} :
    requireMin value minimum label = .ok u ↔ minimum ≤ value :=
  Check.require_eq_ok

@[simp] theorem requireMax_eq_ok {value maximum : Int} {label : String} {u : Unit} :
    requireMax value maximum label = .ok u ↔ value ≤ maximum :=
  Check.require_eq_ok

@[simp] theorem hex32_eq_ok {value label text : String} :
    hex32 value label = .ok text ↔ IsHex32 value ∧ Text.lower value = text := by
  simp [hex32, IsHex32]

@[simp] theorem hex32Nullable_eq_ok {value : Option String} {label : String} {u : Unit} :
    hex32Nullable value label = .ok u ↔ ∀ text ∈ value, IsHex32 text := by
  cases value with
  | none => simp [hex32Nullable]
  | some text => simp [hex32Nullable]

@[simp] theorem currentTime_eq_ok {now time : Int} :
    currentTime now = .ok time ↔ (0 ≤ now ∧ now ≤ maxProtocolTimestamp) ∧ now = time := by
  simp [currentTime, and_assoc]

@[simp] theorem validateBillValue_eq_ok {value value' : Int} {label : String} :
    validateBillValue value label = .ok value' ↔ IsBillValue value ∧ value = value' := by
  simp [validateBillValue, IsBillValue, and_assoc]

@[simp] theorem validateBillSerial_eq_ok {value serial serial' : Int} {label : String} :
    validateBillSerial value serial label = .ok serial' ↔
      IsBillSerial value serial ∧ serial = serial' := by
  simp [validateBillSerial, IsBillSerial, and_assoc]

/-- A digest in hexadecimal is accepted where a hash is expected. -/
theorem isHex32_hex {bs : Bytes} (h : bs.length = 32) : IsHex32 (Text.hex bs) := by
  refine ⟨?_, ?_⟩
  · rw [Text.length_hex, h]
  · rw [Text.fromhex_hex]
    rfl

theorem isHex32_of_chars {text : String} {cs : List Char} (htext : text = String.ofList cs)
    (h : ((Text.fromhexChars cs).any fun bs => bs.length = 32 && Text.hexChars bs = cs) = true) :
    IsHex32 text := by
  obtain ⟨bs, hlength, rfl⟩ := Text.exists_hex_of_chars htext h
  exact isHex32_hex hlength

theorem Crypto.isHex32_sha3Hex (crypto : Crypto) (data : Bytes) : IsHex32 (crypto.sha3Hex data) :=
  isHex32_hex (crypto.length_sha3_256 data)

theorem IsHex32.lower {value : String} (h : IsHex32 value) : IsHex32 (Text.lower value) := by
  refine ⟨?_, ?_⟩
  · rw [Text.length_lower, h.1]
  · rw [Text.fromhex_lower]
    exact h.2

theorem IsHex32.ne_empty {value : String} (h : IsHex32 value) : value ≠ "" := by
  rintro rfl
  exact absurd h.1 (by decide)

theorem IsBillValue.le {value : Int} (h : IsBillValue value) : value ≤ 100000 := by
  have hall : ∀ v ∈ denominationSerialCaps.map Prod.fst, v ≤ 100000 := by decide
  exact hall value h.2

theorem IsBillSerial.le {value serial : Int} (h : IsBillSerial value serial) :
    serial ≤ 6000000000 := by
  have hall : ∀ v ∈ denominationSerialCaps.map Prod.fst,
      (denominationSerialCaps.lookup v).getD 0 ≤ 6000000000 := by decide
  exact le_trans h.2.2 (hall value h.1.2)
