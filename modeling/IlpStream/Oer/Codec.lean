import Mathlib

/-!
# OER primitives of `oer-utils`

`src/src/protocol.ts` and `src/src/util/receipt.ts` read and write buffers through the
`Reader` and `Writer` of `oer-utils`, which is not among the repository's files. Its
encodings are modelled from the spec (`spec.md` §4.B: OER variable-length unsigned integers
and length-prefixed octet strings). A reader is the list of bytes not yet read: a read
returns its value with the rest, or the `CodecError` the library throws.
An OER length determinant has at most 127 length octets, so only lengths below
`MaxLength = 256 ^ 127` are encodable; every JS `Buffer` (length below `2 ^ 53`) is.
The writer emits the minimal length determinant; the reader checks it as `oer-utils` does,
against `Math.max(128, 1 << ((n - 1) * 8))` with JavaScript's 32-bit shift, and so accepts
some non-minimal ones.
-/

namespace IlpStream

/-- A Node `Buffer`, as the list of its bytes. -/
abbrev Bytes := List UInt8

namespace Oer

/-- Why a read or a write fails: the errors `oer-utils` throws, by kind, and the `Error`s
thrown by the repository's own code, by message. -/
inductive CodecError
  | endOfBuffer
  | nonCanonicalLength
  | emptyVarUInt
  | uintRange
  | octetStringLength
  | thrown (message : String)
  deriving DecidableEq, Repr

/-- Lengths an OER length determinant can carry. -/
def MaxLength : Nat := 256 ^ 127

/-- A successful step of a reader passes its value on. -/
@[simp] theorem ok_bind {ε α β : Type} (a : α) (f : α → Except ε β) :
    (Except.ok a >>= f) = f a := rfl

/-- A failed step of a reader ends the read with its error. -/
@[simp] theorem error_bind {ε α β : Type} (e : ε) (f : α → Except ε β) :
    (Except.error e >>= f) = Except.error e := rfl

@[simp] theorem pure_eq_ok {ε α : Type} (a : α) : (pure a : Except ε α) = .ok a := rfl

@[simp] theorem throw_eq_error {ε α : Type} (e : ε) : (throw e : Except ε α) = .error e := rfl

/-- A two-step read succeeds exactly when both steps do. -/
theorem bind_eq_ok {ε α β : Type} {x : Except ε α} {f : α → Except ε β} {b : β} :
    (x >>= f) = .ok b ↔ ∃ a, x = .ok a ∧ f a = .ok b := by
  cases x <;> simp

/-- A mapped read succeeds exactly when the read does. -/
theorem map_eq_ok {ε α β : Type} {x : Except ε α} {f : α → β} {b : β} :
    (f <$> x) = .ok b ↔ ∃ a, x = .ok a ∧ f a = b := by
  cases x <;> simp [Functor.map, Except.map]

/-! ### Unsigned integers -/

/-- Big-endian bytes of `value`, at least one; `fuel` bounds the number of divisions. -/
def uintBytesAux : Nat → Nat → Bytes
  | 0, value => [UInt8.ofNat value]
  | fuel + 1, value =>
    if value < 256 then [UInt8.ofNat value]
    else uintBytesAux fuel (value / 256) ++ [UInt8.ofNat (value % 256)]

/-- Minimal big-endian bytes of `value`, the buffer `Writer.writeVarUInt` length-prefixes:
`Math.ceil(value.toString(16).length / 2)` bytes. -/
def uintBytes (value : Nat) : Bytes := uintBytesAux value value

/-- Big-endian value of a buffer, `new BigNumber(buffer.toString('hex'), 16)`. -/
def uintValue (bytes : Bytes) : Nat :=
  bytes.foldl (fun value byte => value * 256 + byte.toNat) 0

theorem uintValue_append_singleton (bytes : Bytes) (byte : UInt8) :
    uintValue (bytes ++ [byte]) = uintValue bytes * 256 + byte.toNat := by
  simp [uintValue, List.foldl_append]

private theorem uintValue_uintBytesAux (fuel value : Nat) (h : value < 256 ^ (fuel + 1)) :
    uintValue (uintBytesAux fuel value) = value := by
  induction fuel generalizing value with
  | zero =>
    simp only [uintBytesAux, uintValue, List.foldl]
    rw [UInt8.toNat_ofNat_of_lt (by simpa using h)]
    omega
  | succ fuel ih =>
    simp only [uintBytesAux]
    split
    · next hv => simp [uintValue, UInt8.toNat_ofNat_of_lt (n := value) hv]
    · rw [uintValue_append_singleton, ih _ (by rw [Nat.pow_succ] at h; omega),
        UInt8.toNat_ofNat_of_lt (by change _ < 256; omega)]
      omega

/-- Reading back the bytes of `writeVarUInt` recovers the integer. -/
@[simp] theorem uintValue_uintBytes (value : Nat) : uintValue (uintBytes value) = value :=
  uintValue_uintBytesAux value value
    (Nat.lt_trans (Nat.lt_pow_self (by decide) value) (Nat.pow_lt_pow_right (by decide) (by omega)))

private theorem uintBytesAux_ne_nil (fuel value : Nat) : uintBytesAux fuel value ≠ [] := by
  cases fuel with
  | zero => simp [uintBytesAux]
  | succ fuel => simp only [uintBytesAux]; split <;> simp

theorem uintBytes_ne_nil (value : Nat) : uintBytes value ≠ [] := uintBytesAux_ne_nil value value

private theorem length_uintBytesAux_le (fuel value n : Nat) (hn : 0 < n)
    (h : value < 256 ^ n) : (uintBytesAux fuel value).length ≤ n := by
  induction fuel generalizing value n with
  | zero => simp [uintBytesAux]; omega
  | succ fuel ih =>
    simp only [uintBytesAux]
    split
    · simp; omega
    · next hv =>
      obtain ⟨m, rfl⟩ : ∃ m, n = m + 1 := ⟨n - 1, by omega⟩
      have hm : 0 < m := by
        rcases Nat.eq_zero_or_pos m with rfl | hm
        · simp at h; omega
        · exact hm
      have := ih (value / 256) m hm (by rw [Nat.pow_succ] at h; omega)
      simp; omega

private theorem pow_length_uintBytesAux_le (fuel value : Nat) (hv : 0 < value) :
    256 ^ ((uintBytesAux fuel value).length - 1) ≤ value := by
  induction fuel generalizing value with
  | zero => simpa [uintBytesAux] using hv
  | succ fuel ih =>
    simp only [uintBytesAux]
    split
    · simpa using hv
    · next hlarge =>
      obtain ⟨m, hm⟩ := Nat.exists_eq_add_one_of_ne_zero
        (List.length_pos.mpr (uintBytesAux_ne_nil fuel (value / 256))).ne'
      have hhigh := ih (value / 256) (by omega)
      rw [hm, Nat.add_sub_cancel] at hhigh
      rw [List.length_append, List.length_singleton, hm, Nat.add_sub_cancel, pow_succ]
      omega

/-- The bytes are minimal: a positive integer is at least `256` to the number of its bytes
but one. -/
theorem pow_length_uintBytes_le {value : Nat} (hv : 0 < value) :
    256 ^ ((uintBytes value).length - 1) ≤ value :=
  pow_length_uintBytesAux_le value value hv

/-- An integer below `256 ^ n` takes at most `n` bytes. -/
theorem length_uintBytes_le {value n : Nat} (hn : 0 < n) (h : value < 256 ^ n) :
    (uintBytes value).length ≤ n :=
  length_uintBytesAux_le value value n hn h

/-- A write that succeeds with a buffer short enough for a length prefix. -/
def Fits : Except CodecError Bytes → Prop
  | .ok bytes => bytes.length < MaxLength
  | .error _ => False

instance : DecidablePred Fits
  | .ok bytes => inferInstanceAs (Decidable (bytes.length < MaxLength))
  | .error _ => inferInstanceAs (Decidable False)

theorem fits_iff {write : Except CodecError Bytes} :
    Fits write ↔ ∃ bytes, write = .ok bytes ∧ bytes.length < MaxLength := by
  cases write <;> simp [Fits]

/-! ### Writer -/

/-- `Writer.writeUInt8`: one byte, or a throw for a value that does not fit. -/
def writeUInt8 (value : Nat) : Except CodecError Bytes :=
  if value < 256 then .ok [UInt8.ofNat value] else .error .uintRange

/-- `Writer.writeLengthPrefix`: one byte below 128, else `0x80 | lengthOfLength` and the
length's big-endian bytes. -/
def writeLengthPrefix (length : Nat) : Bytes :=
  if length ≤ 127 then [UInt8.ofNat length]
  else UInt8.ofNat (0x80 + (uintBytes length).length) :: uintBytes length

/-- `Writer.writeVarOctetString`: the length prefix, then the bytes. -/
def writeVarOctetString (buffer : Bytes) : Bytes := writeLengthPrefix buffer.length ++ buffer

/-- `Writer.writeVarUInt` of a non-negative integer. -/
def writeVarUInt (value : Nat) : Bytes := writeVarOctetString (uintBytes value)

/-- `Writer.writeOctetString(buffer, length)`: the bytes, or a throw when there are not
`length` of them. -/
def writeOctetString (buffer : Bytes) (length : Nat) : Except CodecError Bytes :=
  if buffer.length = length then .ok buffer else .error .octetStringLength

/-- The last `width` big-endian bytes of `value`. -/
def uintBytesFixed : Nat → Nat → Bytes
  | 0, _ => []
  | width + 1, value => uintBytesFixed width (value / 256) ++ [UInt8.ofNat (value % 256)]

/-- `Writer.writeUInt64` of an unsigned `Long`: eight big-endian bytes, or a throw for a
value that does not fit. -/
def writeUInt64 (value : Nat) : Except CodecError Bytes :=
  if value < 2 ^ 64 then .ok (uintBytesFixed 8 value) else .error .uintRange

theorem writeUInt8_of_lt {value : Nat} (h : value < 256) :
    writeUInt8 value = .ok [UInt8.ofNat value] := if_pos h

theorem writeOctetString_of_length {buffer : Bytes} {length : Nat} (h : buffer.length = length) :
    writeOctetString buffer length = .ok buffer := if_pos h

theorem writeUInt64_of_lt {value : Nat} (h : value < 2 ^ 64) :
    writeUInt64 value = .ok (uintBytesFixed 8 value) := if_pos h

@[simp] theorem length_uintBytesFixed (width value : Nat) :
    (uintBytesFixed width value).length = width := by
  induction width generalizing value with
  | zero => rfl
  | succ width ih => simp [uintBytesFixed, ih]

/-! ### Reader -/

/-- `Reader.readUInt8BigNum` (and `readUInt8Number`): the next byte. -/
def readUInt8BigNum : Bytes → Except CodecError (Nat × Bytes)
  | [] => .error .endOfBuffer
  | byte :: rest => .ok (byte.toNat, rest)

/-- `Reader.peekUInt8BigNum`: the next byte, without advancing. -/
def peekUInt8BigNum : Bytes → Except CodecError Nat
  | [] => .error .endOfBuffer
  | byte :: _ => .ok byte.toNat

/-- `Reader.readOctetString(length)`: the next `length` bytes. -/
def readOctetString (length : Nat) (reader : Bytes) : Except CodecError (Bytes × Bytes) :=
  if length ≤ reader.length then .ok (reader.take length, reader.drop length)
  else .error .endOfBuffer

/-- JavaScript's `a << b`: the count is taken mod 32, and the low 32 bits of the shifted
value are read back as a signed integer. -/
def shiftLeft32 (a b : Int) : Int :=
  let bits := a * 2 ^ (b % 32).toNat % 2 ^ 32
  if bits < 2 ^ 31 then bits else bits - 2 ^ 32

/-- The shifts the length reader makes, by whole bytes, never pass the power they stand for. -/
theorem shiftLeft32_one_le (k : Nat) : shiftLeft32 1 (k * 8) ≤ 256 ^ k := by
  have hcount : ((k * 8 : Int) % 32).toNat = k * 8 % 32 :=
    by exact_mod_cast Int.toNat_natCast (k * 8 % 32)
  have hsmall : (2 : Int) ^ (k * 8 % 32) ≤ 2 ^ 24 := pow_le_pow_right₀ (by norm_num) (by omega)
  have hpos : (0 : Int) < 2 ^ (k * 8 % 32) := by positivity
  have hle : (2 : Int) ^ (k * 8 % 32) ≤ 256 ^ k := calc
    (2 : Int) ^ (k * 8 % 32) ≤ 2 ^ (k * 8) := pow_le_pow_right₀ (by norm_num) (Nat.mod_le _ _)
    _ = 256 ^ k := by rw [pow_mul']; norm_num
  simp only [shiftLeft32, hcount, one_mul,
    Int.emod_eq_of_lt hpos.le (show (2 : Int) ^ (k * 8 % 32) < 2 ^ 32 by omega)]
  rw [if_pos (by omega)]
  exact hle

/-- `Reader.readLengthPrefix`: a length below 128 in one byte, or `0x80 | n` and `n`
big-endian length bytes, rejected when `n = 0` or when the length is below
`Math.max(128, 1 << ((n - 1) * 8))`. -/
def readLengthPrefix (reader : Bytes) : Except CodecError (Nat × Bytes) := do
  let (length, reader) ← readUInt8BigNum reader
  if length < 0x80 then return (length, reader)
  let lengthPrefixLength := length - 0x80
  let (lengthBytes, reader) ← readOctetString lengthPrefixLength reader
  let actualLength := uintValue lengthBytes
  let minLength := max 128 (shiftLeft32 1 (((lengthPrefixLength : Int) - 1) * 8))
  if lengthPrefixLength = 0 ∨ (actualLength : Int) < minLength then
    throw .nonCanonicalLength
  return (actualLength, reader)

/-- `Reader.readVarOctetString`: a length prefix and that many bytes. -/
def readVarOctetString (reader : Bytes) : Except CodecError (Bytes × Bytes) := do
  let (length, reader) ← readLengthPrefix reader
  readOctetString length reader

/-- `Reader.readVarUIntBigNum`: a non-empty big-endian octet string. -/
def readVarUIntBigNum (reader : Bytes) : Except CodecError (Nat × Bytes) := do
  let (bytes, reader) ← readVarOctetString reader
  if bytes = [] then throw .emptyVarUInt
  return (uintValue bytes, reader)

/-- `Reader.readUInt8`: the next byte, as the decimal string of its value. -/
def readUInt8 (reader : Bytes) : Except CodecError (String × Bytes) := do
  let (value, reader) ← readUInt8BigNum reader
  return (toString value, reader)

/-- `Reader.readUInt64Long`: the next eight bytes as an unsigned big-endian integer. -/
def readUInt64Long (reader : Bytes) : Except CodecError (Nat × Bytes) := do
  let (bytes, reader) ← readOctetString 8 reader
  return (uintValue bytes, reader)

/-- `Reader.skipUInt8`. -/
def skipUInt8 (reader : Bytes) : Except CodecError Bytes :=
  Prod.snd <$> readUInt8BigNum reader

/-- `Reader.skipVarOctetString`. -/
def skipVarOctetString (reader : Bytes) : Except CodecError Bytes :=
  Prod.snd <$> readVarOctetString reader

/-! ### Round trips -/

@[simp] theorem readUInt8BigNum_cons (byte : UInt8) (rest : Bytes) :
    readUInt8BigNum (byte :: rest) = .ok (byte.toNat, rest) := rfl

@[simp] theorem peekUInt8BigNum_cons (byte : UInt8) (rest : Bytes) :
    peekUInt8BigNum (byte :: rest) = .ok byte.toNat := rfl

@[simp] theorem ofNat_toNat_byte (byte : UInt8) : UInt8.ofNat byte.toNat = byte :=
  UInt8.toNat.inj (UInt8.toNat_ofNat_of_lt byte.toNat_lt)

/-- Fixed-width bytes read back as the value modulo `256 ^ width`. -/
@[simp] theorem uintValue_uintBytesFixed (width value : Nat) :
    uintValue (uintBytesFixed width value) = value % 256 ^ width := by
  induction width generalizing value with
  | zero => simp [uintBytesFixed, uintValue, Nat.mod_one]
  | succ width ih =>
    rw [uintBytesFixed, uintValue_append_singleton, ih, pow_succ, Nat.mul_comm (256 ^ width),
      Nat.mod_mul, UInt8.toNat_ofNat_of_lt (Nat.mod_lt _ (by norm_num))]
    unfold UInt8.size at *
    omega

theorem uintValue_lt (bytes : Bytes) : uintValue bytes < 256 ^ bytes.length := by
  induction bytes using List.reverseRecOn with
  | nil => simp [uintValue]
  | append_singleton bytes byte ih =>
    rw [uintValue_append_singleton, List.length_append, List.length_singleton, pow_succ]
    have := byte.toNat_lt
    simp only [UInt8.size] at this
    omega

/-- Bytes written back at their own width are themselves. -/
theorem uintBytesFixed_uintValue (bytes : Bytes) :
    uintBytesFixed bytes.length (uintValue bytes) = bytes := by
  induction bytes using List.reverseRecOn with
  | nil => rfl
  | append_singleton bytes byte ih =>
    have := byte.toNat_lt
    simp only [UInt8.size] at this
    rw [List.length_append, List.length_singleton, uintBytesFixed, uintValue_append_singleton,
      show (uintValue bytes * 256 + byte.toNat) / 256 = uintValue bytes by omega,
      show (uintValue bytes * 256 + byte.toNat) % 256 = byte.toNat by omega, ih, ofNat_toNat_byte]

/-- A fixed-length read takes exactly the bytes written. -/
@[simp] theorem readOctetString_append (buffer rest : Bytes) :
    readOctetString buffer.length (buffer ++ rest) = .ok (buffer, rest) := by
  simp [readOctetString]

theorem readLengthPrefix_writeLengthPrefix {length : Nat} (h : length < MaxLength)
    (rest : Bytes) :
    readLengthPrefix (writeLengthPrefix length ++ rest) = .ok (length, rest) := by
  unfold writeLengthPrefix
  split
  · next hs =>
    have hb : (UInt8.ofNat length).toNat = length := UInt8.toNat_ofNat_of_lt (by
      change _ < 256; omega)
    simp only [readLengthPrefix, List.singleton_append, readUInt8BigNum_cons, hb, ok_bind]
    rw [if_pos (by omega)]
    rfl
  · next hs =>
    have hk : (uintBytes length).length ≤ 127 := length_uintBytes_le (by decide) h
    have hne : 0 < (uintBytes length).length := List.length_pos.mpr (uintBytes_ne_nil length)
    have hb : (UInt8.ofNat (0x80 + (uintBytes length).length)).toNat =
        0x80 + (uintBytes length).length := UInt8.toNat_ofNat_of_lt (by
      change _ < 256; omega)
    -- the writer's bytes are minimal, so they pass the reader's shifted bound
    have hmin : shiftLeft32 1 ((((uintBytes length).length : Int) - 1) * 8) ≤ length := by
      rw [show ((uintBytes length).length : Int) - 1 = ((uintBytes length).length - 1 : Nat) by
        omega]
      exact (shiftLeft32_one_le _).trans (by exact_mod_cast pow_length_uintBytes_le (by omega))
    simp only [readLengthPrefix, List.cons_append, readUInt8BigNum_cons, hb, ok_bind,
      Nat.add_sub_cancel_left, readOctetString_append, uintValue_uintBytes]
    rw [if_neg (by omega), if_neg (by rw [not_or, not_lt, max_le_iff]; omega)]
    rfl

/-- `readVarOctetString` inverts `writeVarOctetString` on every encodable buffer. -/
@[simp] theorem readVarOctetString_writeVarOctetString {buffer : Bytes}
    (h : buffer.length < MaxLength) (rest : Bytes) :
    readVarOctetString (writeVarOctetString buffer ++ rest) = .ok (buffer, rest) := by
  simp [readVarOctetString, writeVarOctetString, readLengthPrefix_writeLengthPrefix h]

/-- `readVarUIntBigNum` inverts `writeVarUInt` on every encodable integer. -/
@[simp] theorem readVarUIntBigNum_writeVarUInt {value : Nat}
    (h : (uintBytes value).length < MaxLength) (rest : Bytes) :
    readVarUIntBigNum (writeVarUInt value ++ rest) = .ok (value, rest) := by
  simp [readVarUIntBigNum, writeVarUInt, readVarOctetString_writeVarOctetString h,
    uintBytes_ne_nil]

/-- Inside a buffer shorter than `MaxLength`, a written octet string reads back. -/
theorem readVarOctetString_writeVarOctetString_append {buffer rest : Bytes}
    (h : (writeVarOctetString buffer ++ rest).length < MaxLength) :
    readVarOctetString (writeVarOctetString buffer ++ rest) = .ok (buffer, rest) :=
  readVarOctetString_writeVarOctetString (by simp [writeVarOctetString] at h; omega) rest

/-- Inside a buffer shorter than `MaxLength`, a written integer reads back. -/
theorem readVarUIntBigNum_writeVarUInt_append {value : Nat} {rest : Bytes}
    (h : (writeVarUInt value ++ rest).length < MaxLength) :
    readVarUIntBigNum (writeVarUInt value ++ rest) = .ok (value, rest) :=
  readVarUIntBigNum_writeVarUInt (by simp [writeVarUInt, writeVarOctetString] at h; omega) rest

/-! ### What the reader accepts

Each reader looks only at the bytes it consumes, so whatever it reads from a buffer it reads
the same from the front of a longer one. This holds of every buffer the reader accepts,
the non-minimal length determinants that `oer-utils` lets through included. -/

/-- `readOctetString` reads the front of the buffer. -/
theorem readOctetString_eq_ok {length : Nat} {reader value rest : Bytes}
    (h : readOctetString length reader = .ok (value, rest)) :
    value.length = length ∧ reader = value ++ rest := by
  unfold readOctetString at h
  split at h
  · next hl =>
    cases h
    exact ⟨List.length_take_of_le hl, (List.take_append_drop _ _).symm⟩
  · cases h

theorem readOctetString_append_of_ok {length : Nat} {reader value rest : Bytes}
    (h : readOctetString length reader = .ok (value, rest)) (tail : Bytes) :
    readOctetString length (reader ++ tail) = .ok (value, rest ++ tail) := by
  obtain ⟨rfl, rfl⟩ := readOctetString_eq_ok h
  rw [List.append_assoc, readOctetString_append]

theorem readUInt8BigNum_append {reader rest : Bytes} {value : Nat}
    (h : readUInt8BigNum reader = .ok (value, rest)) (tail : Bytes) :
    readUInt8BigNum (reader ++ tail) = .ok (value, rest ++ tail) := by
  cases reader with
  | nil => cases h
  | cons byte reader => cases h; rfl

/-- The length determinant's check reads only the length bytes, so appended bytes pass
through. -/
theorem readLengthPrefix_append {reader rest : Bytes} {length : Nat}
    (h : readLengthPrefix reader = .ok (length, rest)) (tail : Bytes) :
    readLengthPrefix (reader ++ tail) = .ok (length, rest ++ tail) := by
  cases reader with
  | nil => cases h
  | cons byte reader =>
    simp only [readLengthPrefix, List.cons_append, readUInt8BigNum_cons, ok_bind] at h ⊢
    split at h
    · next hshort => rw [if_pos hshort]; cases h; rfl
    · next hlong =>
      rw [if_neg hlong]
      rw [pure_eq_ok, ok_bind] at h ⊢
      obtain ⟨⟨lengthBytes, rest'⟩, hread, hcheck⟩ := bind_eq_ok.mp h
      rw [readOctetString_append_of_ok hread, ok_bind]
      dsimp only at hcheck ⊢
      split at hcheck
      · cases hcheck
      · next hpasses => rw [if_neg hpasses]; cases hcheck; rfl

/-- The reader is more lenient than the writer: five length bytes pass its check for every
length from 128 on, since JavaScript's `1 << 32` is `1`, while the writer uses at most four
below `2 ^ 32`. -/
theorem readLengthPrefix_five_bytes {length : Nat} (hlow : 128 ≤ length)
    (hhigh : length < 256 ^ 5) (rest : Bytes) :
    readLengthPrefix (0x85 :: uintBytesFixed 5 length ++ rest) = .ok (length, rest) := by
  have hread : readOctetString 5 (uintBytesFixed 5 length ++ rest) =
      .ok (uintBytesFixed 5 length, rest) := by
    simpa using readOctetString_append (uintBytesFixed 5 length) rest
  have hbyte : UInt8.toNat 0x85 = 0x85 := rfl
  have hshift : shiftLeft32 1 ((((5 : Nat) : Int) - 1) * 8) = 1 := by decide
  simp only [readLengthPrefix, List.cons_append, readUInt8BigNum_cons, ok_bind, hbyte]
  rw [if_neg (by decide), pure_eq_ok, ok_bind, show 0x85 - 0x80 = 5 from rfl, hread, ok_bind]
  dsimp only
  rw [hshift, uintValue_uintBytesFixed, Nat.mod_eq_of_lt hhigh, if_neg (by omega)]
  rfl

theorem readVarOctetString_append {reader value rest : Bytes}
    (h : readVarOctetString reader = .ok (value, rest)) (tail : Bytes) :
    readVarOctetString (reader ++ tail) = .ok (value, rest ++ tail) := by
  obtain ⟨⟨length, reader'⟩, hprefix, hread⟩ := bind_eq_ok.mp h
  rw [readVarOctetString, readLengthPrefix_append hprefix, ok_bind]
  exact readOctetString_append_of_ok hread tail

theorem readVarUIntBigNum_append {reader rest : Bytes} {value : Nat}
    (h : readVarUIntBigNum reader = .ok (value, rest)) (tail : Bytes) :
    readVarUIntBigNum (reader ++ tail) = .ok (value, rest ++ tail) := by
  obtain ⟨⟨bytes, rest'⟩, hread, h⟩ := bind_eq_ok.mp h
  rw [readVarUIntBigNum, readVarOctetString_append hread, ok_bind]
  dsimp only at h ⊢
  split at h
  · cases h
  · next hne => cases h; rw [if_neg hne]; rfl

end Oer
end IlpStream
