import IlpStream.Oer.Codec

/-!
# UTF-8: `Buffer.from(string)` and `buffer.toString('utf8')`

The frames of `src/src/protocol.ts` carry their strings as UTF-8 octet strings:
`Buffer.from(s)` encodes, `toString('utf8')` decodes. Node's decoder is the WHATWG UTF-8
decoder: an ill-formed sequence decodes to U+FFFD and the byte that broke it is decoded
afresh, so every buffer decodes. A Lean `String` is a list of Unicode scalar values, which
are exactly the well-formed strings; decoding inverts encoding on all of them.
-/

namespace IlpStream.Oer

/-- UTF-8 bytes of one scalar value. -/
def encodeChar (c : Char) : Bytes :=
  let v := c.toNat
  if v < 0x80 then [UInt8.ofNat v]
  else if v < 0x800 then [UInt8.ofNat (0xC0 + v / 0x40), UInt8.ofNat (0x80 + v % 0x40)]
  else if v < 0x10000 then
    [UInt8.ofNat (0xE0 + v / 0x1000), UInt8.ofNat (0x80 + v / 0x40 % 0x40),
      UInt8.ofNat (0x80 + v % 0x40)]
  else
    [UInt8.ofNat (0xF0 + v / 0x40000), UInt8.ofNat (0x80 + v / 0x1000 % 0x40),
      UInt8.ofNat (0x80 + v / 0x40 % 0x40), UInt8.ofNat (0x80 + v % 0x40)]

/-- `Buffer.from(string, 'utf8')`. -/
def utf8Encode (s : String) : Bytes := s.data.flatMap encodeChar

/-- The decoder's state between bytes: the code point so far, the continuation bytes still
needed, and the bounds the next one must lie in. -/
structure Utf8State where
  codePoint : Nat
  needed : Nat
  lower : Nat
  upper : Nat

/-- The state at the start, and after each complete character. -/
def Utf8State.initial : Utf8State := ⟨0, 0, 0x80, 0xBF⟩

/-- A byte read in the initial state: the characters it yields and the next state. -/
def startByte (byte : Nat) : List Char × Utf8State :=
  if byte < 0x80 then ([Char.ofNat byte], .initial)
  else if 0xC2 ≤ byte ∧ byte ≤ 0xDF then ([], ⟨byte - 0xC0, 1, 0x80, 0xBF⟩)
  else if 0xE0 ≤ byte ∧ byte ≤ 0xEF then
    ([], ⟨byte - 0xE0, 2, if byte = 0xE0 then 0xA0 else 0x80,
      if byte = 0xED then 0x9F else 0xBF⟩)
  else if 0xF0 ≤ byte ∧ byte ≤ 0xF4 then
    ([], ⟨byte - 0xF0, 3, if byte = 0xF0 then 0x90 else 0x80,
      if byte = 0xF4 then 0x8F else 0xBF⟩)
  else (['�'], .initial)

/-- One step of the decoder. A byte out of bounds ends the sequence with U+FFFD and is
then read in the initial state. -/
def decodeByte (state : Utf8State) (byte : Nat) : List Char × Utf8State :=
  if state.needed = 0 then startByte byte
  else if byte < state.lower ∨ state.upper < byte then
    ('�' :: (startByte byte).1, (startByte byte).2)
  else if state.needed = 1 then ([Char.ofNat (state.codePoint * 0x40 + (byte - 0x80))], .initial)
  else ([], ⟨state.codePoint * 0x40 + (byte - 0x80), state.needed - 1, 0x80, 0xBF⟩)

/-- The decoder from `state` over the rest of a buffer; a sequence cut off by the end of
the buffer gives U+FFFD. -/
def decodeFrom (state : Utf8State) : Bytes → List Char
  | [] => if state.needed = 0 then [] else ['�']
  | byte :: rest => (decodeByte state byte.toNat).1 ++ decodeFrom (decodeByte state byte.toNat).2 rest

/-- `buffer.toString('utf8')`. -/
def utf8Decode (bytes : Bytes) : String := ⟨decodeFrom .initial bytes⟩

private theorem toNat_ofNat_byte {x : Nat} (h : x < 256) : (UInt8.ofNat x).toNat = x :=
  UInt8.toNat_ofNat_of_lt h

private theorem decodeFrom_lead {byte : Nat} (h : byte < 256) (rest : Bytes) :
    decodeFrom .initial (UInt8.ofNat byte :: rest) =
      (startByte byte).1 ++ decodeFrom (startByte byte).2 rest := by
  simp only [decodeFrom, toNat_ofNat_byte h, decodeByte, Utf8State.initial, if_true]

private theorem decodeFrom_last {cp lower upper x : Nat} (hx : x < 0x40)
    (hl : lower ≤ 0x80 + x) (hu : 0x80 + x ≤ upper) (rest : Bytes) :
    decodeFrom ⟨cp, 1, lower, upper⟩ (UInt8.ofNat (0x80 + x) :: rest) =
      Char.ofNat (cp * 0x40 + x) :: decodeFrom .initial rest := by
  simp only [decodeFrom, toNat_ofNat_byte (show 0x80 + x < 256 by omega), decodeByte]
  rw [if_neg (by omega), if_neg (by omega)]
  simp

private theorem decodeFrom_more {cp n lower upper x : Nat} (hx : x < 0x40)
    (hl : lower ≤ 0x80 + x) (hu : 0x80 + x ≤ upper) (rest : Bytes) :
    decodeFrom ⟨cp, n + 2, lower, upper⟩ (UInt8.ofNat (0x80 + x) :: rest) =
      decodeFrom ⟨cp * 0x40 + x, n + 1, 0x80, 0xBF⟩ rest := by
  simp only [decodeFrom, toNat_ofNat_byte (show 0x80 + x < 256 by omega), decodeByte]
  rw [if_neg (by omega), if_neg (by omega), if_neg (by omega)]
  simp

/-- The decoder reads one encoded character back and returns to its initial state. -/
theorem decodeFrom_encodeChar (c : Char) (rest : Bytes) :
    decodeFrom .initial (encodeChar c ++ rest) = c :: decodeFrom .initial rest := by
  have hc : c.toNat < 0xD800 ∨ (0xDFFF < c.toNat ∧ c.toNat < 0x110000) := c.valid
  conv_rhs => rw [← Char.ofNat_toNat c]
  dsimp only [encodeChar]
  generalize c.toNat = v at hc
  split
  · next h1 =>
    rw [List.singleton_append, decodeFrom_lead (by omega)]
    simp [startByte, h1, Utf8State.initial]
  split
  · next h1 h2 =>
    have hs : startByte (0xC0 + v / 0x40) = ([], ⟨v / 0x40, 1, 0x80, 0xBF⟩) := by
      simp only [startByte]
      rw [if_neg (by omega), if_pos (by omega)]
      simp
    rw [List.cons_append, decodeFrom_lead (by omega), hs, List.nil_append, List.singleton_append,
      decodeFrom_last (by omega) (by omega) (by omega)]
    congr 2
    omega
  split
  · next h1 h2 h3 =>
    have hs : startByte (0xE0 + v / 0x1000) = ([], ⟨v / 0x1000, 2,
        if 0xE0 + v / 0x1000 = 0xE0 then 0xA0 else 0x80,
        if 0xE0 + v / 0x1000 = 0xED then 0x9F else 0xBF⟩) := by
      simp only [startByte]
      rw [if_neg (by omega), if_neg (by omega), if_pos (by omega)]
      simp
    rw [List.cons_append, decodeFrom_lead (by omega), hs, List.nil_append, List.cons_append,
      decodeFrom_more (by omega) (by split <;> omega) (by split <;> omega),
      List.singleton_append, decodeFrom_last (by omega) (by omega) (by omega)]
    congr 2
    omega
  · next h1 h2 h3 =>
    have hs : startByte (0xF0 + v / 0x40000) = ([], ⟨v / 0x40000, 3,
        if 0xF0 + v / 0x40000 = 0xF0 then 0x90 else 0x80,
        if 0xF0 + v / 0x40000 = 0xF4 then 0x8F else 0xBF⟩) := by
      simp only [startByte]
      rw [if_neg (by omega), if_neg (by omega), if_neg (by omega), if_pos (by omega)]
      simp
    rw [List.cons_append, decodeFrom_lead (by omega), hs, List.nil_append, List.cons_append,
      decodeFrom_more (by omega) (by split <;> omega) (by split <;> omega), List.cons_append,
      decodeFrom_more (by omega) (by omega) (by omega),
      List.singleton_append, decodeFrom_last (by omega) (by omega) (by omega)]
    congr 2
    omega

/-- Decoding inverts encoding on every string: `Buffer.from(s).toString('utf8') = s`. -/
theorem utf8Decode_utf8Encode (s : String) : utf8Decode (utf8Encode s) = s := by
  suffices h : ∀ cs : List Char, decodeFrom .initial (cs.flatMap encodeChar) = cs from
    congrArg String.mk (h s.data)
  intro cs
  induction cs with
  | nil => rfl
  | cons c cs ih => rw [List.flatMap_cons, decodeFrom_encodeChar, ih]

end IlpStream.Oer
