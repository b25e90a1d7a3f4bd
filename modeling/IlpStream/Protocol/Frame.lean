import IlpStream.Oer.Utf8

/-!
# STREAM frames

The thirteen frame classes of `src/src/protocol.ts:186–580`, their `writeTo` and
`fromBuffer`, and `parseFrame` (`protocol.ts:582–617`). A frame is its type byte and a
length-prefixed contents buffer; `fromBuffer` reads its fields from the contents and ignores
whatever follows them there. Numeric fields are `BigNumber`s that the decoder only fills
with non-negative integers, so they are `Nat`, and the constructors' assertions
`isInteger() && isPositive()` hold of each of them (bignumber.js counts zero as positive).
-/

namespace IlpStream.Protocol
open Oer

/-- `FrameType`, `protocol.ts:109–126`. -/
inductive FrameType
  | padding
  | connectionClose | connectionNewAddress | connectionMaxData | connectionDataBlocked
  | connectionMaxStreamId | connectionStreamIdBlocked
  | streamClose | streamMoney | streamMaxMoney | streamMoneyBlocked | streamData
  | streamMaxData | streamDataBlocked
  deriving DecidableEq, Repr

/-- The enum's values, `FrameType[name]`. -/
def FrameType.toNat : FrameType → Nat
  | .padding => 0x00
  | .connectionClose => 0x01
  | .connectionNewAddress => 0x02
  | .connectionMaxData => 0x03
  | .connectionDataBlocked => 0x04
  | .connectionMaxStreamId => 0x05
  | .connectionStreamIdBlocked => 0x06
  | .streamClose => 0x10
  | .streamMoney => 0x11
  | .streamMaxMoney => 0x12
  | .streamMoneyBlocked => 0x13
  | .streamData => 0x14
  | .streamMaxData => 0x15
  | .streamDataBlocked => 0x16

/-- The member names, as `assertType` prints them. -/
def FrameType.name : FrameType → String
  | .padding => "Padding"
  | .connectionClose => "ConnectionClose"
  | .connectionNewAddress => "ConnectionNewAddress"
  | .connectionMaxData => "ConnectionMaxData"
  | .connectionDataBlocked => "ConnectionDataBlocked"
  | .connectionMaxStreamId => "ConnectionMaxStreamId"
  | .connectionStreamIdBlocked => "ConnectionStreamIdBlocked"
  | .streamClose => "StreamClose"
  | .streamMoney => "StreamMoney"
  | .streamMaxMoney => "StreamMaxMoney"
  | .streamMoneyBlocked => "StreamMoneyBlocked"
  | .streamData => "StreamData"
  | .streamMaxData => "StreamMaxData"
  | .streamDataBlocked => "StreamDataBlocked"

/-- The reverse mapping `FrameType[n]`: the member with value `n`, if any. -/
def FrameType.ofNat? : Nat → Option FrameType
  | 0x00 => some .padding
  | 0x01 => some .connectionClose
  | 0x02 => some .connectionNewAddress
  | 0x03 => some .connectionMaxData
  | 0x04 => some .connectionDataBlocked
  | 0x05 => some .connectionMaxStreamId
  | 0x06 => some .connectionStreamIdBlocked
  | 0x10 => some .streamClose
  | 0x11 => some .streamMoney
  | 0x12 => some .streamMaxMoney
  | 0x13 => some .streamMoneyBlocked
  | 0x14 => some .streamData
  | 0x15 => some .streamMaxData
  | 0x16 => some .streamDataBlocked
  | _ => none

@[simp] theorem FrameType.ofNat?_toNat (type : FrameType) :
    FrameType.ofNat? type.toNat = some type := by
  cases type <;> rfl

/-- `ErrorCode`, `protocol.ts:128–140`. -/
inductive ErrorCode
  | noError | internalError | serverBusy | flowControlError | streamIdError
  | streamStateError | finalOffsetError | frameFormatError | protocolViolation
  | applicationError
  deriving DecidableEq, Repr

/-- The enum's values, `ErrorCode[name]`. -/
def ErrorCode.toNat : ErrorCode → Nat
  | .noError => 0x01
  | .internalError => 0x02
  | .serverBusy => 0x03
  | .flowControlError => 0x04
  | .streamIdError => 0x05
  | .streamStateError => 0x06
  | .finalOffsetError => 0x07
  | .frameFormatError => 0x08
  | .protocolViolation => 0x09
  | .applicationError => 0x0a

/-- The reverse mapping `ErrorCode[n]`: the member with value `n`, or `undefined`. -/
def ErrorCode.ofNat? : Nat → Option ErrorCode
  | 0x01 => some .noError
  | 0x02 => some .internalError
  | 0x03 => some .serverBusy
  | 0x04 => some .flowControlError
  | 0x05 => some .streamIdError
  | 0x06 => some .streamStateError
  | 0x07 => some .finalOffsetError
  | 0x08 => some .frameFormatError
  | 0x09 => some .protocolViolation
  | 0x0a => some .applicationError
  | _ => none

@[simp] theorem ErrorCode.ofNat?_toNat (code : ErrorCode) : ErrorCode.ofNat? code.toNat = some code := by
  cases code <;> rfl

theorem ErrorCode.toNat_lt (code : ErrorCode) : code.toNat < 256 := by
  cases code <;> decide

/-- A frame, one constructor per class of the `Frame` union, `protocol.ts:164–177`.
An `errorCode` of `none` is the `undefined` that `ErrorCode[n]` gives for a byte that
names no member. -/
inductive Frame
  | connectionClose (errorCode : Option ErrorCode) (errorMessage : String)
  | connectionNewAddress (sourceAccount : String)
  | connectionMaxData (maxOffset : Nat)
  | connectionDataBlocked (maxOffset : Nat)
  | connectionMaxStreamId (maxStreamId : Nat)
  | connectionStreamIdBlocked (maxStreamId : Nat)
  | streamClose (streamId : Nat) (errorCode : Option ErrorCode) (errorMessage : String)
  | streamMoney (streamId shares : Nat)
  | streamMaxMoney (streamId receiveMax totalReceived : Nat)
  | streamMoneyBlocked (streamId sendMax totalSent : Nat)
  | streamData (streamId offset : Nat) (data : Bytes)
  | streamMaxData (streamId maxOffset : Nat)
  | streamDataBlocked (streamId maxOffset : Nat)
  deriving DecidableEq, Repr

/-- The `type` field each class sets in its constructor. -/
def Frame.type : Frame → FrameType
  | .connectionClose .. => .connectionClose
  | .connectionNewAddress .. => .connectionNewAddress
  | .connectionMaxData .. => .connectionMaxData
  | .connectionDataBlocked .. => .connectionDataBlocked
  | .connectionMaxStreamId .. => .connectionMaxStreamId
  | .connectionStreamIdBlocked .. => .connectionStreamIdBlocked
  | .streamClose .. => .streamClose
  | .streamMoney .. => .streamMoney
  | .streamMaxMoney .. => .streamMaxMoney
  | .streamMoneyBlocked .. => .streamMoneyBlocked
  | .streamData .. => .streamData
  | .streamMaxData .. => .streamMaxData
  | .streamDataBlocked .. => .streamDataBlocked

/-! ### Writing -/

/-- `contents.writeUInt8(ErrorCode[this.errorCode])`: throws on `undefined`. -/
def writeErrorCode : Option ErrorCode → Except CodecError Bytes
  | some code => writeUInt8 code.toNat
  | none => .error .uintRange

/-- The `contents` writer each class's `writeTo` fills before length-prefixing it. -/
def Frame.contents : Frame → Except CodecError Bytes
  | .connectionClose errorCode errorMessage => do
    let code ← writeErrorCode errorCode
    return code ++ writeVarOctetString (utf8Encode errorMessage)
  | .connectionNewAddress sourceAccount => .ok (writeVarOctetString (utf8Encode sourceAccount))
  | .connectionMaxData maxOffset => .ok (writeVarUInt maxOffset)
  | .connectionDataBlocked maxOffset => .ok (writeVarUInt maxOffset)
  | .connectionMaxStreamId maxStreamId => .ok (writeVarUInt maxStreamId)
  | .connectionStreamIdBlocked maxStreamId => .ok (writeVarUInt maxStreamId)
  | .streamClose streamId errorCode errorMessage => do
    let code ← writeErrorCode errorCode
    return writeVarUInt streamId ++ code ++ writeVarOctetString (utf8Encode errorMessage)
  | .streamMoney streamId shares => .ok (writeVarUInt streamId ++ writeVarUInt shares)
  | .streamMaxMoney streamId receiveMax totalReceived =>
    .ok (writeVarUInt streamId ++ writeVarUInt receiveMax ++ writeVarUInt totalReceived)
  | .streamMoneyBlocked streamId sendMax totalSent =>
    .ok (writeVarUInt streamId ++ writeVarUInt sendMax ++ writeVarUInt totalSent)
  | .streamData streamId offset data =>
    .ok (writeVarUInt streamId ++ writeVarUInt offset ++ writeVarOctetString data)
  | .streamMaxData streamId maxOffset => .ok (writeVarUInt streamId ++ writeVarUInt maxOffset)
  | .streamDataBlocked streamId maxOffset => .ok (writeVarUInt streamId ++ writeVarUInt maxOffset)

/-- Every `writeTo`: `writer.writeUInt8(this.type)`, then the contents as a var octet string. -/
def writeFrame (type : FrameType) (contents : Bytes) : Bytes :=
  UInt8.ofNat type.toNat :: writeVarOctetString contents

theorem writeErrorCode_eq_ok {errorCode : Option ErrorCode} {bytes : Bytes} :
    writeErrorCode errorCode = .ok bytes ↔
      ∃ code, errorCode = some code ∧ bytes = [UInt8.ofNat code.toNat] := by
  cases errorCode with
  | none => simp [writeErrorCode]
  | some code => simp [writeErrorCode, writeUInt8_of_lt code.toNat_lt, eq_comm]

/-- `frame.writeTo(writer)`, dispatched on the frame's class. -/
def Frame.writeTo (frame : Frame) : Except CodecError Bytes :=
  writeFrame frame.type <$> frame.contents

/-- Whether the frame is a close frame whose `errorCode` is the `undefined` of `ErrorCode[n]`. -/
def Frame.hasUndefinedErrorCode : Frame → Bool
  | .connectionClose errorCode _ => errorCode.isNone
  | .streamClose _ errorCode _ => errorCode.isNone
  | _ => false

/-- `writeTo` throws exactly on a close frame whose `errorCode` is `undefined`, with the
writer's range error. -/
theorem Frame.writeTo_eq_error (frame : Frame) (error : CodecError) :
    frame.writeTo = .error error ↔ frame.hasUndefinedErrorCode ∧ error = .uintRange := by
  cases frame with
  | connectionClose errorCode message =>
    cases errorCode <;> simp [writeTo, contents, writeErrorCode, hasUndefinedErrorCode,
      writeUInt8_of_lt (ErrorCode.toNat_lt _), Functor.map, Except.map, eq_comm]
  | streamClose streamId errorCode message =>
    cases errorCode <;> simp [writeTo, contents, writeErrorCode, hasUndefinedErrorCode,
      writeUInt8_of_lt (ErrorCode.toNat_lt _), Functor.map, Except.map, eq_comm]
  | _ => simp [writeTo, contents, hasUndefinedErrorCode, Functor.map, Except.map]

/-! ### Reading -/

/-- `assertType`, `protocol.ts:179–184`: read the type byte, throw unless it is `frameType`'s. -/
def assertType (reader : Bytes) (frameType : FrameType) : Except CodecError Bytes := do
  let (type, reader) ← readUInt8BigNum reader
  if type ≠ frameType.toNat then
    let name := frameType.name
    let code := frameType.toNat
    throw (.thrown s!"Cannot read {name} ({code}) from Buffer. Got type: {type} instead")
  return reader

/-- `ConnectionNewAddressFrame.fromBuffer`, `protocol.ts:195–200`. -/
def ConnectionNewAddressFrame.fromBuffer (reader : Bytes) : Except CodecError (Frame × Bytes) := do
  let reader ← assertType reader .connectionNewAddress
  let (contents, reader) ← readVarOctetString reader
  let (sourceAccount, _) ← readVarOctetString contents
  return (.connectionNewAddress (utf8Decode sourceAccount), reader)

/-- `ConnectionCloseFrame.fromBuffer`, `protocol.ts:222–228`. -/
def ConnectionCloseFrame.fromBuffer (reader : Bytes) : Except CodecError (Frame × Bytes) := do
  let reader ← assertType reader .connectionClose
  let (contents, reader) ← readVarOctetString reader
  let (errorCode, contents) ← readUInt8BigNum contents
  let (errorMessage, _) ← readVarOctetString contents
  return (.connectionClose (ErrorCode.ofNat? errorCode) (utf8Decode errorMessage), reader)

/-- `ConnectionMaxDataFrame.fromBuffer`, `protocol.ts:249–254`. -/
def ConnectionMaxDataFrame.fromBuffer (reader : Bytes) : Except CodecError (Frame × Bytes) := do
  let reader ← assertType reader .connectionMaxData
  let (contents, reader) ← readVarOctetString reader
  let (maxOffset, _) ← readVarUIntBigNum contents
  return (.connectionMaxData maxOffset, reader)

/-- `ConnectionDataBlockedFrame.fromBuffer`, `protocol.ts:274–279`. -/
def ConnectionDataBlockedFrame.fromBuffer (reader : Bytes) : Except CodecError (Frame × Bytes) := do
  let reader ← assertType reader .connectionDataBlocked
  let (contents, reader) ← readVarOctetString reader
  let (maxOffset, _) ← readVarUIntBigNum contents
  return (.connectionDataBlocked maxOffset, reader)

/-- `ConnectionMaxStreamIdFrame.fromBuffer`, `protocol.ts:299–304`. -/
def ConnectionMaxStreamIdFrame.fromBuffer (reader : Bytes) : Except CodecError (Frame × Bytes) := do
  let reader ← assertType reader .connectionMaxStreamId
  let (contents, reader) ← readVarOctetString reader
  let (maxStreamId, _) ← readVarUIntBigNum contents
  return (.connectionMaxStreamId maxStreamId, reader)

/-- `ConnectionStreamIdBlockedFrame.fromBuffer`, `protocol.ts:324–329`. -/
def ConnectionStreamIdBlockedFrame.fromBuffer (reader : Bytes) :
    Except CodecError (Frame × Bytes) := do
  let reader ← assertType reader .connectionStreamIdBlocked
  let (contents, reader) ← readVarOctetString reader
  let (maxStreamId, _) ← readVarUIntBigNum contents
  return (.connectionStreamIdBlocked maxStreamId, reader)

/-- `StreamMoneyFrame.fromBuffer`, `protocol.ts:353–359`. -/
def StreamMoneyFrame.fromBuffer (reader : Bytes) : Except CodecError (Frame × Bytes) := do
  let reader ← assertType reader .streamMoney
  let (contents, reader) ← readVarOctetString reader
  let (streamId, contents) ← readVarUIntBigNum contents
  let (amount, _) ← readVarUIntBigNum contents
  return (.streamMoney streamId amount, reader)

/-- `StreamMaxMoneyFrame.fromBuffer`, `protocol.ts:391–398`. -/
def StreamMaxMoneyFrame.fromBuffer (reader : Bytes) : Except CodecError (Frame × Bytes) := do
  let reader ← assertType reader .streamMaxMoney
  let (contents, reader) ← readVarOctetString reader
  let (streamId, contents) ← readVarUIntBigNum contents
  let (receiveMax, contents) ← readVarUIntBigNum contents
  let (totalReceived, _) ← readVarUIntBigNum contents
  return (.streamMaxMoney streamId receiveMax totalReceived, reader)

/-- `StreamMoneyBlockedFrame.fromBuffer`, `protocol.ts:427–434`. -/
def StreamMoneyBlockedFrame.fromBuffer (reader : Bytes) : Except CodecError (Frame × Bytes) := do
  let reader ← assertType reader .streamMoneyBlocked
  let (contents, reader) ← readVarOctetString reader
  let (streamId, contents) ← readVarUIntBigNum contents
  let (sendMax, contents) ← readVarUIntBigNum contents
  let (totalSent, _) ← readVarUIntBigNum contents
  return (.streamMoneyBlocked streamId sendMax totalSent, reader)

/-- `StreamCloseFrame.fromBuffer`, `protocol.ts:460–467`. -/
def StreamCloseFrame.fromBuffer (reader : Bytes) : Except CodecError (Frame × Bytes) := do
  let reader ← assertType reader .streamClose
  let (contents, reader) ← readVarOctetString reader
  let (streamId, contents) ← readVarUIntBigNum contents
  let (errorCode, contents) ← readUInt8BigNum contents
  let (errorMessage, _) ← readVarOctetString contents
  return (.streamClose streamId (ErrorCode.ofNat? errorCode) (utf8Decode errorMessage), reader)

/-- `StreamDataFrame.fromBuffer`, `protocol.ts:493–500`. -/
def StreamDataFrame.fromBuffer (reader : Bytes) : Except CodecError (Frame × Bytes) := do
  let reader ← assertType reader .streamData
  let (contents, reader) ← readVarOctetString reader
  let (streamId, contents) ← readVarUIntBigNum contents
  let (offset, contents) ← readVarUIntBigNum contents
  let (data, _) ← readVarOctetString contents
  return (.streamData streamId offset data, reader)

/-- `StreamMaxDataFrame.fromBuffer`, `protocol.ts:535–541`. -/
def StreamMaxDataFrame.fromBuffer (reader : Bytes) : Except CodecError (Frame × Bytes) := do
  let reader ← assertType reader .streamMaxData
  let (contents, reader) ← readVarOctetString reader
  let (streamId, contents) ← readVarUIntBigNum contents
  let (maxOffset, _) ← readVarUIntBigNum contents
  return (.streamMaxData streamId maxOffset, reader)

/-- `StreamDataBlockedFrame.fromBuffer`, `protocol.ts:564–570`. -/
def StreamDataBlockedFrame.fromBuffer (reader : Bytes) : Except CodecError (Frame × Bytes) := do
  let reader ← assertType reader .streamDataBlocked
  let (contents, reader) ← readVarOctetString reader
  let (streamId, contents) ← readVarUIntBigNum contents
  let (maxOffset, _) ← readVarUIntBigNum contents
  return (.streamDataBlocked streamId maxOffset, reader)

/-- A parsed frame, as `parseFrame` returns it. -/
def parsed (frame : Except CodecError (Frame × Bytes)) : Except CodecError (Option Frame × Bytes) :=
  (fun (f, reader) => (some f, reader)) <$> frame

/-- `parseFrame`, `protocol.ts:582–617`: dispatch on the peeked type byte; a frame of any
other type, padding included, is read as `[u8][varOctetString]` and skipped. -/
def parseFrame (reader : Bytes) : Except CodecError (Option Frame × Bytes) := do
  let type ← peekUInt8BigNum reader
  match FrameType.ofNat? type with
  | some .connectionClose => parsed (ConnectionCloseFrame.fromBuffer reader)
  | some .connectionNewAddress => parsed (ConnectionNewAddressFrame.fromBuffer reader)
  | some .connectionMaxData => parsed (ConnectionMaxDataFrame.fromBuffer reader)
  | some .connectionDataBlocked => parsed (ConnectionDataBlockedFrame.fromBuffer reader)
  | some .connectionMaxStreamId => parsed (ConnectionMaxStreamIdFrame.fromBuffer reader)
  | some .connectionStreamIdBlocked => parsed (ConnectionStreamIdBlockedFrame.fromBuffer reader)
  | some .streamClose => parsed (StreamCloseFrame.fromBuffer reader)
  | some .streamMoney => parsed (StreamMoneyFrame.fromBuffer reader)
  | some .streamMaxMoney => parsed (StreamMaxMoneyFrame.fromBuffer reader)
  | some .streamMoneyBlocked => parsed (StreamMoneyBlockedFrame.fromBuffer reader)
  | some .streamData => parsed (StreamDataFrame.fromBuffer reader)
  | some .streamMaxData => parsed (StreamMaxDataFrame.fromBuffer reader)
  | some .streamDataBlocked => parsed (StreamDataBlockedFrame.fromBuffer reader)
  | _ => do
    let reader ← skipUInt8 reader
    let reader ← skipVarOctetString reader
    return (none, reader)

theorem FrameType.toNat_lt (type : FrameType) : type.toNat < 256 := by
  cases type <;> decide

@[simp] theorem toNat_ofNat_frameType (type : FrameType) :
    (UInt8.ofNat type.toNat).toNat = type.toNat :=
  UInt8.toNat_ofNat_of_lt type.toNat_lt

@[simp] theorem toNat_ofNat_errorCode (code : ErrorCode) :
    (UInt8.ofNat code.toNat).toNat = code.toNat :=
  UInt8.toNat_ofNat_of_lt code.toNat_lt

/-- `assertType` passes its own type byte. -/
@[simp] theorem assertType_cons (type : FrameType) (rest : Bytes) :
    assertType (UInt8.ofNat type.toNat :: rest) type = .ok rest := by
  simp [assertType]

theorem writeFrame_append (type : FrameType) (contents rest : Bytes) :
    writeFrame type contents ++ rest = UInt8.ofNat type.toNat :: (writeVarOctetString contents ++ rest) :=
  rfl

/-- `parseFrame` reads back a written frame, also when bytes were appended to its contents:
the fields are read from the front of the contents and the rest of it is ignored. -/
theorem parseFrame_writeFrame {frame : Frame} {contents : Bytes} (hc : frame.contents = .ok contents)
    {extension : Bytes} (hlen : (contents ++ extension).length < MaxLength) (rest : Bytes) :
    parseFrame (writeFrame frame.type (contents ++ extension) ++ rest) = .ok (some frame, rest) := by
  rw [writeFrame_append]
  unfold parseFrame
  rw [peekUInt8BigNum_cons, ok_bind, toNat_ofNat_frameType, FrameType.ofNat?_toNat]
  cases frame
  all_goals first
    | obtain ⟨_, hw, hc⟩ := bind_eq_ok.mp hc
      obtain ⟨code, rfl, rfl⟩ := writeErrorCode_eq_ok.mp hw
    | skip
  all_goals
    cases hc
    simp only [List.length_append, List.length_cons, List.length_nil] at hlen
    dsimp only [Frame.type]
    simp (disch := (simp only [List.length_append, List.length_cons, List.length_nil]; omega))
      only [ConnectionCloseFrame.fromBuffer, ConnectionNewAddressFrame.fromBuffer,
      ConnectionMaxDataFrame.fromBuffer, ConnectionDataBlockedFrame.fromBuffer,
      ConnectionMaxStreamIdFrame.fromBuffer, ConnectionStreamIdBlockedFrame.fromBuffer,
      StreamCloseFrame.fromBuffer, StreamMoneyFrame.fromBuffer, StreamMaxMoneyFrame.fromBuffer,
      StreamMoneyBlockedFrame.fromBuffer, StreamDataFrame.fromBuffer,
      StreamMaxDataFrame.fromBuffer, StreamDataBlockedFrame.fromBuffer,
      assertType_cons, ok_bind, readVarOctetString_writeVarOctetString, List.append_assoc,
      List.singleton_append, List.cons_append, List.nil_append, readUInt8BigNum_cons,
      toNat_ofNat_errorCode, ErrorCode.ofNat?_toNat, readVarUIntBigNum_writeVarUInt_append,
      readVarOctetString_writeVarOctetString_append, utf8Decode_utf8Encode, parsed]
    rfl

/-- The type bytes `parseFrame` has a case for. -/
def parsedTypes : List Nat :=
  [0x01, 0x02, 0x03, 0x04, 0x05, 0x06, 0x10, 0x11, 0x12, 0x13, 0x14, 0x15, 0x16]

private theorem ofNat?_of_not_mem {type : Nat} (h : type ∉ parsedTypes) :
    FrameType.ofNat? type = none ∨ FrameType.ofNat? type = some .padding := by
  rcases Nat.lt_or_ge type 0x17 with hlt | hge
  · exact (by decide : ∀ k < 0x17, k ∉ parsedTypes →
      FrameType.ofNat? k = none ∨ FrameType.ofNat? k = some .padding) type hlt h
  · obtain ⟨n, rfl⟩ := Nat.exists_eq_add_of_le' hge
    exact .inl rfl

/-- A frame of a type `parseFrame` has no case for is skipped whole, whatever its contents. -/
theorem parseFrame_unknown {type : UInt8} (h : type.toNat ∉ parsedTypes) {contents : Bytes}
    (hlen : contents.length < MaxLength) (rest : Bytes) :
    parseFrame (type :: writeVarOctetString contents ++ rest) = .ok (none, rest) := by
  unfold parseFrame
  rcases ofNat?_of_not_mem h with hn | hn <;>
    simp only [List.cons_append, peekUInt8BigNum_cons, ok_bind, hn, skipUInt8, skipVarOctetString,
      readUInt8BigNum_cons, Functor.map, Except.map, readVarOctetString_writeVarOctetString hlen] <;>
    rfl

/-! ### Bytes after a frame

`parseFrame` reads a frame from the front of the buffer and hands the rest back: whatever it
reads from a buffer, it reads from the buffer followed by any bytes. -/

/-- `assertType` reads the type byte from the front of the buffer. -/
theorem assertType_append {reader rest : Bytes} {frameType : FrameType}
    (h : assertType reader frameType = .ok rest) (tail : Bytes) :
    assertType (reader ++ tail) frameType = .ok (rest ++ tail) := by
  cases reader with
  | nil => cases h
  | cons type reader =>
    simp only [assertType, List.cons_append, readUInt8BigNum_cons, ok_bind] at h ⊢
    split at h
    · cases h
    · next hne => cases h; rw [if_neg hne]; rfl

/-- A frame reader whose fields come from the contents alone keeps what follows the frame. -/
private theorem parsed_append {x y : Except CodecError (Frame × Bytes)} {frame : Frame}
    {rest tail : Bytes} (hy : y = (fun p => (p.1, p.2 ++ tail)) <$> x)
    (hx : x = .ok (frame, rest)) :
    (fun p => (some p.1, p.2)) <$> y = .ok (some frame, rest ++ tail) := by
  rw [hy, hx]; rfl

/-- `parseFrame` reads the same frame from the front of a longer buffer: a frame it reads
or skips is its type byte and a length-prefixed contents, and every field is read from the
contents, so bytes after the frame are only left after the rest. -/
theorem parseFrame_append {reader rest : Bytes} {frame : Option Frame}
    (h : parseFrame reader = .ok (frame, rest)) (tail : Bytes) :
    parseFrame (reader ++ tail) = .ok (frame, rest ++ tail) := by
  cases reader with
  | nil => cases h
  | cons type reader =>
    unfold parseFrame at h ⊢
    rw [List.cons_append, peekUInt8BigNum_cons, ok_bind] at *
    split at h
    case h_14 =>
      obtain ⟨r1, hskip, hrest⟩ := bind_eq_ok.mp h
      obtain ⟨r2, hcontents, hreturn⟩ := bind_eq_ok.mp hrest
      obtain ⟨⟨contents, r3⟩, hread, rfl⟩ := map_eq_ok.mp hcontents
      cases hskip
      cases hreturn
      dsimp only at hread
      simp only [skipUInt8, skipVarOctetString, readUInt8BigNum_cons, Functor.map, Except.map, ok_bind,
        readVarOctetString_append hread]
      rfl
    all_goals
      obtain ⟨⟨f, rest'⟩, hread, hparsed⟩ := map_eq_ok.mp h
      cases hparsed
      simp only [parsed, ConnectionCloseFrame.fromBuffer, ConnectionNewAddressFrame.fromBuffer,
        ConnectionMaxDataFrame.fromBuffer, ConnectionDataBlockedFrame.fromBuffer,
        ConnectionMaxStreamIdFrame.fromBuffer, ConnectionStreamIdBlockedFrame.fromBuffer,
        StreamCloseFrame.fromBuffer, StreamMoneyFrame.fromBuffer, StreamMaxMoneyFrame.fromBuffer,
        StreamMoneyBlockedFrame.fromBuffer, StreamDataFrame.fromBuffer,
        StreamMaxDataFrame.fromBuffer, StreamDataBlockedFrame.fromBuffer] at hread ⊢
      obtain ⟨r1, h1, hread⟩ := bind_eq_ok.mp hread
      obtain ⟨⟨contents, r2⟩, h2, hread⟩ := bind_eq_ok.mp hread
      rw [← List.cons_append, assertType_append h1, ok_bind, readVarOctetString_append h2, ok_bind]
      refine parsed_append ?_ hread
      simp only [map_bind, map_pure]

end IlpStream.Protocol
