import IlpStream.Protocol.Frame

/-!
# STREAM packets

`Packet` of `src/src/protocol.ts:21–107`: `writeTo` and `_serialize`, and
`_deserializeUnencrypted`, which reads `numFrames` frames through `parseFrame`, keeps those
it recognises and ignores every byte after the last. The decoder is also run on the bytes a
later sender may write: frames of types it has no case for, bytes appended to a frame's
contents, and bytes after the last frame (`WireFrame`, `serializeWith`). Whatever buffer the
decoder accepts, it accepts followed by any bytes, with the same packet
(`deserializeUnencrypted_append`).
-/

namespace IlpStream.Protocol
open Oer

/-- `VERSION`, `protocol.ts:7`. -/
def VERSION : Nat := 1

/-- `Packet`, `protocol.ts:21–32`. -/
structure Packet where
  sequence : Nat
  ilpPacketType : Nat
  prepareAmount : Nat
  frames : List Frame
  deriving DecidableEq, Repr

namespace Packet

/-- `writeTo` and `_serialize`, `protocol.ts:84–100`: version, packet type, sequence, amount,
the number of frames, then the frames. -/
def serialize (packet : Packet) : Except CodecError Bytes := do
  let version ← writeUInt8 VERSION
  let ilpPacketType ← writeUInt8 packet.ilpPacketType
  let frames ← packet.frames.mapM Frame.writeTo
  return version ++ ilpPacketType ++ writeVarUInt packet.sequence ++
    writeVarUInt packet.prepareAmount ++ writeVarUInt packet.frames.length ++ frames.flatten

/-- The loop of `_deserializeUnencrypted`: `numFrames` calls of `parseFrame`, keeping the
frames it returns. -/
def parseFrames : Nat → Bytes → Except CodecError (List Frame × Bytes)
  | 0, reader => .ok ([], reader)
  | numFrames + 1, reader => do
    let (frame, reader) ← parseFrame reader
    let (frames, reader) ← parseFrames numFrames reader
    return (frame.toList ++ frames, reader)

/-- `_deserializeUnencrypted`, `protocol.ts:45–64`. -/
def deserializeUnencrypted (buffer : Bytes) : Except CodecError Packet := do
  let (version, reader) ← readUInt8BigNum buffer
  if version ≠ VERSION then
    throw (.thrown s!"Unsupported protocol version: {version}")
  let (ilpPacketType, reader) ← readUInt8BigNum reader
  let (sequence, reader) ← readVarUIntBigNum reader
  let (packetAmount, reader) ← readVarUIntBigNum reader
  let (numFrames, reader) ← readVarUIntBigNum reader
  let (frames, _) ← parseFrames numFrames reader
  return ⟨sequence, ilpPacketType, packetAmount, frames⟩

/-- The packets `_serialize` writes and `_deserializeUnencrypted` reads back: the type is a
byte, every frame's error code names a member, and every integer and frame fits an OER
length prefix. -/
structure Encodable (packet : Packet) : Prop where
  ilpPacketType_lt : packet.ilpPacketType < 256
  sequence_fits : (uintBytes packet.sequence).length < MaxLength
  prepareAmount_fits : (uintBytes packet.prepareAmount).length < MaxLength
  numFrames_fits : (uintBytes packet.frames.length).length < MaxLength
  frames_fit : ∀ frame ∈ packet.frames, Fits frame.contents

instance (packet : Packet) : Decidable packet.Encodable :=
  decidable_of_iff (packet.ilpPacketType < 256 ∧ (uintBytes packet.sequence).length < MaxLength ∧
      (uintBytes packet.prepareAmount).length < MaxLength ∧
      (uintBytes packet.frames.length).length < MaxLength ∧
      ∀ frame ∈ packet.frames, Fits frame.contents)
    ⟨fun ⟨a, b, c, d, e⟩ => ⟨a, b, c, d, e⟩, fun ⟨a, b, c, d, e⟩ => ⟨a, b, c, d, e⟩⟩

end Packet

/-! ### Frames as a later sender may write them -/

/-- A frame on the wire: a known frame whose contents carry `extension` after its fields,
or a frame of a type the decoder has no case for. -/
inductive WireFrame
  | known (frame : Frame) (extension : Bytes)
  | unknown (type : UInt8) (contents : Bytes)

namespace WireFrame

/-- The bytes of a wire frame, written as `Frame.writeTo` writes a known one. -/
def write : WireFrame → Except CodecError Bytes
  | known frame extension =>
    (fun contents => writeFrame frame.type (contents ++ extension)) <$> frame.contents
  | unknown type contents => .ok (type :: writeVarOctetString contents)

/-- The frame the decoder returns for it. -/
def known? : WireFrame → Option Frame
  | known frame _ => some frame
  | unknown .. => none

/-- Wire frames the decoder reads whole: the contents fit a length prefix, and an unknown
frame's type is none of `parsedTypes`. -/
def Readable : WireFrame → Prop
  | known frame extension => Fits ((· ++ extension) <$> frame.contents)
  | unknown type contents => type.toNat ∉ parsedTypes ∧ contents.length < MaxLength

instance : DecidablePred Readable
  | known frame extension => inferInstanceAs (Decidable (Fits ((· ++ extension) <$> frame.contents)))
  | unknown type contents =>
    inferInstanceAs (Decidable (type.toNat ∉ parsedTypes ∧ contents.length < MaxLength))

end WireFrame

namespace Packet

/-- The packet's header, then the wire frames `frames` (their number in the header), then
`trailing` bytes. -/
def serializeWith (packet : Packet) (frames : List WireFrame) (trailing : Bytes) :
    Except CodecError Bytes := do
  let version ← writeUInt8 VERSION
  let ilpPacketType ← writeUInt8 packet.ilpPacketType
  let frameBytes ← frames.mapM WireFrame.write
  return version ++ ilpPacketType ++ writeVarUInt packet.sequence ++
    writeVarUInt packet.prepareAmount ++ writeVarUInt frames.length ++ frameBytes.flatten ++
    trailing

private theorem mapM_writeTo (frames : List Frame) :
    (frames.map (WireFrame.known · [])).mapM WireFrame.write = frames.mapM Frame.writeTo := by
  induction frames with
  | nil => rfl
  | cons frame frames ih =>
    simp only [List.map_cons, List.mapM_cons, ih, WireFrame.write, Frame.writeTo, List.append_nil]

/-- `_serialize` is `serializeWith` of the packet's own frames, unextended, and no trailing
bytes. -/
theorem serialize_eq_serializeWith (packet : Packet) :
    packet.serialize = packet.serializeWith (packet.frames.map (WireFrame.known · [])) [] := by
  simp only [serialize, serializeWith, mapM_writeTo, List.length_map, List.append_nil]

/-- Reading the written wire frames returns the known ones, in order, and the bytes after. -/
theorem parseFrames_write {frames : List WireFrame} {bytes : List Bytes}
    (hw : frames.mapM WireFrame.write = .ok bytes) (hr : ∀ w ∈ frames, w.Readable) (rest : Bytes) :
    parseFrames frames.length (bytes.flatten ++ rest) =
      .ok (frames.filterMap WireFrame.known?, rest) := by
  induction frames generalizing bytes with
  | nil => cases hw; rfl
  | cons w frames ih =>
    rw [List.mapM_cons] at hw
    obtain ⟨b, hb, hw⟩ := bind_eq_ok.mp hw
    obtain ⟨bs, hbs, hw⟩ := bind_eq_ok.mp hw
    cases hw
    have hfirst : parseFrame (b ++ (bs.flatten ++ rest)) = .ok (w.known?, bs.flatten ++ rest) := by
      cases w with
      | known frame extension =>
        obtain ⟨c, hc, rfl⟩ := map_eq_ok.mp hb
        have hlen : (c ++ extension).length < MaxLength := by
          simpa [WireFrame.Readable, hc, Fits, Functor.map, Except.map] using
            hr _ (List.mem_cons_self ..)
        exact parseFrame_writeFrame hc hlen _
      | unknown type contents =>
        cases hb
        exact parseFrame_unknown (hr _ (List.mem_cons_self ..)).1 (hr _ (List.mem_cons_self ..)).2 _
    simp only [List.length_cons, parseFrames, List.flatten_cons, List.append_assoc, hfirst, ok_bind,
      ih hbs (fun w hw => hr w (List.mem_cons_of_mem _ hw)), pure_eq_ok]
    cases w <;> rfl

private theorem write_ok {w : WireFrame} (hr : w.Readable) : ∃ bytes, w.write = .ok bytes := by
  cases w with
  | known frame extension =>
    obtain ⟨c, hc, -⟩ := fits_iff.mp hr
    obtain ⟨c, hc', -⟩ := map_eq_ok.mp hc
    exact ⟨_, by rw [WireFrame.write, hc']; rfl⟩
  | unknown type contents => exact ⟨_, rfl⟩

private theorem mapM_write_ok {frames : List WireFrame} (hr : ∀ w ∈ frames, w.Readable) :
    ∃ bytes, frames.mapM WireFrame.write = .ok bytes := by
  induction frames with
  | nil => exact ⟨[], rfl⟩
  | cons w frames ih =>
    obtain ⟨b, hb⟩ := write_ok (hr w (List.mem_cons_self ..))
    obtain ⟨bs, hbs⟩ := ih (fun w hw => hr w (List.mem_cons_of_mem _ hw))
    exact ⟨b :: bs, by rw [List.mapM_cons, hb, hbs]; rfl⟩

/-- The decoder reads the header back and, of the frames, exactly the known ones, whatever
unknown frames, content extensions and trailing bytes the wire image carries. -/
theorem deserializeUnencrypted_serializeWith_of {packet : Packet}
    (htype : packet.ilpPacketType < 256) (hseq : (uintBytes packet.sequence).length < MaxLength)
    (hamount : (uintBytes packet.prepareAmount).length < MaxLength) {frames : List WireFrame}
    (hcount : (uintBytes frames.length).length < MaxLength) (hr : ∀ w ∈ frames, w.Readable)
    (trailing : Bytes) :
    (packet.serializeWith frames trailing >>= deserializeUnencrypted) =
      .ok { packet with frames := frames.filterMap WireFrame.known? } := by
  obtain ⟨bytes, hw⟩ := mapM_write_ok hr
  simp only [serializeWith, writeUInt8_of_lt (show VERSION < 256 by decide), writeUInt8_of_lt htype,
    hw, ok_bind, pure_eq_ok, List.append_assoc, List.singleton_append, deserializeUnencrypted,
    readUInt8BigNum_cons, UInt8.toNat_ofNat_of_lt (show VERSION < UInt8.size by decide),
    UInt8.toNat_ofNat_of_lt (show packet.ilpPacketType < UInt8.size from htype),
    readVarUIntBigNum_writeVarUInt hseq, readVarUIntBigNum_writeVarUInt hamount,
    readVarUIntBigNum_writeVarUInt hcount, parseFrames_write hw hr]
  rfl

private theorem readable_of_encodable {packet : Packet} (hp : packet.Encodable) :
    ∀ w ∈ packet.frames.map (WireFrame.known · []), w.Readable := by
  simp only [List.mem_map]
  rintro _ ⟨frame, hf, rfl⟩
  simpa [WireFrame.Readable] using hp.frames_fit frame hf

/-- Packet codec round trip, `protocol.ts:45–100`: `_deserializeUnencrypted(P._serialize())`
is `P` for every encodable packet, whatever its frames, their number and their order. -/
theorem deserializeUnencrypted_serialize {packet : Packet} (hp : packet.Encodable) :
    (packet.serialize >>= deserializeUnencrypted) = .ok packet := by
  rw [serialize_eq_serializeWith, deserializeUnencrypted_serializeWith_of hp.ilpPacketType_lt
    hp.sequence_fits hp.prepareAmount_fits (by simpa using hp.numFrames_fits)
    (readable_of_encodable hp)]
  simp [List.filterMap_map, WireFrame.known?, Function.comp_def]

/-- The round trip on a packet of three frames of different classes. -/
theorem deserializeUnencrypted_serialize_three_frames :
    let packet : Packet := ⟨7, 12, 100,
      [.streamMoney 1 5, .connectionClose (some .noError) "bye", .streamData 1 0 [104, 105]]⟩
    packet.Encodable ∧ (packet.serialize >>= deserializeUnencrypted) = .ok packet :=
  ⟨by decide, deserializeUnencrypted_serialize (by decide)⟩

private theorem serializeWith_trailing (packet : Packet) (frames : List WireFrame)
    (trailing : Bytes) :
    packet.serializeWith frames trailing = (· ++ trailing) <$> packet.serializeWith frames [] := by
  simp only [serializeWith, List.append_nil]
  cases writeUInt8 packet.ilpPacketType <;> cases frames.mapM WireFrame.write <;> rfl

/-- An encodable packet serializes, and the decoder reads it back from the front of any
buffer that starts with it: bytes after the packet, padding included, are ignored. -/
theorem deserializeUnencrypted_serialize_append {packet : Packet} (hp : packet.Encodable) :
    ∃ serialized, packet.serialize = .ok serialized ∧
      ∀ trailing, deserializeUnencrypted (serialized ++ trailing) = .ok packet := by
  have hread := fun trailing => deserializeUnencrypted_serializeWith_of hp.ilpPacketType_lt
    hp.sequence_fits hp.prepareAmount_fits (by simpa using hp.numFrames_fits)
    (readable_of_encodable hp) trailing
  have hframes : { packet with
      frames := (packet.frames.map (WireFrame.known · [])).filterMap WireFrame.known? } = packet := by
    simp [List.filterMap_map, WireFrame.known?, Function.comp_def]
  obtain ⟨serialized, hs, -⟩ := bind_eq_ok.mp (hread [])
  refine ⟨serialized, by rw [serialize_eq_serializeWith, hs], fun trailing => ?_⟩
  obtain ⟨bytes, hb, hd⟩ := bind_eq_ok.mp (hread trailing)
  rw [serializeWith_trailing, hs] at hb
  cases hb
  rw [hd, hframes]

/-- Forward-compatible framing, `protocol.ts:45–64` and `582–617`: the decoded packet is
unchanged by frames of unknown types inserted anywhere (counted in `numFrames`), by bytes
appended to any known frame's contents, and by bytes after the last frame. -/
theorem deserializeUnencrypted_serializeWith {packet : Packet} (hp : packet.Encodable)
    {frames : List WireFrame} (hknown : frames.filterMap WireFrame.known? = packet.frames)
    (hr : ∀ w ∈ frames, w.Readable) (hcount : (uintBytes frames.length).length < MaxLength)
    (trailing : Bytes) :
    (packet.serializeWith frames trailing >>= deserializeUnencrypted) = .ok packet := by
  rw [deserializeUnencrypted_serializeWith_of hp.ilpPacketType_lt hp.sequence_fits
    hp.prepareAmount_fits hcount hr, hknown]

/-- A padding frame and an unknown `0xfe` frame around an extended money frame, and trailing
bytes, leave the decoded packet as it was. -/
theorem deserializeUnencrypted_serializeWith_padding_and_unknown :
    let packet : Packet := ⟨1, 12, 10, [.streamMoney 3 1]⟩
    let frames := [.unknown 0x00 [0, 0], .known (.streamMoney 3 1) [9, 9], .unknown 0xfe [1]]
    packet.Encodable ∧ frames.filterMap WireFrame.known? = packet.frames ∧
      (∀ w ∈ frames, w.Readable) ∧ (uintBytes frames.length).length < MaxLength ∧
      (packet.serializeWith frames [5, 5, 5] >>= deserializeUnencrypted) = .ok packet :=
  ⟨by decide, rfl, by decide, by decide,
    deserializeUnencrypted_serializeWith (by decide) rfl (by decide) (by decide) _⟩

private theorem mapM_writeTo_eq_error (frames : List Frame) (error : CodecError) :
    frames.mapM Frame.writeTo = .error error ↔
      frames.any Frame.hasUndefinedErrorCode ∧ error = .uintRange := by
  induction frames with
  | nil =>
    rw [List.mapM_nil, pure_eq_ok]
    simp
  | cons frame frames ih =>
    rw [List.mapM_cons, List.any_cons]
    cases hw : frame.writeTo with
    | error e =>
      obtain ⟨hu, rfl⟩ := (Frame.writeTo_eq_error frame e).mp hw
      simp [hu, eq_comm]
    | ok bytes =>
      have hu : frame.hasUndefinedErrorCode = false := by
        by_contra hu
        rw [(Frame.writeTo_eq_error frame .uintRange).mpr ⟨by simpa using hu, rfl⟩] at hw
        cases hw
      rw [ok_bind, hu, Bool.false_or, ← ih]
      cases frames.mapM Frame.writeTo <;> simp [pure_eq_ok]

/-- `_serialize` throws exactly when the packet type is not a byte or a close frame's
`errorCode` is `undefined`, with the writer's range error. -/
theorem serialize_eq_error (packet : Packet) (error : CodecError) :
    packet.serialize = .error error ↔
      (256 ≤ packet.ilpPacketType ∨ packet.frames.any Frame.hasUndefinedErrorCode) ∧
        error = .uintRange := by
  rw [serialize, writeUInt8_of_lt (by decide : VERSION < 256), ok_bind]
  by_cases htype : packet.ilpPacketType < 256
  · rw [writeUInt8_of_lt htype, ok_bind, or_iff_right (by omega), ← mapM_writeTo_eq_error]
    cases packet.frames.mapM Frame.writeTo <;> simp [pure_eq_ok]
  · rw [writeUInt8, if_neg htype, error_bind]
    exact ⟨fun h => ⟨.inl (by omega), (Except.error.inj h).symm⟩, fun ⟨_, h⟩ => h ▸ rfl⟩

/-- A close frame whose error-code byte names no member of `ErrorCode` decodes, its
`errorCode` the `undefined` of `ErrorCode[0]`, and the decoded packet cannot be serialized:
`writeUInt8(ErrorCode[undefined])` throws. -/
theorem deserializeUnencrypted_unknown_errorCode :
    deserializeUnencrypted [1, 12, 1, 0, 1, 0, 1, 1, 1, 2, 0, 0] =
        .ok ⟨0, 12, 0, [.connectionClose none ""]⟩ ∧
      serialize ⟨0, 12, 0, [.connectionClose none ""]⟩ = .error .uintRange :=
  ⟨rfl, rfl⟩

/-- A buffer whose first byte is not `VERSION` is refused with the version it names, before any
other field is read. -/
theorem deserializeUnencrypted_version_ne {byte : UInt8} {version : Nat}
    (hbyte : byte.toNat = version) (h : version ≠ VERSION) (rest : Bytes) :
    deserializeUnencrypted (byte :: rest) =
      .error (.thrown s!"Unsupported protocol version: {version}") := by
  subst hbyte
  rw [deserializeUnencrypted, readUInt8BigNum_cons, ok_bind]
  dsimp only
  rw [if_pos h]
  rfl

/-! ### Bytes after a packet -/

/-- The frame loop reads the same frames from the front of a longer buffer. -/
theorem parseFrames_append {numFrames : Nat} {reader rest : Bytes} {frames : List Frame}
    (h : parseFrames numFrames reader = .ok (frames, rest)) (tail : Bytes) :
    parseFrames numFrames (reader ++ tail) = .ok (frames, rest ++ tail) := by
  induction numFrames generalizing reader frames rest with
  | zero => cases h; rfl
  | succ numFrames ih =>
    obtain ⟨⟨frame, reader'⟩, hframe, hrest⟩ := bind_eq_ok.mp h
    obtain ⟨⟨frames', rest'⟩, hframes, hreturn⟩ := bind_eq_ok.mp hrest
    cases hreturn
    rw [parseFrames, parseFrame_append hframe, ok_bind]
    dsimp only
    rw [ih hframes, ok_bind]
    rfl

/-- Bytes after a packet never change it, `protocol.ts:45–64`: whatever buffer
`_deserializeUnencrypted` accepts, it accepts followed by any bytes, and returns the same
packet. This covers every length determinant the reader lets through, the non-minimal ones
of `readLengthPrefix_five_bytes` included. -/
theorem deserializeUnencrypted_append {buffer : Bytes} {packet : Packet}
    (h : deserializeUnencrypted buffer = .ok packet) (tail : Bytes) :
    deserializeUnencrypted (buffer ++ tail) = .ok packet := by
  obtain ⟨⟨version, r1⟩, hversion, hrest⟩ := bind_eq_ok.mp h
  dsimp only at hrest
  split at hrest
  · cases hrest
  · next hsupported =>
    rw [pure_eq_ok, ok_bind] at hrest
    obtain ⟨⟨ilpPacketType, r2⟩, htype, hrest⟩ := bind_eq_ok.mp hrest
    obtain ⟨⟨sequence, r3⟩, hsequence, hrest⟩ := bind_eq_ok.mp hrest
    obtain ⟨⟨packetAmount, r4⟩, hamount, hrest⟩ := bind_eq_ok.mp hrest
    obtain ⟨⟨numFrames, r5⟩, hcount, hrest⟩ := bind_eq_ok.mp hrest
    obtain ⟨⟨frames, r6⟩, hframes, hreturn⟩ := bind_eq_ok.mp hrest
    cases hreturn
    simp only [deserializeUnencrypted, readUInt8BigNum_append hversion, ok_bind, if_neg hsupported,
      pure_eq_ok, readUInt8BigNum_append htype, readVarUIntBigNum_append hsequence,
      readVarUIntBigNum_append hamount, readVarUIntBigNum_append hcount, parseFrames_append hframes]

set_option maxRecDepth 2000 in
theorem deserializeUnencrypted_append_long_prefix :
    deserializeUnencrypted ([1, 12, 1, 7, 1, 0, 1, 2, 0x11, 4, 1, 1, 1, 5, 0, 0x85, 0, 0, 0, 0, 128] ++
      List.replicate 128 0) = .ok ⟨7, 12, 0, [.streamMoney 1 5]⟩ ∧
    deserializeUnencrypted ([1, 12, 1, 7, 1, 0, 1, 2, 0x11, 4, 1, 1, 1, 5, 0, 0x85, 0, 0, 0, 0, 128] ++
      List.replicate 128 0 ++ [0, 0, 0xfe]) = .ok ⟨7, 12, 0, [.streamMoney 1 5]⟩ :=
  have h : deserializeUnencrypted ([1, 12, 1, 7, 1, 0, 1, 2, 0x11, 4, 1, 1, 1, 5, 0, 0x85, 0, 0, 0,
      0, 128] ++ List.replicate 128 0) = .ok ⟨7, 12, 0, [.streamMoney 1 5]⟩ := rfl
  ⟨h, deserializeUnencrypted_append h _⟩

end Packet
end IlpStream.Protocol
