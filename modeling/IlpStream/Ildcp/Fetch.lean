import IlpStream.Server.Address

/-!
# Client configuration over IL-DCP

`fetch`, `src/src/ildcp.ts:33–56`, asks the peer for the client's configuration with an ILP
Prepare to `peer.config` and reads the reply that `sendData` resolves to. A Reject throws
`IL-DCP failed: ` followed by the reject's message, and a reply of any other type but Fulfill
throws a generic error. A Fulfill goes to `deserializeIldcpResponse`, lines 16–31, which throws
unless the fulfillment is `PEER_PROTOCOL_FULFILLMENT`, 32 zero bytes, and then reads from the
data the client address in ASCII, the asset scale in one byte and the asset code in UTF-8.

`ilp-packet`, whose readers take the ILP packets apart, is not among the repository's files:
its two readers are a parameter, and the request is not modelled. The peer writes the data as
`serializeIldcpData` does, so a configuration with an ASCII address and a scale below 256
reaches the client as it was sent, whatever bytes follow it in the data. A reply is accepted
only if it is a Fulfill carrying the expected fulfillment.
-/

namespace IlpStream.Ildcp
open Oer

/-- `IlpPacket.Type.TYPE_ILP_FULFILL`. -/
def TYPE_ILP_FULFILL : Nat := 13

/-- `IlpPacket.Type.TYPE_ILP_REJECT`. -/
def TYPE_ILP_REJECT : Nat := 14

/-- `PEER_PROTOCOL_FULFILLMENT`, `Buffer.alloc(32)`. -/
def PEER_PROTOCOL_FULFILLMENT : Bytes := List.replicate 32 0

/-- The readers of `ilp-packet` that `fetch` calls: `deserializeIlpFulfill`, the fulfillment
and the data of a Fulfill, and `deserializeIlpReject`, of which `fetch` reads the message. -/
structure IlpPacketReader where
  deserializeIlpFulfill : Bytes → Except CodecError (Bytes × Bytes)
  deserializeIlpReject : Bytes → Except CodecError String

/-- `IldcpResponse`. -/
structure IldcpResponse where
  clientAddress : List Char
  assetScale : Nat
  assetCode : String
  deriving DecidableEq, Repr

/-- `buffer.toString('ascii')`: each byte with its high bit cleared, as a character. -/
def asciiDecode (bytes : Bytes) : List Char :=
  bytes.map fun byte => Char.ofNat (byte.toNat % 0x80)

/-- `deserializeIldcpResponse(response)`, `ildcp.ts:16–31`. -/
def deserializeIldcpResponse (ilp : IlpPacketReader) (response : Bytes) :
    Except CodecError IldcpResponse := do
  let (fulfillment, data) ← ilp.deserializeIlpFulfill response
  if PEER_PROTOCOL_FULFILLMENT ≠ fulfillment then
    throw (.thrown "IL-DCP response does not contain the expected fulfillment.")
  let (clientAddress, reader) ← readVarOctetString data
  let (assetScale, reader) ← readUInt8BigNum reader
  let (assetCode, _) ← readVarOctetString reader
  return ⟨asciiDecode clientAddress, assetScale, utf8Decode assetCode⟩

/-- `fetch(sendData)`, `ildcp.ts:33–56`, from the reply `data` that `sendData` resolves to; an
empty reply has no `data[0]`, which is no type. -/
def fetch (ilp : IlpPacketReader) (data : Bytes) : Except CodecError IldcpResponse :=
  if data.head?.map UInt8.toNat = some TYPE_ILP_REJECT then do
    let message ← ilp.deserializeIlpReject data
    throw (.thrown ("IL-DCP failed: " ++ message))
  else if data.head?.map UInt8.toNat ≠ some TYPE_ILP_FULFILL then
    throw (.thrown "IL-DCP error, unable to retrieve client configuration.")
  else deserializeIldcpResponse ilp data

/-- The data of an IL-DCP response as the peer writes it, with `serializeIldcpResponse` of
`ilp-protocol-ildcp`, not among the repository's files: the client address in ASCII, the asset
scale in one byte, the asset code in UTF-8. -/
def serializeIldcpData (response : IldcpResponse) : Bytes :=
  writeVarOctetString (asciiBytes response.clientAddress) ++ [UInt8.ofNat response.assetScale] ++
    writeVarOctetString (utf8Encode response.assetCode)

namespace IldcpResponse

/-- The configurations a peer can send: an ASCII address, a scale that fits a byte, and strings
an OER length prefix can count. -/
structure Encodable (response : IldcpResponse) : Prop where
  ascii : ∀ c ∈ response.clientAddress, c.toNat < 0x80
  assetScale_lt : response.assetScale < 256
  clientAddress_fits : response.clientAddress.length < MaxLength
  assetCode_fits : (utf8Encode response.assetCode).length < MaxLength

instance (response : IldcpResponse) : Decidable response.Encodable :=
  decidable_of_iff ((∀ c ∈ response.clientAddress, c.toNat < 0x80) ∧ response.assetScale < 256 ∧
      response.clientAddress.length < MaxLength ∧ (utf8Encode response.assetCode).length < MaxLength)
    ⟨fun ⟨a, b, c, d⟩ => ⟨a, b, c, d⟩, fun ⟨a, b, c, d⟩ => ⟨a, b, c, d⟩⟩

end IldcpResponse

/-! ### The errors -/

section
variable {ilp : IlpPacketReader} {data : Bytes}

/-- A Reject throws its message after `IL-DCP failed: `. -/
theorem fetch_of_reject (htype : data.head?.map UInt8.toNat = some TYPE_ILP_REJECT)
    {message : String} (h : ilp.deserializeIlpReject data = .ok message) :
    fetch ilp data = .error (.thrown ("IL-DCP failed: " ++ message)) := by
  rw [fetch, if_pos htype, h, ok_bind, throw_eq_error]

/-- A reply that is neither a Reject nor a Fulfill, the empty one included, throws the generic
error. -/
theorem fetch_of_other_type (hreject : data.head?.map UInt8.toNat ≠ some TYPE_ILP_REJECT)
    (hfulfill : data.head?.map UInt8.toNat ≠ some TYPE_ILP_FULFILL) :
    fetch ilp data =
      .error (.thrown "IL-DCP error, unable to retrieve client configuration.") := by
  rw [fetch, if_neg hreject, if_pos hfulfill, throw_eq_error]

/-- A Fulfill whose fulfillment is not `PEER_PROTOCOL_FULFILLMENT` throws. -/
theorem fetch_of_fulfillment_ne (htype : data.head?.map UInt8.toNat = some TYPE_ILP_FULFILL)
    {fulfillment payload : Bytes} (h : ilp.deserializeIlpFulfill data = .ok (fulfillment, payload))
    (hne : fulfillment ≠ PEER_PROTOCOL_FULFILLMENT) :
    fetch ilp data =
      .error (.thrown "IL-DCP response does not contain the expected fulfillment.") := by
  rw [fetch, if_neg (by rw [htype]; decide), if_neg (not_not_intro htype),
    deserializeIldcpResponse, h, ok_bind]
  dsimp only
  rw [if_pos (Ne.symm hne), throw_eq_error, error_bind]

/-- Only a Fulfill that carries `PEER_PROTOCOL_FULFILLMENT` is accepted. -/
theorem fetch_eq_ok {response : IldcpResponse} (h : fetch ilp data = .ok response) :
    data.head?.map UInt8.toNat = some TYPE_ILP_FULFILL ∧
      ∃ payload, ilp.deserializeIlpFulfill data = .ok (PEER_PROTOCOL_FULFILLMENT, payload) := by
  unfold fetch at h
  split at h
  · obtain ⟨_, -, h⟩ := bind_eq_ok.mp h
    cases h
  split at h
  · cases h
  next htype =>
    unfold deserializeIldcpResponse at h
    refine ⟨not_not.mp htype, ?_⟩
    obtain ⟨⟨fulfillment, payload⟩, hread, h⟩ := bind_eq_ok.mp h
    by_cases hf : PEER_PROTOCOL_FULFILLMENT = fulfillment
    · exact ⟨payload, hf ▸ hread⟩
    · dsimp only at h
      rw [if_pos hf, throw_eq_error, error_bind] at h
      cases h

end

/-! ### The configuration the peer sends -/

/-- Reading back ASCII text: every character below `0x80` survives its byte. -/
theorem asciiDecode_asciiBytes {s : List Char} (h : ∀ c ∈ s, c.toNat < 0x80) :
    asciiDecode (asciiBytes s) = s := by
  unfold asciiDecode asciiBytes
  rw [List.map_map]
  conv_rhs => rw [← List.map_id s]
  refine List.map_congr_left fun c hc => ?_
  have hc := h c hc
  simp only [Function.comp_apply, UInt8.toNat_ofNat_of_lt (by omega : c.toNat < 256),
    Nat.mod_eq_of_lt hc, Char.ofNat_toNat, id]

/-- Every configuration the peer can send reaches the client: for any `ilp-packet` readers and
any reply of type Fulfill that they read as `PEER_PROTOCOL_FULFILLMENT` and the data the peer
writes for the configuration, followed by any bytes, `fetch` returns the configuration. -/
theorem fetch_serializeIldcpData {response : IldcpResponse} (hr : response.Encodable)
    (ilp : IlpPacketReader) {data : Bytes}
    (htype : data.head?.map UInt8.toNat = some TYPE_ILP_FULFILL) (trailing : Bytes)
    (hread : ilp.deserializeIlpFulfill data =
      .ok (PEER_PROTOCOL_FULFILLMENT, serializeIldcpData response ++ trailing)) :
    fetch ilp data = .ok response := by
  have haddress : (asciiBytes response.clientAddress).length < MaxLength := by
    simpa [asciiBytes] using hr.clientAddress_fits
  rw [fetch, if_neg (by rw [htype]; decide), if_neg (not_not_intro htype),
    deserializeIldcpResponse, hread, ok_bind]
  dsimp only
  rw [if_neg (not_ne_iff.mpr rfl)]
  simp only [serializeIldcpData, List.append_assoc, List.singleton_append, List.cons_append,
    List.nil_append, readVarOctetString_writeVarOctetString haddress, ok_bind,
    readUInt8BigNum_cons, readVarOctetString_writeVarOctetString hr.assetCode_fits,
    UInt8.toNat_ofNat_of_lt hr.assetScale_lt, asciiDecode_asciiBytes hr.ascii,
    utf8Decode_utf8Encode, pure_eq_ok]

/-- A reader that takes every reply for a Fulfill of the expected fulfillment and the data the
peer writes for `test.alice`, scale 9, `USD`, followed by one byte. -/
def usdReader : IlpPacketReader :=
  ⟨fun _ => .ok (PEER_PROTOCOL_FULFILLMENT,
    serializeIldcpData ⟨"test.alice".toList, 9, "USD"⟩ ++ [1]), fun _ => .ok ""⟩

theorem fetch_serializeIldcpData_usd :
    (⟨"test.alice".toList, 9, "USD"⟩ : IldcpResponse).Encodable ∧
    fetch usdReader [13] = .ok ⟨"test.alice".toList, 9, "USD"⟩ :=
  ⟨by decide, @fetch_serializeIldcpData ⟨"test.alice".toList, 9, "USD"⟩ (by decide) usdReader [13]
    rfl [1] rfl⟩

end IlpStream.Ildcp
