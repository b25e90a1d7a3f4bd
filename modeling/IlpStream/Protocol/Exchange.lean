import IlpStream.Protocol.Encryption

/-!
# Packets between the two ends of a connection

Each end of a connection holds the shared secret in a `Buffer` of its own and runs its own copy
of the crypto module, whose `pskKeyMap` caches the encryption key of each secret object. An end
seals what it sends with `Packet.serializeAndEncrypt` and opens what it receives with
`Packet.decryptAndDeserialize`; both calls look the key up in that one cache. `exchange` runs
packets sent either way, in any order, each end's `Map`s carried from one packet to the next.

An end is sound when its caches hold only the keys of its objects' bytes and its secret still
holds the bytes of its object. One packet between sound ends whose secrets hold the same bytes
arrives as it was sent and leaves both ends sound (`transmit_of_sound`); so every encodable
packet of a run arrives, in order, whatever the padding targets, the IVs and the directions.
-/

namespace IlpStream.Protocol
open Oer Crypto

/-- One end of a connection: its `Buffer` of the shared secret and its crypto module's `Map`s. -/
structure Endpoint where
  sharedSecret : Buffer
  caches : Caches

/-- A packet sent on the connection, with the IV `encrypt` draws for it and the padding target;
`fromFirst` tells which end sends it. -/
structure Send where
  fromFirst : Bool
  packet : Packet
  iv : RandomBytes IV_LENGTH
  padPacketToSize : Option Int

section
variable (hmac : Bytes → Bytes → Bytes) {gcm : Gcm} (decipher : GcmDecipher gcm)

/-- `sender` seals `packet` with `serializeAndEncrypt` and `receiver` opens it with
`decryptAndDeserialize`: what the receiver gets, and the two ends with the `Map`s their calls
leave. What the sender's `serializeAndEncrypt` throws is thrown. -/
def transmit (sender receiver : Endpoint) (packet : Packet) (iv : RandomBytes IV_LENGTH)
    (padPacketToSize : Option Int) :
    Except CodecError (Except CodecError Packet × Endpoint × Endpoint) := do
  let (encrypted, senderCaches) ←
    packet.serializeAndEncrypt hmac gcm iv sender.caches sender.sharedSecret padPacketToSize
  let (received, receiverCaches) :=
    Packet.decryptAndDeserialize hmac decipher receiver.caches receiver.sharedSecret encrypted
  return (received, { sender with caches := senderCaches },
    { receiver with caches := receiverCaches })

/-- The packets sent one after another, each by the end `fromFirst` names: what the receiver
gets for each, in order. The first throw of a sender ends the run. -/
def exchange : Endpoint → Endpoint → List Send → Except CodecError (List (Except CodecError Packet))
  | _, _, [] => .ok []
  | first, second, send :: sends =>
    if send.fromFirst then do
      let (received, first, second) ←
        transmit hmac decipher first second send.packet send.iv send.padPacketToSize
      let rest ← exchange first second sends
      return received :: rest
    else do
      let (received, second, first) ←
        transmit hmac decipher second first send.packet send.iv send.padPacketToSize
      let rest ← exchange first second sends
      return received :: rest

/-- The sender throws exactly the errors of serializing the packet. -/
theorem transmit_eq_error (sender receiver : Endpoint) (packet : Packet)
    (iv : RandomBytes IV_LENGTH) (padPacketToSize : Option Int) (error : CodecError) :
    transmit hmac decipher sender receiver packet iv padPacketToSize = .error error ↔
      packet.serialize = .error error := by
  unfold transmit Packet.serializeAndEncrypt
  cases packet.serialize <;> simp

/-- An end whose caches hold the keys of its objects' bytes, `contents`, and whose secret still
holds the bytes of its object. -/
structure Endpoint.Sound (contents : Nat → Bytes) (seed : Bytes) (endpoint : Endpoint) : Prop where
  caches : CachesSound hmac contents seed endpoint.caches
  unmutated : endpoint.sharedSecret.bytes = contents endpoint.sharedSecret.ref

variable {hmac} {contents₁ contents₂ : Nat → Bytes} {seed₁ seed₂ : Bytes}

/-- One packet between sound ends whose secrets hold the same bytes arrives as it was sent, and
both ends stay sound. -/
theorem transmit_of_sound {sender receiver : Endpoint} (hs : sender.Sound hmac contents₁ seed₁)
    (hr : receiver.Sound hmac contents₂ seed₂)
    (hsame : sender.sharedSecret.bytes = receiver.sharedSecret.bytes) {packet : Packet}
    (hp : packet.Encodable) (iv : RandomBytes IV_LENGTH) (padPacketToSize : Option Int) :
    ∃ sender' receiver',
      transmit hmac decipher sender receiver packet iv padPacketToSize =
        .ok (.ok packet, sender', receiver') ∧
      sender'.Sound hmac contents₁ seed₁ ∧ receiver'.Sound hmac contents₂ seed₂ ∧
      sender'.sharedSecret = sender.sharedSecret ∧ receiver'.sharedSecret = receiver.sharedSecret := by
  have hkey : (getPskEncryptionKey hmac receiver.caches receiver.sharedSecret).1 =
      (getPskEncryptionKey hmac sender.caches sender.sharedSecret).1 := by
    rw [getPskEncryptionKey_of_sound hr.caches hr.unmutated,
      getPskEncryptionKey_of_sound hs.caches hs.unmutated, hsame]
  obtain ⟨encrypted, hsend, hreceive⟩ :=
    decryptAndDeserialize_of_serializeAndEncrypt hp hmac gcm decipher iv hkey padPacketToSize
  refine ⟨{ sender with caches := (getPskEncryptionKey hmac sender.caches sender.sharedSecret).2 },
    { receiver with caches := (getPskEncryptionKey hmac receiver.caches receiver.sharedSecret).2 },
    by rw [transmit, hsend, ok_bind]; dsimp only; rw [hreceive]; rfl,
    ⟨getPskEncryptionKey_sound hs.caches hs.unmutated, hs.unmutated⟩,
    ⟨getPskEncryptionKey_sound hr.caches hr.unmutated, hr.unmutated⟩, rfl, rfl⟩

/-- Every packet of a connection arrives: between sound ends (fresh crypto modules are) whose
secrets hold the same bytes, the receiver of each encodable packet decodes it, in the order
sent, whichever end sends it, and whatever the padding targets and IVs. -/
theorem exchange_eq_ok_packets {first second : Endpoint} (h₁ : first.Sound hmac contents₁ seed₁)
    (h₂ : second.Sound hmac contents₂ seed₂)
    (hsame : first.sharedSecret.bytes = second.sharedSecret.bytes) {sends : List Send}
    (hp : ∀ send ∈ sends, send.packet.Encodable) :
    exchange hmac decipher first second sends = .ok (sends.map fun send => .ok send.packet) := by
  induction sends generalizing first second with
  | nil => rfl
  | cons send sends ih =>
    have hrest := fun s h => hp s (List.mem_cons_of_mem _ h)
    have hsend := hp send (List.mem_cons_self _ _)
    cases hfrom : send.fromFirst with
    | true =>
      obtain ⟨first', second', ht, h₁', h₂', hs₁, hs₂⟩ :=
        transmit_of_sound decipher h₁ h₂ hsame hsend send.iv send.padPacketToSize
      rw [exchange, hfrom, if_pos rfl, ht, ok_bind]
      dsimp only
      rw [ih h₁' h₂' (by rw [hs₁, hs₂, hsame]) hrest]
      rfl
    | false =>
      obtain ⟨second', first', ht, h₂', h₁', hs₂, hs₁⟩ :=
        transmit_of_sound decipher h₂ h₁ hsame.symm hsend send.iv send.padPacketToSize
      rw [exchange, hfrom, if_neg Bool.false_ne_true, ht, ok_bind]
      dsimp only
      rw [ih h₁' h₂' (by rw [hs₁, hs₂, hsame]) hrest]
      rfl

end

theorem exchange_eq_ok_packets_both_ways :
    (∀ send ∈ [Send.mk true ⟨1, 12, 0, [.streamMoney 1 5]⟩ ⟨List.replicate 12 0, rfl⟩ (some 100),
        .mk false ⟨1, 13, 0, []⟩ ⟨List.replicate 12 1, rfl⟩ none,
        .mk true ⟨2, 12, 7, [.connectionNewAddress "a"]⟩ ⟨List.replicate 12 2, rfl⟩ (some 0)],
      send.packet.Encodable) ∧
    exchange (· ++ ·) identityGcmDecipher ⟨⟨0, [7]⟩, .empty⟩ ⟨⟨5, [7]⟩, .empty⟩
        [.mk true ⟨1, 12, 0, [.streamMoney 1 5]⟩ ⟨List.replicate 12 0, rfl⟩ (some 100),
          .mk false ⟨1, 13, 0, []⟩ ⟨List.replicate 12 1, rfl⟩ none,
          .mk true ⟨2, 12, 7, [.connectionNewAddress "a"]⟩ ⟨List.replicate 12 2, rfl⟩ (some 0)] =
      .ok [.ok ⟨1, 12, 0, [.streamMoney 1 5]⟩, .ok ⟨1, 13, 0, []⟩,
        .ok ⟨2, 12, 7, [.connectionNewAddress "a"]⟩] :=
  ⟨by decide, exchange_eq_ok_packets identityGcmDecipher
    (⟨cachesSound_empty _ (fun _ => [7]) [], rfl⟩ : Endpoint.Sound _ _ _ ⟨⟨0, [7]⟩, .empty⟩)
    (⟨cachesSound_empty _ (fun _ => [7]) [], rfl⟩ : Endpoint.Sound _ _ _ ⟨⟨5, [7]⟩, .empty⟩)
    rfl (by decide)⟩

end IlpStream.Protocol
