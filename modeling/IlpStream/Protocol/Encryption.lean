import IlpStream.Protocol.Packet
import IlpStream.Crypto.Derivation

/-!
# Padding and encrypting a packet

`Packet.serializeAndEncrypt`, `src/src/protocol.ts:66–81`: with a target size, the serialized
packet is followed by `Math.floor(paddingSize / 32)` copies of 32 zero bytes and by
`ZERO_BYTES.slice(0, paddingSize % 32)`, and all of it is encrypted, which adds
`ENCRYPTION_OVERHEAD` bytes. For a target at least the packet and the overhead the packet is
padded to exactly the target. For a smaller one `paddingSize` is negative: no copy is made,
JavaScript's `%` keeps the sign, and `slice` counts a negative end from the end of
`ZERO_BYTES`, so up to 31 zero bytes are still appended, `paddingSize` modulo 32 of them.

`Packet.decryptAndDeserialize`, lines 34–43, decrypts and decodes. The decoder reads the
header's number of frames and ignores every byte after them, so a receiver that holds the
shared secret's bytes reads back every encodable packet, whatever padding it was sent with.
-/

namespace IlpStream.Protocol
open Oer Crypto

/-- `ZERO_BYTES`, `protocol.ts:9`. -/
def ZERO_BYTES : Bytes := List.replicate 32 0

/-- A position given to `Buffer.slice`: a negative one counts from the end; both are clamped
to the buffer. -/
def sliceIndex (length : Nat) (index : Int) : Nat :=
  if index < 0 then (length + index).toNat else min index.toNat length

/-- `buffer.slice(start, end)`. -/
def bufferSlice (buffer : Bytes) (start stop : Int) : Bytes :=
  let start := sliceIndex buffer.length start
  let stop := sliceIndex buffer.length stop
  (buffer.drop start).take (stop - start)

/-- The buffers after `sharedSecret` that `serializeAndEncrypt` hands to `encrypt`: the
serialized packet, then the padding when there is a target size. -/
def encryptArgs (serialized : Bytes) (padPacketToSize : Option Int) : List Bytes :=
  match padPacketToSize with
  | none => [serialized]
  | some padPacketToSize =>
    let paddingSize := padPacketToSize - ENCRYPTION_OVERHEAD - serialized.length
    [serialized] ++ List.replicate (paddingSize.fdiv 32).toNat ZERO_BYTES ++
      [bufferSlice ZERO_BYTES 0 (paddingSize.tmod 32)]

/-- `serializeAndEncrypt(sharedSecret, padPacketToSize)`, `protocol.ts:66–81`, with the `Map`s
of the crypto module and the IV `encrypt` draws. -/
def Packet.serializeAndEncrypt (packet : Packet) (hmac : Bytes → Bytes → Bytes) (gcm : Gcm)
    (iv : RandomBytes IV_LENGTH) (caches : Caches) (sharedSecret : Buffer)
    (padPacketToSize : Option Int) : Except CodecError (Bytes × Caches) := do
  let serialized ← packet.serialize
  return encrypt hmac gcm iv caches sharedSecret (encryptArgs serialized padPacketToSize)

/-- `Packet.decryptAndDeserialize(sharedSecret, buffer)`, `protocol.ts:34–43`: an error of
`decrypt` becomes the one message below; the decoder's errors pass through. -/
def Packet.decryptAndDeserialize (hmac : Bytes → Bytes → Bytes) {gcm : Gcm}
    (decipher : GcmDecipher gcm) (caches : Caches) (sharedSecret : Buffer) (buffer : Bytes) :
    Except CodecError Packet × Caches :=
  let (decrypted, caches) := decrypt hmac decipher caches sharedSecret buffer
  match decrypted with
  | .error _ =>
    (.error (.thrown
      "Unable to decrypt packet. Data was corrupted or packet was encrypted with the wrong key"),
      caches)
  | .ok decrypted => (deserializeUnencrypted decrypted, caches)

private theorem flatten_replicate_zero_bytes (count : Nat) :
    (List.replicate count ZERO_BYTES).flatten = List.replicate (32 * count) 0 := by
  induction count with
  | zero => rfl
  | succ count ih =>
    rw [List.replicate_succ, List.flatten_cons, ih, ZERO_BYTES, Nat.mul_succ, Nat.add_comm,
      List.replicate_add]

private theorem bufferSlice_zero_bytes (stop : Int) :
    bufferSlice ZERO_BYTES 0 stop = List.replicate (sliceIndex 32 stop) 0 := by
  have : sliceIndex 32 stop ≤ 32 := by unfold sliceIndex; split <;> omega
  simp only [bufferSlice, ZERO_BYTES, List.length_replicate, show sliceIndex 32 0 = 0 from rfl,
    List.drop_zero, Nat.sub_zero, List.take_replicate, Nat.min_eq_left this]

private theorem tmod_of_neg {paddingSize : Int} (h : paddingSize < 0) :
    paddingSize.tmod 32 = -((-paddingSize) % 32) := by
  obtain ⟨q, rfl⟩ : ∃ q, paddingSize = -q := ⟨-paddingSize, by omega⟩
  rw [Int.tmod_def, Int.neg_tdiv, Int.tdiv_eq_ediv (by omega) (by norm_num)]
  omega

/-- How many zero bytes the padding adds: `paddingSize` when it is not negative, else
`paddingSize` modulo 32. -/
theorem length_padding (paddingSize : Int) :
    32 * (paddingSize.fdiv 32).toNat + sliceIndex 32 (paddingSize.tmod 32) =
      if 0 ≤ paddingSize then paddingSize.toNat else (paddingSize % 32).toNat := by
  rw [Int.fdiv_eq_ediv _ (by norm_num), sliceIndex]
  by_cases hp : 0 ≤ paddingSize
  · rw [if_pos hp, Int.tmod_eq_emod hp (by norm_num)]
    split <;> omega
  · rw [if_neg hp, tmod_of_neg (by omega)]
    split <;> omega

/-- With a target size, `serializeAndEncrypt` encrypts the serialized packet followed by zero
bytes, `paddingSize` of them when it is not negative, else `paddingSize` modulo 32; the
encrypted packet is that plaintext and `ENCRYPTION_OVERHEAD` long. -/
theorem serializeAndEncrypt_padding {packet : Packet} {serialized : Bytes}
    (h : packet.serialize = .ok serialized) (hmac : Bytes → Bytes → Bytes) (gcm : Gcm)
    (iv : RandomBytes IV_LENGTH) (caches : Caches) (sharedSecret : Buffer) (n : Int) :
    let paddingSize := n - ENCRYPTION_OVERHEAD - serialized.length
    let padding := if 0 ≤ paddingSize then paddingSize.toNat else (paddingSize % 32).toNat
    packet.serializeAndEncrypt hmac gcm iv caches sharedSecret (some n) =
        .ok (encrypt hmac gcm iv caches sharedSecret [serialized ++ List.replicate padding 0]) ∧
      (encrypt hmac gcm iv caches sharedSecret [serialized ++ List.replicate padding 0]).1.length =
        ENCRYPTION_OVERHEAD + serialized.length + padding := by
  intro paddingSize padding
  have hflat : (encryptArgs serialized (some n)).flatten = serialized ++ List.replicate padding 0 := by
    rw [show padding = 32 * (paddingSize.fdiv 32).toNat + sliceIndex 32 (paddingSize.tmod 32)
      from (length_padding paddingSize).symm, List.replicate_add, ← flatten_replicate_zero_bytes,
      ← bufferSlice_zero_bytes]
    simp [encryptArgs]
  refine ⟨by rw [Packet.serializeAndEncrypt, h, ok_bind, encrypt_flatten, hflat]; rfl, ?_⟩
  rw [length_encrypt]
  simp [Nat.add_assoc]

theorem serializeAndEncrypt_padding_target_100 :
    (⟨0, 12, 0, []⟩ : Packet).serialize = .ok [1, 12, 1, 0, 1, 0, 1, 0] ∧
    (⟨0, 12, 0, []⟩ : Packet).serializeAndEncrypt (· ++ ·) identityGcm ⟨List.replicate 12 0, rfl⟩
        .empty ⟨0, []⟩ (some 100) =
      .ok (encrypt (· ++ ·) identityGcm ⟨List.replicate 12 0, rfl⟩ .empty ⟨0, []⟩
        [[1, 12, 1, 0, 1, 0, 1, 0] ++ List.replicate 64 0]) ∧
    (encrypt (· ++ ·) identityGcm ⟨List.replicate 12 0, rfl⟩ .empty ⟨0, []⟩
        [[1, 12, 1, 0, 1, 0, 1, 0] ++ List.replicate 64 0]).1.length = 100 :=
  ⟨rfl, @serializeAndEncrypt_padding ⟨0, 12, 0, []⟩ [1, 12, 1, 0, 1, 0, 1, 0] rfl (· ++ ·)
    identityGcm ⟨List.replicate 12 0, rfl⟩ .empty ⟨0, []⟩ 100⟩

/-- A target 5 bytes short of the packet and the overhead still gets 27 zero bytes of padding:
`paddingSize` is `-5`, `Math.floor(-5 / 32)` is `-1`, `-5 % 32` is `-5`, and
`ZERO_BYTES.slice(0, -5)` is 27 bytes long. The encrypted packet is 63 bytes long, not
`max(31, 8 + 28) = 36`. -/
theorem serializeAndEncrypt_pads_short_target (hmac : Bytes → Bytes → Bytes) (gcm : Gcm)
    (iv : RandomBytes IV_LENGTH) (caches : Caches) (sharedSecret : Buffer) :
    (⟨0, 12, 0, []⟩ : Packet).serialize = .ok [1, 12, 1, 0, 1, 0, 1, 0] ∧
    encryptArgs [1, 12, 1, 0, 1, 0, 1, 0] (some 31) =
      [[1, 12, 1, 0, 1, 0, 1, 0], List.replicate 27 0] ∧
    ∃ out, (⟨0, 12, 0, []⟩ : Packet).serializeAndEncrypt hmac gcm iv caches sharedSecret (some 31) =
      .ok out ∧ out.1.length = 63 := by
  have hargs : encryptArgs [1, 12, 1, 0, 1, 0, 1, 0] (some 31) =
      [[1, 12, 1, 0, 1, 0, 1, 0], List.replicate 27 0] := by decide
  refine ⟨rfl, hargs,
    encrypt hmac gcm iv caches sharedSecret (encryptArgs [1, 12, 1, 0, 1, 0, 1, 0] (some 31)), rfl, ?_⟩
  rw [length_encrypt, hargs]
  rfl

/-! ### Sender and receiver -/

/-- One packet from sender to receiver: when the receiver's key lookup gives the sender's key,
`decryptAndDeserialize` opens what `serializeAndEncrypt` seals to the packet, and each end is
left with the caches of its own key lookup. -/
theorem decryptAndDeserialize_of_serializeAndEncrypt {packet : Packet} (hp : packet.Encodable)
    (hmac : Bytes → Bytes → Bytes) (gcm : Gcm) (decipher : GcmDecipher gcm)
    (iv : RandomBytes IV_LENGTH) {caches₁ caches₂ : Caches} {sharedSecret₁ sharedSecret₂ : Buffer}
    (hkey : (getPskEncryptionKey hmac caches₂ sharedSecret₂).1 =
      (getPskEncryptionKey hmac caches₁ sharedSecret₁).1) (padPacketToSize : Option Int) :
    ∃ encrypted,
      packet.serializeAndEncrypt hmac gcm iv caches₁ sharedSecret₁ padPacketToSize =
        .ok (encrypted, (getPskEncryptionKey hmac caches₁ sharedSecret₁).2) ∧
      Packet.decryptAndDeserialize hmac decipher caches₂ sharedSecret₂ encrypted =
        (.ok packet, (getPskEncryptionKey hmac caches₂ sharedSecret₂).2) := by
  obtain ⟨serialized, hser, hread⟩ := Packet.deserializeUnencrypted_serialize_append hp
  obtain ⟨padding, hflat⟩ : ∃ padding,
      (encryptArgs serialized padPacketToSize).flatten = serialized ++ padding := by
    cases padPacketToSize <;> simp [encryptArgs]
  refine ⟨(encrypt hmac gcm iv caches₁ sharedSecret₁ (encryptArgs serialized padPacketToSize)).1,
    by rw [Packet.serializeAndEncrypt, hser, ok_bind]; rfl, ?_⟩
  simp only [Packet.decryptAndDeserialize, decrypt_encrypt hmac decipher iv _ hkey, hflat, hread]

/-- Packets survive encryption and padding: when both ends hold the shared secret's bytes and
their key caches are sound, the receiver's `decryptAndDeserialize` of what the sender's
`serializeAndEncrypt` gives is the packet, for every padding target, IV and cache state. -/
theorem decryptAndDeserialize_serializeAndEncrypt {packet : Packet} (hp : packet.Encodable)
    (hmac : Bytes → Bytes → Bytes) (gcm : Gcm) (decipher : GcmDecipher gcm)
    (iv : RandomBytes IV_LENGTH) {contents₁ contents₂ : Nat → Bytes} {seed₁ seed₂ : Bytes}
    {caches₁ caches₂ : Caches} (hs₁ : CachesSound hmac contents₁ seed₁ caches₁)
    (hs₂ : CachesSound hmac contents₂ seed₂ caches₂) {sharedSecret₁ sharedSecret₂ : Buffer}
    (h₁ : sharedSecret₁.bytes = contents₁ sharedSecret₁.ref)
    (h₂ : sharedSecret₂.bytes = contents₂ sharedSecret₂.ref)
    (hsame : sharedSecret₁.bytes = sharedSecret₂.bytes) (padPacketToSize : Option Int) :
    ∃ encrypted,
      packet.serializeAndEncrypt hmac gcm iv caches₁ sharedSecret₁ padPacketToSize = .ok encrypted ∧
      (Packet.decryptAndDeserialize hmac decipher caches₂ sharedSecret₂ encrypted.1).1 =
        .ok packet := by
  have hkey : (getPskEncryptionKey hmac caches₂ sharedSecret₂).1 =
      (getPskEncryptionKey hmac caches₁ sharedSecret₁).1 := by
    rw [getPskEncryptionKey_of_sound hs₂ h₂, getPskEncryptionKey_of_sound hs₁ h₁, hsame]
  obtain ⟨encrypted, hsend, hreceive⟩ :=
    decryptAndDeserialize_of_serializeAndEncrypt hp hmac gcm decipher iv hkey padPacketToSize
  exact ⟨_, hsend, by rw [hreceive]⟩

theorem decryptAndDeserialize_serializeAndEncrypt_two_buffers :
    (⟨1, 12, 0, [.streamMoney 1 5]⟩ : Packet).Encodable ∧
    ∃ encrypted,
      (⟨1, 12, 0, [.streamMoney 1 5]⟩ : Packet).serializeAndEncrypt (· ++ ·) identityGcm
          ⟨List.replicate 12 0, rfl⟩ .empty ⟨0, [7]⟩ (some 100) = .ok encrypted ∧
      (Packet.decryptAndDeserialize (· ++ ·) identityGcmDecipher .empty ⟨5, [7]⟩ encrypted.1).1 =
        .ok ⟨1, 12, 0, [.streamMoney 1 5]⟩ :=
  ⟨by decide, @decryptAndDeserialize_serializeAndEncrypt ⟨1, 12, 0, [.streamMoney 1 5]⟩
    (by decide) (· ++ ·) identityGcm identityGcmDecipher ⟨List.replicate 12 0, rfl⟩
    (fun _ => [7]) (fun _ => [7]) [] [] .empty .empty (cachesSound_empty _ _ _)
    (cachesSound_empty _ _ _) ⟨0, [7]⟩ ⟨5, [7]⟩ rfl rfl rfl (some 100)⟩

end IlpStream.Protocol
