import IlpStream.Oer.Codec

/-!
# STREAM receipts

`src/src/util/receipt.ts`: a receipt is 58 bytes, the version byte, a 16-byte nonce, the
stream id byte and the total received as eight big-endian bytes, followed by an HMAC of
those 26 bytes under the receiver's secret. `generateReceiptHMAC` comes from `src/crypto`,
which is not among the repository's files; it is a parameter here, any function whose
values are 32 bytes long, as those of HMAC-SHA256 are.

`createReceipt` followed by `decodeReceipt` gives back its inputs and `verifyReceipt`
accepts the result. Conversely a receipt that `verifyReceipt` accepts under a 32-byte
secret is `createReceipt` of what `decodeReceipt` reads from it. `verifyReceipt` does not
check the secret's length, and `createReceipt` throws unless it is 32: under any other
secret the converse fails.
-/

namespace IlpStream.Util

open Oer

/-- `generateReceiptHMAC(secret, message)`: 32 bytes for every secret and message. -/
structure ReceiptHmac where
  toFun : Bytes → Bytes → Bytes
  length_eq : ∀ secret message, (toFun secret message).length = 32

/-- `RECEIPT_VERSION`. -/
def RECEIPT_VERSION : Nat := 1

/-- `ReceiptOpts`, with `streamId` and `totalReceived` as the integers they stand for. -/
structure ReceiptOpts where
  nonce : Bytes
  streamId : Nat
  totalReceived : Nat
  secret : Bytes
  deriving DecidableEq, Repr

/-- `Receipt`, as `decodeReceipt` returns it: the stream id as a decimal string. -/
structure Receipt where
  version : Nat
  nonce : Bytes
  streamId : String
  totalReceived : Nat
  deriving DecidableEq, Repr

/-- `createReceipt(opts)`, `receipt.ts:26–40`. -/
def createReceipt (hmac : ReceiptHmac) (opts : ReceiptOpts) : Except CodecError Bytes := do
  if opts.nonce.length ≠ 16 then throw (.thrown "receipt nonce must be 16 bytes")
  if opts.secret.length ≠ 32 then throw (.thrown "receipt secret must be 32 bytes")
  let version ← writeUInt8 RECEIPT_VERSION
  let nonce ← writeOctetString opts.nonce 16
  let streamId ← writeUInt8 opts.streamId
  let totalReceived ← writeUInt64 opts.totalReceived
  let receipt := version ++ nonce ++ streamId ++ totalReceived
  let tag ← writeOctetString (hmac.toFun opts.secret receipt) 32
  return receipt ++ tag

/-- `decodeReceipt(receipt)`, `receipt.ts:42–57`. -/
def decodeReceipt (receipt : Bytes) : Except CodecError Receipt := do
  if receipt.length ≠ 58 then throw (.thrown "receipt must be 58 bytes")
  let (version, reader) ← readUInt8BigNum receipt
  let (nonce, reader) ← readOctetString 16 reader
  let (streamId, reader) ← readUInt8 reader
  let (totalReceived, _) ← readUInt64Long reader
  return ⟨version, nonce, streamId, totalReceived⟩

/-- `verifyReceipt(receipt, secret)`, `receipt.ts:59–71`. -/
def verifyReceipt (hmac : ReceiptHmac) (receipt secret : Bytes) : Except CodecError Bool := do
  if receipt.length ≠ 58 then return false
  let (version, _) ← readUInt8BigNum receipt
  if version ≠ RECEIPT_VERSION then return false
  let message := receipt.take 26
  let receiptHmac := receipt.drop 26
  return receiptHmac == hmac.toFun secret message

/-- The 26 signed bytes of a receipt. -/
def signedBytes (version : UInt8) (nonce : Bytes) (streamId : UInt8) (totalReceived : Bytes) : Bytes :=
  version :: (nonce ++ streamId :: totalReceived)

@[simp] theorem length_signedBytes (version : UInt8) (nonce : Bytes) (streamId : UInt8)
    (totalReceived : Bytes) :
    (signedBytes version nonce streamId totalReceived).length =
      nonce.length + totalReceived.length + 2 := by
  simp [signedBytes]; omega

/-- With valid options, `createReceipt` signs the 26 bytes it wrote. -/
theorem createReceipt_eq (hmac : ReceiptHmac) {opts : ReceiptOpts} (hnonce : opts.nonce.length = 16)
    (hsecret : opts.secret.length = 32) (hstream : opts.streamId < 256)
    (htotal : opts.totalReceived < 2 ^ 64) :
    createReceipt hmac opts =
      let signed := signedBytes 1 opts.nonce (UInt8.ofNat opts.streamId)
        (uintBytesFixed 8 opts.totalReceived)
      .ok (signed ++ hmac.toFun opts.secret signed) := by
  unfold createReceipt
  rw [if_neg (not_not.mpr hnonce), if_neg (not_not.mpr hsecret)]
  simp only [RECEIPT_VERSION, writeUInt8_of_lt (by norm_num : 1 < 256), writeUInt8_of_lt hstream,
    writeUInt64_of_lt htotal, writeOctetString_of_length hnonce,
    writeOctetString_of_length (hmac.length_eq _ _), ok_bind, pure_eq_ok, signedBytes,
    List.singleton_append, List.append_assoc, List.cons_append, List.nil_append]
  rfl

/-- `createReceipt` throws exactly on invalid options: the nonce's message first, then the
secret's, then the writer's range error for a stream id or a total that does not fit. -/
theorem createReceipt_eq_error (hmac : ReceiptHmac) (opts : ReceiptOpts) (error : CodecError) :
    createReceipt hmac opts = .error error ↔
      (opts.nonce.length ≠ 16 ∧ error = .thrown "receipt nonce must be 16 bytes") ∨
      (opts.nonce.length = 16 ∧ opts.secret.length ≠ 32 ∧
        error = .thrown "receipt secret must be 32 bytes") ∨
      (opts.nonce.length = 16 ∧ opts.secret.length = 32 ∧
        (256 ≤ opts.streamId ∨ 2 ^ 64 ≤ opts.totalReceived) ∧ error = .uintRange) := by
  unfold createReceipt
  by_cases hnonce : opts.nonce.length = 16
  swap
  · rw [if_pos hnonce]
    simp only [throw_eq_error, error_bind, Except.error.injEq, hnonce, ne_eq, not_false_eq_true,
      true_and, false_and, or_false]
    exact eq_comm
  rw [if_neg (not_not.mpr hnonce)]
  by_cases hsecret : opts.secret.length = 32
  swap
  · rw [if_pos hsecret]
    simp only [pure_eq_ok, ok_bind, throw_eq_error, error_bind, Except.error.injEq, hnonce,
      hsecret, ne_eq, not_true_eq_false, not_false_eq_true, true_and, false_and, false_or, or_false]
    exact eq_comm
  rw [if_neg (not_not.mpr hsecret)]
  simp only [RECEIPT_VERSION, writeUInt8_of_lt (by norm_num : 1 < 256),
    writeOctetString_of_length hnonce, ok_bind, hnonce, hsecret, ne_eq, not_true_eq_false,
    false_and, true_and, false_or]
  rcases Nat.lt_or_ge opts.streamId 256 with hstream | hstream
  · rw [writeUInt8_of_lt hstream, ok_bind]
    rcases Nat.lt_or_ge opts.totalReceived (2 ^ 64) with htotal | htotal
    · rw [writeUInt64_of_lt htotal]
      simp only [ok_bind, writeOctetString_of_length (hmac.length_eq _ _), pure_eq_ok,
        reduceCtorEq, false_iff, not_and]
      omega
    · rw [writeUInt64, if_neg (by omega)]
      simp [eq_comm]
      exact fun _ => .inr htotal
  · rw [writeUInt8, if_neg (by omega)]
    simp [hstream, eq_comm]

/-- A 58-byte buffer is signed bytes and a 32-byte tag. -/
private theorem eq_signedBytes_append {receipt : Bytes} (h : receipt.length = 58) :
    ∃ version nonce streamId totalReceived tag,
      receipt = signedBytes version nonce streamId totalReceived ++ tag ∧
      nonce.length = 16 ∧ totalReceived.length = 8 ∧ tag.length = 32 := by
  match receipt, h with
  | version :: rest, h =>
    have hrest : rest.length = 57 := by simpa using h
    obtain ⟨streamId, rest', hdrop⟩ : ∃ streamId rest', rest.drop 16 = streamId :: rest' :=
      List.exists_cons_of_ne_nil (by simp [← List.length_pos, hrest])
    have hlen : rest'.length = 40 := by
      have := congrArg List.length hdrop; simp [hrest] at this; omega
    refine ⟨version, rest.take 16, streamId, rest'.take 8, rest'.drop 8, ?_, by simp [hrest],
      by simp [hlen], by simp [hlen]⟩
    simp only [signedBytes, List.cons_append, List.append_assoc, List.take_append_drop]
    rw [← hdrop, List.take_append_drop]

/-- `decodeReceipt` reads back the fields of signed bytes. -/
theorem decodeReceipt_signedBytes {version : UInt8} {nonce : Bytes} {streamId : UInt8}
    {totalReceived tag : Bytes} (hnonce : nonce.length = 16) (htotal : totalReceived.length = 8)
    (htag : tag.length = 32) :
    decodeReceipt (signedBytes version nonce streamId totalReceived ++ tag) =
      .ok ⟨version.toNat, nonce, toString streamId.toNat, uintValue totalReceived⟩ := by
  simp only [decodeReceipt, signedBytes, List.cons_append, List.append_assoc,
    readUInt8BigNum_cons, ok_bind, readUInt8, readUInt64Long]
  rw [← hnonce, readOctetString_append]
  simp only [ok_bind, readUInt8BigNum_cons, pure_eq_ok]
  rw [← htotal, readOctetString_append]
  simp [hnonce, htotal, htag]

/-- `verifyReceipt` checks the tag against the HMAC of the signed bytes. -/
theorem verifyReceipt_signedBytes (hmac : ReceiptHmac) {version : UInt8} {nonce : Bytes}
    {streamId : UInt8} {totalReceived tag : Bytes} (hnonce : nonce.length = 16)
    (htotal : totalReceived.length = 8) (htag : tag.length = 32) (secret : Bytes) :
    verifyReceipt hmac (signedBytes version nonce streamId totalReceived ++ tag) secret =
      .ok (version.toNat = RECEIPT_VERSION ∧
        tag = hmac.toFun secret (signedBytes version nonce streamId totalReceived)) := by
  have hsigned : (signedBytes version nonce streamId totalReceived).length = 26 := by
    simp [hnonce, htotal]
  have hlen : (signedBytes version nonce streamId totalReceived ++ tag).length = 58 := by
    simp [hsigned, htag]
  simp only [verifyReceipt, hlen, ne_eq, not_true_eq_false, if_false, ok_bind, pure_eq_ok]
  rw [show signedBytes version nonce streamId totalReceived ++ tag =
    version :: (nonce ++ streamId :: totalReceived ++ tag) by simp [signedBytes]]
  rw [readUInt8BigNum_cons, ok_bind, ← show signedBytes version nonce streamId totalReceived ++ tag =
    version :: (nonce ++ streamId :: totalReceived ++ tag) by simp [signedBytes],
    List.take_left' hsigned, List.drop_left' hsigned]
  by_cases hv : version.toNat = RECEIPT_VERSION
  · simp [hv, beq_eq_decide]
  · simp [hv]

/-- Receipt codec agreement, for 32-byte secrets: `createReceipt` gives 58 bytes that
`decodeReceipt` reads back and `verifyReceipt` accepts; and a buffer `verifyReceipt`
accepts under a 32-byte secret is `createReceipt` of the nonce, stream id and total that
`decodeReceipt` reads from it, under that secret. -/
theorem receipt_codec_agreement (hmac : ReceiptHmac) :
    (∀ nonce streamId totalReceived secret, nonce.length = 16 → streamId < 256 →
      totalReceived < 2 ^ 64 → secret.length = 32 →
      ∃ receipt, createReceipt hmac ⟨nonce, streamId, totalReceived, secret⟩ = .ok receipt ∧
        receipt.length = 58 ∧
        decodeReceipt receipt = .ok ⟨RECEIPT_VERSION, nonce, toString streamId, totalReceived⟩ ∧
        verifyReceipt hmac receipt secret = .ok true) ∧
    (∀ receipt secret, verifyReceipt hmac receipt secret = .ok true → secret.length = 32 →
      ∃ decoded, decodeReceipt receipt = .ok decoded ∧
        ∃ streamId, decoded.streamId = toString streamId ∧
          createReceipt hmac ⟨decoded.nonce, streamId, decoded.totalReceived, secret⟩ = .ok receipt) := by
  constructor
  · intro nonce streamId totalReceived secret hnonce hstream htotal hsecret
    have hcreate := @createReceipt_eq hmac ⟨nonce, streamId, totalReceived, secret⟩
      hnonce hsecret hstream htotal
    refine ⟨_, hcreate, by simp [hnonce, hmac.length_eq], ?_, ?_⟩
    · have h64 : totalReceived < 18446744073709551616 := htotal
      rw [decodeReceipt_signedBytes hnonce (length_uintBytesFixed 8 _) (hmac.length_eq _ _)]
      simp [UInt8.toNat_ofNat_of_lt hstream, Nat.mod_eq_of_lt h64, RECEIPT_VERSION]
    · rw [verifyReceipt_signedBytes hmac hnonce (length_uintBytesFixed 8 _) (hmac.length_eq _ _)]
      simp [RECEIPT_VERSION]
  · intro receipt secret hverify hsecret
    have hlen : receipt.length = 58 := by
      by_contra h
      simp [verifyReceipt, h] at hverify
    obtain ⟨version, nonce, streamId, totalReceived, tag, rfl, hnonce, htotal, htag⟩ :=
      eq_signedBytes_append hlen
    rw [verifyReceipt_signedBytes hmac hnonce htotal htag] at hverify
    simp only [Except.ok.injEq, decide_eq_true_eq] at hverify
    obtain ⟨hversion, rfl⟩ := hverify
    refine ⟨_, decodeReceipt_signedBytes hnonce htotal htag, streamId.toNat, rfl, ?_⟩
    have hv : version = 1 := UInt8.toNat.inj hversion
    rw [createReceipt_eq hmac hnonce hsecret streamId.toNat_lt
      (by simpa [htotal] using uintValue_lt totalReceived)]
    simp only [ofNat_toNat_byte, ← htotal, uintBytesFixed_uintValue, hv]

/-- A `generateReceiptHMAC` whose every value is 32 zero bytes. -/
def zeroHmac : ReceiptHmac := ⟨fun _ _ => List.replicate 32 0, fun _ _ => List.length_replicate _ _⟩

theorem receipt_codec_agreement_zero_hmac :
    (∃ receipt, createReceipt zeroHmac ⟨List.replicate 16 0, 1, 500, List.replicate 32 0⟩ =
        .ok receipt ∧ receipt.length = 58 ∧
      decodeReceipt receipt = .ok ⟨RECEIPT_VERSION, List.replicate 16 0, toString 1, 500⟩ ∧
      verifyReceipt zeroHmac receipt (List.replicate 32 0) = .ok true) :=
  (receipt_codec_agreement zeroHmac).1 _ _ _ _ (by decide) (by decide) (by decide) (by decide)

/-- Under a secret that is not 32 bytes long the converse fails, for every HMAC: the buffer of
the zero nonce, stream id 0 and total 0 tagged with the HMAC under the empty secret is
accepted, but `createReceipt` of what it decodes to throws. -/
theorem verifyReceipt_accepts_under_empty_secret (hmac : ReceiptHmac) :
    verifyReceipt hmac
        (signedBytes 1 (List.replicate 16 0) 0 (List.replicate 8 0) ++
          hmac.toFun [] (signedBytes 1 (List.replicate 16 0) 0 (List.replicate 8 0))) [] =
      .ok true ∧
    decodeReceipt
        (signedBytes 1 (List.replicate 16 0) 0 (List.replicate 8 0) ++
          hmac.toFun [] (signedBytes 1 (List.replicate 16 0) 0 (List.replicate 8 0))) =
      .ok ⟨1, List.replicate 16 0, "0", 0⟩ ∧
    ∀ streamId, createReceipt hmac ⟨List.replicate 16 0, streamId, 0, []⟩ =
      .error (.thrown "receipt secret must be 32 bytes") := by
  refine ⟨?_, ?_, fun streamId => rfl⟩
  · rw [verifyReceipt_signedBytes hmac (List.length_replicate _ _) (List.length_replicate _ _)
      (hmac.length_eq _ _)]
    simp [RECEIPT_VERSION]
  · rw [decodeReceipt_signedBytes (List.length_replicate _ _) (List.length_replicate _ _)
      (hmac.length_eq _ _)]
    rfl

/-- The failure of the converse under the HMAC of 32 zero bytes and the empty secret. -/
theorem verifyReceipt_accepts_uncreatable :
    verifyReceipt zeroHmac
        (signedBytes 1 (List.replicate 16 0) 0 (List.replicate 8 0) ++ List.replicate 32 0) [] =
      .ok true ∧
    decodeReceipt
        (signedBytes 1 (List.replicate 16 0) 0 (List.replicate 8 0) ++ List.replicate 32 0) =
      .ok ⟨1, List.replicate 16 0, "0", 0⟩ ∧
    ∀ streamId, createReceipt zeroHmac ⟨List.replicate 16 0, streamId, 0, []⟩ =
      .error (.thrown "receipt secret must be 32 bytes") :=
  verifyReceipt_accepts_under_empty_secret zeroHmac

end IlpStream.Util
