import IlpStream.Oer.Utf8

/-!
# Key derivation, memoized and plain

The repository holds two versions of the STREAM crypto module. The one the library uses,
`src/src/ildcp.ts:62–164`, memoizes its derivations in three module-level `Map`s: shared
secrets by token, fulfillment keys and PSK encryption keys by shared secret. The plain one,
`src/unnamed/part_002`, derives every key afresh. `hmac` (Node's HMAC-SHA256) is a parameter,
any function of a key and a message; AES-256-GCM is a parameter too, any cipher whose
decipher opens what it sealed.

A `Map` compares `Buffer` keys as objects, not by their bytes, so a buffer argument is the
object, numbered, with its bytes at the call. The shared-secret cache is keyed by the token
object alone, not by the seed as well: a second call with the same token object and another
seed returns the secret of the first seed. With one seed and no buffer changed between
calls, every memoized call returns what the plain derivation does.

The plain `encrypt` and `decrypt` are given the PSK encryption key; the memoized ones are
given the shared secret and look its key up. Each memoized one is the plain one under the
looked-up key, so with sound caches the two modules seal and open alike, and the memoized
round trip follows from the plain one.
-/

namespace IlpStream.Crypto

/-- A `Buffer` argument: the object, which `Map` keys compare, and its bytes. -/
structure Buffer where
  ref : Nat
  bytes : Bytes
  deriving DecidableEq, Repr

/-- `crypto.randomBytes(n)`: any `n` bytes. -/
def RandomBytes (n : Nat) : Type := {bytes : Bytes // bytes.length = n}

/-- `SHARED_SECRET_GENERATION_STRING`. -/
def SHARED_SECRET_GENERATION_STRING : Bytes := Oer.utf8Encode "ilp_stream_shared_secret"

/-- `FULFILLMENT_GENERATION_STRING`. -/
def FULFILLMENT_GENERATION_STRING : Bytes := Oer.utf8Encode "ilp_stream_fulfillment"

/-- `ENCRYPTION_KEY_STRING`. -/
def ENCRYPTION_KEY_STRING : Bytes := Oer.utf8Encode "ilp_stream_encryption"

/-- `IV_LENGTH`. -/
def IV_LENGTH : Nat := 12

/-- `AUTH_TAG_LENGTH`. -/
def AUTH_TAG_LENGTH : Nat := 16

/-- `ENCRYPTION_OVERHEAD`. -/
def ENCRYPTION_OVERHEAD : Nat := 28

/-- A `Map` from buffer objects to buffers. Entries are only added for absent keys, so the
list holds each key once. -/
abbrev BufferMap := List (Nat × Bytes)

/-- `sharedSecretMap`, `fulfillmentKeyMap` and `pskKeyMap`. -/
structure Caches where
  sharedSecretMap : BufferMap
  fulfillmentKeyMap : BufferMap
  pskKeyMap : BufferMap
  deriving DecidableEq, Repr

/-- The three `Map`s when the module is loaded. -/
def Caches.empty : Caches := ⟨[], [], []⟩

/-! ### The plain module, `src/unnamed/part_002:27–52`, without its `Promise.resolve` -/

namespace Plain

variable (hmac : Bytes → Bytes → Bytes)

/-- `generateSharedSecretFromToken(seed, token)`. -/
def generateSharedSecretFromToken (seed token : Bytes) : Bytes :=
  hmac (hmac seed SHARED_SECRET_GENERATION_STRING) token

/-- `generateTokenAndSharedSecret(seed)`, part_002:21–25, given the bytes of
`crypto.randomBytes(TOKEN_LENGTH)`: the token and its secret. -/
def generateTokenAndSharedSecret (seed : Bytes) (random : RandomBytes 18) : Bytes × Bytes :=
  (random.1, generateSharedSecretFromToken hmac seed random.1)

/-- `generatePskEncryptionKey(sharedSecret)`. -/
def generatePskEncryptionKey (sharedSecret : Bytes) : Bytes :=
  hmac sharedSecret ENCRYPTION_KEY_STRING

/-- `generateFulfillmentKey(sharedSecret)`. -/
def generateFulfillmentKey (sharedSecret : Bytes) : Bytes :=
  hmac sharedSecret FULFILLMENT_GENERATION_STRING

/-- `generateFulfillment(fulfillmentKey, data)`. -/
def generateFulfillment (fulfillmentKey data : Bytes) : Bytes :=
  hmac fulfillmentKey data

end Plain

section
variable (hmac : Bytes → Bytes → Bytes)

/-- `generateSharedSecretFromToken(seed, token)`, `ildcp.ts:92–100`. -/
def generateSharedSecretFromToken (caches : Caches) (seed token : Buffer) : Bytes × Caches :=
  match caches.sharedSecretMap.lookup token.ref with
  | some sharedSecret => (sharedSecret, caches)
  | none =>
    let keygen := hmac seed.bytes SHARED_SECRET_GENERATION_STRING
    let sharedSecret := hmac keygen token.bytes
    (sharedSecret, { caches with sharedSecretMap := (token.ref, sharedSecret) :: caches.sharedSecretMap })

/-- `generateFulfillment(sharedSecret, data)`, `ildcp.ts:106–113`. -/
def generateFulfillment (caches : Caches) (sharedSecret data : Buffer) : Bytes × Caches :=
  match caches.fulfillmentKeyMap.lookup sharedSecret.ref with
  | some fulfillmentKey => (hmac fulfillmentKey data.bytes, caches)
  | none =>
    let fulfillmentKey := hmac sharedSecret.bytes FULFILLMENT_GENERATION_STRING
    (hmac fulfillmentKey data.bytes,
      { caches with fulfillmentKeyMap := (sharedSecret.ref, fulfillmentKey) :: caches.fulfillmentKeyMap })

/-- `getPskEncryptionKey(sharedSecret)`, `ildcp.ts:121–128`. -/
def getPskEncryptionKey (caches : Caches) (sharedSecret : Buffer) : Bytes × Caches :=
  match caches.pskKeyMap.lookup sharedSecret.ref with
  | some key => (key, caches)
  | none =>
    let key := hmac sharedSecret.bytes ENCRYPTION_KEY_STRING
    (key, { caches with pskKeyMap := (sharedSecret.ref, key) :: caches.pskKeyMap })

/-- A token object the shared-secret `Map` does not hold gets its secret derived afresh, as the
plain module derives it. -/
theorem generateSharedSecretFromToken_of_lookup_none (caches : Caches) (seed token : Buffer)
    (h : caches.sharedSecretMap.lookup token.ref = none) :
    (generateSharedSecretFromToken hmac caches seed token).1 =
      Plain.generateSharedSecretFromToken hmac seed.bytes token.bytes := by
  simp [generateSharedSecretFromToken, h, Plain.generateSharedSecretFromToken]

/-- `generateTokenAndSharedSecret(seed)`, `ildcp.ts:86–90`: the token is the new buffer object
`tokenRef` that `crypto.randomBytes(TOKEN_LENGTH)` returns, holding `random`. -/
def generateTokenAndSharedSecret (caches : Caches) (seed : Buffer) (random : RandomBytes 18)
    (tokenRef : Nat) : (Buffer × Bytes) × Caches :=
  let token : Buffer := ⟨tokenRef, random.1⟩
  let (sharedSecret, caches) := generateSharedSecretFromToken hmac caches seed token
  ((token, sharedSecret), caches)

/-- AES-256-GCM: under a key and a 12-byte IV a plaintext seals to a ciphertext of its own
length and a 16-byte tag. -/
structure Gcm where
  cipher : Bytes → Bytes → Bytes → Bytes × Bytes
  length_ciphertext : ∀ key iv plaintext, (cipher key iv plaintext).1.length = plaintext.length
  length_tag : ∀ key iv plaintext, (cipher key iv plaintext).2.length = AUTH_TAG_LENGTH

/-- `encrypt(sharedSecret, ...buffers)`, `ildcp.ts:130–143`, with `iv` the
`crypto.randomBytes(IV_LENGTH)` it draws. The cipher's `update` on each buffer and `final`
together give the ciphertext of the buffers' concatenation. -/
def encrypt (gcm : Gcm) (iv : RandomBytes IV_LENGTH) (caches : Caches) (sharedSecret : Buffer)
    (buffers : List Bytes) : Bytes × Caches :=
  let (pskEncryptionKey, caches) := getPskEncryptionKey hmac caches sharedSecret
  let (ciphertext, tag) := gcm.cipher pskEncryptionKey iv.1 buffers.flatten
  (iv.1 ++ tag ++ ciphertext, caches)

/-- The IV, the tag and one ciphertext byte per plaintext byte. -/
theorem length_encrypt (gcm : Gcm) (iv : RandomBytes IV_LENGTH) (caches : Caches)
    (sharedSecret : Buffer) (buffers : List Bytes) :
    (encrypt hmac gcm iv caches sharedSecret buffers).1.length =
      ENCRYPTION_OVERHEAD + buffers.flatten.length := by
  simp [encrypt, gcm.length_ciphertext, gcm.length_tag, iv.2, IV_LENGTH, AUTH_TAG_LENGTH,
    ENCRYPTION_OVERHEAD]
  omega

/-- `encrypt` reads its buffers only through their concatenation. -/
theorem encrypt_flatten (gcm : Gcm) (iv : RandomBytes IV_LENGTH) (caches : Caches)
    (sharedSecret : Buffer) (buffers : List Bytes) :
    encrypt hmac gcm iv caches sharedSecret buffers =
      encrypt hmac gcm iv caches sharedSecret [buffers.flatten] := by
  simp [encrypt]

/-- AES-256-GCM decryption, `createDecipheriv` with `setAuthTag`, `update` and `final`: under
the key and IV that sealed them, a ciphertext and its tag open to the plaintext. What it does
with anything else, and the message `final` throws then, is left open. -/
structure GcmDecipher (gcm : Gcm) where
  decipher : Bytes → Bytes → Bytes → Bytes → Except String Bytes
  decipher_cipher : ∀ key iv plaintext,
    decipher key iv (gcm.cipher key iv plaintext).2 (gcm.cipher key iv plaintext).1 = .ok plaintext

/-- `decrypt(sharedSecret, data)`, `ildcp.ts:145–158`: the IV, the tag and the ciphertext are
the slices of `data` at 0, 12 and 28. The key is looked up, and cached, before the decipher
can throw. -/
def decrypt {gcm : Gcm} (decipher : GcmDecipher gcm) (caches : Caches) (sharedSecret : Buffer)
    (data : Bytes) : Except String Bytes × Caches :=
  if ¬data.length > 0 then (.error "cannot decrypt empty buffer", caches) else
  let (pskEncryptionKey, caches) := getPskEncryptionKey hmac caches sharedSecret
  let nonce := data.take IV_LENGTH
  let tag := (data.drop IV_LENGTH).take AUTH_TAG_LENGTH
  let encrypted := data.drop (IV_LENGTH + AUTH_TAG_LENGTH)
  (decipher.decipher pskEncryptionKey nonce tag encrypted, caches)

/-- The plain module's `encrypt(pskEncryptionKey, ...buffers)`, `part_002:60–72`, which is
given the key itself, with `iv` the bytes it draws. -/
def Plain.encrypt (gcm : Gcm) (iv : RandomBytes IV_LENGTH) (pskEncryptionKey : Bytes)
    (buffers : List Bytes) : Bytes :=
  let (ciphertext, tag) := gcm.cipher pskEncryptionKey iv.1 buffers.flatten
  iv.1 ++ tag ++ ciphertext

/-- The plain module's `decrypt(pskEncryptionKey, data)`, `part_002:74–86`. -/
def Plain.decrypt {gcm : Gcm} (decipher : GcmDecipher gcm) (pskEncryptionKey data : Bytes) :
    Except String Bytes :=
  if ¬data.length > 0 then .error "cannot decrypt empty buffer" else
  let nonce := data.take IV_LENGTH
  let tag := (data.drop IV_LENGTH).take AUTH_TAG_LENGTH
  let encrypted := data.drop (IV_LENGTH + AUTH_TAG_LENGTH)
  decipher.decipher pskEncryptionKey nonce tag encrypted

/-- The plain `decrypt` opens what the plain `encrypt` sealed under the same key. -/
theorem Plain.decrypt_encrypt {gcm : Gcm} (decipher : GcmDecipher gcm)
    (iv : RandomBytes IV_LENGTH) (pskEncryptionKey : Bytes) (buffers : List Bytes) :
    Plain.decrypt decipher pskEncryptionKey (Plain.encrypt gcm iv pskEncryptionKey buffers) =
      .ok buffers.flatten := by
  obtain ⟨iv, hiv⟩ := iv
  have htag := gcm.length_tag pskEncryptionKey iv buffers.flatten
  simp only [Plain.encrypt, Plain.decrypt, List.append_assoc, List.take_left' hiv,
    List.drop_left' hiv, List.take_left' htag, ← List.drop_drop, List.drop_left' htag,
    decipher.decipher_cipher]
  exact if_neg (by simp [hiv, IV_LENGTH])

/-- The memoized `encrypt` is the plain one under the key its cache gives. -/
theorem encrypt_eq_plain (gcm : Gcm) (iv : RandomBytes IV_LENGTH) (caches : Caches)
    (sharedSecret : Buffer) (buffers : List Bytes) :
    encrypt hmac gcm iv caches sharedSecret buffers =
      (Plain.encrypt gcm iv (getPskEncryptionKey hmac caches sharedSecret).1 buffers,
        (getPskEncryptionKey hmac caches sharedSecret).2) := rfl

/-- The memoized `decrypt` is the plain one under the key its cache gives; an empty buffer throws
before the key is looked up. -/
theorem decrypt_eq_plain {gcm : Gcm} (decipher : GcmDecipher gcm) (caches : Caches)
    (sharedSecret : Buffer) (data : Bytes) :
    decrypt hmac decipher caches sharedSecret data =
      if data.length > 0 then
        (Plain.decrypt decipher (getPskEncryptionKey hmac caches sharedSecret).1 data,
          (getPskEncryptionKey hmac caches sharedSecret).2)
      else (.error "cannot decrypt empty buffer", caches) := by
  by_cases h : data.length > 0
  · rw [decrypt, if_neg (not_not_intro h), if_pos h, Plain.decrypt, if_neg (not_not_intro h)]
  · rw [decrypt, if_pos h, if_neg h]

/-- `decrypt` opens what `encrypt` sealed under the same key, whatever the two calls' caches. -/
theorem decrypt_encrypt {gcm : Gcm} (decipher : GcmDecipher gcm) (iv : RandomBytes IV_LENGTH)
    {caches₁ caches₂ : Caches} {sharedSecret₁ sharedSecret₂ : Buffer} (buffers : List Bytes)
    (hkey : (getPskEncryptionKey hmac caches₂ sharedSecret₂).1 =
      (getPskEncryptionKey hmac caches₁ sharedSecret₁).1) :
    decrypt hmac decipher caches₂ sharedSecret₂ (encrypt hmac gcm iv caches₁ sharedSecret₁ buffers).1 =
      (.ok buffers.flatten, (getPskEncryptionKey hmac caches₂ sharedSecret₂).2) := by
  have hpos : (Plain.encrypt gcm iv (getPskEncryptionKey hmac caches₁ sharedSecret₁).1 buffers).length > 0 := by
    simp [Plain.encrypt, iv.2, IV_LENGTH]
  rw [encrypt_eq_plain, decrypt_eq_plain, if_pos hpos, hkey, Plain.decrypt_encrypt]

/-! ### Sequences of calls -/

/-- A call on the memoized module. -/
inductive Call
  | generateSharedSecretFromToken (seed token : Buffer)
  | generateFulfillment (sharedSecret data : Buffer)
  | getPskEncryptionKey (sharedSecret : Buffer)
  deriving DecidableEq, Repr

namespace Call

/-- The call on the memoized module, from the given `Map`s. -/
def run (caches : Caches) : Call → Bytes × Caches
  | generateSharedSecretFromToken seed token => Crypto.generateSharedSecretFromToken hmac caches seed token
  | generateFulfillment sharedSecret data => Crypto.generateFulfillment hmac caches sharedSecret data
  | getPskEncryptionKey sharedSecret => Crypto.getPskEncryptionKey hmac caches sharedSecret

/-- What the plain module returns for the call. -/
def plain : Call → Bytes
  | generateSharedSecretFromToken seed token =>
    Plain.generateSharedSecretFromToken hmac seed.bytes token.bytes
  | generateFulfillment sharedSecret data =>
    Plain.generateFulfillment hmac (Plain.generateFulfillmentKey hmac sharedSecret.bytes) data.bytes
  | getPskEncryptionKey sharedSecret => Plain.generatePskEncryptionKey hmac sharedSecret.bytes

/-- The buffers the call is given. -/
def buffers : Call → List Buffer
  | generateSharedSecretFromToken seed token => [seed, token]
  | generateFulfillment sharedSecret data => [sharedSecret, data]
  | getPskEncryptionKey sharedSecret => [sharedSecret]

/-- The seed's bytes, for a shared-secret call. -/
def seed? : Call → Option Bytes
  | generateSharedSecretFromToken seed _ => some seed.bytes
  | _ => none

end Call

/-- The results of the calls, one after another, from the given `Map`s. -/
def results : Caches → List Call → List Bytes
  | _, [] => []
  | caches, call :: calls => (call.run hmac caches).1 :: results (call.run hmac caches).2 calls

end

/-- The shared-secret cache keeps the first seed's secret: the same token object given with a
second seed returns the secret derived from the first, for every `hmac`; under an `hmac`
that tells the seeds apart, such as one that concatenates key and message, the plain module
returns another value. -/
theorem generateSharedSecretFromToken_returns_first_seed_secret
    (hmac : Bytes → Bytes → Bytes) (seed₁ seed₂ token : Bytes) :
    results hmac .empty
        [.generateSharedSecretFromToken ⟨1, seed₁⟩ ⟨0, token⟩,
          .generateSharedSecretFromToken ⟨2, seed₂⟩ ⟨0, token⟩] =
      [Plain.generateSharedSecretFromToken hmac seed₁ token,
        Plain.generateSharedSecretFromToken hmac seed₁ token] ∧
    [Call.generateSharedSecretFromToken ⟨1, seed₁⟩ ⟨0, token⟩,
        .generateSharedSecretFromToken ⟨2, seed₂⟩ ⟨0, token⟩].map (Call.plain hmac) =
      [Plain.generateSharedSecretFromToken hmac seed₁ token,
        Plain.generateSharedSecretFromToken hmac seed₂ token] ∧
    Plain.generateSharedSecretFromToken (· ++ ·) [1] [] ≠
      Plain.generateSharedSecretFromToken (· ++ ·) [2] [] := by
  refine ⟨rfl, rfl, ?_⟩
  simp [Plain.generateSharedSecretFromToken]

/-! ### Agreement with one seed -/

section
variable (hmac : Bytes → Bytes → Bytes) (contents : Nat → Bytes) (seed : Bytes)

/-- Every cached value is what the plain module derives from the bytes of its key object, the
shared secrets under `seed`. -/
structure CachesSound (caches : Caches) : Prop where
  sharedSecret : ∀ ref value, caches.sharedSecretMap.lookup ref = some value →
    value = Plain.generateSharedSecretFromToken hmac seed (contents ref)
  fulfillmentKey : ∀ ref value, caches.fulfillmentKeyMap.lookup ref = some value →
    value = Plain.generateFulfillmentKey hmac (contents ref)
  pskKey : ∀ ref value, caches.pskKeyMap.lookup ref = some value →
    value = Plain.generatePskEncryptionKey hmac (contents ref)

/-- A call whose buffers hold the bytes of their objects, and whose seed, if any, is `seed`. -/
structure Call.Fits (call : Call) : Prop where
  unmutated : ∀ buffer ∈ call.buffers, buffer.bytes = contents buffer.ref
  seed_eq : ∀ bytes ∈ call.seed?, bytes = seed

theorem cachesSound_empty : CachesSound hmac contents seed .empty :=
  ⟨by simp [Caches.empty], by simp [Caches.empty], by simp [Caches.empty]⟩

private theorem lookup_cons_eq {map : BufferMap} {ref key : Nat} {value found : Bytes}
    (h : ((key, value) :: map).lookup ref = some found) :
    (ref = key ∧ found = value) ∨ map.lookup ref = some found := by
  by_cases hr : ref = key
  · subst hr; simp at h; exact .inl ⟨rfl, h.symm⟩
  · simp only [List.lookup, beq_eq_false_iff_ne.mpr hr] at h; exact .inr h

variable {hmac contents seed}

/-- A cache whose values are the derivations of their key objects' bytes stays so when the
derivation of a buffer holding its object's bytes is added. -/
private theorem lookup_cons_sound {map : BufferMap} {derive : Bytes → Bytes}
    (hmap : ∀ ref value, map.lookup ref = some value → value = derive (contents ref))
    {buffer : Buffer} (hb : buffer.bytes = contents buffer.ref) (ref : Nat) (value : Bytes)
    (h : ((buffer.ref, derive buffer.bytes) :: map).lookup ref = some value) :
    value = derive (contents ref) := by
  rcases lookup_cons_eq h with ⟨rfl, rfl⟩ | h
  · rw [hb]
  · exact hmap _ _ h

/-- A call that fits returns the plain module's value and keeps the caches sound. -/
theorem Call.run_of_fits {caches : Caches} (hs : CachesSound hmac contents seed caches)
    {call : Call} (hc : call.Fits contents seed) :
    (call.run hmac caches).1 = call.plain hmac ∧
      CachesSound hmac contents seed (call.run hmac caches).2 := by
  obtain ⟨hu, hseed⟩ := hc
  cases call with
  | generateSharedSecretFromToken seedBuffer token =>
    have htoken := hu token (by simp [Call.buffers])
    have hseedBytes := hseed seedBuffer.bytes (Option.mem_some_iff.mpr rfl)
    simp only [Call.run, Call.plain, Crypto.generateSharedSecretFromToken, hseedBytes]
    cases hl : caches.sharedSecretMap.lookup token.ref with
    | some value => exact ⟨by rw [hs.sharedSecret _ _ hl, htoken], hs⟩
    | none => exact ⟨rfl, lookup_cons_sound hs.sharedSecret htoken, hs.fulfillmentKey, hs.pskKey⟩
  | generateFulfillment sharedSecret data =>
    have hsecret := hu sharedSecret (by simp [Call.buffers])
    simp only [Call.run, Call.plain, Crypto.generateFulfillment]
    cases hl : caches.fulfillmentKeyMap.lookup sharedSecret.ref with
    | some value => exact ⟨by rw [hs.fulfillmentKey _ _ hl, hsecret]; rfl, hs⟩
    | none => exact ⟨rfl, hs.sharedSecret, lookup_cons_sound hs.fulfillmentKey hsecret, hs.pskKey⟩
  | getPskEncryptionKey sharedSecret =>
    have hsecret := hu sharedSecret (by simp [Call.buffers])
    simp only [Call.run, Call.plain, Crypto.getPskEncryptionKey]
    cases hl : caches.pskKeyMap.lookup sharedSecret.ref with
    | some value => exact ⟨by rw [hs.pskKey _ _ hl, hsecret], hs⟩
    | none => exact ⟨rfl, hs.sharedSecret, hs.fulfillmentKey, lookup_cons_sound hs.pskKey hsecret⟩

private theorem fits_getPskEncryptionKey {sharedSecret : Buffer}
    (h : sharedSecret.bytes = contents sharedSecret.ref) :
    (Call.getPskEncryptionKey sharedSecret).Fits contents seed :=
  ⟨by simpa [Call.buffers] using h, by simp [Call.seed?]⟩

/-- With sound caches, the key of a buffer that holds its object's bytes is the plain one. -/
theorem getPskEncryptionKey_of_sound {caches : Caches} (hs : CachesSound hmac contents seed caches)
    {sharedSecret : Buffer} (h : sharedSecret.bytes = contents sharedSecret.ref) :
    (getPskEncryptionKey hmac caches sharedSecret).1 =
      Plain.generatePskEncryptionKey hmac sharedSecret.bytes :=
  (Call.run_of_fits hs (fits_getPskEncryptionKey h)).1

/-- Looking up a key keeps sound caches sound. -/
theorem getPskEncryptionKey_sound {caches : Caches} (hs : CachesSound hmac contents seed caches)
    {sharedSecret : Buffer} (h : sharedSecret.bytes = contents sharedSecret.ref) :
    CachesSound hmac contents seed (getPskEncryptionKey hmac caches sharedSecret).2 :=
  (Call.run_of_fits hs (fits_getPskEncryptionKey h)).2

/-- The memoized `encrypt` and `decrypt` refine the plain module's: from sound caches, for a
shared secret that holds its object's bytes, each returns what the plain function returns under
`generatePskEncryptionKey(sharedSecret)`, with the same IV for `encrypt`, and leaves the caches
sound. -/
theorem encrypt_decrypt_eq_plain {caches : Caches} (hs : CachesSound hmac contents seed caches)
    {sharedSecret : Buffer} (h : sharedSecret.bytes = contents sharedSecret.ref) (gcm : Gcm)
    (decipher : GcmDecipher gcm) (iv : RandomBytes IV_LENGTH) (buffers : List Bytes) (data : Bytes) :
    (encrypt hmac gcm iv caches sharedSecret buffers).1 =
        Plain.encrypt gcm iv (Plain.generatePskEncryptionKey hmac sharedSecret.bytes) buffers ∧
      CachesSound hmac contents seed (encrypt hmac gcm iv caches sharedSecret buffers).2 ∧
      (decrypt hmac decipher caches sharedSecret data).1 =
        Plain.decrypt decipher (Plain.generatePskEncryptionKey hmac sharedSecret.bytes) data ∧
      CachesSound hmac contents seed (decrypt hmac decipher caches sharedSecret data).2 := by
  have hs' := getPskEncryptionKey_sound hs h
  rw [encrypt_eq_plain, decrypt_eq_plain, getPskEncryptionKey_of_sound hs h]
  refine ⟨rfl, hs', ?_⟩
  split
  · exact ⟨rfl, hs'⟩
  · exact ⟨by rw [Plain.decrypt, if_pos ‹_›], hs⟩

/-- A cipher that leaves the plaintext as it is and tags it with 16 zero bytes. -/
def identityGcm : Gcm :=
  ⟨fun _ _ plaintext => (plaintext, List.replicate 16 0), fun _ _ _ => rfl, fun _ _ _ => rfl⟩

/-- The decipher of `identityGcm`, which accepts every tag. -/
def identityGcmDecipher : GcmDecipher identityGcm :=
  ⟨fun _ _ _ ciphertext => .ok ciphertext, fun _ _ _ => rfl⟩

theorem encrypt_decrypt_eq_plain_fresh_module :
    CachesSound (· ++ ·) (fun _ => [7]) [] .empty ∧
    (encrypt (· ++ ·) identityGcm ⟨List.replicate 12 0, rfl⟩ .empty ⟨0, [7]⟩ [[1], [2]]).1 =
        Plain.encrypt identityGcm ⟨List.replicate 12 0, rfl⟩
          (Plain.generatePskEncryptionKey (· ++ ·) [7]) [[1], [2]] ∧
      CachesSound (· ++ ·) (fun _ => [7]) []
        (encrypt (· ++ ·) identityGcm ⟨List.replicate 12 0, rfl⟩ .empty ⟨0, [7]⟩ [[1], [2]]).2 ∧
      (decrypt (· ++ ·) identityGcmDecipher .empty ⟨0, [7]⟩ [1, 2, 3]).1 =
        Plain.decrypt identityGcmDecipher (Plain.generatePskEncryptionKey (· ++ ·) [7]) [1, 2, 3] ∧
      CachesSound (· ++ ·) (fun _ => [7]) []
        (decrypt (· ++ ·) identityGcmDecipher .empty ⟨0, [7]⟩ [1, 2, 3]).2 :=
  ⟨cachesSound_empty _ _ _, encrypt_decrypt_eq_plain (cachesSound_empty _ _ _) rfl identityGcm
    identityGcmDecipher ⟨List.replicate 12 0, rfl⟩ [[1], [2]] [1, 2, 3]⟩

theorem results_of_fits {caches : Caches} (hs : CachesSound hmac contents seed caches)
    {calls : List Call} (hc : ∀ call ∈ calls, call.Fits contents seed) :
    results hmac caches calls = calls.map (Call.plain hmac) := by
  induction calls generalizing caches with
  | nil => rfl
  | cons call calls ih =>
    obtain ⟨hresult, hs'⟩ := Call.run_of_fits hs (hc call (List.mem_cons_self _ _))
    rw [results, List.map_cons, hresult, ih hs' fun c h => hc c (List.mem_cons_of_mem _ h)]

end

/-- With one seed, and no buffer object changing its bytes between calls, every call on the
memoized module returns what the plain module does, whatever calls came before. -/
theorem results_eq_plain_of_one_seed (hmac : Bytes → Bytes → Bytes) (contents : Nat → Bytes)
    (seed : Bytes) (calls : List Call)
    (hunmutated : ∀ call ∈ calls, ∀ buffer ∈ call.buffers, buffer.bytes = contents buffer.ref)
    (hseed : ∀ call ∈ calls, ∀ bytes ∈ call.seed?, bytes = seed) :
    results hmac .empty calls = calls.map (Call.plain hmac) :=
  results_of_fits (cachesSound_empty hmac contents seed)
    fun call h => ⟨hunmutated call h, hseed call h⟩

theorem results_eq_plain_of_one_seed_four_calls :
    let calls := [Call.generateSharedSecretFromToken ⟨1, [1]⟩ ⟨0, [0]⟩,
      .generateFulfillment ⟨2, [2]⟩ ⟨3, [3]⟩, .getPskEncryptionKey ⟨2, [2]⟩,
      .generateSharedSecretFromToken ⟨1, [1]⟩ ⟨0, [0]⟩]
    (∀ call ∈ calls, ∀ buffer ∈ call.buffers, buffer.bytes = [UInt8.ofNat buffer.ref]) ∧
    (∀ call ∈ calls, ∀ bytes ∈ call.seed?, bytes = [1]) ∧
    results (· ++ ·) .empty calls = calls.map (Call.plain (· ++ ·)) :=
  ⟨by decide, by decide, results_eq_plain_of_one_seed _ (fun ref => [UInt8.ofNat ref]) [1] _
    (by decide) (by decide)⟩

end IlpStream.Crypto
