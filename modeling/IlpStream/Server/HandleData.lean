import IlpStream.Server.Address

/-!
# Answering incoming packets

`handleData`, `src/unnamed/part_003:227–275`, answers what the plugin delivers. Data that is not
an ILP Prepare gets an `F00` Reject naming the type byte it had. Otherwise the connection id is
taken from the destination; a destination without one, and an id the pool gives no connection
for, both throw `new UnreachableError('')`, and the connection's `handlePrepare` answers the
rest. A throw becomes a Reject with the error's ILP code, message and data, `F00`, the empty
message and no data standing in for those it lacks, triggered by the server's account.

`ilp-packet`, the pool and the connection are not among the repository's files: the parts of
them that `handleData` calls are parameters, `new UnreachableError('')` among them. `Routes`
says that `handleData` answers every Prepare to a destination as the pool's connection for one
id answers, whatever those parts are. A Prepare to an address `generateAddressAndSecret` gave,
followed by any suffix that starts with `.`, is routed by the address's token; different random
bytes give different addresses and ids, and the secret of each address is derived afresh from
its id. Nothing checks that the destination starts with the server's account: `replace` removes
the first `serverAccount.` wherever it stands, and a destination that holds none is routed by
its own first segment.
-/

namespace IlpStream
open Crypto

/-- The fields of an `ilp-packet` error that `handleData` reads; each may be `undefined`. -/
structure IlpError where
  ilpErrorCode : Option String
  ilpErrorMessage : Option String
  ilpErrorData : Option Bytes
  deriving DecidableEq, Repr

/-- An ILP Reject, before `serializeIlpReject`. -/
structure IlpReject where
  code : String
  message : String
  data : Bytes
  triggeredBy : List Char
  deriving DecidableEq, Repr

/-- What `handleData` answers, before `ilp-packet` serializes it. -/
inductive Reply (Fulfill : Type)
  | fulfill (fulfill : Fulfill)
  | reject (reject : IlpReject)
  deriving DecidableEq, Repr

/-- The parts of `handleData` from modules that are not among the repository's files:
`IlpPacket.deserializeIlpPrepare` (`none` where it throws) with the destination it reads, the
pool's `getConnection` (`none` where it rejects), the connection's `handlePrepare`, and the
error `new IlpPacket.Errors.UnreachableError('')`. -/
structure Handlers (Prepare Connection Fulfill : Type) where
  deserializeIlpPrepare : Bytes → Option Prepare
  destination : Prepare → List Char
  getConnection : List Char → Prepare → Option Connection
  handlePrepare : Connection → Prepare → Except IlpError Fulfill
  unreachableError : IlpError

/-- JavaScript's `value || fallback` on a string that may be `undefined`: the empty string is
falsy too. -/
def orElse (value : Option String) (fallback : String) : String :=
  match value with
  | some s => if s = "" then fallback else s
  | none => fallback

/-- The Reject of the `catch` block, lines 263–273. A `Buffer` is never falsy. -/
def rejectOf (serverAccount : List Char) (err : IlpError) : IlpReject :=
  ⟨orElse err.ilpErrorCode "F00", orElse err.ilpErrorMessage "", err.ilpErrorData.getD [],
    serverAccount⟩

/-- The reply of the `try` block's outcome, lines 260–273: the Fulfill, or the Reject of the
`catch` block. -/
def replyOf {Fulfill : Type} (serverAccount : List Char) : Except IlpError Fulfill → Reply Fulfill
  | .ok fulfill => .fulfill fulfill
  | .error err => .reject (rejectOf serverAccount err)

/-- `${data[0]}`: the first byte in decimal, `undefined` for empty data. -/
def firstByteText (data : Bytes) : String :=
  match data.head? with
  | some byte => toString byte.toNat
  | none => "undefined"

/-- The data handler that `createConnection` registers, `part_003:39–66`: the same answers as
`handleData`, triggered by the client's address, with every Prepare going to the client's one
connection. -/
def clientDataHandler {Prepare Fulfill : Type} (deserializeIlpPrepare : Bytes → Option Prepare)
    (handlePrepare : Prepare → Except IlpError Fulfill) (clientAddress : List Char)
    (data : Bytes) : Reply Fulfill :=
  match deserializeIlpPrepare data with
  | none => .reject ⟨"F00",
      "Expected an ILP Prepare packet (type 12), but got packet with type: " ++ firstByteText data,
      [], clientAddress⟩
  | some prepare => replyOf clientAddress (handlePrepare prepare)

namespace Handlers

variable {Prepare Connection Fulfill : Type} (h : Handlers Prepare Connection Fulfill)

/-- The `try` block of `handleData` once it has the connection id, lines 255–260: the pool's
connection for the id, `UnreachableError('')` when the pool rejects, and the connection's
answer. -/
def answerFor (connectionId : List Char) (prepare : Prepare) : Except IlpError Fulfill := do
  let connection ← match h.getConnection connectionId prepare with
    | some connection => pure connection
    | none => throw h.unreachableError
  h.handlePrepare connection prepare

/-- The `try` block of `handleData` once the Prepare is read, lines 242–260: the connection id,
`UnreachableError('')` when the destination has none, and the answer for the id. -/
def answer (serverAccount : List Char) (prepare : Prepare) : Except IlpError Fulfill := do
  let connectionId ← match Server.connectionIdOf serverAccount (h.destination prepare) with
    | .ok connectionId => pure connectionId
    | .error _ => throw h.unreachableError
  h.answerFor connectionId prepare

/-- `handleData(data)`, lines 227–275. -/
def handleData (serverAccount : List Char) (data : Bytes) : Reply Fulfill :=
  match h.deserializeIlpPrepare data with
  | none => .reject ⟨"F00",
      "Expected an ILP Prepare packet (type 12), but got packet with type: " ++ firstByteText data,
      [], serverAccount⟩
  | some prepare => replyOf serverAccount (h.answer serverAccount prepare)

variable {h}

theorem answerFor_of_getConnection {connectionId : List Char} {prepare : Prepare}
    {connection : Connection} (hc : h.getConnection connectionId prepare = some connection) :
    h.answerFor connectionId prepare = h.handlePrepare connection prepare := by
  rw [answerFor, hc]
  rfl

/-- A Prepare whose destination holds a connection id is answered for that id. -/
theorem handleData_of_connectionIdOf {serverAccount connectionId : List Char} {data : Bytes}
    {prepare : Prepare} (hp : h.deserializeIlpPrepare data = some prepare)
    (hid : Server.connectionIdOf serverAccount (h.destination prepare) = .ok connectionId) :
    h.handleData serverAccount data = replyOf serverAccount (h.answerFor connectionId prepare) := by
  rw [handleData, hp]
  dsimp only
  rw [answer, hid]
  rfl

/-- `handleData` also serves destinations outside the server's address: a Prepare whose
destination holds no `serverAccount.` anywhere goes to the connection the pool gives for the
destination's first segment, as if that segment were a token the server had handed out. -/
theorem handleData_routed_of_not_infix {serverAccount connectionId suffix : List Char}
    (hne : connectionId ≠ []) (hdot : '.' ∉ connectionId)
    (hsuffix : suffix = [] ∨ suffix.head? = some '.') {data : Bytes} {prepare : Prepare}
    (hp : h.deserializeIlpPrepare data = some prepare)
    (hdest : h.destination prepare = connectionId ++ suffix)
    (hout : ¬ (serverAccount ++ ['.']) <:+: connectionId ++ suffix)
    {connection : Connection} (hc : h.getConnection connectionId prepare = some connection) :
    h.handleData serverAccount data =
      match h.handlePrepare connection prepare with
      | .ok fulfill => .fulfill fulfill
      | .error err => .reject (rejectOf serverAccount err) := by
  rw [handleData_of_connectionIdOf hp
    (hdest ▸ Server.connectionIdOf_of_not_infix hne hdot hsuffix hout),
    answerFor_of_getConnection hc]
  rfl

end Handlers

/-- Handlers whose reader takes every buffer for a Prepare to `tok.x`, whose pool has one
connection, for the id `tok`, and whose connection fulfills a Prepare with its destination. -/
def tokConnectionHandlers : Handlers (List Char) Unit (List Char) :=
  ⟨fun _ => some "tok.x".toList, id, fun connectionId _ =>
    if connectionId = "tok".toList then some () else none, fun _ prepare => .ok prepare,
    ⟨some "F02", none, none⟩⟩

theorem handleData_routed_of_not_infix_tok :
    ¬ ("test.alice".toList ++ ['.']) <:+: "tok".toList ++ ".x".toList ∧
    tokConnectionHandlers.handleData "test.alice".toList [12] = .fulfill "tok.x".toList :=
  ⟨by decide, @Handlers.handleData_routed_of_not_infix _ _ _ tokConnectionHandlers
    "test.alice".toList "tok".toList ".x".toList (by decide) (by decide) (.inr rfl) [12]
    "tok.x".toList rfl rfl (by decide) () rfl⟩

/-! ### Routing the addresses the server hands out -/

/-- `handleData` routes every Prepare to `destination` by the connection id `connectionId`:
whatever the Prepare reader, the pool and the connections, it answers such a Prepare as the
pool's connection for that id does. -/
def Routes (serverAccount destination connectionId : List Char) : Prop :=
  ∀ {Prepare Connection Fulfill : Type} (h : Handlers Prepare Connection Fulfill) (data : Bytes)
    (prepare : Prepare), h.deserializeIlpPrepare data = some prepare →
      h.destination prepare = destination →
      h.handleData serverAccount data = replyOf serverAccount (h.answerFor connectionId prepare)

theorem routes_of_connectionIdOf {serverAccount destination connectionId : List Char}
    (hid : Server.connectionIdOf serverAccount destination = .ok connectionId) :
    Routes serverAccount destination connectionId :=
  fun _ _ _ hp hdest => Handlers.handleData_of_connectionIdOf hp (hdest ▸ hid)

/-- A Prepare to `serverAccount.token`, followed by nothing or by a part that starts with `.`, is
routed by the token. -/
theorem handleData_routed {serverAccount token suffix : List Char} (hne : token ≠ [])
    (hdot : '.' ∉ token) (hsuffix : suffix = [] ∨ suffix.head? = some '.') :
    Routes serverAccount (serverAccount ++ ['.'] ++ token ++ suffix) token :=
  routes_of_connectionIdOf (Server.connectionIdOf_append hne hdot serverAccount hsuffix)

/-- The address of a token is routed by the token, which is its connection id. -/
theorem routes_token {random : RandomBytes 18} {suffix : List Char}
    (hsuffix : suffix = [] ∨ ∃ tag, suffix = '~' :: tag ∧ connectionIdRegexTest tag = true)
    (serverAccount : List Char) :
    Server.connectionIdOf serverAccount (serverAccount ++ ['.'] ++ (base64url random.1 ++ suffix)) =
        .ok (base64url random.1 ++ suffix) ∧
      Routes serverAccount (serverAccount ++ ['.'] ++ (base64url random.1 ++ suffix))
        (base64url random.1 ++ suffix) := by
  obtain ⟨hne, hdot⟩ := token_ne_nil_and_dot_not_mem hsuffix
  have hid := Server.connectionIdOf_append hne hdot serverAccount (.inl rfl)
  rw [List.append_nil] at hid
  exact ⟨hid, routes_of_connectionIdOf hid⟩

/-- Address generation and routing agree: for a connected server, 18 random bytes, a tag that
is absent or matches `CONNECTION_ID_REGEX`, and a suffix that is empty or starts with `.`,
`generateAddressAndSecret` returns `serverAccount.token` with `token` the `base64url` of the
bytes, followed by `~` and the tag when there is one; the token is not empty, and `handleData`
routes a Prepare to the address followed by the suffix by the token, never taking the branch
of a destination without a connection id. -/
theorem handleData_generateAddressAndSecret (hmac : Bytes → Bytes → Bytes) (server : Server)
    (hconnected : server.connected = true) (random : RandomBytes 18) (tokenBuffer : Nat)
    (connectionTag : Option (List Char))
    (htag : ∀ tag ∈ connectionTag, connectionIdRegexTest tag = true)
    (suffix : List Char) (hsuffix : suffix = [] ∨ suffix.head? = some '.') :
    ∃ token sharedSecret caches,
      server.generateAddressAndSecret hmac random tokenBuffer connectionTag =
        .ok ((server.serverAccount ++ ['.'] ++ token, sharedSecret), caches) ∧
      token = base64url random.1 ++ connectionTag.elim [] (fun tag => '~' :: tag) ∧
      token ≠ [] ∧
      Routes server.serverAccount (server.serverAccount ++ ['.'] ++ token ++ suffix) token := by
  have htagged : connectionTag.elim [] (fun tag => '~' :: tag) = [] ∨ ∃ tag,
      connectionTag.elim [] (fun tag => '~' :: tag) = '~' :: tag ∧
        connectionIdRegexTest tag = true := by
    cases connectionTag with
    | none => exact .inl rfl
    | some tag => exact .inr ⟨tag, rfl, htag tag rfl⟩
  obtain ⟨hne, hdot⟩ := @token_ne_nil_and_dot_not_mem random _ htagged
  exact ⟨_, _, _, Server.generateAddressAndSecret_eq hmac hconnected random tokenBuffer htag, rfl,
    hne, handleData_routed hne hdot hsuffix⟩

theorem handleData_generateAddressAndSecret_hello_there :
    (∀ tag ∈ some "hello-there_123".toList, connectionIdRegexTest tag = true) ∧
    (".x".toList = [] ∨ ".x".toList.head? = some '.') ∧
    ∃ token sharedSecret caches,
      Server.generateAddressAndSecret (· ++ ·)
          ⟨⟨0, List.replicate 32 0⟩, "test.alice".toList, true, .empty⟩
          ⟨List.replicate 18 0, rfl⟩ 1 (some "hello-there_123".toList) =
        .ok (("test.alice".toList ++ ['.'] ++ token, sharedSecret), caches) ∧
      token = base64url (List.replicate 18 0) ++
        (some "hello-there_123".toList).elim [] (fun tag => '~' :: tag) ∧
      token ≠ [] ∧
      Routes "test.alice".toList ("test.alice".toList ++ ['.'] ++ token ++ ".x".toList) token :=
  ⟨by decide, .inr rfl,
    handleData_generateAddressAndSecret _ _ rfl _ _ _ (by decide) _ (.inr rfl)⟩

/-- Two clients are never given one address unless the random bytes repeat: two calls of
`generateAddressAndSecret` on servers with one account, with different random bytes, return
different addresses, and `handleData` routes them by different connection ids, whatever the
tags, the token buffers and the crypto module's `Map`s. -/
theorem generateAddressAndSecret_random_ne {hmac : Bytes → Bytes → Bytes} {server₁ server₂ : Server}
    (haccount : server₁.serverAccount = server₂.serverAccount) {random₁ random₂ : RandomBytes 18}
    (hrandom : random₁ ≠ random₂) {tokenBuffer₁ tokenBuffer₂ : Nat}
    {tag₁ tag₂ : Option (List Char)} {address₁ address₂ : List Char} {secret₁ secret₂ : Bytes}
    {caches₁ caches₂ : Caches}
    (h₁ : server₁.generateAddressAndSecret hmac random₁ tokenBuffer₁ tag₁ =
      .ok ((address₁, secret₁), caches₁))
    (h₂ : server₂.generateAddressAndSecret hmac random₂ tokenBuffer₂ tag₂ =
      .ok ((address₂, secret₂), caches₂)) :
    address₁ ≠ address₂ ∧ ∃ connectionId₁ connectionId₂,
      Server.connectionIdOf server₁.serverAccount address₁ = .ok connectionId₁ ∧
      Server.connectionIdOf server₁.serverAccount address₂ = .ok connectionId₂ ∧
      Routes server₁.serverAccount address₁ connectionId₁ ∧
      Routes server₁.serverAccount address₂ connectionId₂ ∧
      connectionId₁ ≠ connectionId₂ := by
  obtain ⟨-, suffix₁, rfl, hsuffix₁, -⟩ := Server.generateAddressAndSecret_eq_ok h₁
  obtain ⟨-, suffix₂, rfl, hsuffix₂, -⟩ := Server.generateAddressAndSecret_eq_ok h₂
  have htoken := token_ne_of_random_ne hrandom suffix₁ suffix₂
  obtain ⟨hid₁, hroutes₁⟩ := routes_token hsuffix₁ server₁.serverAccount
  obtain ⟨hid₂, hroutes₂⟩ := routes_token hsuffix₂ server₁.serverAccount
  rw [← haccount]
  exact ⟨fun h => htoken (List.append_cancel_left h), _, _, hid₁, hid₂, hroutes₁, hroutes₂, htoken⟩

theorem generateAddressAndSecret_random_ne_zeros_ones :
    let server : Server := ⟨⟨0, List.replicate 32 0⟩, "test.alice".toList, true, .empty⟩
    let token₁ := base64url (List.replicate 18 0)
    let token₂ := base64url (List.replicate 18 1) ++ "~x".toList
    let secret₁ := generateSharedSecretFromToken (· ++ ·) server.caches server.serverSecret
      ⟨1, asciiBytes token₁⟩
    let secret₂ := generateSharedSecretFromToken (· ++ ·) server.caches server.serverSecret
      ⟨2, asciiBytes token₂⟩
    (⟨List.replicate 18 0, rfl⟩ : RandomBytes 18) ≠ ⟨List.replicate 18 1, rfl⟩ ∧
    server.generateAddressAndSecret (· ++ ·) ⟨List.replicate 18 0, rfl⟩ 1 none =
      .ok ((server.serverAccount ++ ['.'] ++ token₁, secret₁.1), secret₁.2) ∧
    server.generateAddressAndSecret (· ++ ·) ⟨List.replicate 18 1, rfl⟩ 2 (some "x".toList) =
      .ok ((server.serverAccount ++ ['.'] ++ token₂, secret₂.1), secret₂.2) ∧
    server.serverAccount ++ ['.'] ++ token₁ ≠ server.serverAccount ++ ['.'] ++ token₂ ∧
    ∃ connectionId₁ connectionId₂,
      Server.connectionIdOf server.serverAccount (server.serverAccount ++ ['.'] ++ token₁) =
        .ok connectionId₁ ∧
      Server.connectionIdOf server.serverAccount (server.serverAccount ++ ['.'] ++ token₂) =
        .ok connectionId₂ ∧
      Routes server.serverAccount (server.serverAccount ++ ['.'] ++ token₁) connectionId₁ ∧
      Routes server.serverAccount (server.serverAccount ++ ['.'] ++ token₂) connectionId₂ ∧
      connectionId₁ ≠ connectionId₂ := by
  intro server token₁ token₂ secret₁ secret₂
  have hrandom : (⟨List.replicate 18 0, rfl⟩ : RandomBytes 18) ≠ ⟨List.replicate 18 1, rfl⟩ :=
    fun h => absurd (congrArg Subtype.val h) (by decide)
  have h₁ : server.generateAddressAndSecret (· ++ ·) ⟨List.replicate 18 0, rfl⟩ 1 none =
      .ok ((server.serverAccount ++ ['.'] ++ token₁, secret₁.1), secret₁.2) := rfl
  have h₂ : server.generateAddressAndSecret (· ++ ·) ⟨List.replicate 18 1, rfl⟩ 2
      (some "x".toList) = .ok ((server.serverAccount ++ ['.'] ++ token₂, secret₂.1), secret₂.2) :=
    rfl
  exact ⟨hrandom, h₁, h₂, generateAddressAndSecret_random_ne rfl hrandom h₁ h₂⟩

/-- The server can derive every secret it hands out again from the destination alone: for a
token object that no earlier call used, as `Buffer.from(token, 'ascii')` makes a new one, the
shared secret `generateAddressAndSecret` returns is the plain derivation from the server secret
and the ASCII bytes of the connection id by which `handleData` routes the address. -/
theorem generateAddressAndSecret_secret_of_connectionId {hmac : Bytes → Bytes → Bytes}
    {server : Server} {random : RandomBytes 18} {tokenBuffer : Nat}
    {connectionTag : Option (List Char)} {address : List Char} {sharedSecret : Bytes}
    {caches : Caches} (hfresh : server.caches.sharedSecretMap.lookup tokenBuffer = none)
    (h : server.generateAddressAndSecret hmac random tokenBuffer connectionTag =
      .ok ((address, sharedSecret), caches)) :
    ∃ connectionId, Server.connectionIdOf server.serverAccount address = .ok connectionId ∧
      Routes server.serverAccount address connectionId ∧
      sharedSecret = Plain.generateSharedSecretFromToken hmac server.serverSecret.bytes
        (asciiBytes connectionId) := by
  obtain ⟨-, suffix, rfl, hsuffix, hsecret⟩ := Server.generateAddressAndSecret_eq_ok h
  obtain ⟨hid, hroutes⟩ := routes_token hsuffix server.serverAccount
  exact ⟨_, hid, hroutes, (congrArg Prod.fst hsecret).trans
    (generateSharedSecretFromToken_of_lookup_none hmac _ _ ⟨tokenBuffer, _⟩ hfresh)⟩

theorem generateAddressAndSecret_secret_of_connectionId_tagged :
    let server : Server := ⟨⟨0, List.replicate 32 0⟩, "test.alice".toList, true, .empty⟩
    let token := base64url (List.replicate 18 0) ++ "~x".toList
    let secret := generateSharedSecretFromToken (· ++ ·) server.caches server.serverSecret
      ⟨1, asciiBytes token⟩
    server.caches.sharedSecretMap.lookup 1 = none ∧
    server.generateAddressAndSecret (· ++ ·) ⟨List.replicate 18 0, rfl⟩ 1 (some "x".toList) =
      .ok ((server.serverAccount ++ ['.'] ++ token, secret.1), secret.2) ∧
    ∃ connectionId,
      Server.connectionIdOf server.serverAccount (server.serverAccount ++ ['.'] ++ token) =
        .ok connectionId ∧
      Routes server.serverAccount (server.serverAccount ++ ['.'] ++ token) connectionId ∧
      secret.1 = Plain.generateSharedSecretFromToken (· ++ ·) server.serverSecret.bytes
        (asciiBytes connectionId) := by
  intro server token secret
  have h : server.generateAddressAndSecret (· ++ ·) ⟨List.replicate 18 0, rfl⟩ 1
      (some "x".toList) = .ok ((server.serverAccount ++ ['.'] ++ token, secret.1), secret.2) :=
    rfl
  exact ⟨rfl, h, generateAddressAndSecret_secret_of_connectionId rfl h⟩

end IlpStream
