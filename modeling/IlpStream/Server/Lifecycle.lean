import IlpStream.Ildcp.Fetch
import IlpStream.Server.HandleData

/-!
# Listening and closing

`Server.listen`, `src/unnamed/part_003:129–150`, returns at once when the server is connected
and its plugin says so too; otherwise it fetches the server's configuration over IL-DCP and
takes from it the account, the asset code and the asset scale, then marks the server connected.
`close`, lines 155–161, marks it disconnected once `pool.close()` and `plugin.disconnect()` have
resolved, and the getters `assetCode` and `assetScale`, lines 210–222, throw on a server that is
not connected. The plugin and the connection pool are not modelled beyond whether their calls
resolve; a `listen` whose `fetch` throws, and a `close` whose pool or plugin rejects, leave every
field as it was.

Over any run of `listen` and `close` calls from a new server, with the caller going on after a
throw, a connected server's account, asset code and asset scale are a configuration that
`fetch` returned for the reply of one of the run's `listen` calls (`run_new_fetched`), and every
address the server hands out is under such an account.
-/

namespace IlpStream
open Oer Crypto Ildcp

/-- A `Server` with the fields that `listen` sets and the asset getters read, besides those of
address generation. -/
structure ServerState extends Server where
  serverAssetCode : String
  serverAssetScale : Nat

/-- A call on the server's lifecycle: `listen()`, given whether `plugin.isConnected()` and the
reply `ILDCP.fetch` gets, or `close()`, given whether `pool.close()` and `plugin.disconnect()`
resolve. -/
inductive Lifecycle
  | listen (pluginConnected : Bool) (reply : Bytes)
  | close (poolClosed pluginDisconnected : Bool)

namespace ServerState

/-- `new Server(opts)`, lines 105–114: not connected. The account and the asset fields are
unset until `listen`; they are modelled as empty. -/
def new (serverSecret : Buffer) (caches : Caches) : ServerState :=
  ⟨⟨serverSecret, [], false, caches⟩, "", 0⟩

/-- `listen()`, lines 129–150. -/
def listen (ilp : IlpPacketReader) (server : ServerState) (pluginConnected : Bool)
    (reply : Bytes) : Except CodecError ServerState :=
  if server.connected && pluginConnected then .ok server else do
    let config ← fetch ilp reply
    return { server with
      serverAccount := config.clientAddress
      serverAssetCode := config.assetCode
      serverAssetScale := config.assetScale
      connected := true }

/-- `close()`, lines 155–161: `none` where it throws, when `pool.close()` or
`plugin.disconnect()` rejects before `this.connected = false`. -/
def close (server : ServerState) (poolClosed pluginDisconnected : Bool) : Option ServerState :=
  if poolClosed && pluginDisconnected then some { server with connected := false } else none

/-- A getter of a connected server: the value, or `message` thrown when not connected. -/
def whenConnected {α : Type} (server : ServerState) (message : String) (value : α) :
    Except String α :=
  if !server.connected then throw message else pure value

/-- `get assetCode()`, lines 210–215. -/
def assetCode (server : ServerState) : Except String String :=
  server.whenConnected "Server must be connected to get asset code." server.serverAssetCode

/-- `get assetScale()`, lines 217–222. -/
def assetScale (server : ServerState) : Except String Nat :=
  server.whenConnected "Server must be connected to get asset scale." server.serverAssetScale

/-- A getter throws exactly on a server that is not connected, with its own message. -/
theorem whenConnected_eq_error {α : Type} (server : ServerState) (message : String) (value : α)
    (error : String) :
    server.whenConnected message value = .error error ↔
      server.connected = false ∧ error = message := by
  unfold whenConnected
  cases server.connected <;> simp [eq_comm]

/-- A `listen` that returns either returns at once or takes a configuration `fetch` returned. -/
theorem listen_eq_ok {ilp : IlpPacketReader} {server server' : ServerState}
    {pluginConnected : Bool} {reply : Bytes}
    (h : server.listen ilp pluginConnected reply = .ok server') :
    server' = server ∨ ∃ config, fetch ilp reply = .ok config ∧ server' =
      { server with
        serverAccount := config.clientAddress
        serverAssetCode := config.assetCode
        serverAssetScale := config.assetScale
        connected := true } := by
  unfold listen at h
  split at h
  · exact .inl (Except.ok.inj h).symm
  · obtain ⟨config, hfetch, h⟩ := bind_eq_ok.mp h
    exact .inr ⟨config, hfetch, (Except.ok.inj h).symm⟩

section
variable (ilp : IlpPacketReader)

/-- One lifecycle call; the caller goes on with the server as it was when a call throws. -/
def step (server : ServerState) : Lifecycle → ServerState
  | .listen pluginConnected reply =>
    match server.listen ilp pluginConnected reply with
    | .ok server => server
    | .error _ => server
  | .close poolClosed pluginDisconnected => (server.close poolClosed pluginDisconnected).getD server

/-- The calls one after another. -/
def run : ServerState → List Lifecycle → ServerState
  | server, [] => server
  | server, op :: ops => run (step ilp server op) ops

/-- A connected server's account and asset fields are a configuration that `fetch` returned for
the reply of one of the `listen` calls of `history`. -/
def Fetched (history : List Lifecycle) (server : ServerState) : Prop :=
  server.connected = true → ∃ pluginConnected reply,
    Lifecycle.listen pluginConnected reply ∈ history ∧
    fetch ilp reply = .ok ⟨server.serverAccount, server.serverAssetScale, server.serverAssetCode⟩

variable {ilp}

theorem Fetched.mono {history history' : List Lifecycle} {server : ServerState}
    (h : Fetched ilp history server) (hsub : history ⊆ history') :
    Fetched ilp history' server := fun hc =>
  let ⟨pluginConnected, reply, hmem, hfetch⟩ := h hc
  ⟨pluginConnected, reply, hsub hmem, hfetch⟩

/-- One call keeps the server's configuration one that the history, with the call, fetched. -/
theorem Fetched.step {history : List Lifecycle} {server : ServerState}
    (h : Fetched ilp history server) (op : Lifecycle) :
    Fetched ilp (op :: history) (server.step ilp op) := by
  have hkeep := h.mono (List.subset_cons_self op history)
  cases op with
  | close poolClosed pluginDisconnected =>
    by_cases hresolved : (poolClosed && pluginDisconnected) = true
    · simp only [ServerState.step, close, if_pos hresolved, Option.getD_some]
      exact fun hc => nomatch hc
    · simpa only [ServerState.step, close, if_neg hresolved, Option.getD_none] using hkeep
  | listen pluginConnected reply =>
    cases hl : server.listen ilp pluginConnected reply with
    | error _ => simpa only [ServerState.step, hl] using hkeep
    | ok server' =>
      simp only [ServerState.step, hl]
      rcases listen_eq_ok hl with rfl | ⟨config, hfetch, rfl⟩
      · exact hkeep
      · exact fun _ => ⟨pluginConnected, reply, List.mem_cons_self _ _, hfetch⟩

/-- A whole run keeps it so. -/
theorem Fetched.run {history : List Lifecycle} {server : ServerState}
    (h : Fetched ilp history server) (ops : List Lifecycle) :
    Fetched ilp (ops ++ history) (server.run ilp ops) := by
  induction ops generalizing history server with
  | nil => exact h
  | cons op ops ih => exact (ih (h.step op)).mono List.perm_middle.subset

/-- A new server does not serve before it has listened: after any run of `listen` and `close`
calls from `new Server(opts)`, a connected server's account, asset code and asset scale, as the
getters return them, are those of a configuration that `fetch` returned for the reply of one of
the run's `listen` calls. -/
theorem run_new_fetched (serverSecret : Buffer) (caches : Caches) (ops : List Lifecycle)
    (hc : ((new serverSecret caches).run ilp ops).connected = true) :
    ∃ pluginConnected reply config, Lifecycle.listen pluginConnected reply ∈ ops ∧
      fetch ilp reply = .ok config ∧
      ((new serverSecret caches).run ilp ops).serverAccount = config.clientAddress ∧
      ((new serverSecret caches).run ilp ops).assetCode = .ok config.assetCode ∧
      ((new serverSecret caches).run ilp ops).assetScale = .ok config.assetScale := by
  have hnew : Fetched ilp [] (new serverSecret caches) := fun h => nomatch h
  obtain ⟨pluginConnected, reply, hmem, hfetch⟩ := hnew.run ops hc
  rw [List.append_nil] at hmem
  refine ⟨pluginConnected, reply, _, hmem, hfetch, rfl, ?_, ?_⟩ <;>
    simp [assetCode, assetScale, whenConnected, hc]

/-- A server hands out addresses only under an account it was given over IL-DCP: after any run
of `listen` and `close` calls from `new Server(opts)`, an address that `generateAddressAndSecret`
returns is the account of a configuration that `fetch` returned for the reply of one of the
run's `listen` calls, `.`, and a token that `handleData` takes back as the connection id and
routes the address by. -/
theorem generateAddressAndSecret_run_new (hmac : Bytes → Bytes → Bytes) (serverSecret : Buffer)
    (caches : Caches) (ops : List Lifecycle) {random : RandomBytes 18} {tokenBuffer : Nat}
    {connectionTag : Option (List Char)} {address : List Char} {sharedSecret : Bytes}
    {caches' : Caches}
    (h : ((new serverSecret caches).run ilp ops).toServer.generateAddressAndSecret hmac random
      tokenBuffer connectionTag = .ok ((address, sharedSecret), caches')) :
    ∃ pluginConnected reply config, Lifecycle.listen pluginConnected reply ∈ ops ∧
      fetch ilp reply = .ok config ∧ ∃ token, address = config.clientAddress ++ ['.'] ++ token ∧
      Server.connectionIdOf config.clientAddress address = .ok token ∧
      Routes config.clientAddress address token := by
  obtain ⟨hc, suffix, rfl, hsuffix, -⟩ := Server.generateAddressAndSecret_eq_ok h
  have hnew : Fetched ilp [] (new serverSecret caches) := fun h => nomatch h
  obtain ⟨pluginConnected, reply, hmem, hfetch⟩ := hnew.run ops hc
  exact ⟨pluginConnected, reply, _, by simpa using hmem, hfetch, _, rfl, routes_token hsuffix _⟩

end

theorem run_new_fetched_usd :
    ((new ⟨0, List.replicate 32 0⟩ .empty).run usdReader
      [.listen false [13], .close true true, .listen false [13]]).connected = true ∧
    ∃ pluginConnected reply config,
      Lifecycle.listen pluginConnected reply ∈ [.listen false [13], .close true true, .listen false [13]] ∧
      fetch usdReader reply = .ok config ∧
      ((new ⟨0, List.replicate 32 0⟩ .empty).run usdReader
        [.listen false [13], .close true true, .listen false [13]]).serverAccount = config.clientAddress ∧
      ((new ⟨0, List.replicate 32 0⟩ .empty).run usdReader
        [.listen false [13], .close true true, .listen false [13]]).assetCode = .ok config.assetCode ∧
      ((new ⟨0, List.replicate 32 0⟩ .empty).run usdReader
        [.listen false [13], .close true true, .listen false [13]]).assetScale = .ok config.assetScale :=
  ⟨by decide, run_new_fetched _ _ _ (by decide)⟩

theorem generateAddressAndSecret_run_new_usd :
    let server := (new ⟨0, List.replicate 32 0⟩ .empty).run usdReader [.listen false [13]]
    let token := base64url (List.replicate 18 0)
    let secret := generateSharedSecretFromToken (· ++ ·) server.caches server.serverSecret
      ⟨1, asciiBytes token⟩
    server.toServer.generateAddressAndSecret (· ++ ·) ⟨List.replicate 18 0, rfl⟩ 1 none =
      .ok (("test.alice".toList ++ ['.'] ++ token, secret.1), secret.2) ∧
    ∃ pluginConnected reply config, Lifecycle.listen pluginConnected reply ∈ [.listen false [13]] ∧
      fetch usdReader reply = .ok config ∧
      ∃ token', "test.alice".toList ++ ['.'] ++ token = config.clientAddress ++ ['.'] ++ token' ∧
      Server.connectionIdOf config.clientAddress ("test.alice".toList ++ ['.'] ++ token) =
        .ok token' ∧
      Routes config.clientAddress ("test.alice".toList ++ ['.'] ++ token) token' := by
  intro server token secret
  have h : server.toServer.generateAddressAndSecret (· ++ ·) ⟨List.replicate 18 0, rfl⟩ 1 none =
      .ok (("test.alice".toList ++ ['.'] ++ token, secret.1), secret.2) := rfl
  exact ⟨h, generateAddressAndSecret_run_new _ _ _ _ h⟩

end ServerState

end IlpStream
