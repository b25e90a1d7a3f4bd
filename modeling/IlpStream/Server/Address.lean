import IlpStream.Crypto.Derivation

/-!
# Server addresses and routing

The part of `Server` (`src/unnamed/part_003`) that gives a client its address and finds the
connection of an incoming Prepare. `generateAddressAndSecret`, lines 191–208, makes a token,
the `base64url` of 18 random bytes, followed by `~` and the connection tag when there is one,
and returns `serverAccount.token` with the shared secret of the token. `handleData`, lines
242–254, removes the first `serverAccount.` from the destination and takes what comes before
the next `.` as the connection id.

JavaScript strings are modelled as lists of characters. The token never holds a `.`, so the
id `handleData` takes from the address, with any suffix that starts with `.`, is the token.
Eighteen bytes are six whole groups of three, so their `base64url` has no `=` padding, and
the token is itself a connection id that `CONNECTION_ID_REGEX` accepts. On whole groups
`base64url` is injective, so the tokens of different random bytes differ.
-/

namespace IlpStream
open Crypto

/-- The digits of `Buffer.toString('base64')`. -/
def base64Alphabet : List Char :=
  "ABCDEFGHIJKLMNOPQRSTUVWXYZabcdefghijklmnopqrstuvwxyz0123456789+/".toList

/-- The base64 digit of a value below 64. -/
def base64Digit (value : Nat) : Char := base64Alphabet.getD value 'A'

/-- `buffer.toString('base64')`: three bytes give four digits; one or two last bytes give two or
three digits and `=` padding. -/
def base64Encode : Bytes → List Char
  | a :: b :: c :: rest =>
    let n := a.toNat * 65536 + b.toNat * 256 + c.toNat
    [base64Digit (n / 262144), base64Digit (n / 4096 % 64), base64Digit (n / 64 % 64),
      base64Digit (n % 64)] ++ base64Encode rest
  | [a, b] =>
    let n := a.toNat * 65536 + b.toNat * 256
    [base64Digit (n / 262144), base64Digit (n / 4096 % 64), base64Digit (n / 64 % 64), '=']
  | [a] =>
    let n := a.toNat * 65536
    [base64Digit (n / 262144), base64Digit (n / 4096 % 64), '=', '=']
  | [] => []

/-- `base64url(buffer)`, `part_003:287–292`: base64, without the trailing `=` (`/=+$/`), with
every `+` made `-` and every `/` made `_`. -/
def base64url (buffer : Bytes) : List Char :=
  let s := (base64Encode buffer).rdropWhile (· == '=')
  let s := s.map fun c => if c = '+' then '-' else c
  s.map fun c => if c = '/' then '_' else c

/-- A character of the class `[a-zA-Z0-9~_-]`. -/
def connectionIdChar (c : Char) : Bool :=
  ('a' ≤ c && c ≤ 'z') || ('A' ≤ c && c ≤ 'Z') || ('0' ≤ c && c ≤ '9') ||
    c == '~' || c == '_' || c == '-'

/-- `CONNECTION_ID_REGEX.test(s)`, `/^[a-zA-Z0-9~_-]+$/`, `part_003:11`. -/
def connectionIdRegexTest (s : List Char) : Bool := !s.isEmpty && s.all connectionIdChar

/-- `Buffer.from(s, 'ascii')`: the low byte of each character's code. -/
def asciiBytes (s : List Char) : Bytes := s.map fun c => UInt8.ofNat c.toNat

/-- `s.replace(pattern, '')` with a string `pattern`: the first occurrence removed. -/
def replaceFirst (pattern : List Char) : List Char → List Char
  | [] => []
  | c :: rest =>
    if pattern.isPrefixOf (c :: rest) then (c :: rest).drop pattern.length
    else c :: replaceFirst pattern rest

/-- The fields of `Server` that address generation and routing read. -/
structure Server where
  serverSecret : Buffer
  serverAccount : List Char
  connected : Bool
  caches : Caches

namespace Server

/-- `generateAddressAndSecret(connectionTag)`, `part_003:191–208`, given the 18 random bytes of
`generateToken()` and the object `Buffer.from(token, 'ascii')` makes; an absent or empty
tag adds nothing. Returns the destination account and the shared secret, with the crypto
module's `Map`s after the call. -/
def generateAddressAndSecret (hmac : Bytes → Bytes → Bytes) (server : Server)
    (random : RandomBytes 18) (tokenBuffer : Nat) (connectionTag : Option (List Char)) :
    Except String ((List Char × Bytes) × Caches) := do
  if !server.connected then throw "Server must be connected to generate address and secret"
  let token := base64url random.1
  let token ← match connectionTag with
    | some tag =>
      if tag ≠ [] then
        if !connectionIdRegexTest tag then
          throw "connectionTag can only include ASCII characters a-z, A-Z, 0-9, \"_\", \"-\", and \"~\""
        else pure (token ++ ['~'] ++ tag)
      else pure token
    | none => pure token
  let (sharedSecret, caches) := generateSharedSecretFromToken hmac server.caches server.serverSecret
    ⟨tokenBuffer, asciiBytes token⟩
  return ((server.serverAccount ++ ['.'] ++ token, sharedSecret), caches)

/-- The connection id of `handleData`, `part_003:242–254`: the destination without the first
`serverAccount + '.'`, split at `.`; a missing id is an `UnreachableError` with the empty
message. -/
def connectionIdOf (serverAccount destination : List Char) : Except String (List Char) :=
  match (replaceFirst (serverAccount ++ ['.']) destination).splitOn '.' with
  | [] => .error ""
  | connectionId :: _ => if connectionId = [] then .error "" else .ok connectionId

end Server

/-! ### The token holds no `.` -/

theorem base64Digit_mem (value : Nat) : base64Digit value ∈ base64Alphabet := by
  unfold base64Digit
  rw [List.getD_eq_getElem?_getD]
  cases h : base64Alphabet[value]? with
  | none => decide
  | some c => exact List.getElem?_mem h

theorem mem_base64Encode (bytes : Bytes) :
    ∀ c ∈ base64Encode bytes, c ∈ base64Alphabet ∨ c = '=' := by
  induction bytes using base64Encode.induct with
  | case1 a b d rest ih =>
    simp only [base64Encode, List.cons_append, List.nil_append, List.forall_mem_cons]
    exact ⟨.inl (base64Digit_mem _), .inl (base64Digit_mem _), .inl (base64Digit_mem _),
      .inl (base64Digit_mem _), ih⟩
  | case2 a b =>
    simp only [base64Encode, List.forall_mem_cons]
    exact ⟨.inl (base64Digit_mem _), .inl (base64Digit_mem _), .inl (base64Digit_mem _), .inr trivial,
      fun _ h => nomatch h⟩
  | case3 a =>
    simp only [base64Encode, List.forall_mem_cons]
    exact ⟨.inl (base64Digit_mem _), .inl (base64Digit_mem _), .inr trivial, .inr trivial,
      fun _ h => nomatch h⟩
  | case4 => exact fun _ h => nomatch h

theorem dot_not_mem_base64url (bytes : Bytes) : '.' ∉ base64url bytes := by
  intro hdot
  simp only [base64url, List.mem_map] at hdot
  obtain ⟨c₁, ⟨c₂, hc₂, rfl⟩, hc₁⟩ := hdot
  have hnot : '.' ∉ base64Alphabet := by decide
  rcases mem_base64Encode _ c₂ ((List.rdropWhile_prefix _ _).subset hc₂) with h | rfl
  · split_ifs at hc₁ <;> simp_all
  · simp at hc₁

theorem base64url_ne_nil {bytes : Bytes} (h : bytes ≠ []) : base64url bytes ≠ [] := by
  obtain ⟨a, rest, rfl⟩ := List.exists_cons_of_ne_nil h
  have hfirst : ∃ value, base64Digit value ∈ base64Encode (a :: rest) := by
    match rest with
    | [] => exact ⟨_, List.mem_cons_self _ _⟩
    | [b] => exact ⟨_, List.mem_cons_self _ _⟩
    | b :: d :: rest => exact ⟨_, List.mem_cons_self _ _⟩
  obtain ⟨value, hmem⟩ := hfirst
  have heq : base64Digit value ≠ '=' := fun h => by
    have := base64Digit_mem value
    rw [h] at this
    exact absurd this (by decide)
  simp only [base64url, ne_eq, List.map_eq_nil_iff, List.rdropWhile_eq_nil_iff, not_forall]
  exact ⟨_, hmem, by simpa using heq⟩

/-! ### Connection ids -/

theorem replaceFirst_append {pattern : List Char} (h : pattern ≠ []) (rest : List Char) :
    replaceFirst pattern (pattern ++ rest) = rest := by
  obtain ⟨c, pattern', rfl⟩ := List.exists_cons_of_ne_nil h
  rw [List.cons_append, replaceFirst, if_pos (List.isPrefixOf_iff_prefix.mpr
    (by rw [← List.cons_append]; exact List.prefix_append _ _)), ← List.cons_append]
  simp

/-- Splitting at `.` a string whose start holds no `.` extends the first piece by that start. -/
theorem head?_splitOn_append {token : List Char} (h : '.' ∉ token) (suffix : List Char) :
    ((token ++ suffix).splitOn '.').head? = ((suffix.splitOn '.').head?).map (token ++ ·) := by
  induction token with
  | nil => simp
  | cons c token ih =>
    have hc : c ≠ '.' := fun hc => h (hc ▸ List.mem_cons_self _ _)
    rw [List.cons_append, List.splitOn, List.splitOnP_cons, if_neg (by simpa using hc),
      List.head?_modifyHead, ← List.splitOn, ih (fun hm => h (List.mem_cons_of_mem _ hm)),
      Option.map_map]
    rfl

private theorem head?_splitOn_of_dot {suffix : List Char}
    (h : suffix = [] ∨ suffix.head? = some '.') : (suffix.splitOn '.').head? = some [] := by
  rcases h with rfl | h
  · rfl
  · obtain ⟨rest, rfl⟩ := List.head?_eq_some_iff.mp h
    simp [List.splitOn, List.splitOnP_cons]

/-- `handleData` takes a token that is not empty and holds no `.` back from the address, with
any suffix that is empty or starts with `.`. -/
theorem Server.connectionIdOf_append {token : List Char} (hne : token ≠ []) (hdot : '.' ∉ token)
    (serverAccount : List Char) {suffix : List Char} (hsuffix : suffix = [] ∨ suffix.head? = some '.') :
    Server.connectionIdOf serverAccount (serverAccount ++ ['.'] ++ token ++ suffix) = .ok token := by
  have hhead : ((token ++ suffix).splitOn '.').head? = some token := by
    simp [head?_splitOn_append hdot, head?_splitOn_of_dot hsuffix]
  obtain ⟨rest, hsplit⟩ := List.head?_eq_some_iff.mp hhead
  rw [Server.connectionIdOf, List.append_assoc (serverAccount ++ ['.']),
    replaceFirst_append (by simp), hsplit]
  exact if_neg hne

/-- `replace` with a string pattern leaves a string that does not hold the pattern as it is. -/
theorem replaceFirst_of_not_infix {pattern : List Char} :
    ∀ {s : List Char}, ¬ pattern <:+: s → replaceFirst pattern s = s
  | [], _ => rfl
  | c :: rest, h => by
    rw [replaceFirst, if_neg fun hp => h (List.isPrefixOf_iff_prefix.mp hp).isInfix,
      replaceFirst_of_not_infix fun hi => h (List.infix_cons hi)]

/-- `handleData` does not check that the destination starts with the server's account: a
destination that holds no `serverAccount.` keeps its own first segment as the connection id. -/
theorem Server.connectionIdOf_of_not_infix {serverAccount connectionId suffix : List Char}
    (hne : connectionId ≠ []) (hdot : '.' ∉ connectionId)
    (hsuffix : suffix = [] ∨ suffix.head? = some '.')
    (hout : ¬ (serverAccount ++ ['.']) <:+: connectionId ++ suffix) :
    Server.connectionIdOf serverAccount (connectionId ++ suffix) = .ok connectionId := by
  have hhead : ((connectionId ++ suffix).splitOn '.').head? = some connectionId := by
    simp [head?_splitOn_append hdot, head?_splitOn_of_dot hsuffix]
  obtain ⟨rest, hsplit⟩ := List.head?_eq_some_iff.mp hhead
  rw [Server.connectionIdOf, replaceFirst_of_not_infix hout, hsplit]
  exact if_neg hne

/-! ### Address generation -/

/-- A tag that passes `CONNECTION_ID_REGEX` is not empty and holds no `.`. -/
theorem connectionIdRegexTest_spec {tag : List Char} (h : connectionIdRegexTest tag = true) :
    tag ≠ [] ∧ '.' ∉ tag := by
  obtain ⟨hne, hall⟩ := Bool.and_eq_true _ _ ▸ h
  exact ⟨fun h => by simp [h] at hne,
    fun hmem => absurd (List.all_eq_true.mp hall '.' hmem) (by decide)⟩

/-- On a connected server and a tag that is absent or passes `CONNECTION_ID_REGEX`,
`generateAddressAndSecret` returns the address of the token and the token's shared secret. -/
theorem Server.generateAddressAndSecret_eq (hmac : Bytes → Bytes → Bytes) {server : Server}
    (hconnected : server.connected = true) (random : RandomBytes 18) (tokenBuffer : Nat)
    {connectionTag : Option (List Char)}
    (htag : ∀ tag ∈ connectionTag, connectionIdRegexTest tag = true) :
    server.generateAddressAndSecret hmac random tokenBuffer connectionTag =
      let token := base64url random.1 ++ connectionTag.elim [] (fun tag => '~' :: tag)
      let secret := generateSharedSecretFromToken hmac server.caches server.serverSecret
        ⟨tokenBuffer, asciiBytes token⟩
      .ok ((server.serverAccount ++ ['.'] ++ token, secret.1), secret.2) := by
  cases connectionTag with
  | none => simp [generateAddressAndSecret, hconnected]
  | some tag =>
    have htest := htag tag rfl
    simp [generateAddressAndSecret, hconnected, (connectionIdRegexTest_spec htest).1, htest]

/-- `generateAddressAndSecret` throws exactly on a server that is not connected, with the
message that says so, and on a non-empty tag that `CONNECTION_ID_REGEX` rejects, with the
message that lists the characters allowed. -/
theorem Server.generateAddressAndSecret_eq_error (hmac : Bytes → Bytes → Bytes) (server : Server)
    (random : RandomBytes 18) (tokenBuffer : Nat) (connectionTag : Option (List Char))
    (message : String) :
    server.generateAddressAndSecret hmac random tokenBuffer connectionTag = .error message ↔
      (server.connected = false ∧
        message = "Server must be connected to generate address and secret") ∨
      (server.connected = true ∧
        (∃ tag, connectionTag = some tag ∧ tag ≠ [] ∧ connectionIdRegexTest tag = false) ∧
        message = "connectionTag can only include ASCII characters a-z, A-Z, 0-9, \"_\", \"-\", and \"~\"") := by
  cases hc : server.connected
  · simp only [generateAddressAndSecret, hc, Bool.not_false, if_true, Oer.throw_eq_error,
      Oer.error_bind, Except.error.injEq, true_and, reduceCtorEq, false_and, or_false]
    exact eq_comm
  · cases connectionTag with
    | none => simp [generateAddressAndSecret, hc]
    | some tag =>
      by_cases hne : tag = []
      · simp [generateAddressAndSecret, hc, hne]
      · cases ht : connectionIdRegexTest tag
        · simp only [generateAddressAndSecret, hc, ne_eq, hne, not_false_eq_true, if_true, ht,
            Bool.not_false, Bool.not_true, Oer.throw_eq_error, Oer.error_bind, Except.error.injEq]
          simp [hne, ht]
          exact eq_comm
        · simp [generateAddressAndSecret, hc, hne, ht]

/-! ### Tokens match `CONNECTION_ID_REGEX` -/

/-- `base64Encode` writes four digits for every three bytes or fewer. -/
theorem length_base64Encode (bytes : Bytes) :
    (base64Encode bytes).length = 4 * ((bytes.length + 2) / 3) := by
  induction bytes using base64Encode.induct with
  | case1 a b d rest ih => simp [base64Encode, ih]; omega
  | case2 a b => simp [base64Encode]
  | case3 a => simp [base64Encode]
  | case4 => simp [base64Encode]

/-- On whole groups of three bytes `base64Encode` writes no `=`. -/
theorem mem_base64Encode_of_mod_three {bytes : Bytes} (h : bytes.length % 3 = 0) :
    ∀ c ∈ base64Encode bytes, c ∈ base64Alphabet := by
  induction bytes using base64Encode.induct with
  | case1 a b d rest ih =>
    simp only [base64Encode, List.cons_append, List.nil_append, List.forall_mem_cons]
    exact ⟨base64Digit_mem _, base64Digit_mem _, base64Digit_mem _, base64Digit_mem _,
      ih (by simp at h; omega)⟩
  | case2 a b => simp at h
  | case3 a => simp at h
  | case4 => exact fun _ h => nomatch h

/-- On whole groups of three bytes there is no `=` padding for `base64url` to drop. -/
theorem rdropWhile_base64Encode_of_mod_three {bytes : Bytes} (h : bytes.length % 3 = 0) :
    (base64Encode bytes).rdropWhile (· == '=') = base64Encode bytes := by
  refine List.rdropWhile_eq_self_iff.mpr fun hne heq => ?_
  have := mem_base64Encode_of_mod_three h _ (List.getLast_mem hne)
  rw [beq_iff_eq.mp heq] at this
  exact absurd this (by decide)

private theorem connectionIdChar_base64url_digit : ∀ c ∈ base64Alphabet,
    connectionIdChar (if (if c = '+' then '-' else c) = '/' then '_'
      else if c = '+' then '-' else c) = true := by
  decide

/-- On whole groups of three bytes `base64url` writes four characters of `[a-zA-Z0-9_-]`
per group. -/
theorem base64url_of_mod_three {bytes : Bytes} (h : bytes.length % 3 = 0) :
    (base64url bytes).length = 4 * (bytes.length / 3) ∧
      (base64url bytes).all connectionIdChar = true := by
  have hmem := mem_base64Encode_of_mod_three h
  have hdrop := rdropWhile_base64Encode_of_mod_three h
  refine ⟨by simp only [base64url, hdrop, List.length_map, length_base64Encode]; omega, ?_⟩
  simp only [base64url, hdrop, List.all_map, List.all_eq_true, Function.comp_apply]
  exact fun c hc => connectionIdChar_base64url_digit c (hmem c hc)

theorem base64Alphabet_nodup : base64Alphabet.Nodup :=
  List.Nodup.of_map Char.toNat (by decide)

theorem base64Digit_inj {a b : Nat} (ha : a < 64) (hb : b < 64)
    (h : base64Digit a = base64Digit b) : a = b := by
  have hlen : base64Alphabet.length = 64 := by decide
  unfold base64Digit at h
  rw [List.getD_eq_getElem _ _ (hlen ▸ ha), List.getD_eq_getElem _ _ (hlen ▸ hb)] at h
  exact base64Alphabet_nodup.getElem_inj_iff.mp h

/-- The four digits of a 24-bit group give the group back. -/
private theorem group_inj {n n' : Nat} (hn : n < 2 ^ 24) (hn' : n' < 2 ^ 24)
    (h : [base64Digit (n / 262144), base64Digit (n / 4096 % 64), base64Digit (n / 64 % 64),
      base64Digit (n % 64)] = [base64Digit (n' / 262144), base64Digit (n' / 4096 % 64),
      base64Digit (n' / 64 % 64), base64Digit (n' % 64)]) : n = n' := by
  simp only [List.cons.injEq, and_true] at h
  obtain ⟨h0, h1, h2, h3⟩ := h
  have hmod := fun m => Nat.mod_lt m (show 64 > 0 by decide)
  have := base64Digit_inj (Nat.div_lt_of_lt_mul hn) (Nat.div_lt_of_lt_mul hn') h0
  have := base64Digit_inj (hmod _) (hmod _) h1
  have := base64Digit_inj (hmod _) (hmod _) h2
  have := base64Digit_inj (hmod _) (hmod _) h3
  omega

/-- Three bytes are the base-256 digits of their group. -/
private theorem bytes_of_group {a b c a' b' c' : UInt8}
    (h : a.toNat * 65536 + b.toNat * 256 + c.toNat = a'.toNat * 65536 + b'.toNat * 256 + c'.toNat) :
    a = a' ∧ b = b' ∧ c = c' := by
  have := b.toNat_lt; have := c.toNat_lt; have := b'.toNat_lt; have := c'.toNat_lt
  simp only [UInt8.size] at *
  exact ⟨UInt8.toNat.inj (by omega), UInt8.toNat.inj (by omega), UInt8.toNat.inj (by omega)⟩

/-- On whole groups of three bytes `base64Encode` is injective. -/
theorem base64Encode_inj {bytes bytes' : Bytes} (h : bytes.length % 3 = 0)
    (h' : bytes'.length % 3 = 0) (he : base64Encode bytes = base64Encode bytes') :
    bytes = bytes' := by
  induction bytes using base64Encode.induct generalizing bytes' with
  | case1 a b c rest ih =>
    match bytes', h' with
    | a' :: b' :: c' :: rest', h' =>
      simp only [base64Encode] at he
      obtain ⟨hgroup, hrest⟩ := List.append_inj he (by simp only [List.length_cons])
      have := a.toNat_lt; have := a'.toNat_lt; have := b.toNat_lt; have := b'.toNat_lt
      have := c.toNat_lt; have := c'.toNat_lt
      simp only [UInt8.size] at *
      obtain ⟨rfl, rfl, rfl⟩ := bytes_of_group (group_inj (by omega) (by omega) hgroup)
      rw [ih (by simp only [List.length_cons] at h; omega)
        (by simp only [List.length_cons] at h'; omega) hrest]
    | [], _ => simp [base64Encode] at he
    | [_], h' => simp at h'
    | [_, _], h' => simp at h'
  | case2 => simp at h
  | case3 => simp at h
  | case4 =>
    match bytes', h' with
    | [], _ => rfl
    | _ :: _ :: _ :: _, _ => simp [base64Encode] at he
    | [_], h' => simp at h'
    | [_, _], h' => simp at h'

/-- The replacements of `base64url` undone: `-` back to `+`, `_` back to `/`. -/
private def base64urlUndo (c : Char) : Char :=
  if c = '-' then '+' else if c = '_' then '/' else c

private theorem base64urlUndo_digit : ∀ c ∈ base64Alphabet,
    ((base64urlUndo ∘ fun c => if c = '/' then '_' else c) ∘ fun c => if c = '+' then '-' else c) c =
      id c := by
  decide

/-- On whole groups of three bytes `base64url` is injective. -/
theorem base64url_inj {bytes bytes' : Bytes} (h : bytes.length % 3 = 0)
    (h' : bytes'.length % 3 = 0) (he : base64url bytes = base64url bytes') : bytes = bytes' := by
  have hundo : ∀ {bytes : Bytes}, bytes.length % 3 = 0 →
      (base64url bytes).map base64urlUndo = base64Encode bytes := fun {bytes} h => by
    rw [base64url, rdropWhile_base64Encode_of_mod_three h, List.map_map, List.map_map]
    conv_rhs => rw [← List.map_id (base64Encode bytes)]
    exact List.map_congr_left fun c hc =>
      base64urlUndo_digit c (mem_base64Encode_of_mod_three h c hc)
  exact base64Encode_inj h h' (by rw [← hundo h, ← hundo h', he])

/-- A call that returns was made on a connected server, and its address is the server's
account, `.` and a token: the `base64url` of the random bytes, followed by nothing or, for a tag
that is not empty, by `~` and the tag, which passes `CONNECTION_ID_REGEX`. The secret and the
`Map`s are those of `generateSharedSecretFromToken` on the token's ASCII bytes. -/
theorem Server.generateAddressAndSecret_eq_ok {hmac : Bytes → Bytes → Bytes} {server : Server}
    {random : RandomBytes 18} {tokenBuffer : Nat} {connectionTag : Option (List Char)}
    {address : List Char} {sharedSecret : Bytes} {caches : Caches}
    (h : server.generateAddressAndSecret hmac random tokenBuffer connectionTag =
      .ok ((address, sharedSecret), caches)) :
    server.connected = true ∧ ∃ suffix,
      address = server.serverAccount ++ ['.'] ++ (base64url random.1 ++ suffix) ∧
      (suffix = [] ∨ ∃ tag, suffix = '~' :: tag ∧ connectionIdRegexTest tag = true) ∧
      (sharedSecret, caches) = generateSharedSecretFromToken hmac server.caches server.serverSecret
        ⟨tokenBuffer, asciiBytes (base64url random.1 ++ suffix)⟩ := by
  cases hc : server.connected
  · simp [generateAddressAndSecret, hc] at h
  refine ⟨rfl, ?_⟩
  cases connectionTag with
  | none =>
    simp [generateAddressAndSecret, hc] at h
    exact ⟨[], by rw [← h.1.1]; simp, .inl rfl, by rw [← h.1.2, ← h.2, List.append_nil]⟩
  | some tag =>
    by_cases hne : tag = []
    · simp [generateAddressAndSecret, hc, hne] at h
      exact ⟨[], by rw [← h.1.1]; simp, .inl rfl, by rw [← h.1.2, ← h.2, List.append_nil]⟩
    · cases ht : connectionIdRegexTest tag
      · simp [generateAddressAndSecret, hc, hne, ht] at h
      · simp [generateAddressAndSecret, hc, hne, ht] at h
        exact ⟨'~' :: tag, by rw [← h.1.1]; simp, .inr ⟨tag, rfl, ht⟩, by rw [← h.1.2, ← h.2]⟩

/-- A token is not empty and holds no `.`, whatever follows its random part. -/
theorem token_ne_nil_and_dot_not_mem {random : RandomBytes 18} {suffix : List Char}
    (hsuffix : suffix = [] ∨ ∃ tag, suffix = '~' :: tag ∧ connectionIdRegexTest tag = true) :
    base64url random.1 ++ suffix ≠ [] ∧ '.' ∉ base64url random.1 ++ suffix := by
  have hrandom : random.1 ≠ [] := fun h => by simpa [h] using random.2
  refine ⟨fun h => base64url_ne_nil hrandom (List.append_eq_nil.mp h).1, ?_⟩
  rw [List.mem_append, not_or]
  refine ⟨dot_not_mem_base64url _, ?_⟩
  rcases hsuffix with rfl | ⟨tag, rfl, htag⟩
  · exact List.not_mem_nil _
  · simpa using (connectionIdRegexTest_spec htag).2

/-- Tokens of different random bytes differ, whatever follows their random part: both random
parts are 24 characters long, and `base64url` is injective on them. -/
theorem token_ne_of_random_ne {random₁ random₂ : RandomBytes 18} (hrandom : random₁ ≠ random₂)
    (suffix₁ suffix₂ : List Char) :
    base64url random₁.1 ++ suffix₁ ≠ base64url random₂.1 ++ suffix₂ := fun h => by
  have hlength : ∀ random : RandomBytes 18, (base64url random.1).length = 24 := fun random => by
    simpa [random.2] using (@base64url_of_mod_three random.1 (by rw [random.2])).1
  exact hrandom (Subtype.ext (base64url_inj (by rw [random₁.2]) (by rw [random₂.2])
    (List.append_inj h (by rw [hlength, hlength])).1))

end IlpStream
