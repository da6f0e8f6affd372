import WslVault.Base.Map
import WslVault.Base.Run
import WslVault.Core.Verify.Auth
import WslVault.IdentityService.SigningKeys

/-!
# Whom a signing key speaks for

Both verifiers look the key that a token names up by its id alone. Neither compares the owner
of the key with the claims of the token, and a service still takes tokens under the shared
secret. The caches of both services only ever hold stored keys (`Sound`).
-/

namespace WslVault.IdentityService

open Base Core Core.Auth Storage

variable {rows rows' : SigningKeyTable} {texts : Jwt.Texts} {text : String} {token : Jwt.Token}

/-- Every cached key is the public half of the key stored under its id. -/
def Cached (rows : SigningKeyTable) (keys : AList fun _ : String => Bytes) : Prop :=
  ∀ kid publicKey, keys.lookup kid = some publicKey →
    ∃ record, rows.get? kid = some record ∧ Base64.decodeUrl record.publicKey = some publicKey

/-- Every stored key is stored still, with its owner and its public half. -/
def Keeps (rows rows' : SigningKeyTable) : Prop :=
  ∀ kid record, rows.get? kid = some record → ∃ record', rows'.get? kid = some record' ∧
    record'.publicKey = record.publicKey ∧ record'.tenantId = record.tenantId

theorem Keeps.refl (rows : SigningKeyTable) : Keeps rows rows :=
  fun _ record h => ⟨record, h, rfl, rfl⟩

variable {keys : AList fun _ : String => Bytes}

theorem Cached.keeps (h : Cached rows keys) (hkeeps : Keeps rows rows') : Cached rows' keys := by
  intro kid publicKey hlookup
  obtain ⟨record, hrecord, hdecode⟩ := h kid publicKey hlookup
  obtain ⟨record', hrecord', hpublic, -⟩ := hkeeps kid record hrecord
  exact ⟨record', hrecord', hpublic ▸ hdecode⟩

theorem cached_empty (rows : SigningKeyTable) : Cached rows ∅ := by
  intro kid publicKey hlookup
  simp at hlookup

theorem Cached.insert (h : Cached rows keys)
    {kid : String} {record : SigningKeyRecord} {publicKey : Bytes}
    (hrecord : rows.get? kid = some record)
    (hdecode : Base64.decodeUrl record.publicKey = some publicKey) :
    Cached rows (keys.insert kid publicKey) :=
  forall_lookup_insert h ⟨record, hrecord, hdecode⟩

theorem keeps_insertActive {record : SigningKeyRecord}
    (h : SigningKeyStore.insertActive rows record = .ok rows') : Keeps rows rows' := by
  unfold SigningKeyStore.insertActive at h
  split at h
  · cases h
  · split at h
    · next hinsert =>
      cases h
      intro kid old hold
      obtain ⟨hmem, hkid⟩ := Table.get?_eq_some.mp hold
      exact ⟨old, Table.get?_eq_some.mpr ⟨(Table.mem_of_insert? hinsert).mpr (.inl hmem), hkid⟩,
        rfl, rfl⟩
    · cases h

theorem keeps_markRotatingOut (rows : SigningKeyTable) (kid : String) :
    Keeps rows (SigningKeyStore.markRotatingOut rows kid) := by
  intro kid' record hrecord
  unfold SigningKeyStore.markRotatingOut
  rw [Table.get?_update, hrecord]
  simp only [Option.map_some]
  split
  · exact ⟨_, rfl, rfl, rfl⟩
  · exact ⟨_, rfl, rfl, rfl⟩

/-! ## Calls of the identity service -/

namespace SigningKeys

variable (custody : KeyCustody)

/-- No key goes, and the cache of public keys stays. -/
abbrev Grown (keys keys' : SigningKeys) : Prop :=
  Keeps keys.rows keys'.rows ∧ keys'.publicCache = keys.publicCache

theorem outcome_generate (draw : KeyDraw) (owner : Option Uuid)
    (keys : SigningKeys) :
    Outcome (generate custody draw owner) keys (fun _ => Grown keys) fun _ => Grown keys := by
  unfold generate
  simp only [outcome_bind, outcome_ofExcept, outcome_get]
  refine ⟨fun wrapped _ => ?_, fun e _ => ⟨Keeps.refl _, rfl⟩⟩
  split
  · next rows' hinsert =>
    simpa [Grown] using keeps_insertActive hinsert
  · simp only [outcome_bind, outcome_get]
    split
    · exact .pure ⟨Keeps.refl _, rfl⟩
    · exact .throw ⟨Keeps.refl _, rfl⟩

theorem outcome_unwrapKey (record : SigningKeyRecord) (keys : SigningKeys) :
    Outcome (unwrapKey custody record) keys
      (fun _ keys' => keys'.rows = keys.rows ∧ keys'.publicCache = keys.publicCache)
      fun _ keys' => keys'.rows = keys.rows ∧ keys'.publicCache = keys.publicCache := by
  unfold unwrapKey
  simp only [outcome_bind, outcome_get]
  split
  · simp
  · simp

theorem outcome_signerFor (draw : KeyDraw) (owner : Option Uuid)
    (keys : SigningKeys) :
    Outcome (signerFor custody draw owner) keys (fun _ => Grown keys) fun _ => Grown keys := by
  have hunwrap : ∀ record (keys' : SigningKeys), Grown keys keys' →
      Outcome (unwrapKey custody record) keys' (fun _ => Grown keys) fun _ => Grown keys := by
    intro record keys' ⟨hkeeps, hcache⟩
    refine (outcome_unwrapKey custody record keys').mono ?_ ?_
    · rintro _ t ⟨hrows, hcache'⟩
      exact ⟨hrows ▸ hkeeps, hcache'.trans hcache⟩
    · rintro _ t ⟨hrows, hcache'⟩
      exact ⟨hrows ▸ hkeeps, hcache'.trans hcache⟩
  unfold signerFor
  simp only [outcome_bind, outcome_get]
  split
  · simp only [outcome_bind, outcome_pure]
    exact hunwrap _ keys ⟨Keeps.refl _, rfl⟩
  · simp only [outcome_bind, outcome_pure]
    exact (outcome_generate custody draw owner keys).mono hunwrap fun _ _ h => h

theorem outcome_publicKeyFor (kid : String) (keys : SigningKeys)
    (hcached : Cached keys.rows keys.publicCache) : Outcome (publicKeyFor kid) keys
      (fun publicKey keys' => keys'.rows = keys.rows ∧ Cached keys.rows keys'.publicCache ∧
        ∃ record, keys.rows.get? kid = some record ∧
          Base64.decodeUrl record.publicKey = some publicKey)
      fun _ keys' => keys' = keys := by
  unfold publicKeyFor
  simp only [outcome_bind, outcome_get]
  split
  · next hit hlookup =>
    exact .pure ⟨rfl, hcached, hcached kid hit hlookup⟩
  · simp only [outcome_bind, outcome_get]
    split
    · simp
    · next record hrecord =>
      split
      · simp
      · next raw hraw =>
        split
        · simp
        · simp only [outcome_bind, outcome_modify, outcome_pure]
          exact ⟨trivial, hcached.insert hrecord hraw, record, hrecord, hraw⟩

/-- The token was signed with the key stored under the id it names. -/
structure Verified (rows : SigningKeyTable) (texts : Jwt.Texts) (text : String)
    (token : Jwt.Token) (claims : TokenClaims) : Prop where
  decoded : texts text = some token
  carried : TokenClaims.ofPayload token.payload = .ok claims
  signed : ∃ kid record publicKey, token.header.kid = some kid ∧ rows.get? kid = some record ∧
    Base64.decodeUrl record.publicKey = some publicKey ∧ token.signature = some (.ed25519 publicKey)

theorem outcome_verify (texts : Jwt.Texts) (now : Timestamp) (text : String) (keys : SigningKeys)
    (hcached : Cached keys.rows keys.publicCache) : Outcome (verify texts now text) keys
      (fun claims keys' => (keys'.rows = keys.rows ∧ Cached keys.rows keys'.publicCache) ∧
        ∃ token, Verified keys.rows texts text token claims)
      fun _ keys' => keys'.rows = keys.rows ∧ Cached keys.rows keys'.publicCache := by
  unfold verify
  cases htoken : texts text with
  | none => simpa [Jwt.decodeHeader, htoken, okOr, Except.map] using hcached
  | some token =>
    simp only [Jwt.decodeHeader, htoken, okOr, Except.map]
    split
    · simpa using hcached
    · cases hkid : token.header.kid with
      | none => simpa using hcached
      | some kid =>
        simp only [outcome_bind, outcome_ofExcept]
        refine (outcome_publicKeyFor kid keys hcached).mono ?_ ?_
        · rintro publicKey keys' ⟨hrows, hcached', record, hrecord, hdecode⟩
          refine ⟨fun claims hclaims => ⟨⟨hrows, hcached'⟩, token, ?_⟩,
            fun _ _ => ⟨hrows, hcached'⟩⟩
          obtain ⟨token', htoken', -, hsigned, hcarried, -⟩ :=
            Jwt.decode_eq_ok.mp (mapError_eq_ok hclaims)
          cases htoken.symm.trans htoken'
          exact ⟨htoken, hcarried, kid, record, publicKey, hkid, hrecord, hdecode, hsigned⟩
        · rintro _ keys' rfl
          exact ⟨rfl, hcached⟩

end SigningKeys

/-- What the JWKS endpoint answers, if it does, are the stored keys. -/
def Serves (rows : SigningKeyTable) (w : World) : Prop :=
  ∀ entries, w.jwks = .ok entries → entries = SigningKeys.jwks rows

theorem cached_jwks (h : Cached rows keys) :
    Cached rows ((SigningKeys.jwks rows).foldl JwksCache.add keys) := by
  have hfrom : ∀ (entries : List JwkEntry) (keys : AList fun _ : String => Bytes),
      (∀ entry ∈ entries, ∃ record, rows.get? entry.kid = some record ∧
        record.publicKey = entry.x) →
      Cached rows keys → Cached rows (entries.foldl JwksCache.add keys) := by
    intro entries
    induction entries with
    | nil => exact fun _ _ h => h
    | cons entry entries ih =>
      intro keys hentries hkeys
      refine ih _ (fun e he => hentries e (List.mem_cons_of_mem _ he)) ?_
      obtain ⟨record, hrecord, hx⟩ := hentries entry List.mem_cons_self
      unfold JwksCache.add
      split
      · next raw hraw =>
        split
        · exact hkeys.insert hrecord (hx ▸ hraw)
        · exact hkeys
      · exact hkeys
  refine hfrom _ _ ?_ h
  intro entry hentry
  obtain ⟨record, hrecord, rfl⟩ := List.mem_map.mp hentry
  have hmem := (List.mem_insertionSort _).mp hrecord
  exact ⟨record, Table.get?_eq_some.mpr ⟨(Table.mem_select.mp hmem).1, rfl⟩, rfl⟩

variable {cache : JwksCache} {w : World} {superuser : Bool}

section

variable (hw : Serves rows w) (h : Cached rows cache.keys)

include hw h

theorem outcome_refresh :
    Outcome (JwksCache.refresh w) cache (fun _ cache' => Cached rows cache'.keys)
      fun _ cache' => Cached rows cache'.keys := by
  unfold JwksCache.refresh
  split
  · simpa using h
  · simp only [outcome_bind, outcome_get]
    split
    · simpa using h
    · simp only [outcome_bind, outcome_modify]
      split
      · simpa using h
      · next entries hentries =>
        cases hw entries hentries
        simpa using cached_jwks h

theorem outcome_publicKeyFor (kid : String) :
    Outcome (JwksCache.publicKeyFor w kid) cache (fun _ cache' => Cached rows cache'.keys)
      fun _ cache' => Cached rows cache'.keys := by
  unfold JwksCache.publicKeyFor
  simp only [outcome_bind, outcome_get]
  split
  · simpa using h
  · simp only [outcome_bind, outcome_get]
    refine (outcome_refresh hw h).mono (fun _ cache' h' => ?_) fun _ _ h' => h'
    split
    · simpa using h'
    · simpa using h'

theorem outcome_resolveIdentity (headers : Headers) :
    Outcome (resolveIdentity w headers) cache (fun _ cache' => Cached rows cache'.keys)
      fun _ cache' => Cached rows cache'.keys := by
  have hverify : ∀ text, Outcome (verifyTokenAsync w text) cache
      (fun _ cache' => Cached rows cache'.keys) fun _ cache' => Cached rows cache'.keys := by
    intro text
    unfold verifyTokenAsync
    split
    · simpa using h
    · next header _ =>
      split
      · split
        · simpa using h
        · next kid _ =>
          simp only [outcome_bind, outcome_ofExcept]
          exact (outcome_publicKeyFor hw h kid).mono
            (fun _ _ h' => ⟨fun _ _ => h', fun _ _ => h'⟩) fun _ _ h' => h'
      · simp only [outcome_ofExcept]
        exact ⟨fun _ _ => h, fun _ _ => h⟩
      · simpa using h
  unfold resolveIdentity
  split
  · simpa using h
  · split
    · next text _ =>
      unfold tokenIdentity
      rw [outcome_bind]
      refine (hverify text).mono (fun _ cache' h' => ?_) fun _ _ h' => h'
      split
      · simpa using h'
      · simpa using h'
      · simpa using h'
    · simpa using h

end

namespace KeySystem

def Sound (s : KeySystem) : Prop :=
  Cached s.keys.rows s.keys.publicCache ∧ Cached s.keys.rows s.cache.keys

theorem serves_serving (s : KeySystem) (w : World) (jwks : Except AuthFailure Unit) :
    Serves s.keys.rows (s.serving w jwks) := by
  intro entries hentries
  cases jwks with
  | error e => cases hentries
  | ok u =>
    cases hentries
    rfl

theorem Sound.keeps {s s' : KeySystem} (h : Sound s) (hkeeps : Keeps s.keys.rows s'.keys.rows)
    (hpublic : s'.keys.publicCache = s.keys.publicCache) (hcache : s'.cache = s.cache) :
    Sound s' := by
  refine ⟨?_, ?_⟩
  · rw [hpublic]
    exact h.1.keeps hkeeps
  · rw [hcache]
    exact h.2.keeps hkeeps

theorem Sound.step {s : KeySystem} (h : Sound s) (e : KeyEvent) : Sound (step texts s e).1 := by
  cases e with
  | signer custody draw owner =>
    obtain ⟨hkeeps, hpublic⟩ := (SigningKeys.outcome_signerFor custody draw owner s.keys).left
    exact h.keeps hkeeps hpublic rfl
  | verify now text =>
    have hleft := ((SigningKeys.outcome_verify texts now text s.keys h.1).mono
      (fun _ _ h => h.1) fun _ _ h => h).left
    obtain ⟨hrows, hcached⟩ := hleft
    refine ⟨?_, ?_⟩
    · simp only [KeySystem.step, hrows]
      exact hcached
    · simp only [KeySystem.step, hrows]
      exact h.2
  | store record =>
    simp only [KeySystem.step]
    split
    · next rows' hinsert => exact h.keeps (keeps_insertActive hinsert) rfl rfl
    · exact h
  | retire kid => exact h.keeps (keeps_markRotatingOut _ kid) rfl rfl
  | resolve w jwks headers =>
    have hcached := (outcome_resolveIdentity (s.serves_serving w jwks) h.2 headers).left
    refine ⟨h.1, ?_⟩
    simp only [KeySystem.step]
    exact hcached

def after (texts : Jwt.Texts) (rows : SigningKeyTable) (events : List KeyEvent) : KeySystem :=
  run (KeySystem.step texts) (start rows) events

end KeySystem

/-! ## Owners -/

/-- A key that may sign for the tenant: its own, or the system's, which alone may
sign for a superuser. -/
def MaySign (owner : Option Uuid) (tenantId : String) (superuser : Bool) : Prop :=
  owner = none ∨ (superuser = false ∧ owner.isSome ∧ owner = Uuid.parseStr tenantId)

def SignedFor (rows : SigningKeyTable) (token : Jwt.Token) (tenantId : String)
    (superuser : Bool) : Prop :=
  ∃ record ∈ rows, ∃ publicKey, Base64.decodeUrl record.publicKey = some publicKey ∧
    token.signature = some (.ed25519 publicKey) ∧ MaySign record.tenantId tenantId superuser

/-- The pair of the key that the token names belongs to an owner who may sign. -/
def NamesOwner (rows : SigningKeyTable) (token : Jwt.Token) (tenantId : String)
    (superuser : Bool) : Prop :=
  ∃ kid named, token.header.kid = some kid ∧ rows.get? kid = some named ∧
    ∃ record ∈ rows, Base64.decodeUrl record.publicKey = Base64.decodeUrl named.publicKey ∧
      MaySign record.tenantId tenantId superuser

theorem signedFor_iff {kid : String} {named : SigningKeyRecord} {publicKey : Bytes}
    (hkid : token.header.kid = some kid) (hnamed : rows.get? kid = some named)
    (hdecode : Base64.decodeUrl named.publicKey = some publicKey)
    (hsigned : token.signature = some (.ed25519 publicKey)) {tenantId : String} :
    SignedFor rows token tenantId superuser ↔ NamesOwner rows token tenantId superuser := by
  constructor
  · rintro ⟨record, hrecord, publicKey', hdecode', hsigned', hmay⟩
    cases hsigned.symm.trans hsigned'
    exact ⟨kid, named, hkid, hnamed, record, hrecord, hdecode'.trans hdecode.symm, hmay⟩
  · rintro ⟨kid', named', hkid', hnamed', record, hrecord, hsame, hmay⟩
    cases hkid.symm.trans hkid'
    cases hnamed.symm.trans hnamed'
    exact ⟨record, hrecord, publicKey, hsame.trans hdecode, hsigned, hmay⟩

theorem not_signedFor_hmac {secret : Bytes} (h : token.signature = some (.hmac secret))
    {tenantId : String} : ¬ SignedFor rows token tenantId superuser := by
  rintro ⟨record, -, publicKey, -, hsigned, -⟩
  cases h.symm.trans hsigned

/-- After any run, a token that the identity service verifies was signed for the
tenant and the rights it claims exactly if the key it names is one that may, and
a token that another service accepts exactly if it is moreover no token under the
shared secret. -/
theorem accepted_token_owned_iff (texts : Jwt.Texts) (rows : SigningKeyTable)
    (events : List KeyEvent) :
    let s := KeySystem.after texts rows events
    (∀ now text claims, (perform (SigningKeys.verify texts now text) s.keys).2 = .ok claims →
      ∃ token, texts text = some token ∧
        (SignedFor s.keys.rows token claims.tenantId claims.superuser ↔
          NamesOwner s.keys.rows token claims.tenantId claims.superuser)) ∧
    ∀ w jwks headers identity, Unasserted w headers →
      (perform (resolveIdentity (s.serving w jwks) headers) s.cache).2 = .ok identity →
      ∃ text token, extractToken headers = some text ∧ w.texts text = some token ∧
        (SignedFor s.keys.rows token identity.tenantId identity.superuser ↔
          token.header.alg = .edDSA ∧
            NamesOwner s.keys.rows token identity.tenantId identity.superuser) := by
  intro s
  have hsound : s.Sound := run_invariant _ KeySystem.Sound (fun _ e h => h.step e)
    ⟨cached_empty rows, cached_empty rows⟩ events
  constructor
  · intro now text claims hverify
    obtain ⟨-, token, hverified⟩ := (outcome_iff_perform.mp
      (SigningKeys.outcome_verify texts now text s.keys hsound.1)).1 claims hverify
    obtain ⟨kid, named, publicKey, hkid, hnamed, hdecode, hsigned⟩ := hverified.signed
    exact ⟨token, hverified.decoded, signedFor_iff hkid hnamed hdecode hsigned⟩
  · intro w jwks headers identity hnone hok
    have hcached := (outcome_resolveIdentity (s.serves_serving w jwks) hsound.2 headers).left
    have hnone' : Unasserted (s.serving w jwks) headers := hnone
    obtain ⟨text, token, claims, htext, -, haccepted, rfl⟩ := resolveIdentity_eq_ok hnone' hok
    refine ⟨text, token, htext, haccepted.decoded, ?_⟩
    rcases haccepted.signed with ⟨halg, secret, -, -, hsigned⟩ |
      ⟨halg, kid, publicKey, hkid, hlookup, hsigned⟩
    · simp [halg, not_signedFor_hmac hsigned]
    · obtain ⟨named, hnamed, hdecode⟩ := hcached kid publicKey hlookup
      rw [signedFor_iff hkid hnamed hdecode hsigned]
      simp [halg]

def tenantA : Uuid := Uuid.repeated 'a' (.refl true)

def tenantB : Uuid := Uuid.repeated 'b' (.refl true)

def keyOfA : SigningKeyRecord where
  kid := "wslv-a"
  tenantId := some tenantA
  publicKey := "AAAAAAAAAAAAAAAAAAAAAAAAAAAAAAAAAAAAAAAAAAA"
  wrappedPrivateKey := "wrapped"
  state := .active
  createdAt := 0

def keysOfA : SigningKeyTable := ⟨[keyOfA], by simp⟩

/-- What whoever has that key can sign: a superuser of the second tenant. -/
def forgedClaims : TokenClaims :=
  ⟨"intruder", tenantB.toString, [], true, "wslvault", "wslvault", 0, 3600⟩

def forgedToken : Jwt.Token where
  header := SigningKeys.header "wslv-a"
  payload := forgedClaims.payload
  signature := some (.ed25519 (List.replicate 32 0))

def forgedTexts : Jwt.Texts := fun text => if text = "token" then some forgedToken else none

theorem not_signedFor_forged : ¬ SignedFor keysOfA forgedToken tenantB.toString true := by
  rintro ⟨record, hrecord, -, -, -, hmay⟩
  obtain rfl := List.mem_singleton.mp hrecord
  rcases hmay with hnone | ⟨hfalse, -⟩
  · cases hnone
  · cases hfalse

/-- A tenant's key signs for a superuser of another tenant, and both verifiers
accept it. -/
theorem tenant_key_signs_superuser :
    (perform (SigningKeys.verify forgedTexts 0 "token") (KeySystem.start keysOfA).keys).2 =
        .ok forgedClaims ∧
      (perform (resolveIdentity ((KeySystem.start keysOfA).serving
        ⟨forgedTexts, ⟨none, none, some "jwks", none⟩, 0, .ok [], none⟩ (.ok ()))
        [("x-vault-token", "token")]) .empty).2 =
        .ok { tenantId := tenantB.toString, principalId := "intruder", policies := [],
              expiresAt := some 3600, superuser := true } ∧
      ¬ SignedFor keysOfA forgedToken tenantB.toString true := by
  refine ⟨rfl, rfl, not_signedFor_forged⟩

theorem forged_token_names_no_owner : ∃ token, forgedTexts "token" = some token ∧
      ¬ NamesOwner keysOfA token tenantB.toString true := by
  obtain ⟨token, htoken, hiff⟩ :=
    (accepted_token_owned_iff forgedTexts keysOfA []).1 0 "token" forgedClaims rfl
  cases htoken
  exact ⟨forgedToken, rfl, hiff.not.mp not_signedFor_forged⟩

end WslVault.IdentityService
