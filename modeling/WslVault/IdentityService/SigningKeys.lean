import WslVault.Base.Stateful
import WslVault.IdentityService.Token
import WslVault.Storage.SigningKeyStore

/-!
# Signing keys of the identity service

`SigningKeys` of `services/identity-service/src/signing_keys.rs`: the key a tenant's tokens
are signed with, generated on first use, and the verification of the tokens the service has
issued. Wrapping and the public half of a private key are parameters.
-/

namespace WslVault.IdentityService

open Core Base Storage

/-- The calls of the crypto service, for a tenant and associated data, and the
public half of a private key. -/
structure KeyCustody where
  wrap : (tenantId : String) → Bytes → (aad : Bytes) → Except String String
  unwrap : (tenantId : String) → String → (aad : Bytes) → Except String Bytes
  publicHalf : Bytes → Bytes

structure SigningKeys where
  rows : SigningKeyTable
  cache : AList (fun _ : String => Bytes)
  publicCache : AList (fun _ : String => Bytes)

structure LoadedKey where
  kid : String
  encoding : Jwt.Signer

/-- What is drawn for a new key: its private half, the rest of its id, and the
time. -/
structure KeyDraw where
  pkcs8 : Bytes
  kid : Uuid
  now : Timestamp

namespace SigningKeys

abbrev KeysM := EStateM String SigningKeys

variable (kid : String)

def wrapAad : Bytes := asBytes ("wslvault:signing-key:" ++ kid)

def systemWrapTenant : String := "00000000-0000-0000-0000-000000000000"

def wrapTenant (owner : Option Uuid) : String := (owner.map Uuid.toString).getD systemWrapTenant

def header : Jwt.Header := ⟨.edDSA, some kid⟩

variable (custody : KeyCustody)

/-- A new key of the owner. One that cannot be stored, because another process
was first, is given up for the one that is there. -/
def generate (draw : KeyDraw) (owner : Option Uuid) : KeysM SigningKeyRecord := do
  let kid := "wslv-" ++ draw.kid.toString
  let wrapped ← MonadExcept.ofExcept (custody.wrap (wrapTenant owner) draw.pkcs8 (wrapAad kid))
  let record : SigningKeyRecord :=
    { kid := kid
      tenantId := owner
      publicKey := Base64.encodeUrl (custody.publicHalf draw.pkcs8)
      wrappedPrivateKey := wrapped
      state := .active
      createdAt := draw.now }
  match SigningKeyStore.insertActive (← get).rows record with
  | .ok rows =>
    modify fun keys => { keys with rows := rows }
    return record
  | .error e =>
    match SigningKeyStore.active (← get).rows owner with
    | some existing => return existing
    | none => throw ("could not store or find a signing key: " ++ e.display)

def unwrapKey (record : SigningKeyRecord) : KeysM Bytes := do
  match (← get).cache.lookup record.kid with
  | some hit => return hit
  | none =>
    let pkcs8 ← MonadExcept.ofExcept
      (custody.unwrap (wrapTenant record.tenantId) record.wrappedPrivateKey (wrapAad record.kid))
    modify fun keys => { keys with cache := keys.cache.insert record.kid pkcs8 }
    return pkcs8

def signerFor (draw : KeyDraw) (owner : Option Uuid) : KeysM LoadedKey := do
  let record ← match SigningKeyStore.active (← get).rows owner with
    | some record => pure record
    | none => generate custody draw owner
  let pkcs8 ← unwrapKey custody record
  return ⟨record.kid, .ed25519 (custody.publicHalf pkcs8)⟩

def publicKeyFor : KeysM Bytes := do
  match (← get).publicCache.lookup kid with
  | some hit => return hit
  | none =>
    match SigningKeyStore.byKid (← get).rows kid with
    | none => throw ("unknown signing key " ++ debugStr kid)
    | some record =>
      match Base64.decodeUrl record.publicKey with
      | none => throw "stored public key is not base64url"
      | some raw =>
        if raw.length ≠ 32 then throw "stored public key is not an Ed25519 key"
        modify fun keys => { keys with publicCache := keys.publicCache.insert kid raw }
        return raw

def verifyWithKey (texts : Jwt.Texts) (now : Timestamp) (text : String) (publicKey : Bytes) :
    Except String TokenClaims :=
  (Jwt.decode texts TokenClaims.ofPayload (.ed25519 publicKey)
    { Jwt.Validation.new .edDSA with validateAud := false } now text).mapError
      fun e => "invalid token: " ++ e.display

/-- The owner of the key is not compared with the claims. -/
def verify (texts : Jwt.Texts) (now : Timestamp) (text : String) : KeysM TokenClaims := do
  match Jwt.decodeHeader texts text with
  | .error e => throw ("malformed token header: " ++ e.display)
  | .ok header =>
    if header.alg ≠ .edDSA then
      throw ("not an EdDSA token (alg " ++ header.alg.debug ++ ")")
    match header.kid with
    | none => throw "EdDSA token carries no kid"
    | some kid =>
      let publicKey ← publicKeyFor kid
      MonadExcept.ofExcept (verifyWithKey texts now text publicKey)

def jwks (keys : SigningKeyTable) : List Auth.JwkEntry :=
  (SigningKeyStore.publishable keys).map fun r => ⟨r.kid, r.publicKey⟩

end SigningKeys

/-- The keys of the identity service, and the cache of a service that verifies. -/
structure KeySystem where
  keys : SigningKeys
  cache : Auth.JwksCache

/-- Calls of the two services, and what other processes do to the stored keys. A
request to the second service finds the JWKS endpoint answering or not. -/
inductive KeyEvent where
  | signer (custody : KeyCustody) (draw : KeyDraw) (owner : Option Uuid)
  | verify (now : Timestamp) (text : String)
  | store (record : SigningKeyRecord)
  | retire (kid : String)
  | resolve (w : Auth.World) (jwks : Except Auth.AuthFailure Unit) (headers : Headers)

inductive KeyReply where
  | signer (result : Except String LoadedKey)
  | verified (result : Except String TokenClaims)
  | stored (result : Except VaultError Unit)
  | retired
  | resolved (result : Except Auth.AuthFailure Identity)

namespace KeySystem

def start (rows : SigningKeyTable) : KeySystem := ⟨⟨rows, ∅, ∅⟩, .empty⟩

def serving (s : KeySystem) (w : Auth.World) (jwks : Except Auth.AuthFailure Unit) : Auth.World :=
  { w with jwks := jwks.map fun _ => SigningKeys.jwks s.keys.rows }

def step (texts : Jwt.Texts) (s : KeySystem) : KeyEvent → KeySystem × KeyReply
  | .signer custody draw owner =>
    let done := perform (SigningKeys.signerFor custody draw owner) s.keys
    ({ s with keys := done.1 }, .signer done.2)
  | .verify now text =>
    let done := perform (SigningKeys.verify texts now text) s.keys
    ({ s with keys := done.1 }, .verified done.2)
  | .store record =>
    match SigningKeyStore.insertActive s.keys.rows record with
    | .ok rows => ({ s with keys := { s.keys with rows := rows } }, .stored (.ok ()))
    | .error e => (s, .stored (.error e))
  | .retire kid =>
    let rows := SigningKeyStore.markRotatingOut s.keys.rows kid
    ({ s with keys := { s.keys with rows := rows } }, .retired)
  | .resolve w jwks headers =>
    let done := perform (Auth.resolveIdentity (s.serving w jwks) headers) s.cache
    ({ s with cache := done.1 }, .resolved done.2)

end KeySystem

end WslVault.IdentityService
