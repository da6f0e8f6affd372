import WslVault.Core.Auth
import WslVault.CryptoService.Grpc
import WslVault.PolicyEngine.Service
import WslVault.SecretEngine.PgStore
import WslVault.SecretEngine.Path
import WslVault.Storage.TenantStore

/-!
# The services the secret engine calls

The policy engine decides on every request
(`services/secret-engine/src/policy_client.rs`), and the crypto service encrypts
what is stored. A client is what the other side answers at the time of the
request; the failures of a call come as their text.
-/

namespace WslVault.SecretEngine

open Base Core Storage

structure AuthorizeRequest where
  (tenantId principalId : String)
  policies : List String
  (action resource : String)
  deriving DecidableEq, Repr

structure AuthorizeResponse where
  allowed : Bool
  reason : String
  deriving DecidableEq, Repr

/-- `none` when the call fails. -/
abbrev PolicyClient := AuthorizeRequest → Option AuthorizeResponse

def PolicyClient.authorize (policy : PolicyClient) (req : AuthorizeRequest) :
    Except VaultError Unit :=
  match policy req with
  | none => .error (.serviceUnavailable "policy-engine")
  | some response =>
    if response.allowed then .ok ()
    else
      .error (.permissionDenied req.resource
        (if response.reason = "" then "policy denied" else response.reason))

def resourceOf (path : String) : String := "secret/data/" ++ path

structure CryptoClient where
  encrypt : CryptoService.EncryptRequest → Except String CryptoService.EncryptResponse
  decrypt : CryptoService.DecryptRequest → Except String Bytes

/-- `build_aad`: the ciphertext is bound to the tenant and the path. -/
def buildAad (tenantId path : String) : Bytes := asBytes (tenantId ++ ":" ++ path)

/-- What the crypto service expects: `<dek_id>:<ciphertext_b64>`. -/
def combinedCiphertext (entry : VersionEntry) : String := entry.dekId ++ ":" ++ entry.ciphertext

/-- The lookups of a tenant's row while a write is prepared. -/
structure TenantPool where
  forDefault : Uuid → Except VaultError TenantRow
  forCheck : Uuid → Except VaultError TenantRow

def TenantPool.lookup (tenants : TenantTable) (fault : Option String) (tid : Uuid) :
    Except VaultError TenantRow :=
  match fault with
  | some reason => .error (.database reason)
  | none => getTenant tenants tid

/-- The state shared by the handlers. The lower case of a text is taken from the
standard library. -/
structure AppState where
  policy : PolicyClient
  crypto : CryptoClient
  tenantPool : Option TenantPool
  toLowercase : String → String

/-- What the authentication found out about a request, and its headers. -/
structure Caller where
  identity : Except String Identity
  headers : Headers

end WslVault.SecretEngine
