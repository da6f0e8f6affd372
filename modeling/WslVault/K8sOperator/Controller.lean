import WslVault.Core.Crypto
import WslVault.Core.Text

/-!
# What the operator sends for a secret

The endpoint, token and request of a reconcile of a `VaultSecret`
(`services/k8s-operator/src/controller.rs`). What becomes of the answer, the target
secret and the status are left out, as is the reference to a service account, which
nothing reads.
-/

namespace WslVault.K8sOperator

open Core

structure SecretKeyRef where
  name : String
  key : Option String

structure AuthSpec where
  tokenSecretRef : Option SecretKeyRef

/-- The data of a secret by namespace and name, as the Kubernetes API answers; none if
it cannot be read. -/
abbrev KubeApi := String → String → Option (List (String × Bytes))

structure HttpRequest where
  (endpoint path : String)
  bearer : Option String
  headers : List (String × String)

def readToken (kube : KubeApi) (namespaceName : String) (ref : SecretKeyRef) : Option String := do
  let data ← kube namespaceName ref.name
  let bytes ← data.lookup (ref.key.getD "token")
  let token ← String.fromUTF8? ⟨bytes.toArray⟩
  some (Text.trim token)

/-- `resolve_auth_token`, the same in both controllers. -/
def resolveAuthToken (kube : KubeApi) (defaultVaultToken : Option String) (auth : Option AuthSpec)
    (namespaceName : String) : Option String :=
  match auth.bind AuthSpec.tokenSecretRef with
  | some ref =>
    match readToken kube namespaceName ref with
    | some token => some token
    | none => defaultVaultToken
  | none => defaultVaultToken

def resolveEndpoint (own : Option String) (fallback : String) : String :=
  Text.trimEndMatches '/' (own.getD fallback)

structure OperatorContext where
  defaultVaultEndpoint : String
  (defaultVaultToken defaultTenantId defaultPolicies : Option String)

structure VaultSecret where
  namespaceName : Option String
  path : String
  vaultEndpoint : Option String
  auth : Option AuthSpec

def fetchSecret (ctx : OperatorContext) (kube : KubeApi) (vs : VaultSecret) : HttpRequest where
  endpoint := resolveEndpoint vs.vaultEndpoint ctx.defaultVaultEndpoint
  path := "/v1/secrets/" ++ vs.path
  bearer :=
    resolveAuthToken kube ctx.defaultVaultToken vs.auth (vs.namespaceName.getD "default")
  headers :=
    (ctx.defaultTenantId.map ("X-Tenant-Id", ·)).toList ++
      (ctx.defaultPolicies.map ("X-Policies", ·)).toList ++
      [("X-Principal-Id", "wslvault-operator")]

end WslVault.K8sOperator
