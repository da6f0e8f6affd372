import WslVault.K8sOperator.PolicyController

/-!
# Where the operator's token goes

The endpoint and the token of a request are found apart, each with the operator's own as the
fallback.
-/

namespace WslVault.K8sOperator

open Core

/-- The operator's token is sent to the operator's endpoint only, and not for a resource
that names a token of its own. -/
def Home (defaultToken : Option String) (defaultEndpoint : String) (auth : Option AuthSpec)
    (request : HttpRequest) : Prop :=
  ∀ token ∈ defaultToken, request.bearer = some token →
    request.endpoint = Text.trimEndMatches '/' defaultEndpoint ∧
      auth.bind AuthSpec.tokenSecretRef = none

/-- A resource that names no token has the operator's endpoint; a token that it names
can be read, and is not the operator's. -/
def Modest (kube : KubeApi) (defaultToken : Option String) (defaultEndpoint : String)
    (namespaceName : String) (endpoint : Option String) (auth : Option AuthSpec) : Prop :=
  ∀ token ∈ defaultToken, match auth.bind AuthSpec.tokenSecretRef with
    | none => ∀ own ∈ endpoint,
        Text.trimEndMatches '/' own = Text.trimEndMatches '/' defaultEndpoint
    | some ref => ∃ own, readToken kube namespaceName ref = some own ∧ own ≠ token

theorem home_iff {kube : KubeApi} {defaultToken : Option String} {defaultEndpoint : String}
    {namespaceName : String} {endpoint : Option String} {auth : Option AuthSpec}
    {request : HttpRequest}
    (hendpoint : request.endpoint = resolveEndpoint endpoint defaultEndpoint)
    (hbearer : request.bearer = resolveAuthToken kube defaultToken auth namespaceName) :
    Home defaultToken defaultEndpoint auth request ↔
      Modest kube defaultToken defaultEndpoint namespaceName endpoint auth := by
  rw [Home, Modest, hendpoint, hbearer, resolveAuthToken]
  refine forall₂_congr fun token htoken => ?_
  obtain rfl := htoken
  cases auth.bind AuthSpec.tokenSecretRef with
  | none => cases endpoint <;> simp [resolveEndpoint]
  | some ref =>
    dsimp only
    generalize readToken kube namespaceName ref = read
    cases read <;> simp

/-- When the operator's token stays at home, for a secret and for a policy that is
reconciled. -/
theorem default_token_home_iff (ctx : OperatorContext) (pctx : PolicyOperatorContext)
    (kube : KubeApi) (vs : VaultSecret) (vp : VaultPolicy) :
    (Home ctx.defaultVaultToken ctx.defaultVaultEndpoint vs.auth (fetchSecret ctx kube vs) ↔
      Modest kube ctx.defaultVaultToken ctx.defaultVaultEndpoint
        (vs.namespaceName.getD "default") vs.vaultEndpoint vs.auth) ∧
    ((∀ request ∈ (reconcile pctx kube vp).request?,
        Home pctx.defaultVaultToken pctx.defaultPolicyEngineEndpoint vp.spec.auth request) ↔
      ((vp.deletionTimestamp = true ∨ policyFinalizer ∈ vp.finalizers ∧
          (validateCapabilities vp.spec).isOk = true) →
        Modest kube pctx.defaultVaultToken pctx.defaultPolicyEngineEndpoint
          (vp.namespaceName.getD "default") vp.spec.policyEngineEndpoint vp.spec.auth)) := by
  refine ⟨home_iff rfl rfl, ?_⟩
  have hpolicy : Home pctx.defaultVaultToken pctx.defaultPolicyEngineEndpoint vp.spec.auth
      (policyRequest pctx kube vp) ↔ _ := home_iff rfl rfl
  rw [← hpolicy, reconcile]
  split
  · next hdeleted => simp [Plan.request?, hdeleted]
  · next hlive =>
    split
    · next hnew => simp [Plan.request?, hlive, hnew]
    · next hkept =>
      cases hvalid : validateCapabilities vp.spec with
      | error message => simp [Plan.request?, hlive, Except.isOk, Except.toBool]
      | ok _ => simp [Plan.request?, not_not.mp hkept, Except.isOk, Except.toBool]

/-- A secret that names an endpoint, and no token. -/
def straySecret : VaultSecret where
  namespaceName := some "team"
  path := "app/db"
  vaultEndpoint := some "http://elsewhere"
  auth := none

def someContext : OperatorContext where
  defaultVaultEndpoint := "http://secret-engine:8081"
  defaultVaultToken := some "operator-token"
  defaultTenantId := none
  defaultPolicies := none

/-- The operator's token is sent to the endpoint that the resource names, also if the
resource names a token of its own and its secret is not there. -/
theorem token_leaves_home :
    (fetchSecret someContext (fun _ _ => none) straySecret).endpoint = "http://elsewhere" ∧
      (fetchSecret someContext (fun _ _ => none) straySecret).bearer = some "operator-token" ∧
      (fetchSecret someContext (fun _ _ => none)
        { straySecret with auth := some ⟨some ⟨"vault-token", none⟩⟩ }).bearer =
          some "operator-token" := by
  decide

end WslVault.K8sOperator
