import WslVault.K8sOperator.Controller
import WslVault.PolicyEngine.Model

/-!
# The policy controller

`reconcile` and `handle_delete` for `VaultPolicy` resources
(`services/k8s-operator/src/policy_controller.rs`), and the cluster they run in. A finalizer
keeps a deleted resource until its policy is gone from the engine. Reconciles of one
resource do not overlap. Status writes, logs and requeue times are left out.
-/

namespace WslVault.K8sOperator

open Core PolicyEngine

structure PolicyOperatorContext where
  defaultPolicyEngineEndpoint : String
  defaultVaultToken : Option String

def asStr : Capability → String
  | .read => "read"
  | .write => "write"
  | .delete => "delete"
  | .list => "list"
  | .create => "create"
  | .update => "update"
  | .deny => "deny"

def fromStr (s : String) : Option Capability :=
  [Capability.read, .write, .delete, .list, .create, .update, .deny].find?
    (asStr · = Text.toAsciiLowercase s)

structure PolicyRuleSpec where
  name : String
  paths : List String
  capabilities : List Capability

structure VaultPolicySpec where
  (policyName tenantId : String)
  policyEngineEndpoint : Option String
  auth : Option AuthSpec
  rules : List PolicyRuleSpec

structure VaultPolicy where
  namespaceName : Option String
  spec : VaultPolicySpec
  finalizers : List String
  deletionTimestamp : Bool

structure PolicyRuleDto where
  (paths capabilities : List String)
  deriving DecidableEq

def policyFinalizer : String := "wslvault.io/policy-protection"

/-- The checks of `validate_capabilities` on one rule. -/
def validateRule (rule : PolicyRuleSpec) : Except String Unit :=
  if rule.paths.isEmpty then .error ("rule '" ++ rule.name ++ "' must have at least one path")
  else if rule.capabilities.isEmpty then
    .error ("rule '" ++ rule.name ++ "' must have at least one capability")
  else
    match rule.capabilities.find? fun cap => (fromStr (asStr cap)).isNone with
    | some cap =>
      .error ("rule '" ++ rule.name ++ "' contains unknown capability '" ++ asStr cap ++ "'")
    | none => .ok ()

variable (spec : VaultPolicySpec)

def validateCapabilities : Except String Unit :=
  spec.rules.forM validateRule

/-- The rules of `build_policy_document_dto`; the name is the policy's. -/
def buildPolicyDocumentDto : List PolicyRuleDto :=
  spec.rules.map fun rule =>
    { paths := rule.paths, capabilities := rule.capabilities.map asStr }

inductive Plan where
  | addFinalizer
  | reject (message : String)
  | upsertPolicy (rules : List PolicyRuleDto) (request : HttpRequest)
  | deletePolicy (request : HttpRequest)

variable (ctx : PolicyOperatorContext)

def policyRequest (kube : KubeApi) (vp : VaultPolicy) : HttpRequest where
  endpoint := resolveEndpoint vp.spec.policyEngineEndpoint ctx.defaultPolicyEngineEndpoint
  path := "/v1/policies/" ++ vp.spec.policyName
  bearer :=
    resolveAuthToken kube ctx.defaultVaultToken vp.spec.auth (vp.namespaceName.getD "default")
  headers := [("X-Tenant-Id", vp.spec.tenantId)]

def reconcile (kube : KubeApi) (vp : VaultPolicy) : Plan :=
  if vp.deletionTimestamp then .deletePolicy (policyRequest ctx kube vp)
  else if policyFinalizer ∉ vp.finalizers then .addFinalizer
  else
    match validateCapabilities vp.spec with
    | .error message => .reject message
    | .ok _ => .upsertPolicy (buildPolicyDocumentDto vp.spec) (policyRequest ctx kube vp)

def Plan.request? : Plan → Option HttpRequest
  | .upsertPolicy _ request | .deletePolicy request => some request
  | _ => none

/-! ## The cluster -/

/-- Where a policy is kept: the engine, the tenant and the name. -/
structure Address where
  (endpoint tenantId policyName : String)
  deriving DecidableEq

def VaultPolicySpec.address (spec : VaultPolicySpec) (tenantId : String) : Address where
  endpoint := resolveEndpoint spec.policyEngineEndpoint ctx.defaultPolicyEngineEndpoint
  tenantId := tenantId
  policyName := spec.policyName

/-- Resources by namespace and name, and the policies that the operator wrote. -/
structure World where
  resources : String × String → Option VaultPolicy
  engine : Address → Option (List PolicyRuleDto)

/-- What becomes of a request to the engine. A deletion is also done if there is no
such policy. -/
inductive EngineAnswer where
  | done
  | answerLost
  | refused
  deriving DecidableEq

/-- One reconcile, which finds the resource as it is, with what the engine and the
Kubernetes API answer. -/
structure Reconciliation where
  key : String × String
  kube : KubeApi
  engine : EngineAnswer
  patched : Bool

inductive Event where
  | create (key : String × String) (spec : VaultPolicySpec) (finalizers : List String)
  | edit (key : String × String) (spec : VaultPolicySpec) (finalizers : List String)
  | delete (key : String × String)
  | reconcile (r : Reconciliation)

def Event.key : Event → String × String
  | .create key _ _ | .edit key _ _ | .delete key => key
  | .reconcile r => r.key

/-- A resource that is being deleted goes with its last finalizer. -/
def VaultPolicy.settle (vp : VaultPolicy) : Option VaultPolicy :=
  if vp.deletionTimestamp ∧ vp.finalizers = [] then none else some vp

def removeFinalizer (vp : VaultPolicy) : Option VaultPolicy :=
  { vp with finalizers := vp.finalizers.filter (· ≠ policyFinalizer) : VaultPolicy }.settle

namespace World

def empty : World := ⟨fun _ => none, fun _ => none⟩

def setResource (w : World) (key : String × String) (vp : Option VaultPolicy) : World :=
  { w with resources := Function.update w.resources key vp }

def setPolicy (w : World) (address : Address) (rules : Option (List PolicyRuleDto)) : World :=
  { w with engine := Function.update w.engine address rules }

variable (tenantOf : Option String → Option String)

/-- The engine acts on the tenant that it resolves the bearer to, whatever the request names
in a header. It refuses a bearer without one. -/
def request (w : World) (r : Reconciliation) (vp : VaultPolicy) (request : HttpRequest)
    (rules : Option (List PolicyRuleDto)) : World × EngineAnswer :=
  match tenantOf request.bearer, r.engine with
  | none, _ | _, .refused => (w, .refused)
  | some tenantId, answer => (w.setPolicy (vp.spec.address ctx tenantId) rules, answer)

def reconcile (w : World) (r : Reconciliation) (vp : VaultPolicy) : World :=
  match K8sOperator.reconcile ctx r.kube vp with
  | .addFinalizer =>
    if r.patched then
      w.setResource r.key (some { vp with finalizers := vp.finalizers ++ [policyFinalizer] })
    else w
  | .reject _ => w
  | .upsertPolicy rules request => (w.request ctx tenantOf r vp request (some rules)).1
  | .deletePolicy request =>
    let gone := w.request ctx tenantOf r vp request none
    if gone.2 = .done ∧ r.patched then gone.1.setResource r.key (removeFinalizer vp) else gone.1

/-- Whether there was a resource, or none, as the event needs it. -/
def step (w : World) (e : Event) : World × Bool :=
  match e, w.resources e.key with
  | .create key spec finalizers, none =>
    (w.setResource key (some ⟨some key.1, spec, finalizers, false⟩), true)
  | .edit key spec finalizers, some vp =>
    (w.setResource key { vp with spec := spec, finalizers := finalizers : VaultPolicy }.settle,
      true)
  | .delete key, some vp =>
    (w.setResource key { vp with deletionTimestamp := true : VaultPolicy }.settle, true)
  | .reconcile r, some vp => (w.reconcile ctx tenantOf r vp, true)
  | _, _ => (w, false)

end World

end WslVault.K8sOperator
