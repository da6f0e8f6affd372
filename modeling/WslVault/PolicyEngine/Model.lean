import Mathlib.Data.Finset.Basic
import Mathlib.Data.List.AList
import WslVault.Core.Text

/-!
# Policies

The policy domain types (`services/policy-engine/src/model.rs`) and the
compiled snapshot that requests are evaluated against (`CompiledPolicies` of
`evaluator.rs`), keyed by tenant and policy name.
-/

namespace WslVault.PolicyEngine

open Core

inductive Capability where
  | read
  | write
  | delete
  | list
  | create
  | update
  | deny
  deriving DecidableEq, Repr

/-- The verb after the last colon names the capability, so that `secret:read`
and `read` are the same action. -/
def Capability.fromAction (action : String) : Option Capability :=
  let verb := (Text.split ':' action).getLast?.getD action
  if verb = "read" then some .read
  else if verb = "write" then some .write
  else if verb = "delete" then some .delete
  else if verb = "list" then some .list
  else if verb = "create" then some .create
  else if verb = "update" then some .update
  else if verb = "deny" then some .deny
  else none

/-- Path patterns with the capabilities granted, or denied, on them. -/
structure PolicyRule where
  paths : List String
  capabilities : Finset Capability
  deriving DecidableEq

structure PolicyDocument where
  name : String
  rules : List PolicyRule
  deriving DecidableEq

inductive PolicyDecision where
  | allow
  | deny (reason : String)
  deriving DecidableEq, Repr

structure PolicyKey where
  (tenantId name : String)
  deriving DecidableEq, Repr

abbrev CompiledPolicies := AList (fun _ : PolicyKey => List PolicyRule)

namespace CompiledPolicies

variable (compiled : CompiledPolicies)

def upsert (tenantId name : String) (rules : List PolicyRule) : CompiledPolicies :=
  compiled.insert ⟨tenantId, name⟩ rules

def remove (tenantId name : String) : CompiledPolicies :=
  compiled.erase ⟨tenantId, name⟩

end CompiledPolicies

end WslVault.PolicyEngine
