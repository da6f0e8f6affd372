import WslVault.Core.Crypto
import WslVault.Core.Text

/-!
# LDAP login

`LdapManager` of `services/identity-service/src/auth_methods/ldap.rs`. The
directory answers what is asked over an open connection. A handle is passed from
call to call, and an unbound one answers nothing any more.
-/

namespace WslVault.IdentityService

open Base Core

inductive LdapError where
  | invalidUsername
  | invalidCredentials
  | connectionError (reason : String)
  | searchError (reason : String)
  | noTenantResolved
  deriving DecidableEq, Repr

inductive LdapBindMode where
  | directBind (dnTemplate : String)
  | searchThenBind (serviceAccountDn serviceAccountPassword searchBase
      searchFilterTemplate : String)
  deriving DecidableEq, Repr

structure LdapConfig where
  bindMode : LdapBindMode
  groupAttribute : Option String
  groupPolicyMap : List (String × List String)
  groupTenantMap : List (String × String)
  defaultTenantId : Option String
  defaultPolicies : List String

structure LdapValidationResult where
  (dn tenantId : String)
  policies : List String
  deriving DecidableEq, Repr

inductive Scope where
  | base
  | subtree
  deriving DecidableEq, Repr

structure SearchEntry where
  dn : String
  attrs : List (String × List String)
  deriving DecidableEq, Repr

/-- A bind is answered with its result code, a search as the one who is bound may
search. -/
structure Directory where
  connect : Except String Unit
  simpleBind : String → String → Except String Nat
  search : Option String → String → Scope → String → List String →
    Except String (List SearchEntry)
  unbind : Except String Unit

/-- A connection: whether it is open, and who is bound. -/
structure Ldap where
  isOpen : Bool
  boundAs : Option String

namespace Ldap

def closed : String := "connection closed"

variable (d : Directory) (h : Ldap)

/-- `LdapConnAsync::with_settings`. -/
def withSettings : Except LdapError Ldap :=
  (d.connect.mapError .connectionError).map fun _ => ⟨true, none⟩

def simpleBind (dn password : String) : Except LdapError (Ldap × Nat) :=
  if h.isOpen then
    ((d.simpleBind dn password).mapError .connectionError).map fun rc =>
      (if rc = 0 then { h with boundAs := some dn } else h, rc)
  else .error (.connectionError closed)

def search (base : String) (scope : Scope) (filter : String)
    (attrs : List String) : Except LdapError (List SearchEntry) :=
  if h.isOpen then (d.search h.boundAs base scope filter attrs).mapError .searchError
  else .error (.searchError closed)

def unbind : Except LdapError Ldap :=
  if h.isOpen then (d.unbind.mapError .connectionError).map fun _ => { h with isOpen := false }
  else .error (.connectionError closed)

end Ldap

def ldapDnSpecialChars : List Char := [',', '+', '"', '\\', '<', '>', ';', '#', '=']

def sanitiseUsername (username : String) : Except LdapError String := do
  refuseIf (username = "") .invalidUsername
  refuseIf ((asBytes username).any fun b => b < 0x20 || b == 0x7F) .invalidUsername
  refuseIf (username.toList.any (ldapDnSpecialChars.contains ·)) .invalidUsername
  return username

namespace LdapConfig

variable (config : LdapConfig) (d : Directory)

def groupAttr : String := config.groupAttribute.getD "memberOf"

/-- The first group with a tenant decides on it; every group adds its policies. -/
def mapGroups (groups : List String) : Except LdapError (String × List String) := do
  let tenantId ← okOr ((groups.findSome? (config.groupTenantMap.lookup ·)).or
    config.defaultTenantId) .noTenantResolved
  let policies := groups.flatMap fun g => (config.groupPolicyMap.lookup g).getD []
  return (tenantId, policies ++ config.defaultPolicies)

def fill (template username : String) : String :=
  Text.replace "\x7busername\x7d" username template

/-- The bind of the user, and the handle as it leaves it: the search for the user
unbinds it, and the password is tried over a second connection. -/
def bindUser (ldap : Ldap) (username password : String) : Except LdapError (Ldap × String) :=
  match config.bindMode with
  | .directBind dnTemplate => do
    let dn := fill dnTemplate username
    let (ldap, rc) ← ldap.simpleBind d dn password
    refuseIf (rc ≠ 0) .invalidCredentials
    return (ldap, dn)
  | .searchThenBind serviceAccountDn serviceAccountPassword searchBase searchFilterTemplate => do
    let (ldap, rc) ← ldap.simpleBind d serviceAccountDn serviceAccountPassword
    refuseIf (rc ≠ 0)
      (.connectionError ("service account bind failed (rc=" ++ toString rc ++ ")"))
    let found ← ldap.search d searchBase .subtree (fill searchFilterTemplate username)
      ["dn", config.groupAttr]
    let entry ← okOr found.head? .invalidCredentials
    let ldap ← ldap.unbind d
    let userLdap ← Ldap.withSettings d
    let (userLdap, rc) ← userLdap.simpleBind d entry.dn password
    refuseIf (rc ≠ 0) .invalidCredentials
    let _ ← userLdap.unbind d
    return (ldap, entry.dn)

/-- The groups of the user are read over the first connection. -/
def authenticate (username password : String) : Except LdapError LdapValidationResult := do
  refuseIf (256 < (asBytes username).length) .invalidUsername
  refuseIf (1024 < (asBytes password).length ∨ password = "") .invalidCredentials
  let safeUsername ← sanitiseUsername username
  let ldap ← Ldap.withSettings d
  let (ldap, userDn) ← config.bindUser d ldap safeUsername password
  let found ← ldap.search d userDn .base "(objectClass=*)" [config.groupAttr]
  let groups := (found.head?.bind (·.attrs.lookup config.groupAttr)).getD []
  let _ ← ldap.unbind d
  let (tenantId, policies) ← config.mapGroups groups
  return ⟨userDn, tenantId, policies⟩

end LdapConfig

end WslVault.IdentityService
