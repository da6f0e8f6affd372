import WslVault.IdentityService.Ldap

/-!
# Which LDAP logins succeed

The groups of the user are searched over the first connection, which a login that searches
for the user has unbound by then.
-/

namespace WslVault.IdentityService

open Base Core LdapConfig

/-- A directory that has the entry of the user, accepts the password for it, and
answers all that is asked over an open connection. -/
structure Directory.Serves (d : Directory) (config : LdapConfig) (username password dn : String)
    (groups : List String) : Prop where
  connects : d.connect = .ok ()
  unbinds : d.unbind = .ok ()
  accepts : d.simpleBind dn password = .ok 0
  located :
    match config.bindMode with
    | .directBind dnTemplate => fill dnTemplate username = dn
    | .searchThenBind account accountPassword searchBase filterTemplate =>
      d.simpleBind account accountPassword = .ok 0 ∧
        ∃ attrs rest, d.search (some account) searchBase .subtree (fill filterTemplate username)
          ["dn", config.groupAttr] = .ok (⟨dn, attrs⟩ :: rest)
  listed : ∃ entry rest,
    d.search (some dn) dn .base "(objectClass=*)" [config.groupAttr] = .ok (entry :: rest) ∧
      (entry.attrs.lookup config.groupAttr).getD [] = groups

variable {d : Directory} {config : LdapConfig} {username password dn : String}
  {groups : List String}

section

variable (h : d.Serves config username password dn groups)

include h

theorem Directory.Serves.bindUser :
    config.bindUser d ⟨true, none⟩ username password =
      .ok (match config.bindMode with
        | .directBind _ => ⟨true, some dn⟩
        | .searchThenBind account _ _ _ => ⟨false, some account⟩, dn) := by
  have hlocated := h.located
  unfold LdapConfig.bindUser
  cases hmode : config.bindMode with
  | directBind dnTemplate =>
    rw [hmode] at hlocated
    simp only at hlocated
    simp [hlocated, Ldap.simpleBind, h.accepts, mapError_ok, Except.map, ok_bind, refuseIf,
      pure, Except.pure]
  | searchThenBind account accountPassword searchBase filterTemplate =>
    rw [hmode] at hlocated
    obtain ⟨haccount, attrs, rest, hfound⟩ := hlocated
    simp [Ldap.simpleBind, Ldap.search, Ldap.unbind, Ldap.withSettings, haccount, hfound,
      h.accepts, h.connects, h.unbinds, mapError_ok, Except.map, ok_bind, refuseIf, okOr, pure,
      Except.pure]

theorem Directory.Serves.authenticate
    (hname : (asBytes username).length ≤ 256) (hsafe : sanitiseUsername username = .ok username)
    (hlength : (asBytes password).length ≤ 1024) (hpassword : password ≠ "") :
    config.authenticate d username password =
      match config.bindMode with
      | .directBind _ => (config.mapGroups groups).map fun given => ⟨dn, given.1, given.2⟩
      | .searchThenBind .. => .error (.searchError Ldap.closed) := by
  obtain ⟨entry, rest, hfound, hgroups⟩ := h.listed
  have hbad : ¬ (1024 < (asBytes password).length ∨ password = "") := by
    rintro (hlong | hempty)
    · omega
    · exact hpassword hempty
  rw [LdapConfig.authenticate, refuseIf_of_not (by omega), ok_bind, refuseIf_of_not hbad, ok_bind,
    hsafe, ok_bind, Ldap.withSettings, h.connects, mapError_ok, Except.map, ok_bind, h.bindUser]
  cases config.bindMode with
  | directBind dnTemplate =>
    simp only [ok_bind, Ldap.search, Ldap.unbind, hfound, h.unbinds, mapError_ok, Except.map,
      List.head?_cons, Option.bind_some, hgroups, if_true]
    cases config.mapGroups groups <;> rfl
  | searchThenBind => rfl

end

/-- A login that all is well with succeeds, as its groups say, exactly in the mode
that binds as the user at once and with a password of at most 1024 bytes. -/
theorem ldap_login_complete_iff {tenantId : String} {policies : List String}
    (h : d.Serves config username password dn groups)
    (hname : (asBytes username).length ≤ 256) (hsafe : sanitiseUsername username = .ok username)
    (hpassword : password ≠ "") (hgroups : config.mapGroups groups = .ok (tenantId, policies)) :
    config.authenticate d username password = .ok ⟨dn, tenantId, policies⟩ ↔
      (∃ dnTemplate, config.bindMode = .directBind dnTemplate) ∧
        (asBytes password).length ≤ 1024 := by
  by_cases hlength : (asBytes password).length ≤ 1024
  · rw [h.authenticate hname hsafe hlength hpassword, hgroups]
    cases config.bindMode with
    | directBind dnTemplate => simp [Except.map, hlength]
    | searchThenBind => simp
  · rw [LdapConfig.authenticate, refuseIf_of_not (by omega), ok_bind,
      refuseIf, if_pos (.inl (Nat.lt_of_not_le hlength)), error_bind]
    simp [hlength]

def oneUser : Directory where
  connect := .ok ()
  simpleBind := fun _ _ => .ok 0
  search := fun _ _ _ _ _ => .ok [⟨"uid=ada", [("memberOf", ["dev"])]⟩]
  unbind := .ok ()

def adaConfig (bindMode : LdapBindMode) : LdapConfig where
  bindMode := bindMode
  groupAttribute := none
  groupPolicyMap := [("dev", ["reader"])]
  groupTenantMap := [("dev", "tenant")]
  defaultTenantId := none
  defaultPolicies := []

theorem ldap_login_complete_ada :
    (adaConfig (.directBind "uid=\x7busername\x7d")).authenticate oneUser "ada" "secret" =
        .ok ⟨"uid=ada", "tenant", ["reader"]⟩ ↔
      (∃ dnTemplate, (adaConfig (.directBind "uid=\x7busername\x7d")).bindMode =
        .directBind dnTemplate) ∧ (asBytes "secret").length ≤ 1024 := by
  have hfill : fill "uid=\x7busername\x7d" "ada" = "uid=ada" := by decide
  have hserves : oneUser.Serves (adaConfig (.directBind "uid=\x7busername\x7d")) "ada" "secret"
      "uid=ada" ["dev"] :=
    ⟨rfl, rfl, rfl, hfill, _, _, rfl, rfl⟩
  exact ldap_login_complete_iff hserves (by decide) rfl (by decide) rfl

/-- Found and with the right password, the user is turned away in the end. -/
theorem ldap_search_login_fails :
    oneUser.Serves (adaConfig (.searchThenBind "cn=vault" "pw" "dc=example" "(uid=*)")) "ada"
        "secret" "uid=ada" ["dev"] ∧
      (adaConfig (.searchThenBind "cn=vault" "pw" "dc=example" "(uid=*)")).authenticate oneUser
        "ada" "secret" = .error (.searchError "connection closed") := by
  have hserves : oneUser.Serves
      (adaConfig (.searchThenBind "cn=vault" "pw" "dc=example" "(uid=*)")) "ada" "secret"
      "uid=ada" ["dev"] :=
    ⟨rfl, rfl, rfl, ⟨rfl, _, _, rfl⟩, _, _, rfl, rfl⟩
  exact ⟨hserves, hserves.authenticate (by decide) rfl (by decide) (by decide)⟩

end WslVault.IdentityService
