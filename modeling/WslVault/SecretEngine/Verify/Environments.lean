import WslVault.SecretEngine.Verify.Mounts

/-!
# The environments of a tenant

The REST mount checks the environment of every write against the tenant's list and stores
the one it checked. The other two do not look.
-/

namespace WslVault.SecretEngine

open Base Core Storage

variable {tid : Uuid} {allowed : List SecretEnvironment} {r : PutRequest} (env : SecretEnvironment)

def EnvironmentsIn (tid : Uuid) (allowed : List SecretEnvironment) (db : PgSecretBackend) : Prop :=
  ∀ s ∈ db.secrets, s.tenantId = tid → s.environment ∈ allowed

def environmentOf (metadata : Metadata) : SecretEnvironment :=
  ((metadata.lookup "environment").bind SecretEnvironment.fromStr).getD .int

theorem environmentOf_insert (metadata : Metadata) (env : SecretEnvironment) (tags : String) :
    environmentOf ((metadata.insert "environment" env.asStr).insert "tags" tags) = env := by
  rw [environmentOf, AList.lookup_insert_ne (by decide), AList.lookup_insert,
    Option.bind_some, SecretEnvironment.fromStr_asStr]
  rfl

theorem EnvironmentsIn.put {db : PgSecretBackend} (h : EnvironmentsIn tid allowed db)
    (freshId : Uuid)
    (hr : Uuid.parseStr r.tenantId = some tid → environmentOf r.customMetadata ∈ allowed) :
    EnvironmentsIn tid allowed (db.put freshId r).1 := by
  intro s hs htenant
  cases ht : Uuid.parseStr r.tenantId with
  | none =>
    obtain ⟨e, he⟩ := PgSecretBackend.put_of_not_parse db ht freshId
    rw [he] at hs
    exact h s hs htenant
  | some t =>
    have hget := Table.get?_eq_some.mpr ⟨hs, rfl⟩
    by_cases hkey : s.pathKey = (t, r.path)
    · cases hput : (db.put freshId r).2 with
      | error e =>
        rw [PgSecretBackend.put_of_error hput] at hs
        exact h s hs htenant
      | ok out =>
        obtain ⟨s', hs', hlabels, -⟩ := PgSecretBackend.get?_put ht (Prod.ext rfl hput)
        rw [hkey] at hget
        obtain rfl : s = s' := Option.some.inj (hget.symm.trans hs')
        have hid : t = tid := (Prod.mk.inj hkey).1.symm.trans htenant
        rw [(Prod.mk.inj hlabels).1]
        exact hr (hid ▸ ht)
    · have hsame := PgSecretBackend.labels_put db ht freshId hkey
      rw [hget, Option.map_some] at hsame
      obtain ⟨s₀, hs₀, hlabels⟩ := Option.map_eq_some_iff.mp hsame.symm
      obtain ⟨hmem, hkey₀⟩ := Table.get?_eq_some.mp hs₀
      rw [← (Prod.mk.inj hlabels).1]
      exact h s₀ hmem ((Prod.mk.inj hkey₀).1.trans htenant)

/-! ## The mounts -/

/-- The server finds the tenant in its table, with these environments, whenever
the query succeeds. -/
def AppState.Restricts (state : AppState) (tid : Uuid) (allowed : List SecretEnvironment) : Prop :=
  ∃ forDefault tenants fault row,
    state.tenantPool = some ⟨forDefault, TenantPool.lookup tenants fault⟩ ∧
    tenants.get? tid = some row ∧ row.allowedEnvironments = allowed

namespace Http

variable {state : AppState} {tenantId : String}

section

variable (hstate : state.Restricts tid allowed) (ht : Uuid.parseStr tenantId = some tid)

include hstate ht

theorem mem_of_validateSecretEnvironment {env : SecretEnvironment}
    (h : validateSecretEnvironment state tenantId env = .ok ()) : env ∈ allowed := by
  obtain ⟨forDefault, tenants, fault, row, hpool, hrow, rfl⟩ := hstate
  simp only [validateSecretEnvironment, hpool, ht] at h
  cases fault with
  | some reason => cases h
  | none =>
    simp only [TenantPool.lookup, getTenant, hrow] at h
    split at h
    · next hallows => exact List.contains_iff_mem.mp hallows
    · cases h

theorem environmentOf_putMetadata {body : PutSecretBody} {metadata : Metadata}
    (h : putMetadata state tenantId body = .ok metadata) : environmentOf metadata ∈ allowed := by
  simp only [putMetadata, bind_eq_ok, pure_eq_ok] at h
  obtain ⟨env, -, _, hvalid, rfl⟩ := h
  rw [environmentOf_insert]
  exact mem_of_validateSecretEnvironment hstate ht hvalid

end

end Http

namespace Write

/-- On the mounts that do not check: the environment the write is stored with is
one of the tenant's. -/
def KeepsTo (tid : Uuid) (allowed : List SecretEnvironment) (w : Write) : Prop :=
  match w.request with
  | .http .. => True
  | .kv2 caller _ _ =>
    ∀ identity, caller.identity = .ok identity → Uuid.parseStr identity.tenantId = some tid →
      .int ∈ allowed
  | .grpc _ req => Uuid.parseStr req.tenantId = some tid → environmentOf req.metadata ∈ allowed

variable {json : Kv2.SerdeJson} {w : Write}

theorem environmentOf_prepared (hstate : w.state.Restricts tid allowed)
    (hkeeps : w.KeepsTo tid allowed) (hprepared : w.prepared json = some r)
    (ht : Uuid.parseStr r.tenantId = some tid) : environmentOf r.customMetadata ∈ allowed := by
  unfold KeepsTo at hkeeps
  unfold prepared at hprepared
  cases hrequest : w.request with
  | http caller path body =>
    simp only [hrequest] at hprepared
    obtain ⟨-, hmetadata⟩ := Http.putRequest_eq_ok (toOption_eq_some.mp hprepared)
    exact Http.environmentOf_putMetadata hstate ht hmetadata
  | kv2 caller path body =>
    simp only [hrequest] at hprepared hkeeps
    obtain ⟨-, ⟨identity, hidentity, htenant⟩, hmetadata⟩ :=
      Kv2.writeRequest_eq_ok (toOption_eq_some.mp hprepared)
    rw [hmetadata]
    exact hkeeps identity hidentity (htenant ▸ ht)
  | grpc callMetadata req =>
    simp only [hrequest] at hprepared hkeeps
    obtain ⟨-, htenant, hmetadata⟩ := Grpc.putRequest_eq_ok (toOption_eq_some.mp hprepared)
    rw [hmetadata]
    exact hkeeps (htenant ▸ ht)

theorem environmentsIn_serve (hstate : w.state.Restricts tid allowed)
    (hkeeps : w.KeepsTo tid allowed) {db : PgSecretBackend} (h : EnvironmentsIn tid allowed db) :
    EnvironmentsIn tid allowed (w.serve json db).1 := by
  rw [serve_eq]
  cases hprepared : w.prepared json with
  | none => exact h
  | some r => exact h.put w.freshId fun ht => environmentOf_prepared hstate hkeeps hprepared ht

end Write

/-- While a tenant's environments stay the same, every run of writes on the
three mounts keeps its secrets in them, if those of the KV v2 and gRPC mounts
keep to them. -/
theorem environments_allowed (json : Kv2.SerdeJson) (tid : Uuid) (allowed : List SecretEnvironment)
    (db : PgSecretBackend) (hdb : EnvironmentsIn tid allowed db) (writes : List Write)
    (hfixed : ∀ w ∈ writes, w.state.Restricts tid allowed)
    (hkeeps : ∀ w ∈ writes, w.KeepsTo tid allowed) :
    EnvironmentsIn tid allowed (run (Write.serve json) db writes) := by
  have hgood : Along (Write.serve json)
      (fun _ w => w.state.Restricts tid allowed ∧ w.KeepsTo tid allowed) db writes :=
    along_of_forall (Write.serve json) fun w hw => ⟨hfixed w hw, hkeeps w hw⟩
  exact hgood.invariant (EnvironmentsIn tid allowed)
    (fun _ _ h hw => Write.environmentsIn_serve hw.1 hw.2 h) hdb

def tenantOf : TenantRow := .live .nil "t" "t" .production env

def kv2Write : Write where
  state :=
    { policy := fun _ => some ⟨true, ""⟩
      crypto := ⟨fun _ => .ok ⟨"c", "k"⟩, fun _ => .error ""⟩
      tenantPool := some ⟨TenantPool.lookup ⟨[tenantOf env], List.nodup_singleton _⟩ none,
        TenantPool.lookup ⟨[tenantOf env], List.nodup_singleton _⟩ none⟩
      toLowercase := id }
  now := 0
  freshId := .nil
  request := .kv2 ⟨.ok ⟨Uuid.nil.toString, "op", ["all"], none, false⟩, []⟩ "a"
    ⟨[("k", .string "v")], none⟩

def constantJson : Kv2.SerdeJson := ⟨fun _ => none, fun _ => .ok [1]⟩

theorem restricts_kv2Write (env : SecretEnvironment) : (kv2Write env).state.Restricts .nil [env] :=
  ⟨_, _, none, tenantOf env, rfl, rfl, rfl⟩

theorem environments_allowed_int : EnvironmentsIn .nil [.int]
      (run (Write.serve constantJson) (Db.empty [.nil] : PgSecretBackend) [kv2Write .int]) :=
  environments_allowed constantJson .nil [.int] _ (fun _ hs => absurd hs (Table.not_mem_empty _))
    [kv2Write .int] (List.forall_mem_singleton.mpr (restricts_kv2Write .int))
    (List.forall_mem_singleton.mpr fun _ _ _ => List.mem_singleton_self _)

/-- In a tenant for `PROD` only, the KV v2 mount stores a secret as `INT`. -/
theorem kv2_write_ignores_environments : (kv2Write .prod).state.Restricts .nil [.prod] ∧
    ((run (Write.serve constantJson) (Db.empty [.nil] : PgSecretBackend)
      [kv2Write .prod]).secrets.rows.map fun s => (s.tenantId, s.environment)) =
        [(.nil, .int)] := by
  exact ⟨restricts_kv2Write .prod, rfl⟩

end WslVault.SecretEngine
