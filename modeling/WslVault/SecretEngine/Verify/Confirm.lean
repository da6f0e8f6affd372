import WslVault.SecretEngine.Http
import WslVault.SecretEngine.Verify.PgStore

/-!
# Confirming a rotation

The handler asks for the right to write the path of the URL and confirms the rotation of the
body. Below it only the tenant of the two is compared.
-/

namespace WslVault.Storage.Db

open Core Base

/-- What belongs to a secret: its versions, its pointer and its rotations. -/
def stateOf (db : Db) (sid : Uuid) : List VersionRow × List Int × List RotationRow :=
  (db.rowsOf sid, (db.secrets.select (·.id == sid)).map (·.currentVersion),
    db.rotations.select (·.secretId == sid))

variable {db db' : Db} {now : Timestamp} {rid : Uuid} {by_ : String}
  {out : Int × Int × Option Timestamp} (hok : db.confirmRotation now rid by_ = .ok (db', out))
  {r : RotationRow} (hr : r ∈ db.rotations) (hid : r.id = rid)
include hok hr hid

theorem stateOf_confirmRotation {sid : Uuid} (hne : sid ≠ r.secretId) :
    db'.stateOf sid = db.stateOf sid := by
  obtain ⟨r', hr', hid', -, -, rfl, -⟩ := confirmRotation_eq_ok.mp hok
  obtain rfl : r' = r := Table.eq_of_key hr' hr (hid'.trans hid.symm)
  have hversions : (db.activate now r').rowsOf sid = db.rowsOf sid := by
    rw [activate, rowsOf_updateVersions _ _ (fun v => v.version == r'.oldVersion), if_neg hne,
      rowsOf_updateVersions _ _ (fun v => v.version == r'.newVersion), if_neg hne]
  have hsecrets : (db.secrets.update (fun s => s.id = r'.secretId)
      (fun s => (s.rotate now r'.newVersion).touch now)
      (SecretRow.pathKey_rotate now r'.newVersion)).select (·.id == sid) =
        db.secrets.select (·.id == sid) := by
    refine Table.select_update_of_disjoint _ (fun _ => rfl) fun s _ hs => ?_
    rw [beq_iff_eq.mp hs]
    exact decide_eq_false hne
  have hrotations : (db.rotations.update (fun x => x.id == rid)
      (RotationRow.confirm now by_ (db.graceEnd now r'))
      (RotationRow.id_confirm now by_ (db.graceEnd now r'))).select (·.secretId == sid) =
        db.rotations.select (·.secretId == sid) := by
    refine Table.select_update_of_disjoint _ (fun _ => rfl) fun x hx hsid => ?_
    refine beq_eq_false_iff_ne.mpr fun hxid => hne ?_
    rw [← beq_iff_eq.mp hsid, Table.eq_of_key hx hr (hxid.trans hid.symm)]
  exact congrArg₂ Prod.mk hversions (congrArg₂ Prod.mk (congrArg _ hsecrets) hrotations)

theorem stateOf_confirmRotation_ne : db'.stateOf r.secretId ≠ db.stateOf r.secretId := by
  obtain ⟨r', hr', hid', hwaiting, -, rfl, -⟩ := confirmRotation_eq_ok.mp hok
  obtain rfl : r' = r := Table.eq_of_key hr' hr (hid'.trans hid.symm)
  intro heq
  -- the confirmed record would have to be a row of the table before
  have hmem : r'.confirm now by_ (db.graceEnd now r') ∈
      db.rotations.select (·.secretId == r'.secretId) := by
    rw [← (Prod.mk.inj (Prod.mk.inj heq).2).2, Table.mem_select]
    exact ⟨(Table.mem_update (RotationRow.id_confirm now by_ (db.graceEnd now r'))).mpr
      ⟨r', hr, by simp [hid]⟩, beq_self_eq_true _⟩
  have hsame := Table.eq_of_key (Table.mem_select.mp hmem).1 hr rfl
  rw [← hsame] at hwaiting
  cases hwaiting

end WslVault.Storage.Db

namespace WslVault.SecretEngine

open Core Base Storage

theorem PgSecretBackend.confirmRotation_eq_ok {db : PgSecretBackend} {now : Timestamp}
    {tenantId rotationId by_ : String} {out : UInt32 × UInt32 × Timestamp} {tid : Uuid}
    (ht : Uuid.parseStr tenantId = some tid)
    (hok : (db.confirmRotation now tenantId rotationId by_).2 = .ok out) :
    ∃ rid r old, Uuid.parseStr rotationId = some rid ∧ db.rotations.get? rid = some r ∧
      r.tenantId = tid ∧ Db.confirmRotation db now rid by_ =
        .ok ((db.confirmRotation now tenantId rotationId by_).1, old) := by
  rw [confirmRotation, parseTenantId_of_some ht, ok_bind, SecretStore.confirmRotation] at hok ⊢
  cases hrid : Uuid.parseStr rotationId with
  | none =>
    rw [hrid] at hok
    cases hok
  | some rid =>
    simp only [hrid] at hok ⊢
    split at hok
    · next howner =>
      rw [if_pos howner]
      obtain ⟨r, hr, hrt⟩ := Option.map_eq_some_iff.mp howner
      cases hconfirm : Db.confirmRotation db now rid by_ with
      | error e =>
        rw [hconfirm] at hok
        cases hok
      | ok res =>
        obtain ⟨db', old, new, grace⟩ := res
        rw [hconfirm] at hok
        cases grace with
        | none => cases hok
        | some grace => exact ⟨rid, r, (old, new, some grace), rfl, hr, hrt, hconfirm⟩
    · cases hok

/-- A confirmation that was authorized on a path and succeeds changes no other
secret than the one at the path exactly when the rotation is of that secret. -/
theorem Http.confirm_stays_at_path_iff (state : AppState) (caller : Caller)
    (path rotationId : String) (now : Timestamp) (db : PgSecretBackend) (a : Authorized)
    (hauthorized : authorized state caller "write" path = .ok a) (tid : Uuid)
    (htenant : Uuid.parseStr a.tenantId = some tid) (out : ConfirmRotationResponse)
    (hok : (confirmRotation state caller path rotationId now db).2 = .ok out) :
    (∀ sid, db.idAt tid a.path ≠ some sid →
      (confirmRotation state caller path rotationId now db).1.stateOf sid = db.stateOf sid) ↔
    ∃ rid r, Uuid.parseStr rotationId = some rid ∧ db.rotations.get? rid = some r ∧
      db.idAt tid a.path = some r.secretId := by
  have hstate : (confirmRotation state caller path rotationId now db).1 =
      (db.confirmRotation now a.tenantId rotationId a.principalId).1 := by
    rw [confirmRotation, hauthorized]
    dsimp only
    split
    · next h => exact congrArg Prod.fst h.symm
    · next h => exact congrArg Prod.fst h.symm
  have hstored : ∃ out', (db.confirmRotation now a.tenantId rotationId a.principalId).2 =
      .ok out' := by
    rw [confirmRotation, hauthorized] at hok
    dsimp only at hok
    split at hok
    · cases hok
    · next h => exact ⟨_, congrArg Prod.snd h⟩
  obtain ⟨out', hstored⟩ := hstored
  obtain ⟨rid, r, old, hrid, hget, -, hconfirm⟩ :=
    PgSecretBackend.confirmRotation_eq_ok htenant hstored
  obtain ⟨hr, hid⟩ := Table.get?_eq_some.mp hget
  rw [hstate]
  constructor
  · intro hsame
    refine ⟨rid, r, hrid, hget, ?_⟩
    by_contra hne
    exact Db.stateOf_confirmRotation_ne hconfirm hr hid (hsame r.secretId hne)
  · rintro ⟨rid', r', hrid', hget', hat⟩ sid hne
    obtain rfl : rid = rid' := Option.some.inj (hrid.symm.trans hrid')
    obtain rfl : r = r' := Option.some.inj (hget.symm.trans hget')
    exact Db.stateOf_confirmRotation hconfirm hr hid fun heq => hne (heq ▸ hat)

namespace Http

def operator : Caller where
  identity := .ok ⟨Uuid.nil.toString, "op", ["all"], none, false⟩
  headers := []

def permissive : AppState where
  policy := fun _ => some ⟨true, ""⟩
  crypto := ⟨fun _ => .error "", fun _ => .error ""⟩
  tenantPool := none
  toLowercase := id

def rotating : PgSecretBackend :=
  run Db.step (.empty [.nil]) [
    .upsert 0 .nil
      { tenantId := .nil, path := "a", engine := .kvV2, ciphertext := "c1", dekId := "k" },
    .upsert 0 .max
      { tenantId := .nil, path := "b", engine := .kvV2, ciphertext := "c2", dekId := "k" },
    .initiate 1 .max
      { tenantId := .nil, path := "b", ciphertext := "c3", dekId := "k", initiatedBy := "op" }]

theorem confirm_stays_at_own_path :
    (confirmRotation permissive operator "b" Uuid.max.toString 2 rotating).1.stateOf .nil =
      rotating.stateOf .nil :=
  (confirm_stays_at_path_iff permissive operator "b" Uuid.max.toString 2 rotating
    ⟨Uuid.nil.toString, "op", "b"⟩ rfl .nil (Uuid.parseStr_toString .nil) ⟨1, 2, _⟩ rfl).mpr
    ⟨.max, _, Uuid.parseStr_toString .max, rfl, rfl⟩ .nil (by decide)

/-- The right to write `a` confirms the rotation of `b`. -/
theorem confirm_changes_other_path :
    (confirmRotation permissive operator "a" Uuid.max.toString 2 rotating).2.isOk = true ∧
    (rotating.secrets.rows.map fun s => (s.path, s.currentVersion)) = [("a", 1), ("b", 1)] ∧
    ((confirmRotation permissive operator "a" Uuid.max.toString 2 rotating).1.secrets.rows.map
      fun s => (s.path, s.currentVersion)) = [("a", 1), ("b", 2)] := by
  exact ⟨rfl, rfl, rfl⟩

end Http

end WslVault.SecretEngine
