import WslVault.Base.Except
import WslVault.Storage.SecretLifecycle

/-!
# What the stored functions do

For each stored function and each statement it is made of, the inversion of
its success: what it found in the tables, and the tables it leaves.
-/

namespace WslVault.Storage

open Core Base

theorem int4_eq_ok {n m : Int} : int4 n = .ok m ↔ Int4 n ∧ m = n := by
  unfold int4
  split
  · next h => simp [h, eq_comm]
  · next h => simp [h]

namespace Db

variable {db db' : Db} {s : SecretRow} {now : Timestamp} {v : VersionRow}

theorem insertVersion_eq_ok : db.insertVersion v = .ok db' ↔
      ∃ versions, db.versions.insert? v = some versions ∧
        db' = { db with versions := versions } := by
  unfold insertVersion
  cases db.versions.insert? v with
  | none => simp
  | some versions => simp [eq_comm]

variable {r : RotationRow}

theorem insertRotation_eq_ok : db.insertRotation r = .ok db' ↔
      ∃ rotations, db.rotations.insert? r = some rotations ∧
        db' = { db with rotations := rotations } := by
  unfold insertRotation
  cases db.rotations.insert? r with
  | none => simp
  | some rotations => simp [eq_comm]

def CasHolds (p : UpsertParams) (s : SecretRow) : Prop :=
  ∀ expected, p.casVersion = some expected → expected = s.currentVersion

variable {p : UpsertParams}

theorem casCheck_eq_ok : casCheck p s = .ok () ↔ CasHolds p s := by
  have hiff : p.casVersion.filter (fun e => decide (e ≠ s.currentVersion)) = none ↔
      CasHolds p s := by
    simp [CasHolds, Option.filter_eq_none_iff]
  rw [← hiff]
  unfold casCheck
  cases p.casVersion.filter (fun e => decide (e ≠ s.currentVersion)) with
  | none => simp
  | some e => simp

def written (db : Db) (now : Timestamp) (p : UpsertParams) (s : SecretRow)
    (versions : Table VersionRow VersionRow.versionKey) : Db :=
  ({ db with versions := versions }.setCurrentVersion now s.id
    (s.currentVersion + 1)).pruneVersions s.id (s.currentVersion + 1 - p.maxVersions)

variable {freshId : Uuid} {out : Uuid × Int}

theorem upsertSecret_eq_ok : db.upsertSecret now freshId p = .ok (db', out) ↔
      ∃ db₁ s versions, db.upsertSecretRow now freshId p = .ok (db₁, s) ∧ CasHolds p s ∧
        Int4 (s.currentVersion + 1) ∧ Int4 (s.currentVersion + 1 - p.maxVersions) ∧
        db₁.versions.insert? (p.newVersion now s.id (s.currentVersion + 1)) = some versions ∧
        db' = db₁.written now p s versions ∧ out = (s.id, s.currentVersion + 1) := by
  unfold upsertSecret
  simp only [bind_eq_ok, pure_eq_ok, int4_eq_ok, insertVersion_eq_ok]
  constructor
  · rintro ⟨⟨db₁, s⟩, hrow, ⟨⟩, hcas, _, ⟨hrange, rfl⟩, _, ⟨versions, hins, rfl⟩, _,
      ⟨hfloor, rfl⟩, hout⟩
    cases hout
    exact ⟨db₁, s, versions, hrow, casCheck_eq_ok.mp hcas, hrange, hfloor, hins, rfl, rfl⟩
  · rintro ⟨db₁, s, versions, hrow, hcas, hrange, hfloor, hins, rfl, rfl⟩
    exact ⟨⟨db₁, s⟩, hrow, (), casCheck_eq_ok.mpr hcas, _, ⟨hrange, rfl⟩, _,
      ⟨versions, hins, rfl⟩, _, ⟨hfloor, rfl⟩, rfl⟩

variable {path by_ : String} {t rid : Uuid}

theorem findSecret_eq_ok :
    db.findSecret t path = .ok s ↔ s ∈ db.secrets ∧ s.pathKey = (t, path) := by
  rw [← Table.get?_eq_some]
  unfold findSecret
  cases db.secrets.get? (t, path) with
  | none => simp
  | some s' => simp

theorem rotationPending_iff {sid : Uuid} : db.rotationPending sid = true ↔
      ∃ r ∈ db.rotations, r.secretId = sid ∧ r.waiting = true := by
  simp [rotationPending, Table.mem_def, RotationRow.waiting]

theorem initiateRotation_eq_ok {p : InitiateParams}
    (h : db.initiateRotation now freshId p = .ok (db', out)) :
      ∃ s versions rotations, s ∈ db.secrets ∧ s.pathKey = (p.tenantId, p.path) ∧
        Int4 (s.currentVersion + 1) ∧
        db.versions.insert? (p.pendingVersion now s.id (s.currentVersion + 1)) = some versions ∧
        db.rotations.insert? (p.rotation now freshId s.id s.currentVersion
          (s.currentVersion + 1)) = some rotations ∧
        db' = { db with versions := versions, rotations := rotations }.markPending now s.id := by
  simp only [initiateRotation, bind_eq_ok, pure_eq_ok, int4_eq_ok, insertVersion_eq_ok,
    insertRotation_eq_ok, findSecret_eq_ok] at h
  obtain ⟨s, ⟨hs, hkey⟩, ⟨⟩, -, _, ⟨hrange, rfl⟩, _, ⟨versions, hv, rfl⟩, _,
    ⟨rotations, hr, rfl⟩, hout⟩ := h
  cases hout
  exact ⟨s, versions, rotations, hs, hkey, hrange, hv, hr, rfl⟩

theorem findConfirmable_eq_ok : db.findConfirmable now rid = .ok r ↔
      r ∈ db.rotations ∧ r.id = rid ∧ r.waiting = true ∧ r.expiresAt > now := by
  have hiff : (db.rotations.get? rid).filter (fun r =>
      r.status == .pendingActivation && decide (r.expiresAt > now)) = some r ↔
      r ∈ db.rotations ∧ r.id = rid ∧ r.waiting = true ∧ r.expiresAt > now := by
    rw [Option.filter_eq_some_iff, Table.get?_eq_some]
    simp [RotationRow.waiting, and_assoc]
  rw [← hiff]
  unfold findConfirmable
  cases (db.rotations.get? rid).filter (fun r =>
      r.status == .pendingActivation && decide (r.expiresAt > now)) with
  | none => simp
  | some r' => simp

theorem confirmRotation_eq_ok {out : Int × Int × Option Timestamp} :
    db.confirmRotation now rid by_ = .ok (db', out) ↔
      ∃ r ∈ db.rotations, r.id = rid ∧ r.waiting = true ∧ r.expiresAt > now ∧
        db' = { (db.activate now r).updateSecret now r.secretId (SecretRow.rotate now r.newVersion)
            (SecretRow.pathKey_rotate now r.newVersion) with
          rotations := db.rotations.update (fun x => x.id == rid)
            (RotationRow.confirm now by_ (db.graceEnd now r))
            (RotationRow.id_confirm now by_ (db.graceEnd now r)) } ∧
        out = (r.oldVersion, r.newVersion, db.graceEnd now r) := by
  unfold confirmRotation
  simp only [bind_eq_ok, pure_eq_ok, findConfirmable_eq_ok]
  constructor
  · rintro ⟨r, ⟨hr, hid, hw, hexp⟩, hout⟩
    cases hout
    exact ⟨r, hr, hid, hw, hexp, rfl, rfl⟩
  · rintro ⟨r, hr, hid, hw, hexp, rfl, rfl⟩
    exact ⟨r, ⟨hr, hid, hw, hexp⟩, rfl⟩

theorem findTarget_eq_ok {n : Int} :
    db.findTarget s n = .ok v ↔ v ∈ db.versions ∧ v.versionKey = (s.id, n) ∧
      v.destroyed = false := by
  have hiff : (db.versions.get? (s.id, n)).filter (!·.destroyed) = some v ↔
      v ∈ db.versions ∧ v.versionKey = (s.id, n) ∧ v.destroyed = false := by
    rw [Option.filter_eq_some_iff, Table.get?_eq_some]
    simp [and_assoc]
  rw [← hiff]
  unfold findTarget
  cases (db.versions.get? (s.id, n)).filter (!·.destroyed) with
  | none => simp
  | some v' => simp

theorem rollbackSecret_eq_ok {target : Int} {n : Int} :
    db.rollbackSecret now t path target by_ = .ok (db', n) ↔
      ∃ s v versions, s ∈ db.secrets ∧ s.pathKey = (t, path) ∧
        v ∈ db.versions ∧ v.versionKey = (s.id, target) ∧ v.destroyed = false ∧
        Int4 (s.currentVersion + 1) ∧
        db.versions.insert? (rolledBack v now (s.currentVersion + 1) by_) = some versions ∧
        db' = ({ db with versions := versions }.deprecateCurrent now s).setCurrentVersion now
          s.id (s.currentVersion + 1) ∧
        n = s.currentVersion + 1 := by
  unfold rollbackSecret
  simp only [bind_eq_ok, pure_eq_ok, int4_eq_ok, insertVersion_eq_ok, findSecret_eq_ok,
    findTarget_eq_ok]
  constructor
  · rintro ⟨s, ⟨hs, hkey⟩, v, ⟨hv, hvkey, hd⟩, _, ⟨hrange, rfl⟩, _, ⟨versions, hins, rfl⟩, hout⟩
    cases hout
    exact ⟨s, v, versions, hs, hkey, hv, hvkey, hd, hrange, hins, rfl, rfl⟩
  · rintro ⟨s, v, versions, hs, hkey, hv, hvkey, hd, hrange, hins, rfl, rfl⟩
    exact ⟨s, ⟨hs, hkey⟩, v, ⟨hv, hvkey, hd⟩, _, ⟨hrange, rfl⟩, _, ⟨versions, hins, rfl⟩, rfl⟩

theorem upsertSecretRow_eq_ok {db₁ : Db} :
    db.upsertSecretRow now freshId p = .ok (db₁, s) ↔
      (∃ s₀ ∈ db.secrets, s₀.pathKey = (p.tenantId, p.path) ∧ s = p.refresh now s₀ ∧ db₁ = { db with
          secrets := db.secrets.update (fun r => r.pathKey == (p.tenantId, p.path))
            (p.refresh now) (p.pathKey_refresh now) }) ∨
      ((∀ x ∈ db.secrets, x.pathKey ≠ (p.tenantId, p.path)) ∧ (∀ x ∈ db.secrets, x.id ≠ freshId) ∧
        p.tenantId ∈ db.tenants ∧ s = p.newSecret now freshId ∧
        ∃ secrets, db.secrets.insert? s = some secrets ∧ db₁ = { db with secrets := secrets }) := by
  unfold upsertSecretRow
  cases hget : db.secrets.get? (p.tenantId, p.path) with
  | some s₀ =>
    obtain ⟨hs₀, hkey⟩ := Table.get?_eq_some.mp hget
    constructor
    · intro h
      cases h
      exact .inl ⟨s₀, hs₀, hkey, rfl, rfl⟩
    · rintro (⟨s₁, hs₁, hkey₁, rfl, rfl⟩ | ⟨hno, -⟩)
      · rw [Table.eq_of_key hs₁ hs₀ (hkey₁.trans hkey.symm)]
      · exact absurd hkey (hno s₀ hs₀)
  | none =>
    have hno := Table.get?_eq_none.mp hget
    have hfresh : db.secrets.rows.any (·.id == freshId) = true ↔
        ¬ ∀ x ∈ db.secrets, x.id ≠ freshId := by
      simp [Table.mem_def]
    dsimp only
    constructor
    · intro h
      split at h
      · cases h
      · next hany =>
        split at h
        · cases h
        · next secrets hins =>
          split at h
          · next ht =>
            cases h
            exact .inr ⟨hno, not_not.mp (mt hfresh.mpr hany), ht, rfl, secrets, hins, rfl⟩
          · cases h
    · rintro (⟨s₁, hs₁, hkey₁, -, -⟩ | ⟨-, hid, ht, rfl, secrets, hins, rfl⟩)
      · exact absurd hkey₁ (hno s₁ hs₁)
      · rw [if_neg (mt hfresh.mp (not_not.mpr hid)), hins]
        simp [ht]

theorem mem_toRevoke {batchSize : Nat} {picked : List Uuid}
    (h : r ∈ db.toRevoke now batchSize picked) :
    r ∈ db.rotations ∧ r.status = .confirmed := by
  obtain ⟨hmem, hp⟩ := Table.mem_select.mp (List.mem_of_mem_take h)
  simp only [Bool.and_eq_true, beq_iff_eq] at hp
  exact ⟨hmem, hp.1.1⟩

/-- What holds before a transaction, and of whatever its function succeeds with,
holds after it. -/
theorem transact_rule {α : Type} {res : Except SqlError (Db × α)} {P : Db → Prop}
    (h : P db) (hok : ∀ db' a, res = .ok (db', a) → P db') : P (db.transact res).1 := by
  cases res with
  | error e => exact h
  | ok out => exact hok out.1 out.2 rfl

end Db

end WslVault.Storage
