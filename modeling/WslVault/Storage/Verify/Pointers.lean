import WslVault.Storage.Verify.SecretLifecycle

/-!
# The write pointer is safe

In every interleaving of the transactions a secret's `current_version` never moves back, the
numbers of the secret's rows are distinct and reach at most one above it, and revocation
never wipes the row it names.
-/

namespace WslVault.Storage

open Core Base

/-- Every secret is still there, its pointer no lower than before. -/
def Lifecycle.Advances (c c' : Lifecycle) : Prop :=
  ∀ x ∈ c.pointers, ∃ y ∈ c'.pointers, y.id = x.id ∧ y.pathKey = x.pathKey ∧ x.current ≤ y.current

namespace Lifecycle.Advances

variable {c c' c'' : Lifecycle}

theorem of_pointers_eq (h : c'.pointers = c.pointers) : c.Advances c' := by
  intro x hx
  exact ⟨x, h ▸ hx, rfl, rfl, Int.le_refl _⟩

theorem trans (h : c.Advances c') (h' : c'.Advances c'') : c.Advances c'' := by
  intro x hx
  obtain ⟨y, hy, hid, hkey, hle⟩ := h x hx
  obtain ⟨z, hz, hid', hkey', hle'⟩ := h' y hy
  exact ⟨z, hz, hid'.trans hid, hkey'.trans hkey, Int.le_trans hle hle'⟩

theorem repoint (id : Uuid) (n : Int) (hmem : ∀ x ∈ c.pointers, Db.repoint id n x ∈ c'.pointers)
    (hup : ∀ x ∈ c.pointers, x.id = id → x.current ≤ n) : c.Advances c' := by
  intro x hx
  refine ⟨Db.repoint id n x, hmem x hx, ?_⟩
  unfold Db.repoint
  split
  · next hid => exact ⟨rfl, rfl, hup x hx hid⟩
  · exact ⟨rfl, rfl, Int.le_refl _⟩

end Lifecycle.Advances

namespace Db

variable {db db' : Db} {now : Timestamp} {by_ : String} {s : SecretRow} {v : VersionRow}

section

variable (h : db.lifecycle.Inv)

include h

theorem advances_upsert {freshId : Uuid} {p : UpsertParams} {out : Uuid × Int}
    (hok : db.upsertSecret now freshId p = .ok (db', out)) :
    db.lifecycle.Advances db'.lifecycle := by
  obtain ⟨db₁, s, versions, hrow, -, -, -, -, rfl, -⟩ := upsertSecret_eq_ok.mp hok
  obtain ⟨-, -, hp⟩ := pointers_upsertSecretRow hrow
  refine .repoint s.id (s.currentVersion + 1) (fun x hx => ?_) (fun x hx hid => ?_)
  · rw [pointers_written]
    refine List.mem_map_of_mem ?_
    rcases hp with ⟨-, hsame⟩ | ⟨-, -, hadd⟩
    · rw [hsame]
      exact hx
    · rw [hadd]
      exact List.mem_append_left _ hx
  · rcases hp with ⟨hs, -⟩ | ⟨-, hnew, -⟩
    · rw [h.ids x hx s.pointer hs hid]
      simp only [SecretRow.pointer]
      omega
    · exact absurd hid (hnew x hx)

theorem advances_rollback {t : Uuid} {path : String} {target : Int} {n : Int}
    (hok : db.rollbackSecret now t path target by_ = .ok (db', n)) :
    db.lifecycle.Advances db'.lifecycle := by
  obtain ⟨s, v, versions, hs, -, -, -, -, -, -, rfl, -⟩ := rollbackSecret_eq_ok.mp hok
  refine .repoint s.id (s.currentVersion + 1) (fun x hx => ?_) (fun x hx hid => ?_)
  · rw [pointers_setCurrentVersion]
    exact List.mem_map_of_mem hx
  · rw [h.ids x hx s.pointer (List.mem_map_of_mem hs) hid]
    simp only [SecretRow.pointer]
    omega

theorem advances_confirm {rid : Uuid} {out : Int × Int × Option Timestamp}
    (hok : db.confirmRotation now rid by_ = .ok (db', out)) :
    db.lifecycle.Advances db'.lifecycle := by
  obtain ⟨r, hr, -, hw, -, rfl, -⟩ := confirmRotation_eq_ok.mp hok
  refine .repoint r.secretId r.newVersion (fun x hx => ?_) (fun x hx hid => ?_)
  · have hpointers := pointers_updateSecret (db.activate now r) now r.secretId r.newVersion
      (SecretRow.pathKey_rotate now r.newVersion) fun _ => rfl
    exact hpointers ▸ List.mem_map_of_mem hx
  · obtain ⟨-, hnew, -, -⟩ := h.waiting x hx r hr hid.symm hw
    omega

theorem advances_step (op : Op) :
    db.lifecycle.Advances (db.step op).1.lifecycle := by
  let P : Db → Prop := fun db' => db.lifecycle.Advances db'.lifecycle
  have hsame : P db := .of_pointers_eq rfl
  cases op with
  | upsert now freshId p =>
    exact transact_rule (P := P) hsame fun db' out hok => advances_upsert h hok
  | initiate now freshId p =>
    refine transact_rule (P := P) hsame fun db' out hok => ?_
    obtain ⟨s, versions, rotations, -, -, -, -, -, rfl⟩ := initiateRotation_eq_ok hok
    have hmark := lifecycle_markPending { db with versions := versions, rotations := rotations }
      now s.id
    have hpointers := congrArg Lifecycle.pointers hmark
    exact .of_pointers_eq hpointers
  | confirm now rid by_ =>
    exact transact_rule (P := P) hsame fun db' out hok => advances_confirm h hok
  | rollback now t path target by_ =>
    exact transact_rule (P := P) hsame fun db' out hok => advances_rollback h hok
  | softDelete | destroy | revoke => exact .of_pointers_eq rfl
  | markPending now sid =>
    exact .of_pointers_eq (congrArg Lifecycle.pointers (lifecycle_markPending db now sid))

/-- The current version of a secret never goes back. -/
theorem advances_run (ops : List Op) :
    db.lifecycle.Advances (run step db ops).lifecycle := by
  have hrun := run_invariant step
    (fun db' => db'.lifecycle.Inv ∧ db.lifecycle.Advances db'.lifecycle)
    (fun db' op hdb' => ⟨inv_step hdb'.1 op, hdb'.2.trans (advances_step hdb'.1 op)⟩)
    (s := db) ⟨h, .of_pointers_eq rfl⟩ ops
  exact hrun.2

theorem version_le (hs : s ∈ db.secrets)
    (hv : v ∈ db.versions) (hid : v.secretId = s.id) : v.version ≤ s.currentVersion + 1 := by
  obtain ⟨-, hsettled, hpending⟩ :=
    h.numbered s.pointer (List.mem_map_of_mem hs) v.number (List.mem_map_of_mem hv) hid
  cases hp : v.number.pending with
  | false =>
    have hle : v.version ≤ s.currentVersion := hsettled hp
    omega
  | true => exact Int.le_of_eq (hpending hp)

end

theorem versions_nodup (db : Db) (sid : Uuid) :
    ((db.versions.select (·.secretId == sid)).map (·.version)).Nodup := by
  have hrows : (db.versions.select (·.secretId == sid)).Nodup := db.versions.nodup.of_map.filter _
  refine hrows.map_on fun v hv w hw hver => ?_
  obtain ⟨hv, hvid⟩ := Table.mem_select.mp hv
  obtain ⟨hw, hwid⟩ := Table.mem_select.mp hw
  have hid : v.secretId = w.secretId := (beq_iff_eq.mp hvid).trans (beq_iff_eq.mp hwid).symm
  exact Table.eq_of_key hv hw (Prod.ext hid hver)

theorem mem_versions_revoke (h : db.lifecycle.Inv) (hs : s ∈ db.secrets) (hv : v ∈ db.versions)
    (hid : v.secretId = s.id)
    (hcurrent : v.version = s.currentVersion) (now : Timestamp) (batchSize : Nat)
    (picked : List Uuid) : v ∈ (db.revokeDeprecatedVersions now batchSize picked).1.versions := by
  refine (Table.mem_update (VersionRow.versionKey_revoke now)).mpr ⟨v, hv, if_neg fun hp => ?_⟩
  obtain ⟨r, hr, hkey⟩ := List.any_eq_true.mp hp
  simp only [Bool.and_eq_true, beq_iff_eq] at hkey
  obtain ⟨hmem, hconf⟩ := mem_toRevoke hr
  -- the old version of a confirmed rotation is below the pointer
  have hbelow : r.oldVersion < s.currentVersion :=
    h.confirmed s.pointer (List.mem_map_of_mem hs) r hmem (hkey.1.symm.trans hid) hconf
  omega

/-- However the transactions interleave, a pointer never moves back, the numbers
of a secret are distinct and at most one above its pointer, and a revocation
leaves the row the pointer names as it is. -/
theorem currentVersion_safe (tenants : List Uuid) (ops later : List Op) (now : Timestamp)
    (batchSize : Nat) (picked : List Uuid) (s : SecretRow)
    (hs : s ∈ (run step (empty tenants) ops).secrets) :
    let db := run step (empty tenants) ops
    (∃ s' ∈ (run step db later).secrets, s'.id = s.id ∧ s'.pathKey = s.pathKey ∧
      s.currentVersion ≤ s'.currentVersion) ∧
    ((db.versions.select (·.secretId == s.id)).map (·.version)).Nodup ∧
    ∀ v ∈ db.versions, v.secretId = s.id → v.version ≤ s.currentVersion + 1 ∧
      (v.version = s.currentVersion →
        v ∈ (db.revokeDeprecatedVersions now batchSize picked).1.versions) := by
  intro db
  have hinv : db.lifecycle.Inv := inv_run tenants ops
  refine ⟨?_, versions_nodup db s.id, fun v hv hid => ⟨version_le hinv hs hv hid, fun hcur => ?_⟩⟩
  · obtain ⟨y, hy, hid, hkey, hle⟩ :=
      advances_run hinv later s.pointer (List.mem_map_of_mem hs)
    obtain ⟨s', hs', rfl⟩ := List.mem_map.mp hy
    exact ⟨s', hs', hid, hkey, hle⟩
  · exact mem_versions_revoke hinv hs hv hid hcur now batchSize picked

theorem currentVersion_safe_after_rotation :
    let ops : List Op := [.upsert 0 .nil firstPut, .initiate 0 .nil firstRotation,
      .confirm 1 .nil "op"]
    let db := run step (empty [.nil]) ops
    (firstRotation.pendingVersion 0 .nil 2).activate ∈
      (db.revokeDeprecatedVersions (seconds 7200) 100 [.nil]).1.versions := by
  intro ops db
  obtain ⟨-, -, hsafe⟩ := currentVersion_safe [.nil] ops [] (seconds 7200) 100 [.nil]
    (((firstPut.newSecret 0 .nil).setRotationPending.rotate 1 2).touch 1)
    (List.mem_singleton.mpr rfl)
  have hrow : (firstRotation.pendingVersion 0 .nil 2).activate ∈ db.versions :=
    List.mem_cons_of_mem _ (List.mem_singleton.mpr rfl)
  exact (hsafe _ hrow rfl).2 rfl

/-- In every reachable database a version is pending exactly while a rotation to it waits. -/
theorem pending_iff_waiting (tenants : List Uuid) (ops : List Op) (secretId : Uuid)
    (version : Int) :
    let db := run step (empty tenants) ops
    (∃ v ∈ db.versions, v.secretId = secretId ∧ v.version = version ∧ v.status = .pending) ↔
      ∃ r ∈ db.rotations, r.secretId = secretId ∧ r.newVersion = version ∧ r.waiting = true := by
  intro db
  have hinv : db.lifecycle.Inv := inv_run tenants ops
  constructor
  · rintro ⟨v, hv, rfl, rfl, hstatus⟩
    have hn : v.number ∈ db.lifecycle.numbers := List.mem_map_of_mem hv
    have hpending : v.number.pending = true := beq_iff_eq.mpr hstatus
    obtain ⟨x, hx, hxid⟩ := hinv.owned _ hn
    obtain ⟨r, hr, hid, hwaiting⟩ := hinv.awaited _ hn hpending
    obtain ⟨-, hnew, -⟩ := hinv.waiting x hx r hr (hid.trans hxid.symm) hwaiting
    obtain ⟨-, -, hnext⟩ := hinv.numbered x hx _ hn hxid.symm
    exact ⟨r, hr, hid, hnew.trans (hnext hpending).symm, hwaiting⟩
  · rintro ⟨r, hr, rfl, rfl, hwaiting⟩
    obtain ⟨x, hx, hid, -⟩ := hinv.rotationOwned r hr
    obtain ⟨-, hnew, -, hn⟩ := hinv.waiting x hx r hr hid.symm hwaiting
    obtain ⟨v, hv, hnumber⟩ := List.mem_map.mp hn
    injection hnumber with hsecret hversion hpending
    exact ⟨v, hv, hsecret.trans hid, hversion.trans hnew.symm, beq_iff_eq.mp hpending⟩

end Db

end WslVault.Storage
