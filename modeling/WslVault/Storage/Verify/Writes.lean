import WslVault.Storage.Verify.SecretLifecycle

/-!
# Which writes succeed

An upsert and a rollback take the number after the secret's write pointer, and so does the
pending row of an initiated rotation.
-/

namespace WslVault.Storage

open Core Base

namespace Db

def pointer (db : Db) (tenantId : Uuid) (path : String) : Int :=
  ((db.secrets.get? (tenantId, path)).map (·.currentVersion)).getD 0

def Waiting (db : Db) (tenantId : Uuid) (path : String) : Prop :=
  ∃ r ∈ db.rotations, r.tenantId = tenantId ∧ r.path = path ∧ r.waiting = true

instance (db : Db) (tenantId : Uuid) (path : String) : Decidable (db.Waiting tenantId path) :=
  inferInstanceAs (Decidable (∃ r ∈ db.rotations.rows, _))

variable {t : Uuid} {path : String} {db : Db} {s : SecretRow}

theorem pointer_of_mem (hs : s ∈ db.secrets)
    (hkey : s.pathKey = (t, path)) : db.pointer t path = s.currentVersion := by
  rw [pointer, Table.get?_eq_some.mpr ⟨hs, hkey⟩]
  rfl

theorem pointer_of_absent (hno : ∀ s ∈ db.secrets, s.pathKey ≠ (t, path)) :
    db.pointer t path = 0 := by
  rw [pointer, Table.get?_eq_none.mpr hno]
  rfl

section Inv

variable (h : db.lifecycle.Inv)

include h

theorem rotation_secretId_iff (hs : s ∈ db.secrets) {r : RotationRow} (hr : r ∈ db.rotations) :
    r.secretId = s.id ↔ s.pathKey = (r.tenantId, r.path) := by
  obtain ⟨x, hx, hid, hkey⟩ := h.rotationOwned r hr
  obtain ⟨s', hs', rfl⟩ := List.mem_map.mp hx
  constructor
  · intro heq
    have := h.ids _ hx _ (List.mem_map_of_mem hs) (hid.trans heq)
    exact (congrArg Pointer.pathKey this).symm.trans hkey
  · intro heq
    rw [Table.eq_of_key hs hs' (heq.trans hkey.symm)]
    exact hid.symm

theorem waiting_iff (hs : s ∈ db.secrets) (hkey : s.pathKey = (t, path)) :
    db.Waiting t path ↔ ∃ r ∈ db.rotations, r.secretId = s.id ∧ r.waiting = true := by
  constructor
  · rintro ⟨r, hr, rfl, rfl, hw⟩
    exact ⟨r, hr, (rotation_secretId_iff h hs hr).mpr hkey, hw⟩
  · rintro ⟨r, hr, hid, hw⟩
    have hpath := hkey.symm.trans ((rotation_secretId_iff h hs hr).mp hid)
    exact ⟨r, hr, (congrArg Prod.fst hpath).symm, (congrArg Prod.snd hpath).symm, hw⟩

theorem not_waiting_of_absent
    (hno : ∀ s ∈ db.secrets, s.pathKey ≠ (t, path)) : ¬ db.Waiting t path := by
  rintro ⟨r, hr, rfl, rfl, -⟩
  obtain ⟨x, hx, -, hkey⟩ := h.rotationOwned r hr
  obtain ⟨s, hs, rfl⟩ := List.mem_map.mp hx
  exact hno s hs hkey

/-- The number after the pointer is taken while a rotation waits, and only then. -/
theorem next_taken_iff (hs : s ∈ db.secrets) (hkey : s.pathKey = (t, path)) :
    (∃ v ∈ db.versions, v.versionKey = (s.id, s.currentVersion + 1)) ↔ db.Waiting t path := by
  have hx : s.pointer ∈ db.lifecycle.pointers := List.mem_map_of_mem hs
  rw [waiting_iff h hs hkey]
  constructor
  · rintro ⟨v, hv, hvkey⟩
    exact h.waiting_of_taken hx (List.mem_map_of_mem hv) (congrArg Prod.fst hvkey)
      (congrArg Prod.snd hvkey)
  · rintro ⟨r, hr, hid, hw⟩
    obtain ⟨-, -, -, hnum⟩ := h.waiting _ hx r hr hid hw
    obtain ⟨v, hv, hvn⟩ := List.mem_map.mp hnum
    exact ⟨v, hv, Prod.ext (congrArg Number.secretId hvn) (congrArg Number.version hvn)⟩

theorem insert_next_iff (hs : s ∈ db.secrets) (hkey : s.pathKey = (t, path)) {v : VersionRow}
    (hv : v.versionKey = (s.id, s.currentVersion + 1)) :
    (∃ versions, db.versions.insert? v = some versions) ↔ ¬ db.Waiting t path := by
  rw [← next_taken_iff h hs hkey, ← hv, ← Table.insert?_eq_none, ← ne_eq,
    Option.ne_none_iff_exists']

end Inv

variable {freshId : Uuid} {p : UpsertParams}

/-- Once the secret's row is there and the CAS argument holds, an upsert
fails only at the range of the numbers or at the number's row. -/
theorem upsertSecret_succeeds_of_row {db₁ : Db} {now : Timestamp}
    (hrow : db.upsertSecretRow now freshId p = .ok (db₁, s))
    (hcas : CasHolds p s) : (∃ out, db.upsertSecret now freshId p = .ok out) ↔
      (∃ versions, db₁.versions.insert? (p.newVersion now s.id (s.currentVersion + 1)) =
        some versions) ∧
      Int4 (s.currentVersion + 1) ∧ Int4 (s.currentVersion + 1 - p.maxVersions) := by
  constructor
  · rintro ⟨⟨db', out⟩, hok⟩
    obtain ⟨db₂, s₂, versions, hrow₂, -, hnext, hfloor, hins, -, -⟩ := upsertSecret_eq_ok.mp hok
    rw [hrow] at hrow₂
    cases hrow₂
    exact ⟨⟨versions, hins⟩, hnext, hfloor⟩
  · rintro ⟨⟨versions, hins⟩, hnext, hfloor⟩
    exact ⟨_, upsertSecret_eq_ok.mpr
      ⟨db₁, s, versions, hrow, hcas, hnext, hfloor, hins, rfl, rfl⟩⟩

theorem upsertSecretRow_succeeds (now : Timestamp)
    (htenant : p.tenantId ∈ db.tenants) (hfresh : ∀ s ∈ db.secrets, s.id ≠ freshId) :
    ∃ db₁ s, db.upsertSecretRow now freshId p = .ok (db₁, s) := by
  by_cases hex : ∃ s ∈ db.secrets, s.pathKey = (p.tenantId, p.path)
  · obtain ⟨s, hs, hkey⟩ := hex
    exact ⟨_, _, upsertSecretRow_eq_ok.mpr (.inl ⟨s, hs, hkey, rfl, rfl⟩)⟩
  · have hno : ∀ s ∈ db.secrets, s.pathKey ≠ (p.tenantId, p.path) :=
      fun s hs hkey => hex ⟨s, hs, hkey⟩
    obtain ⟨secrets, hsecrets⟩ : ∃ secrets, db.secrets.insert? (p.newSecret now freshId) =
        some secrets := by
      rw [← Option.ne_none_iff_exists', ne_eq, Table.insert?_eq_none]
      exact fun ⟨s, hs, hkey⟩ => hno s hs hkey
    exact ⟨_, _, upsertSecretRow_eq_ok.mpr
      (.inr ⟨hno, hfresh, htenant, rfl, secrets, hsecrets, rfl⟩)⟩

section Row

variable {db db₁ : Db} {now : Timestamp} {freshId : Uuid} {p : UpsertParams} {s : SecretRow}

theorem currentVersion_upsertSecretRow (hrow : db.upsertSecretRow now freshId p = .ok (db₁, s)) :
    s.currentVersion = db.pointer p.tenantId p.path := by
  rcases upsertSecretRow_eq_ok.mp hrow with ⟨s₀, hs₀, hkey, rfl, -⟩ | ⟨hno, -, -, rfl, -⟩
  · exact (pointer_of_mem hs₀ hkey).symm
  · exact (pointer_of_absent hno).symm

theorem insert_written_iff (h : db.lifecycle.Inv)
    (hrow : db.upsertSecretRow now freshId p = .ok (db₁, s)) :
    (∃ versions, db₁.versions.insert? (p.newVersion now s.id (s.currentVersion + 1)) =
      some versions) ↔ ¬ db.Waiting p.tenantId p.path := by
  rw [(pointers_upsertSecretRow hrow).1]
  rcases upsertSecretRow_eq_ok.mp hrow with ⟨s₀, hs₀, hkey, rfl, -⟩ | ⟨hno, hfresh, -, rfl, -⟩
  · exact insert_next_iff h hs₀ hkey rfl
  · refine iff_of_true ?_ (not_waiting_of_absent h hno)
    -- no version row belongs to an id no secret has
    rw [← Option.ne_none_iff_exists', ne_eq, Table.insert?_eq_none]
    rintro ⟨v, hv, hvkey⟩
    obtain ⟨x, hx, hid⟩ := h.owned v.number (List.mem_map_of_mem hv)
    obtain ⟨s, hs, rfl⟩ := List.mem_map.mp hx
    exact hfresh s hs (hid.trans (congrArg Prod.fst hvkey))

end Row

theorem upsertSecret_succeeds_iff (h : db.lifecycle.Inv) (now : Timestamp)
    (hcas : ∀ expected, p.casVersion = some expected → expected = db.pointer p.tenantId p.path)
    (htenant : p.tenantId ∈ db.tenants) (hfresh : ∀ s ∈ db.secrets, s.id ≠ freshId) :
    (∃ out, db.upsertSecret now freshId p = .ok out) ↔
      ¬ db.Waiting p.tenantId p.path ∧ Int4 (db.pointer p.tenantId p.path + 1) ∧
        Int4 (db.pointer p.tenantId p.path + 1 - p.maxVersions) := by
  obtain ⟨db₁, s, hrow⟩ := upsertSecretRow_succeeds now htenant hfresh
  have hcurrent := currentVersion_upsertSecretRow hrow
  have hholds : CasHolds p s := by
    intro expected hexpected
    rw [hcurrent]
    exact hcas expected hexpected
  rw [upsertSecret_succeeds_of_row hrow hholds, insert_written_iff h hrow, hcurrent]

theorem upsertSecret_cas_conflict (now : Timestamp)
    {expected : Int} (hcas : p.casVersion = some expected)
    (hne : expected ≠ db.pointer p.tenantId p.path) (htenant : p.tenantId ∈ db.tenants)
    (hfresh : ∀ s ∈ db.secrets, s.id ≠ freshId) : db.upsertSecret now freshId p =
      .error (.casConflict expected (db.pointer p.tenantId p.path)) := by
  obtain ⟨db₁, s, hrow⟩ := upsertSecretRow_succeeds now htenant hfresh
  have hcurrent := currentVersion_upsertSecretRow hrow
  have hcheck : casCheck p s = .error (.casConflict expected s.currentVersion) := by
    rw [casCheck, hcas, Option.filter_some, if_pos (decide_eq_true (hcurrent.symm ▸ hne))]
  rw [upsertSecret, hrow, ok_bind]
  dsimp only
  rw [hcheck, error_bind, hcurrent]

theorem rollbackSecret_succeeds (h : db.lifecycle.Inv)
    (hfree : ¬ db.Waiting t path) (hnext : Int4 (db.pointer t path + 1))
    (hs : s ∈ db.secrets) (hkey : s.pathKey = (t, path)) {v : VersionRow} (hv : v ∈ db.versions)
    (hid : v.secretId = s.id) (hd : v.destroyed = false) (now : Timestamp) (by_ : String) :
    ∃ out, db.rollbackSecret now t path v.version by_ = .ok out := by
  rw [pointer_of_mem hs hkey] at hnext
  obtain ⟨versions, hins⟩ := (insert_next_iff h hs hkey
    (v := rolledBack v now (s.currentVersion + 1) by_) (Prod.ext hid rfl)).mpr hfree
  exact ⟨_, rollbackSecret_eq_ok.mpr
    ⟨s, v, versions, hs, hkey, hv, Prod.ext hid rfl, hd, hnext, hins, rfl, rfl⟩⟩

/-! ## In every reachable database -/

theorem tenants_step (db : Db) (op : Op) : (db.step op).1.tenants = db.tenants := by
  let P : Db → Prop := fun db' => db'.tenants = db.tenants
  cases op with
  | upsert now freshId p =>
    refine transact_rule (P := P) rfl fun db' out hok => ?_
    obtain ⟨db₁, s, versions, hrow, -, -, -, -, rfl, -⟩ := upsertSecret_eq_ok.mp hok
    rcases upsertSecretRow_eq_ok.mp hrow with ⟨s₀, -, -, -, rfl⟩ | ⟨-, -, -, -, secrets, -, rfl⟩
    · rfl
    · rfl
  | initiate now freshId p =>
    refine transact_rule (P := P) rfl fun db' out hok => ?_
    obtain ⟨s, versions, rotations, -, -, -, -, -, rfl⟩ := initiateRotation_eq_ok hok
    rfl
  | confirm now rid by_ =>
    refine transact_rule (P := P) rfl fun db' out hok => ?_
    obtain ⟨r, -, -, -, -, rfl, -⟩ := confirmRotation_eq_ok.mp hok
    rfl
  | rollback now t path target by_ =>
    refine transact_rule (P := P) rfl fun db' out hok => ?_
    obtain ⟨s, v, versions, -, -, -, -, -, -, -, rfl, -⟩ := rollbackSecret_eq_ok.mp hok
    rfl
  | softDelete | destroy | revoke | markPending => rfl

theorem tenants_run (tenants : List Uuid) (ops : List Op) :
    (run step (empty tenants) ops).tenants = tenants :=
  run_invariant step (fun db => db.tenants = tenants)
    (fun db op h => (tenants_step db op).trans h) rfl ops

/-- In every reachable database a write without a CAS argument, and a rollback
to any undestroyed version of the path, succeed exactly when no rotation of the
path waits and the numbers they compute are in the range of `INTEGER`. -/
theorem writes_succeed_iff (tenants : List Uuid) (ops : List Op) (now : Timestamp)
    (freshId : Uuid) (by_ : String) (p : UpsertParams) (hcas : p.casVersion = none)
    (htenant : p.tenantId ∈ tenants)
    (hfresh : ∀ s ∈ (run step (empty tenants) ops).secrets, s.id ≠ freshId) :
    ((∃ out, (run step (empty tenants) ops).upsertSecret now freshId p = .ok out) ∧
      ∀ s ∈ (run step (empty tenants) ops).secrets, s.pathKey = (p.tenantId, p.path) →
      ∀ v ∈ (run step (empty tenants) ops).versions, v.secretId = s.id → v.destroyed = false →
        ∃ out, (run step (empty tenants) ops).rollbackSecret now p.tenantId p.path v.version by_ =
          .ok out) ↔
      ¬ (run step (empty tenants) ops).Waiting p.tenantId p.path ∧
        Int4 ((run step (empty tenants) ops).pointer p.tenantId p.path + 1) ∧
        Int4 ((run step (empty tenants) ops).pointer p.tenantId p.path + 1 - p.maxVersions) := by
  have hinv := inv_run tenants ops
  have hupsert := upsertSecret_succeeds_iff hinv now
    (fun expected hexpected => by rw [hcas] at hexpected; cases hexpected)
    ((tenants_run tenants ops).symm ▸ htenant) hfresh
  constructor
  · rintro ⟨hok, -⟩
    exact hupsert.mp hok
  · rintro ⟨hfree, hnext, hfloor⟩
    refine ⟨hupsert.mpr ⟨hfree, hnext, hfloor⟩, fun s hs hkey v hv hid hd => ?_⟩
    exact rollbackSecret_succeeds hinv hfree hnext hs hkey hv hid hd now by_

theorem writes_succeed_after_confirm :
    let ops : List Op := [.upsert 0 .nil firstPut, .initiate 1 .nil firstRotation,
      .confirm 2 .nil "op"]
    (∃ out, (run step (empty [.nil]) ops).upsertSecret 3 .max firstPut = .ok out) ∧
      ∃ out, (run step (empty [.nil]) ops).rollbackSecret 3 .nil "app/db" 1 "op" = .ok out := by
  intro ops
  have h := (writes_succeed_iff [.nil] ops 3 .max "op" firstPut rfl (by decide) (by decide)).mpr
    (by decide)
  have htarget : ∃ s ∈ (run step (empty [.nil]) ops).secrets.rows, s.pathKey = (.nil, "app/db") ∧
      ∃ v ∈ (run step (empty [.nil]) ops).versions.rows, v.secretId = s.id ∧
        v.destroyed = false ∧ v.version = 1 := by
    decide
  obtain ⟨s, hs, hkey, v, hv, hid, hd, hone⟩ := htarget
  exact ⟨h.1, hone ▸ h.2 s hs hkey v hv hid hd⟩

/-- While a rotation waits, both kinds of write hit the unique constraint. -/
theorem writes_blocked_by_waiting_rotation :
    let db := run step (empty [.nil]) [.upsert 0 .nil firstPut,
      .initiate 1 .nil firstRotation]
    (db.step (.upsert 2 .max firstPut)).2 =
        some (.uniqueViolation "secret_versions_secret_id_version_key") ∧
      (db.step (.rollback 2 .nil "app/db" 1 "op")).2 =
        some (.uniqueViolation "secret_versions_secret_id_version_key") := by
  decide

end Db

end WslVault.Storage
