import WslVault.Base.Run
import WslVault.Storage.Verify.Functions
import WslVault.Storage.Verify.Lifecycle

/-!
# Versions and rotations over whole runs

Every transaction on the secret tables keeps the invariant of the lifecycle,
so it holds in every reachable database.
-/

namespace WslVault.Storage

open Core Base

/-! ## What the functions do to the lifecycle -/

namespace Db

def repoint (id : Uuid) (n : Int) (x : Pointer) : Pointer :=
  if x.id = id then { x with current := n } else x

theorem pointers_updateSecret (db : Db) (now : Timestamp) (id : Uuid) (n : Int)
    {f : SecretRow → SecretRow} (hf : ∀ s, (f s).pathKey = s.pathKey)
    (hpoint : ∀ s, (f s).pointer = ⟨s.id, s.pathKey, n⟩) :
    (db.updateSecret now id f hf).lifecycle.pointers =
      db.lifecycle.pointers.map (repoint id n) := by
  simp only [lifecycle, updateSecret, Table.update, List.map_map]
  refine List.map_congr_left fun s _ => ?_
  by_cases h : s.id = id
  · simp only [Function.comp_apply, h, decide_true, if_true]
    refine (hpoint s).trans ?_
    simp [repoint, SecretRow.pointer, h]
  · simp [h, repoint, SecretRow.pointer]

theorem pointers_setCurrentVersion (db : Db) (now : Timestamp) (id : Uuid) (n : Int) :
    (db.setCurrentVersion now id n).lifecycle.pointers = db.lifecycle.pointers.map (repoint id n) :=
  pointers_updateSecret db now id n (SecretRow.pathKey_setCurrentVersion n) fun _ => rfl

theorem pointers_written (db : Db) (now : Timestamp) (p : UpsertParams) (s : SecretRow)
    (versions : Table VersionRow VersionRow.versionKey) :
    (db.written now p s versions).lifecycle.pointers =
      db.lifecycle.pointers.map (repoint s.id (s.currentVersion + 1)) :=
  pointers_setCurrentVersion { db with versions := versions } now s.id (s.currentVersion + 1)

theorem mem_map_repoint {l : List Pointer} (hids : ∀ x ∈ l, ∀ y ∈ l, x.id = y.id → x = y)
    {x : Pointer} (hx : x ∈ l) (n : Int) (y : Pointer) :
    y ∈ l.map (repoint x.id n) ↔ y = { x with current := n } ∨ (y ∈ l ∧ y.id ≠ x.id) := by
  simp only [List.mem_map, repoint]
  constructor
  · rintro ⟨z, hz, rfl⟩
    split
    · next hid =>
      left
      rw [hids z hz x hx hid]
    · next hid => exact .inr ⟨hz, hid⟩
  · rintro (rfl | ⟨hy, hne⟩)
    · exact ⟨x, hx, by simp⟩
    · exact ⟨y, hy, by simp [hne]⟩

variable {db db' : Db} {now : Timestamp} {p : VersionRow → Bool} {f : VersionRow → VersionRow}

theorem mem_numbers_updateVersions {hf : ∀ v, (f v).versionKey = v.versionKey} {n : Number} :
    n ∈ (db.updateVersions p f hf).lifecycle.numbers ↔
      ∃ v ∈ db.versions, (if p v then f v else v).number = n := by
  simp [lifecycle, updateVersions, Table.update, Table.mem_def]

/-- Changing rows in place, pending ones staying pending and the others not,
leaves the lifecycle as it was. -/
theorem lifecycle_updateVersions (hf : ∀ v, (f v).versionKey = v.versionKey)
    (h : ∀ v ∈ db.versions, p v = true → ((f v).status == .pending) = (v.status == .pending)) :
    (db.updateVersions p f hf).lifecycle = db.lifecycle := by
  have hnumbers : (db.versions.update p f hf).rows.map (·.number) =
      db.versions.rows.map (·.number) := by
    refine Table.map_rows_update hf fun v hv hp => ?_
    have hkey := hf v
    simp only [VersionRow.versionKey, Prod.mk.injEq] at hkey
    simp [VersionRow.number, hkey.1, hkey.2, h v hv hp]
  simp only [lifecycle, updateVersions, hnumbers]

theorem lifecycle_deprecateCurrent (db : Db) (now : Timestamp) (s : SecretRow) :
    (db.deprecateCurrent now s).lifecycle = db.lifecycle := by
  refine lifecycle_updateVersions _ fun v _ hp => ?_
  simp only [Bool.and_eq_true, beq_iff_eq] at hp
  rw [hp.2]
  rfl

theorem lifecycle_markPending (db : Db) (now : Timestamp) (sid : Uuid) :
    (db.markPending now sid).lifecycle = db.lifecycle := by
  have hpointers : (db.markPending now sid).secrets.rows.map (·.pointer) =
      db.secrets.rows.map (·.pointer) :=
    Table.map_rows_update (f := fun s : SecretRow => s.setRotationPending.touch now)
      SecretRow.pathKey_setRotationPending fun _ _ _ => rfl
  rw [lifecycle, hpointers]
  rfl

variable {versions : Table VersionRow VersionRow.versionKey} {v : VersionRow}

theorem free_of_insert (h : db.versions.insert? v = some versions) :
    ∀ n ∈ db.lifecycle.numbers, n.secretId = v.secretId → n.version ≠ v.version := by
  intro n hn hid hver
  obtain ⟨w, hw, rfl⟩ := List.mem_map.mp hn
  exact (Table.insert?_eq_some.mp h).1 w hw (Prod.ext hid hver)

theorem numbers_of_insert (h : db.versions.insert? v = some versions) :
    versions.rows.map (·.number) = db.lifecycle.numbers ++ [v.number] := by
  rw [(Table.insert?_eq_some.mp h).2, List.map_append]
  rfl

variable {freshId : Uuid} {r : RotationRow} {out : Uuid × Int} {by_ : String}

/-- The secret row an upsert works on is an old one, or a new one whose
pointer stands at zero. -/
theorem pointers_upsertSecretRow {db₁ : Db} {p : UpsertParams} {s : SecretRow}
    (h : db.upsertSecretRow now freshId p = .ok (db₁, s)) :
    db₁.versions = db.versions ∧ db₁.rotations = db.rotations ∧
    ((s.pointer ∈ db.lifecycle.pointers ∧ db₁.lifecycle.pointers = db.lifecycle.pointers) ∨
      (s.currentVersion = 0 ∧ (∀ y ∈ db.lifecycle.pointers, y.id ≠ s.id) ∧
        db₁.lifecycle.pointers = db.lifecycle.pointers ++ [s.pointer])) := by
  rcases upsertSecretRow_eq_ok.mp h with
    ⟨s₀, hs₀, -, rfl, rfl⟩ | ⟨-, hid, -, rfl, secrets, hins, rfl⟩
  · have hpointers : (db.secrets.update (fun r => r.pathKey == (p.tenantId, p.path))
        (p.refresh now) (p.pathKey_refresh now)).rows.map (·.pointer) =
        db.secrets.rows.map (·.pointer) :=
      Table.map_rows_update _ fun _ _ _ => rfl
    exact ⟨rfl, rfl, .inl ⟨List.mem_map.mpr ⟨s₀, hs₀, rfl⟩, hpointers⟩⟩
  · refine ⟨rfl, rfl, .inr ⟨rfl, fun y hy => ?_, ?_⟩⟩
    · obtain ⟨x, hx, rfl⟩ := List.mem_map.mp hy
      exact hid x hx
    · simp only [lifecycle, (Table.insert?_eq_some.mp hins).2, List.map_append, List.map_cons,
        List.map_nil]

/-! ## Every function keeps the invariant -/

section

variable (h : db.lifecycle.Inv)

include h

theorem inv_upsert {p : UpsertParams}
    (hok : db.upsertSecret now freshId p = .ok (db', out)) : db'.lifecycle.Inv := by
  obtain ⟨db₁, s, versions, hrow, -, hrange, -, hins, rfl, -⟩ := upsertSecret_eq_ok.mp hok
  obtain ⟨hv, hr, hp⟩ := pointers_upsertSecretRow hrow
  rw [hv] at hins
  have hnumbers : ∀ n, n ∈ (db₁.written now p s versions).lifecycle.numbers ↔
      ∃ v ∈ versions, (v.secretId == s.id &&
        decide (v.version ≤ s.currentVersion + 1 - p.maxVersions) && !v.destroyed) = false ∧
        v.number = n := by
    intro n
    simp only [lifecycle, written, pruneVersions, setCurrentVersion, updateSecret, List.mem_map,
      ← Table.mem_def, Table.mem_delete, and_assoc]
  refine h.write (x := s.pointer) ?_ (free_of_insert hins) hrange.2 (fun y => ?_)
    (fun n hn => ?_) (fun n hn hother => ?_) (congrArg Table.rows hr)
  · rcases hp with ⟨hx, -⟩ | ⟨hzero, hnew, -⟩
    · exact .inl hx
    · exact .inr ⟨hzero, hnew⟩
  · rw [pointers_written]
    rcases hp with ⟨hx, hsame⟩ | ⟨-, hnew, hadd⟩
    · rw [hsame]
      exact mem_map_repoint h.ids hx _ y
    · have hids : ∀ x ∈ db₁.lifecycle.pointers, ∀ y ∈ db₁.lifecycle.pointers,
          x.id = y.id → x = y := by
        rw [hadd]
        simp only [List.mem_append, List.mem_singleton]
        rintro x (hx | rfl) y (hy | rfl) hid
        · exact h.ids x hx y hy hid
        · exact absurd hid (hnew x hx)
        · exact absurd hid.symm (hnew y hy)
        · rfl
      have hx : s.pointer ∈ db₁.lifecycle.pointers := by simp [hadd]
      refine (mem_map_repoint hids hx _ y).trans (or_congr_right ?_)
      rw [hadd]
      constructor
      · rintro ⟨hy, hne⟩
        rcases List.mem_append.mp hy with hy | hy
        · exact ⟨hy, hne⟩
        · exact absurd (congrArg Pointer.id (List.mem_singleton.mp hy)) hne
      · rintro ⟨hy, hne⟩
        exact ⟨List.mem_append_left _ hy, hne⟩
  · obtain ⟨v, hv, -, rfl⟩ := (hnumbers n).mp hn
    rcases (Table.mem_of_insert? hins).mp hv with hv | rfl
    · exact .inl (List.mem_map_of_mem hv)
    · exact .inr rfl
  · obtain ⟨v, hv, rfl⟩ := List.mem_map.mp hn
    refine (hnumbers _).mpr ⟨v, (Table.mem_of_insert? hins).mpr (.inl hv), ?_, rfl⟩
    have hne : (v.secretId == s.id) = false := beq_eq_false_iff_ne.mpr hother
    rw [hne]
    rfl

theorem inv_rollback {t : Uuid} {path : String} {target : Int} {n : Int}
    (hok : db.rollbackSecret now t path target by_ = .ok (db', n)) :
    db'.lifecycle.Inv := by
  obtain ⟨s, v, versions, hs, -, -, hvkey, -, hrange, hins, rfl, -⟩ :=
    rollbackSecret_eq_ok.mp hok
  have hvid : v.secretId = s.id := congrArg Prod.fst hvkey
  have hx : s.pointer ∈ db.lifecycle.pointers := List.mem_map_of_mem hs
  have hfree := free_of_insert hins
  simp only [rolledBack, hvid] at hfree
  -- the number of the new row, as deprecating the old one changes none
  have hnumbers : (({ db with versions := versions }.deprecateCurrent now s).setCurrentVersion now
      s.id (s.currentVersion + 1)).lifecycle.numbers =
      db.lifecycle.numbers ++ [⟨s.id, s.currentVersion + 1, false⟩] := by
    refine (congrArg Lifecycle.numbers (lifecycle_deprecateCurrent _ now s)).trans ?_
    refine (numbers_of_insert hins).trans ?_
    simp [rolledBack, VersionRow.number, hvid]
  refine h.write (.inl hx) hfree hrange.2 (fun y => ?_) (fun n hn => ?_) (fun n hn _ => ?_) rfl
  · rw [pointers_setCurrentVersion]
    exact mem_map_repoint h.ids hx _ y
  · rw [hnumbers, List.mem_append, List.mem_singleton] at hn
    exact hn
  · rw [hnumbers]
    exact List.mem_append_left _ hn

theorem inv_initiate {p : InitiateParams}
    (hok : db.initiateRotation now freshId p = .ok (db', out)) :
    db'.lifecycle.Inv := by
  obtain ⟨s, versions, rotations, hs, hkey, hrange, hv, hr, rfl⟩ := initiateRotation_eq_ok hok
  rw [lifecycle_markPending]
  exact h.initiate (List.mem_map_of_mem hs) (free_of_insert hv) hrange.2
    (r := p.rotation now freshId s.id s.currentVersion (s.currentVersion + 1)) rfl hkey rfl rfl rfl
    rfl (numbers_of_insert hv) (Table.insert?_eq_some.mp hr).2

theorem mem_numbers_activate {x : Pointer}
    (hx : x ∈ db.lifecycle.pointers) (hr : r ∈ db.lifecycle.rotations)
    (hid : r.secretId = x.id) (hw : r.waiting = true) (now : Timestamp) (n : Number) :
    n ∈ (db.activate now r).lifecycle.numbers ↔ n = ⟨x.id, r.newVersion, false⟩ ∨
      (n ∈ db.lifecycle.numbers ∧ ¬ (n.secretId = x.id ∧ n.version = r.newVersion)) := by
  obtain ⟨hold, hnew, -, hnum⟩ := h.waiting x hx r hr hid hw
  -- the row of the old version is not pending, so deprecating it changes no number
  have hdeprecate : (db.activate now r).lifecycle = (db.updateVersions
      (fun v => v.secretId == r.secretId && v.version == r.newVersion)
      VersionRow.activate VersionRow.versionKey_activate).lifecycle := by
    refine lifecycle_updateVersions _ fun v' hv' hp => ?_
    simp only [Bool.and_eq_true, beq_iff_eq] at hp
    obtain ⟨v, hv, rfl⟩ := (Table.mem_update VersionRow.versionKey_activate).mp hv'
    by_cases hhit : (v.secretId == r.secretId && v.version == r.newVersion) = true
    · rw [if_pos hhit]
      rfl
    · rw [if_neg hhit] at hp ⊢
      have hsettled : v.number.pending ≠ true := by
        intro hpend
        have := (h.numbered x hx v.number (List.mem_map_of_mem hv) (hp.1.trans hid)).2.2 hpend
        have hver : v.number.version = r.oldVersion := hp.2
        omega
      have hstatus : (v.status == .pending) = false := by
        simpa [VersionRow.number] using hsettled
      rw [hstatus]
      rfl
  rw [hdeprecate, mem_numbers_updateVersions]
  constructor
  · rintro ⟨v, hv, rfl⟩
    by_cases hhit : (v.secretId == r.secretId && v.version == r.newVersion) = true
    · left
      rw [if_pos hhit]
      simp only [Bool.and_eq_true, beq_iff_eq] at hhit
      simp [VersionRow.number, VersionRow.activate, hhit.1, hhit.2, hid]
    · right
      rw [if_neg hhit]
      simp only [Bool.and_eq_true, beq_iff_eq, hid] at hhit
      exact ⟨List.mem_map_of_mem hv, hhit⟩
  · rintro (rfl | ⟨hn, hne⟩)
    · obtain ⟨v, hv, hvn⟩ := List.mem_map.mp hnum
      have hkey : v.secretId = x.id ∧ v.version = x.current + 1 := by
        simp only [VersionRow.number, Number.mk.injEq] at hvn
        exact ⟨hvn.1, hvn.2.1⟩
      refine ⟨v, hv, ?_⟩
      simp [hkey.1, hkey.2, hid, hnew, VersionRow.number, VersionRow.activate]
    · obtain ⟨v, hv, rfl⟩ := List.mem_map.mp hn
      refine ⟨v, hv, ?_⟩
      have hmiss : ¬ (v.secretId == r.secretId && v.version == r.newVersion) = true := by
        simpa [hid, VersionRow.number] using hne
      rw [if_neg hmiss]

theorem inv_confirm {rid : Uuid} {out : Int × Int × Option Timestamp}
    (hok : db.confirmRotation now rid by_ = .ok (db', out)) :
    db'.lifecycle.Inv := by
  obtain ⟨r, hr, rfl, hw, -, rfl, -⟩ := confirmRotation_eq_ok.mp hok
  obtain ⟨x, hx, hid, -⟩ := h.rotationOwned r hr
  refine h.confirm hx (r.confirm now by_ (db.graceEnd now r)) hr hid.symm hw
    (fun r₁ h₁ heq => Table.eq_of_key h₁ hr heq) ⟨rfl, rfl, rfl, rfl, rfl⟩
    (fun y => ?_) (mem_numbers_activate h hx hr hid.symm hw now) (fun r₁ => ?_)
  · have hpointers : ((db.activate now r).updateSecret now r.secretId
        (SecretRow.rotate now r.newVersion)
        (SecretRow.pathKey_rotate now r.newVersion)).lifecycle.pointers =
        db.lifecycle.pointers.map (repoint x.id r.newVersion) := by
      rw [hid]
      exact pointers_updateSecret (db.activate now r) now r.secretId r.newVersion _ fun _ => rfl
    exact (iff_of_eq (congrArg (y ∈ ·) hpointers)).trans (mem_map_repoint h.ids hx _ y)
  · refine (Table.mem_update (RotationRow.id_confirm now by_ (db.graceEnd now r))).trans ⟨?_, ?_⟩
    · rintro ⟨r₂, h₂, rfl⟩
      by_cases heq : r₂.id = r.id
      · left
        rw [Table.eq_of_key h₂ hr heq]
        simp
      · right
        simp [heq]
        exact h₂
    · rintro (rfl | ⟨h₁, hne⟩)
      · exact ⟨r, hr, by simp⟩
      · exact ⟨r₁, h₁, by simp [hne]⟩

end

theorem waiting_of_toRevoke (hr : r ∈ db.rotations) {batchSize : Nat} {picked : List Uuid}
    (h : ((db.toRevoke now batchSize picked).any fun x => x.id == r.id) = true) :
    r.waiting = false := by
  obtain ⟨r₁, h₁, heq⟩ := List.any_eq_true.mp h
  obtain ⟨hmem, hconf⟩ := mem_toRevoke h₁
  rw [← Table.eq_of_key hmem hr (by simpa using heq), RotationRow.waiting, hconf]
  rfl

theorem mem_rotations_revoke (hr : r ∈ db.rotations)
    (hw : r.waiting = true) (now : Timestamp) (batchSize : Nat) (picked : List Uuid) :
    r ∈ (db.revokeDeprecatedVersions now batchSize picked).1.rotations := by
  refine (Table.mem_update (RotationRow.id_complete now)).mpr ⟨r, hr, if_neg fun hp => ?_⟩
  exact absurd hw (Bool.eq_false_iff.mp (waiting_of_toRevoke hr hp))

theorem inv_revoke (h : db.lifecycle.Inv) (now : Timestamp) (batchSize : Nat) (picked : List Uuid) :
    (db.revokeDeprecatedVersions now batchSize picked).1.lifecycle.Inv := by
  have hnumbers : (db.updateVersions
      (fun v => (db.toRevoke now batchSize picked).any fun r =>
        v.secretId == r.secretId && v.version == r.oldVersion)
      (VersionRow.revoke now) (VersionRow.versionKey_revoke now)).lifecycle.numbers =
      db.lifecycle.numbers := by
    refine congrArg Lifecycle.numbers (lifecycle_updateVersions _ fun v hv hp => ?_)
    obtain ⟨r, hr, hkey⟩ := List.any_eq_true.mp hp
    simp only [Bool.and_eq_true, beq_iff_eq] at hkey
    obtain ⟨hmem, hconf⟩ := mem_toRevoke hr
    obtain ⟨x, hx, hid, -⟩ := h.rotationOwned r hmem
    -- the row is below the pointer, and a pending row is above it
    have hbelow := h.confirmed x hx r hmem hid.symm hconf
    have hsettled : v.number.pending ≠ true := by
      intro hpend
      have := (h.numbered x hx v.number (List.mem_map_of_mem hv)
        (hkey.1.trans hid.symm)).2.2 hpend
      have hver : v.number.version = r.oldVersion := hkey.2
      omega
    have hstatus : (v.status == .pending) = false := by simpa [VersionRow.number] using hsettled
    rw [hstatus]
    rfl
  refine h.complete rfl hnumbers (fun r' hr' => ?_) (fun r hr hw => ?_)
  · obtain ⟨r, hr, rfl⟩ := (Table.mem_update (RotationRow.id_complete now)).mp hr'
    split
    · exact .inr ⟨r, hr, rfl, rfl, rfl, rfl⟩
    · exact .inl hr
  · exact mem_rotations_revoke hr hw now batchSize picked

theorem inv_step (h : db.lifecycle.Inv) (op : Op) : (db.step op).1.lifecycle.Inv := by
  let P : Db → Prop := fun db' => db'.lifecycle.Inv
  cases op with
  | upsert now freshId p => exact transact_rule (P := P) h fun db' a hok => inv_upsert h hok
  | initiate now freshId p => exact transact_rule (P := P) h fun db' a hok => inv_initiate h hok
  | confirm now rid by_ => exact transact_rule (P := P) h fun db' a hok => inv_confirm h hok
  | rollback now t path target by_ =>
    exact transact_rule (P := P) h fun db' a hok => inv_rollback h hok
  | softDelete | destroy =>
    change (db.updateVersions _ _ _).lifecycle.Inv
    rw [lifecycle_updateVersions]
    · exact h
    · exact fun _ _ _ => rfl
  | revoke now batchSize picked => exact inv_revoke h now batchSize picked
  | markPending now sid => exact (lifecycle_markPending db now sid).symm ▸ h

/-- The invariant holds in every database that is reached. -/
theorem inv_run (tenants : List Uuid) (ops : List Op) :
    (run step (empty tenants) ops).lifecycle.Inv :=
  run_invariant step (fun db => db.lifecycle.Inv) (fun _ op h => inv_step h op)
    (s := empty tenants) Lifecycle.inv_empty ops

/-! A secret, and a rotation of it. -/

def firstPut : UpsertParams where
  tenantId := .nil
  path := "app/db"
  engine := .kvV2
  ciphertext := "c1"
  dekId := "k1"

def firstRotation : InitiateParams where
  tenantId := .nil
  path := "app/db"
  ciphertext := "c2"
  dekId := "k1"
  initiatedBy := "op"

end Db

end WslVault.Storage
