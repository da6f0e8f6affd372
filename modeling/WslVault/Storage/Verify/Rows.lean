import WslVault.Storage.Verify.SecretLifecycle

/-!
# The rows of one secret

What a write, a soft delete and a destroy do to the version rows, secret by secret: the rows
of the secret they are about change in place, and those of every other secret stay.
-/

namespace WslVault.Storage.Db

open Core Base

def idAt (db : Db) (t : Uuid) (path : String) : Option Uuid :=
  (db.secrets.get? (t, path)).map (·.id)

def rowsOf (db : Db) (sid : Uuid) : List VersionRow := db.versions.select (·.secretId == sid)

def rowsAt (db : Db) (t : Uuid) (path : String) : List VersionRow :=
  ((db.idAt t path).map db.rowsOf).getD []

variable {db db₁ db' : Db} {sid t freshId : Uuid} {path : String} {s : SecretRow}
  {f : SecretRow → SecretRow} {p : UpsertParams} {now : Timestamp} {v : VersionRow}
  {q : SecretRow → Bool}

theorem mem_rowsOf : v ∈ db.rowsOf sid ↔ v ∈ db.versions ∧ v.secretId = sid := by
  simp [rowsOf, Table.mem_select]

theorem idAt_eq_some :
    db.idAt t path = some sid ↔ ∃ s ∈ db.secrets, s.pathKey = (t, path) ∧ s.id = sid := by
  simp only [idAt, Option.map_eq_some_iff, Table.get?_eq_some, and_assoc]

theorem idAt_of_mem (hs : s ∈ db.secrets) (hkey : s.pathKey = (t, path)) :
    db.idAt t path = some s.id :=
  idAt_eq_some.mpr ⟨s, hs, hkey, rfl⟩

theorem idAt_eq_none : db.idAt t path = none ↔ ∀ s ∈ db.secrets, s.pathKey ≠ (t, path) := by
  rw [idAt, Option.map_eq_none_iff, Table.get?_eq_none]

theorem rowsAt_of_idAt (h : db.idAt t path = some sid) : db.rowsAt t path = db.rowsOf sid := by
  rw [rowsAt, h]
  rfl

theorem rowsAt_of_none (h : db.idAt t path = none) : db.rowsAt t path = [] := by
  rw [rowsAt, h]
  rfl

theorem path_eq_of_idAt (h : db.lifecycle.Inv) {t' : Uuid} {path' : String}
    (hid : db.idAt t path = some sid) (hid' : db.idAt t' path' = some sid) :
    (t, path) = (t', path') := by
  obtain ⟨s, hs, hkey, hsid⟩ := idAt_eq_some.mp hid
  obtain ⟨s', hs', hkey', hsid'⟩ := idAt_eq_some.mp hid'
  have := h.ids s.pointer (List.mem_map_of_mem hs) s'.pointer (List.mem_map_of_mem hs')
    (hsid.trans hsid'.symm)
  exact hkey.symm.trans ((congrArg Pointer.pathKey this).trans hkey')

theorem map_get?_update {γ : Type} {secrets : Table SecretRow SecretRow.pathKey}
    (hf : ∀ s, (f s).pathKey = s.pathKey)
    {g : SecretRow → γ} (hg : ∀ s, g (f s) = g s) (k : Uuid × String) :
    ((secrets.update q f hf).get? k).map g = (secrets.get? k).map g := by
  rw [Table.get?_update, Option.map_map]
  congr 1
  funext s
  simp only [Function.comp_apply]
  split
  · exact hg s
  · rfl

theorem idAt_update (db : Db) {p : SecretRow → Bool}
    (hf : ∀ s, (f s).pathKey = s.pathKey) (hid : ∀ s, (f s).id = s.id) (t : Uuid) (path : String) :
    idAt { db with secrets := db.secrets.update p f hf } t path = db.idAt t path := by
  exact map_get?_update hf hid (t, path)

theorem rowsOf_updateVersions (db : Db) (sid : Uuid) (q : VersionRow → Bool)
    {f : VersionRow → VersionRow} (hf : ∀ v, (f v).versionKey = v.versionKey) (sid' : Uuid) :
    (db.updateVersions (fun v => v.secretId == sid && q v) f hf).rowsOf sid' =
      if sid' = sid then (db.rowsOf sid).map fun v => if q v then f v else v
      else db.rowsOf sid' := by
  have hkeep : ∀ v, ((f v).secretId == sid') = (v.secretId == sid') := by
    intro v
    rw [show (f v).secretId = v.secretId from congrArg Prod.fst (hf v)]
  split
  · next h =>
    subst h
    refine (Table.select_update hf hkeep).trans (List.map_congr_left fun v hv => ?_)
    simp [(mem_rowsOf.mp hv).2]
  · next h =>
    refine Table.select_update_of_disjoint hf hkeep fun v _ hv => ?_
    simp [beq_iff_eq.mp hv, h]

theorem countP_versions (db : Db) (sid : Uuid) (q : VersionRow → Bool) :
    db.versions.rows.countP (fun v => v.secretId == sid && q v) = (db.rowsOf sid).countP q := by
  rw [rowsOf, Table.select, List.countP_filter]
  congr 1
  funext v
  exact Bool.and_comm _ _

/-! ## Writing -/

/-- The rows a write leaves: its own added, the undestroyed ones up to a
number gone. -/
def pruned (upTo : Int) (rows : List VersionRow) : List VersionRow :=
  rows.filter fun v => !(decide (v.version ≤ upTo) && !v.destroyed)

theorem rowsOf_pruneVersions (db : Db) (sid : Uuid) (upTo : Int) (sid' : Uuid) :
    (db.pruneVersions sid upTo).rowsOf sid' =
      if sid' = sid then pruned upTo (db.rowsOf sid) else db.rowsOf sid' := by
  have hprune : (db.pruneVersions sid upTo).rowsOf sid' = (db.rowsOf sid').filter fun v =>
      !(v.secretId == sid && decide (v.version ≤ upTo) && !v.destroyed) :=
    List.filter_comm _ _ _
  rw [hprune]
  split
  · next h =>
    subst h
    refine List.filter_congr fun v hv => ?_
    simp [(mem_rowsOf.mp hv).2]
  · next h =>
    refine List.filter_eq_self.mpr fun v hv => ?_
    simp [(mem_rowsOf.mp hv).2, h]

variable {versions : Table VersionRow VersionRow.versionKey}

theorem rowsOf_insert (h : db.versions.insert? v = some versions)
    {owner : Uuid} (howner : v.secretId = owner) (sid : Uuid) :
    versions.select (·.secretId == sid) =
      if sid = owner then db.rowsOf sid ++ [v] else db.rowsOf sid := by
  subst howner
  rw [Table.select, (Table.insert?_eq_some.mp h).2, List.filter_append]
  split
  · next heq => simp [heq, rowsOf, Table.select]
  · next hne => simp [Ne.symm hne, rowsOf, Table.select]

theorem idAt_upsertSecretRow (h : db.upsertSecretRow now freshId p = .ok (db₁, s)) (t : Uuid)
    (path : String) : db₁.idAt t path =
      if (t, path) = (p.tenantId, p.path) then some s.id else db.idAt t path := by
  rcases upsertSecretRow_eq_ok.mp h with
    ⟨s₀, hs₀, hkey, rfl, rfl⟩ | ⟨-, -, -, rfl, secrets, hins, rfl⟩
  · rw [idAt_update db (p.pathKey_refresh now) (fun _ => rfl)]
    split
    · next heq =>
      obtain ⟨rfl, rfl⟩ := Prod.mk.inj heq
      have hid := idAt_of_mem hs₀ hkey
      exact hid
    · rfl
  · simp only [idAt, Table.get?_insert? hins]
    by_cases heq : (t, path) = (p.tenantId, p.path)
    · have hkey : (p.newSecret now freshId).pathKey = (t, path) := heq.symm
      rw [if_pos hkey, if_pos heq]
      rfl
    · have hkey : (p.newSecret now freshId).pathKey ≠ (t, path) := fun h => heq h.symm
      rw [if_neg hkey, if_neg heq]

variable {n : Int}

/-- A write puts its secret at the path, with its rows followed by the new one
and pruned. -/
theorem upsertSecret_rows (hok : db.upsertSecret now freshId p = .ok (db', (sid, n))) :
    (∀ t path, db'.idAt t path =
      if (t, path) = (p.tenantId, p.path) then some sid else db.idAt t path) ∧
    (∀ sid', db'.rowsOf sid' =
      if sid' = sid then pruned (n - p.maxVersions) (db.rowsOf sid ++ [p.newVersion now sid n])
      else db.rowsOf sid') := by
  obtain ⟨db₁, s, versions, hrow, -, -, -, hins, rfl, hout⟩ := upsertSecret_eq_ok.mp hok
  obtain ⟨rfl, rfl⟩ := Prod.mk.inj hout
  obtain ⟨hversions, -, -⟩ := pointers_upsertSecretRow hrow
  rw [hversions] at hins
  constructor
  · intro t path
    rw [← idAt_upsertSecretRow hrow]
    exact idAt_update { db₁ with versions := versions }
      (f := fun r : SecretRow => (r.setCurrentVersion (s.currentVersion + 1)).touch now)
      (SecretRow.pathKey_setCurrentVersion (s.currentVersion + 1)) (fun _ => rfl) t path
  · intro sid'
    have hwritten : (db₁.written now p s versions).rowsOf sid' =
        if sid' = s.id then pruned (s.currentVersion + 1 - p.maxVersions)
          (versions.select (·.secretId == s.id))
        else versions.select (·.secretId == sid') :=
      rowsOf_pruneVersions _ s.id (s.currentVersion + 1 - p.maxVersions) sid'
    have howner : (p.newVersion now s.id (s.currentVersion + 1)).secretId = s.id := rfl
    rw [hwritten]
    split
    · rw [rowsOf_insert hins howner, if_pos rfl]
    · next h => rw [rowsOf_insert hins howner, if_neg h]

variable {out : Uuid × Int} {k : Uuid × String}

theorem rotations_upsertSecret (hok : db.upsertSecret now freshId p = .ok (db', out)) :
    db'.rotations.rows = db.rotations.rows := by
  obtain ⟨db₁, s, versions, hrow, -, -, -, -, rfl, -⟩ := upsertSecret_eq_ok.mp hok
  exact congrArg Table.rows (pointers_upsertSecretRow hrow).2.1

theorem rowsAt_upsertSecretRow (h : db.lifecycle.Inv)
    (hrow : db.upsertSecretRow now freshId p = .ok (db₁, s)) :
    db.rowsAt p.tenantId p.path = db.rowsOf s.id ∧
      (db.idAt p.tenantId p.path = some s.id ∨ ∀ t path, db.idAt t path ≠ some s.id) := by
  rcases upsertSecretRow_eq_ok.mp hrow with
    ⟨s₀, hs₀, hkey, rfl, -⟩ | ⟨hno, hfresh, -, rfl, -⟩
  · have hid : db.idAt p.tenantId p.path = some s₀.id := idAt_of_mem hs₀ hkey
    exact ⟨rowsAt_of_idAt hid, .inl hid⟩
  · constructor
    · rw [rowsAt_of_none (idAt_eq_none.mpr hno)]
      refine (List.eq_nil_iff_forall_not_mem.mpr fun v hv => ?_).symm
      obtain ⟨hmem, hvid⟩ := mem_rowsOf.mp hv
      obtain ⟨x, hx, hid⟩ := h.owned v.number (List.mem_map_of_mem hmem)
      obtain ⟨s', hs', rfl⟩ := List.mem_map.mp hx
      exact hfresh s' hs' (hid.trans hvid)
    · refine .inr fun t path hid => ?_
      obtain ⟨s', hs', -, hsid⟩ := idAt_eq_some.mp hid
      exact hfresh s' hs' hsid

/-! ## What a path shows -/

def labels (s : SecretRow) : SecretEnvironment × List String := (s.environment, s.tags)

/-- What the secret at a path is at present: the ciphertext the write pointer
names, and the labels. -/
def current (db : Db) (t : Uuid) (path : String) :
    Option (Option String × SecretEnvironment × List String) :=
  (db.secrets.get? (t, path)).map fun s =>
    ((db.versions.get? (s.id, s.currentVersion)).map (·.ciphertext), labels s)

theorem get?_upsertSecretRow (h : db.upsertSecretRow now freshId p = .ok (db₁, s)) :
    db₁.secrets.get? (p.tenantId, p.path) = some s ∧
      labels s = ((db.secrets.get? (p.tenantId, p.path)).map labels).getD (.int, []) := by
  rcases upsertSecretRow_eq_ok.mp h with
    ⟨s₀, hs₀, hkey, rfl, rfl⟩ | ⟨hno, -, -, rfl, secrets, hins, rfl⟩
  · have hget := Table.get?_eq_some.mpr ⟨hs₀, hkey⟩
    rw [Table.get?_update (p.pathKey_refresh now), hget]
    simp [hkey, labels, UpsertParams.refresh]
  · rw [Table.get?_eq_none.mpr hno]
    exact ⟨(Table.get?_insert? hins _).trans (if_pos rfl), rfl⟩

theorem get?_written
    (hget : db₁.secrets.get? k = some s) : (db₁.written now p s versions).secrets.get? k =
      some ((s.setCurrentVersion (s.currentVersion + 1)).touch now) := by
  have hupdate := Table.get?_update (t := db₁.secrets) (p := fun x => decide (x.id = s.id))
    (f := fun x => (x.setCurrentVersion (s.currentVersion + 1)).touch now)
    (SecretRow.pathKey_setCurrentVersion (s.currentVersion + 1)) k
  rw [hget] at hupdate
  exact hupdate.trans (by simp)

/-- A write moves the pointer of the path's secret to the new version, stamps
the row and leaves the labels; a new secret has the columns' defaults. -/
theorem get?_upsertSecret (hok : db.upsertSecret now freshId p = .ok (db', (sid, n))) :
    ∃ s, db'.secrets.get? (p.tenantId, p.path) = some s ∧ s.id = sid ∧ s.currentVersion = n ∧
      s.updatedAt = now ∧
      labels s = ((db.secrets.get? (p.tenantId, p.path)).map labels).getD (.int, []) := by
  obtain ⟨db₁, s, versions, hrow, -, -, -, -, rfl, hout⟩ := upsertSecret_eq_ok.mp hok
  obtain ⟨rfl, rfl⟩ := Prod.mk.inj hout
  obtain ⟨hget, hlabels⟩ := get?_upsertSecretRow hrow
  exact ⟨_, get?_written hget, rfl, rfl, rfl, hlabels⟩

theorem labels_upsertSecret
    (hok : db.upsertSecret now freshId p = .ok (db', out))
    (hne : k ≠ (p.tenantId, p.path)) :
    (db'.secrets.get? k).map labels = (db.secrets.get? k).map labels := by
  obtain ⟨db₁, s, versions, hrow, -, -, -, -, rfl, -⟩ := upsertSecret_eq_ok.mp hok
  have hpointer : ((db₁.written now p s versions).secrets.get? k).map labels =
      (db₁.secrets.get? k).map labels :=
    map_get?_update (f := fun x => (x.setCurrentVersion (s.currentVersion + 1)).touch now)
      (SecretRow.pathKey_setCurrentVersion (s.currentVersion + 1)) (fun _ => rfl) k
  rw [hpointer]
  rcases upsertSecretRow_eq_ok.mp hrow with
    ⟨s₀, -, -, -, rfl⟩ | ⟨-, -, -, rfl, secrets, hins, rfl⟩
  · exact map_get?_update (p.pathKey_refresh now) (fun _ => rfl) k
  · have hother : (p.newSecret now freshId).pathKey ≠ k := fun h => hne h.symm
    rw [Table.get?_insert? hins, if_neg hother]

theorem version_upsertSecret (hok : db.upsertSecret now freshId p = .ok (db', (sid, n)))
    (hmax : 0 < p.maxVersions) : db'.versions.get? (sid, n) = some (p.newVersion now sid n) := by
  obtain ⟨db₁, s, versions, -, -, -, -, hins, rfl, hout⟩ := upsertSecret_eq_ok.mp hok
  obtain ⟨rfl, rfl⟩ := Prod.mk.inj hout
  refine Table.get?_eq_some.mpr ⟨Table.mem_delete.mpr ⟨?_, ?_⟩, rfl⟩
  · exact (Table.mem_of_insert? hins).mpr (.inr rfl)
  · have hkept : ¬ s.currentVersion + 1 ≤ s.currentVersion + 1 - p.maxVersions := by omega
    simp [UpsertParams.newVersion, hkept]

theorem newest_upsertSecret (h : db.lifecycle.Inv)
    (hok : db.upsertSecret now freshId p = .ok (db', (sid, n))) (hmax : 0 < p.maxVersions) :
    p.newVersion now sid n ∈ db'.rowsOf sid ∧ ∀ w ∈ db'.rowsOf sid, w.version ≤ n := by
  obtain ⟨hv, hkey⟩ := Table.get?_eq_some.mp (version_upsertSecret hok hmax)
  refine ⟨mem_rowsOf.mpr ⟨hv, rfl⟩, fun w hw => ?_⟩
  obtain ⟨db₁, s, versions, hrow, -, -, -, -, -, hout⟩ := upsertSecret_eq_ok.mp hok
  obtain ⟨rfl, rfl⟩ := Prod.mk.inj hout
  rw [(upsertSecret_rows hok).2, if_pos rfl] at hw
  rcases List.mem_append.mp (List.mem_filter.mp hw).1 with hw | hw
  · obtain ⟨hmem, hid⟩ := mem_rowsOf.mp hw
    rcases (pointers_upsertSecretRow hrow).2.2 with ⟨hx, -⟩ | ⟨-, hnew, -⟩
    · obtain ⟨-, hsettled, hpending⟩ := h.numbered s.pointer hx w.number
        (List.mem_map_of_mem hmem) hid
      cases hp : w.number.pending with
      | false =>
        have hle : w.version ≤ s.currentVersion := hsettled hp
        omega
      | true => exact Int.le_of_eq (hpending hp)
    · -- a secret that is new has no rows yet
      obtain ⟨x, hx, hxid⟩ := h.owned w.number (List.mem_map_of_mem hmem)
      exact absurd (hxid.trans hid) (hnew x hx)
  · rw [List.mem_singleton.mp hw]
    exact Int.le_refl _

theorem current_update (db : Db) (hf : ∀ s, (f s).pathKey = s.pathKey)
    (hid : ∀ s, (f s).id = s.id) (hcurrent : ∀ s, (f s).currentVersion = s.currentVersion)
    (hlabels : ∀ s, labels (f s) = labels s) (t : Uuid) (path : String) :
    current { db with secrets := db.secrets.update q f hf } t path = db.current t path := by
  refine map_get?_update hf (fun s => ?_) (t, path)
  rw [hid, hcurrent, hlabels]

theorem current_upsertSecret
    (hok : db.upsertSecret now freshId p = .ok (db', out)) (hmax : 0 < p.maxVersions) :
    db'.current p.tenantId p.path = some (some p.ciphertext,
      ((db.secrets.get? (p.tenantId, p.path)).map labels).getD (.int, [])) := by
  obtain ⟨s, hget, hid, hcurrent, -, hlabels⟩ := get?_upsertSecret hok
  rw [current, hget, Option.map_some, hid, hcurrent, version_upsertSecret hok hmax, hlabels]
  rfl

def lifecycleColumns (s : SecretRow) : SecretType × Option Int × Option Int × Option Int ×
    Option String × Option Timestamp :=
  (s.secretType, s.ttlSeconds, s.rotationIntervalSeconds, s.gracePeriodSeconds, s.webhookUrl,
    s.nextRotationAt)

/-- A write that names no lifecycle parameters: all have their defaults. -/
structure PlainWrite (p : UpsertParams) : Prop where
  secretType : p.secretType = .staleTtl
  ttlSeconds : p.ttlSeconds = none
  rotationInterval : p.rotationInterval = none
  graceSecs : p.graceSecs = some 3600
  webhookUrl : p.webhookUrl = none

/-- The two columns whose parameters do not default to `NULL` are overwritten. -/
theorem PlainWrite.lifecycleColumns_iff (h : PlainWrite p)
    (hok : db.upsertSecret now freshId p = .ok (db', out))
    (hs : db.secrets.get? (p.tenantId, p.path) = some s) :
    (db'.secrets.get? (p.tenantId, p.path)).map lifecycleColumns = some (lifecycleColumns s) ↔
      s.secretType = .staleTtl ∧ s.gracePeriodSeconds = some 3600 := by
  obtain ⟨db₁, s₁, versions, hrow, -, -, -, -, rfl, -⟩ := upsertSecret_eq_ok.mp hok
  rw [get?_written (get?_upsertSecretRow hrow).1, Option.map_some, Option.some.injEq]
  rcases upsertSecretRow_eq_ok.mp hrow with ⟨s₀, hs₀, hkey, rfl, -⟩ | ⟨hno, -⟩
  · rw [Option.some.inj ((Table.get?_eq_some.mpr ⟨hs₀, hkey⟩).symm.trans hs)]
    simp [lifecycleColumns, SecretRow.setCurrentVersion, SecretRow.touch, UpsertParams.refresh,
      UpsertParams.nextRotationAt, h.secretType, h.ttlSeconds, h.rotationInterval, h.graceSecs,
      h.webhookUrl, eq_comm]
  · rw [Table.get?_eq_none.mpr hno] at hs
    cases hs

end WslVault.Storage.Db
