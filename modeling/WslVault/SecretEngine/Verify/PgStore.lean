import Mathlib.Data.Finset.Max
import WslVault.SecretEngine.PgStore
import WslVault.Storage.Verify.Rows

/-!
# Reading through the PostgreSQL backend

A read without a version asks for the highest live number of the secret, and the row of an
initiated rotation is live and above all others.
-/

namespace WslVault.SecretEngine

open Core Base Storage SecretStore

variable {v : VersionRow} {r : PutRequest} {db : Db} {path : String} {t : Uuid} {s : SecretRow}
  {k : Uuid × String}

theorem mem_listVersionHistory : v ∈ listVersionHistory db t path ↔
      v ∈ db.versions ∧ ∃ s ∈ db.secrets, s.id = v.secretId ∧ s.pathKey = (t, path) := by
  simp [listVersionHistory, List.mem_insertionSort, Table.mem_select, Table.mem_def]

theorem getSecretMetadata_of_mem (hs : s ∈ db.secrets) (hkey : s.pathKey = (t, path)) :
    getSecretMetadata db t path = .ok ⟨s.id, asU32 s.currentVersion⟩ := by
  rw [getSecretMetadata, Table.get?_eq_some.mpr ⟨hs, hkey⟩]

theorem getSecretMetadata_of_absent (hno : ∀ s ∈ db.secrets, s.pathKey ≠ (t, path)) :
    getSecretMetadata db t path = .error (.secretNotFound path none) := by
  rw [getSecretMetadata, Table.get?_eq_none.mpr hno]

theorem SecretStore.lifecycle_setLabels (db : Db) (now : Timestamp)
    (r : SecretStore.UpsertRequest) :
    (setLabels db now r).lifecycle = db.lifecycle := by
  have hpointers : (db.secrets.update (fun s => s.pathKey == (r.tenantId, r.path))
      (SecretRow.setLabels now r.environment r.tags r.customMetadata)
      (SecretRow.pathKey_setLabels now r.environment r.tags r.customMetadata)).rows.map
        (·.pointer) = db.secrets.rows.map (·.pointer) :=
    Table.map_rows_update _ fun _ _ _ => rfl
  simp only [Db.lifecycle, setLabels, hpointers]

theorem SecretStore.get?_setLabels {r : SecretStore.UpsertRequest}
    (hget : db.secrets.get? (r.tenantId, r.path) = some s) (now : Timestamp) :
    (setLabels db now r).secrets.get? (r.tenantId, r.path) =
      some (s.setLabels now r.environment r.tags r.customMetadata) := by
  rw [setLabels, Table.get?_update_key _ fun _ => beq_iff_eq, hget]
  rfl

theorem SecretStore.get?_setLabels_ne {r : SecretStore.UpsertRequest}
    (hne : k ≠ (r.tenantId, r.path)) (db : Db) (now : Timestamp) :
    (setLabels db now r).secrets.get? k = db.secrets.get? k := by
  rw [setLabels, Table.get?_update]
  refine (Option.map_congr fun s hs => if_neg fun h => hne ?_).trans Option.map_id'
  exact (Table.get?_eq_some.mp hs).2.symm.trans (beq_iff_eq.mp h)

theorem latestLiveVersion_of_newest (hv : v ∈ db.versions) (hlive : v.live = true)
    (hmax : ∀ w ∈ db.versions, w.secretId = v.secretId → w.live = true → w.version ≤ v.version) :
    latestLiveVersion db v.secretId = asU32 v.version := by
  have hnewest : ((db.versions.select fun w => w.secretId == v.secretId && w.live).map
      (·.version)).max? = some v.version := by
    rw [List.max?_eq_some_iff]
    constructor
    · exact List.mem_map_of_mem (Table.mem_select.mpr ⟨hv, by simp [hlive]⟩)
    · intro n hn
      obtain ⟨w, hw, rfl⟩ := List.mem_map.mp hn
      obtain ⟨hmem, hp⟩ := Table.mem_select.mp hw
      simp only [Bool.and_eq_true, beq_iff_eq] at hp
      exact hmax w hmem hp.1 hp.2
  rw [latestLiveVersion, hnewest]
  rfl

theorem latestLiveVersion_of_none {sid : Uuid}
    (hno : ∀ w ∈ db.versions, w.secretId = sid → w.live = false) :
    latestLiveVersion db sid = 0 := by
  have hempty : (db.versions.select fun w => w.secretId == sid && w.live) = [] := by
    refine List.eq_nil_iff_forall_not_mem.mpr fun w hw => ?_
    obtain ⟨hmem, hp⟩ := Table.mem_select.mp hw
    simp only [Bool.and_eq_true, beq_iff_eq] at hp
    rw [hno w hmem hp.1] at hp
    cases hp.2
  rw [latestLiveVersion, hempty]
  rfl

namespace PgSecretBackend

variable {db : PgSecretBackend} {tenantId path : String} {t : Uuid} {s : SecretRow}

theorem asU32_version_ne_zero (h : db.lifecycle.Inv) (hv : v ∈ db.versions) :
    asU32 v.version ≠ 0 ∧ asI32 (asU32 v.version) = v.version := by
  obtain ⟨hpos, hmax⟩ := h.number_range (n := v.number) (List.mem_map_of_mem hv)
  have hpos : 1 ≤ v.version := hpos
  have hmax : v.version ≤ 2147483647 := hmax
  exact ⟨asU32_ne_zero hpos hmax, asI32_asU32 (by omega) hmax⟩

theorem parseTenantId_of_some (ht : Uuid.parseStr tenantId = some t) :
    parseTenantId tenantId = .ok t := by
  rw [parseTenantId, ht]

theorem changeVersions_nil (db : Db) (c : VersionChange) (sid : Uuid) :
    db.changeVersions c sid [] = (db, 0) := by
  have hversions : db.versions.update (fun v => v.secretId == sid &&
      (List.contains ([] : List Int) v.version && c.still v)) c.made c.key = db.versions := by
    apply Table.ext_rows
    simp [Table.update]
  refine Prod.ext ?_ ?_
  · exact congrArg (fun versions => { db with versions := versions }) hversions
  · simp [Db.changeVersions]

variable {targets : Uuid → SecretMetadata → List UInt32}

section Path

variable (ht : Uuid.parseStr tenantId = some t)

include ht

section Absent

variable (hno : ∀ s ∈ db.secrets, s.pathKey ≠ (t, path))

include hno

theorem get_of_absent (version : Option UInt32) :
    db.get tenantId path version = .error (.secretNotFound path none) := by
  rw [get, parseTenantId_of_some ht, ok_bind, getSecretMetadata_of_absent hno, error_bind]

theorem changeVersions_of_absent {change : Uuid → List UInt32 → Db × UInt32} :
    db.changeVersions tenantId path targets change =
      (db, .error (.secretNotFound path none)) := by
  rw [changeVersions, parseTenantId_of_some ht, ok_bind, getSecretMetadata_of_absent hno,
    error_bind]
  rfl

end Absent

variable (hs : s ∈ db.secrets) (hkey : s.pathKey = (t, path))

include hs hkey

theorem get_of_mem (version : Option UInt32) : db.get tenantId path version =
      let target := version.getD (latestLiveVersion db s.id)
      if target = 0 then .error (.secretNotFound path none)
      else (getSecretVersion db s.id target).map entryOfRow := by
  rw [get, parseTenantId_of_some ht, ok_bind, getSecretMetadata_of_mem hs hkey, ok_bind]
  dsimp only
  split
  · rfl
  · cases getSecretVersion db s.id _ with
    | error e => rfl
    | ok v => rfl

theorem get_none_of_no_live (hno : ∀ w ∈ db.versions, w.secretId = s.id → w.live = false) :
    db.get tenantId path none = .error (.secretNotFound path none) := by
  rw [get_of_mem ht hs hkey]
  simp [latestLiveVersion_of_none hno]

theorem changeVersions_of_mem (c : VersionChange) :
    db.changeVersions tenantId path targets (fun sid versions =>
        (Db.changeVersions db c sid (versions.map asI32)).map id UInt32.ofNat) =
      let out := Db.changeVersions db c s.id
        ((targets t ⟨s.id, asU32 s.currentVersion⟩).map asI32)
      (out.1, .ok (UInt32.ofNat out.2)) := by
  rw [changeVersions, parseTenantId_of_some ht, ok_bind, getSecretMetadata_of_mem hs hkey, ok_bind]
  cases targets t ⟨s.id, asU32 s.currentVersion⟩ with
  | nil =>
    simp only [List.map_nil, changeVersions_nil]
    rfl
  | cons n ns => rfl

variable (h : db.lifecycle.Inv) (hv : v ∈ db.versions) (hid : v.secretId = s.id)

include h hv hid

theorem get_of_row (hundestroyed : v.destroyed = false) {version : Option UInt32}
    (htarget : version.getD (latestLiveVersion db s.id) = asU32 v.version) :
    db.get tenantId path version = .ok (entryOfRow v) := by
  obtain ⟨hne, hround⟩ := asU32_version_ne_zero h hv
  have hvkey : v.versionKey = (s.id, v.version) := Prod.ext hid rfl
  rw [get_of_mem ht hs hkey]
  simp [htarget, hne, getSecretVersion, hround, Table.get?_eq_some.mpr ⟨hv, hvkey⟩,
    hundestroyed, Except.map]

theorem get_none_of_newest (hlive : v.live = true)
    (hmax : ∀ w ∈ db.versions, w.secretId = s.id → w.live = true → w.version ≤ v.version) :
    db.get tenantId path none = .ok (entryOfRow v) := by
  have hlatest := latestLiveVersion_of_newest hv hlive (hid ▸ hmax)
  rw [hid] at hlatest
  have hundestroyed : v.destroyed = false := by
    simp only [VersionRow.live, Bool.and_eq_true, Bool.not_eq_true'] at hlive
    exact hlive.2
  exact get_of_row ht hs hkey h hv hid hundestroyed hlatest

end Path

theorem put_of_parse (ht : Uuid.parseStr r.tenantId = some t) (freshId : Uuid) : db.put freshId r =
      match db.upsertSecret r.now freshId (upsertRequest t r).params with
      | .error e => (db, .error ((upsertRequest t r).error e))
      | .ok (db', sid, n) =>
        (setLabels db' r.now (upsertRequest t r), .ok (sid.toString, asU32 n)) := by
  rw [put, parseTenantId_of_some ht, ok_bind, upsertSecretVersion]
  cases db.upsertSecret r.now freshId (upsertRequest t r).params with
  | error e => rfl
  | ok out => rfl

theorem put_of_not_parse (db : PgSecretBackend)
    (ht : Uuid.parseStr r.tenantId = none) (freshId : Uuid) :
    ∃ e, db.put freshId r = (db, .error e) := by
  rw [put, parseTenantId, ht]
  exact ⟨_, rfl⟩

variable {freshId : Uuid} {db' : PgSecretBackend} {out : String × UInt32} {e : VaultError}
  {w : VersionRow}

theorem put_eq_ok (hput : db.put freshId r = (db', .ok out)) :
    ∃ t db₁ sid n, Uuid.parseStr r.tenantId = some t ∧
      db.upsertSecret r.now freshId (upsertRequest t r).params = .ok (db₁, sid, n) ∧
      db' = setLabels db₁ r.now (upsertRequest t r) ∧
      out = (sid.toString, asU32 n) := by
  cases ht : Uuid.parseStr r.tenantId with
  | none =>
    obtain ⟨e, he⟩ := put_of_not_parse db ht freshId
    rw [he] at hput
    cases hput
  | some t =>
    rw [put_of_parse ht] at hput
    split at hput
    · cases hput
    · next db₁ sid n hup =>
      cases hput
      exact ⟨t, db₁, sid, n, rfl, hup, rfl, rfl⟩

theorem commit_of_error {α : Type} {x : Except VaultError (PgSecretBackend × α)}
    (h : (db.commit x).2 = .error e) : (db.commit x).1 = db := by
  cases x with
  | ok out => cases h
  | error e => rfl

theorem put_of_error (h : (db.put freshId r).2 = .error e) : (db.put freshId r).1 = db :=
  commit_of_error h

theorem get?_put (ht : Uuid.parseStr r.tenantId = some t)
    (hput : db.put freshId r = (db', .ok out)) :
    ∃ s, db'.secrets.get? (t, r.path) = some s ∧
      Db.labels s = ((upsertRequest t r).environment, (upsertRequest t r).tags) ∧
      out.2 = asU32 s.currentVersion ∧
      (0 < asI32 (r.maxVersions.getD 10) → db'.versions.get? (s.id, s.currentVersion) =
        some ((upsertRequest t r).params.newVersion r.now s.id s.currentVersion)) := by
  obtain ⟨t', db₁, sid, n, ht', hup, rfl, rfl⟩ := put_eq_ok hput
  obtain rfl : t' = t := Option.some.inj (ht'.symm.trans ht)
  obtain ⟨s, hget, rfl, rfl, -, -⟩ := Db.get?_upsertSecret hup
  have hversion := fun hmax => Db.version_upsertSecret hup hmax
  exact ⟨_, SecretStore.get?_setLabels hget r.now, rfl, rfl, hversion⟩

theorem labels_put (db : PgSecretBackend) (ht : Uuid.parseStr r.tenantId = some t)
    (freshId : Uuid) (hne : k ≠ (t, r.path)) :
    ((db.put freshId r).1.secrets.get? k).map Db.labels = (db.secrets.get? k).map Db.labels := by
  rw [put_of_parse ht]
  split
  · rfl
  · next db₁ sid n hup =>
    rw [← Db.labels_upsertSecret hup hne, SecretStore.get?_setLabels_ne hne]

theorem mem_pruned {upTo : Int} {rows : List VersionRow} :
    v ∈ Db.pruned upTo rows ∧ v.destroyed = false ↔
      v ∈ rows ∧ v.destroyed = false ∧ upTo < v.version := by
  simp only [Db.pruned, List.mem_filter, Bool.not_eq_true', Bool.and_eq_false_iff,
    decide_eq_false_iff_not, Int.not_le, Bool.not_eq_false']
  constructor
  · rintro ⟨⟨hv, hkept | hgone⟩, hd⟩
    · exact ⟨hv, hd, hkept⟩
    · rw [hd] at hgone
      cases hgone
  · rintro ⟨hv, hd, hkept⟩
    exact ⟨⟨hv, .inl hkept⟩, hd⟩

/-- A limit below 2³¹ keeps what it says. A larger one turns negative in the
cast, and the write prunes its own version with all the others. -/
theorem put_retains_newest_iff {db' : PgSecretBackend} {freshId : Uuid} {out : String × UInt32}
    (hput : db.put freshId r = (db', .ok out)) (hpos : 1 ≤ r.maxVersions.getD 10) :
    ∃ t sid n, Uuid.parseStr r.tenantId = some t ∧ db'.idAt t r.path = some sid ∧
      out = (sid.toString, asU32 n) ∧
      (((upsertRequest t r).params.newVersion r.now sid n ∈ db'.rowsOf sid ∧
        ∀ w, w ∈ db'.rowsOf sid ∧ w.destroyed = false ↔
          (w ∈ db.rowsOf sid ∧ w.destroyed = false ∧
            n - (r.maxVersions.getD 10).toNat < w.version) ∨
          w = (upsertRequest t r).params.newVersion r.now sid n) ↔
        (r.maxVersions.getD 10).toNat < 2147483648) := by
  obtain ⟨t, db₁, sid, n, ht, hup, rfl, rfl⟩ := put_eq_ok hput
  obtain ⟨-, hrows⟩ := Db.upsertSecret_rows hup
  have hid : (SecretStore.setLabels db₁ r.now (upsertRequest t r)).idAt t r.path = some sid := by
    obtain ⟨s, hget, rfl, -⟩ := Db.get?_upsertSecret hup
    rw [Db.idAt]
    exact congrArg (Option.map SecretRow.id) (SecretStore.get?_setLabels hget r.now)
  have hrows : (SecretStore.setLabels db₁ r.now (upsertRequest t r)).rowsOf sid =
      Db.pruned (n - asI32 (r.maxVersions.getD 10))
        (db.rowsOf sid ++ [(upsertRequest t r).params.newVersion r.now sid n]) :=
    (hrows sid).trans (if_pos rfl)
  refine ⟨t, sid, n, ht, hid, rfl, ?_⟩
  generalize hnew : (upsertRequest t r).params.newVersion r.now sid n = new at *
  have hundestroyed : new.destroyed = false := hnew ▸ rfl
  have hversion : new.version = n := hnew ▸ rfl
  have hone : 1 ≤ (r.maxVersions.getD 10).toNat := UInt32.le_iff_toNat_le.mp hpos
  have hmem : ∀ w, w ∈ (SecretStore.setLabels db₁ r.now (upsertRequest t r)).rowsOf sid ∧
      w.destroyed = false ↔ (w ∈ db.rowsOf sid ∨ w = new) ∧ w.destroyed = false ∧
        n - asI32 (r.maxVersions.getD 10) < w.version := by
    intro w
    rw [hrows, mem_pruned, List.mem_append, List.mem_singleton]
  constructor
  · rintro ⟨hkept, -⟩
    obtain ⟨-, -, habove⟩ := (hmem new).mp ⟨hkept, hundestroyed⟩
    unfold asI32 at habove
    split at habove
    · assumption
    · have := (r.maxVersions.getD 10).toNat_lt
      omega
  · intro hlimit
    have hcast : asI32 (r.maxVersions.getD 10) = (r.maxVersions.getD 10).toNat := if_pos hlimit
    rw [hcast] at hmem
    have hkept : n - ((r.maxVersions.getD 10).toNat : Int) < new.version := by omega
    refine ⟨((hmem new).mpr ⟨.inr rfl, hundestroyed, hkept⟩).1, fun w => ?_⟩
    rw [hmem, or_and_right]
    refine or_congr_right ⟨And.left, ?_⟩
    rintro rfl
    exact ⟨rfl, hundestroyed, hkept⟩

def limitedPut (limit : UInt32) : PutRequest where
  now := 0
  freshId := ""
  tenantId := Uuid.nil.toString
  path := "p"
  ciphertext := "c"
  dekId := "k"
  cas := none
  customMetadata := ∅
  maxVersions := some limit

/-- The second put prunes the version of the first. -/
theorem put_retains_one :
    let db := (PgSecretBackend.put (.empty [.nil]) .nil (limitedPut 1)).1
    db.versions.rows.map (·.version) = [1] ∧ ∃ db' out t sid n,
      db.put .nil (limitedPut 1) = (db', .ok out) ∧ db'.versions.rows.map (·.version) = [2] ∧
      (upsertRequest t (limitedPut 1)).params.newVersion 0 sid n ∈ db'.rowsOf sid := by
  intro db
  have hput : db.put .nil (limitedPut 1) = (_, .ok _) := rfl
  obtain ⟨t, sid, n, -, -, -, hiff⟩ := put_retains_newest_iff hput (by decide)
  exact ⟨rfl, _, _, t, sid, n, hput, rfl, (hiff.mpr (by decide)).1⟩

/-- The largest limit is -1 after the cast: the write succeeds and leaves nothing. -/
theorem put_prunes_own_version :
    (PgSecretBackend.put (.empty [.nil]) .nil (limitedPut 4294967295)).2 =
        .ok (Uuid.nil.toString, 1) ∧
      (PgSecretBackend.put (.empty [.nil]) .nil (limitedPut 4294967295)).1.versions.rows = [] :=
  ⟨rfl, rfl⟩

/-! ## Rotations and readers -/

/-- A live version whose rotation, if it came from one, was confirmed. -/
def Settled (v : VersionRow) : Prop := v.live = true ∧ v.status ≠ .pending

/-- A read without a version gives the newest settled version of the path, or
reports the secret as absent when there is none. -/
def ReadsSettled (db : PgSecretBackend) (tenantId path : String) : Prop :=
  ∀ t, Uuid.parseStr tenantId = some t →
    (∀ v ∈ SecretStore.listVersionHistory db t path, Settled v →
      (∀ w ∈ SecretStore.listVersionHistory db t path, Settled w → w.version ≤ v.version) →
      db.get tenantId path none = .ok (entryOfRow v)) ∧
    ((∀ v ∈ SecretStore.listVersionHistory db t path, ¬ Settled v) →
      db.get tenantId path none = .error (.secretNotFound path none))

theorem version_le_pending (h : db.lifecycle.Inv) (hs : s ∈ db.secrets)
    (hv : v ∈ db.versions) (hvid : v.secretId = s.id) (hw : w ∈ db.versions)
    (hwid : w.secretId = s.id) (hpending : w.status = .pending) : v.version ≤ w.version := by
  have hx : s.pointer ∈ db.lifecycle.pointers := List.mem_map_of_mem hs
  obtain ⟨-, -, hnext⟩ := h.numbered _ hx w.number (List.mem_map_of_mem hw) hwid
  obtain ⟨-, hsettled, hnext'⟩ := h.numbered _ hx v.number (List.mem_map_of_mem hv) hvid
  have hw' : w.version = s.currentVersion + 1 := hnext (by simp [VersionRow.number, hpending])
  cases hp : v.number.pending with
  | false =>
    have hv' : v.version ≤ s.currentVersion := hsettled hp
    omega
  | true =>
    have hv' : v.version = s.currentVersion + 1 := hnext' hp
    omega

theorem exists_newest {l : List VersionRow} {p : VersionRow → Prop} (h : ∃ v ∈ l, p v) :
    ∃ v ∈ l, p v ∧ ∀ w ∈ l, p w → w.version ≤ v.version := by
  classical
  obtain ⟨v, hv, hp⟩ := h
  obtain ⟨m, hm, hmax⟩ := (l.toFinset.filter p).exists_max_image (·.version) ⟨v, by simp [hv, hp]⟩
  simp only [Finset.mem_filter, List.mem_toFinset] at hm hmax
  exact ⟨m, hm.1, hm.2, fun w hw hpw => hmax w ⟨hw, hpw⟩⟩

theorem eq_of_entryOfRow (h : db.lifecycle.Inv) (hv : v ∈ db.versions)
    (hw : w ∈ db.versions) (hid : v.secretId = w.secretId) (heq : entryOfRow v = entryOfRow w) :
    v = w := by
  have hnumber : asU32 v.version = asU32 w.version := congrArg VersionEntry.version heq
  have hversion : v.version = w.version := by
    rw [← (asU32_version_ne_zero h hv).2, hnumber, (asU32_version_ne_zero h hw).2]
  exact Table.eq_of_key hv hw (Prod.ext hid hversion)

/-- In every reachable database the readers of a path get the newest settled
version exactly when the path's secret has no live pending row. -/
theorem readsSettled_iff (tenants : List Uuid) (ops : List Op) (tenantId path : String) :
    ReadsSettled (run Db.step (.empty tenants) ops) tenantId path ↔
      ∀ t, Uuid.parseStr tenantId = some t →
        ∀ v ∈ SecretStore.listVersionHistory (run Db.step (.empty tenants) ops) t path,
          v.live = true → v.status ≠ .pending := by
  have hinv := Db.inv_run tenants ops
  generalize run Db.step (.empty tenants) ops = db at hinv
  -- the history of a path is the rows of its one secret
  have hhistory : ∀ {t s}, s ∈ db.secrets → s.pathKey = (t, path) → ∀ v,
      v ∈ SecretStore.listVersionHistory db t path ↔ v ∈ db.versions ∧ v.secretId = s.id := by
    intro t s hs hkey v
    rw [mem_listVersionHistory]
    refine and_congr_right fun _ => ⟨?_, fun hid => ⟨s, hs, hid.symm, hkey⟩⟩
    rintro ⟨s', hs', hid, hkey'⟩
    rw [← hid, Table.eq_of_key hs' hs (hkey'.trans hkey.symm)]
  constructor
  · intro hreads t ht w hw hlive hpending
    obtain ⟨hwmem, s, hs, hwid, hkey⟩ := mem_listVersionHistory.mp hw
    have hget := get_none_of_newest ht hs hkey hinv hwmem hwid.symm hlive
      fun v hv hvid _ => version_le_pending hinv hs hv hvid hwmem hwid.symm hpending
    by_cases hex : ∃ v ∈ SecretStore.listVersionHistory db t path, Settled v
    · obtain ⟨v, hv, hsettled, hmax⟩ := exists_newest hex
      have hread := (hreads t ht).1 v hv hsettled hmax
      rw [hget, Except.ok.injEq] at hread
      obtain ⟨hvmem, hvid⟩ := (hhistory hs hkey v).mp hv
      have := eq_of_entryOfRow hinv hwmem hvmem (hwid.symm.trans hvid.symm) hread
      exact hsettled.2 (this ▸ hpending)
    · have hread := (hreads t ht).2 fun v hv hsettled => hex ⟨v, hv, hsettled⟩
      rw [hget] at hread
      cases hread
  · intro hno t ht
    constructor
    · intro v hv hsettled hmax
      obtain ⟨hvmem, s, hs, hvid, hkey⟩ := mem_listVersionHistory.mp hv
      refine get_none_of_newest ht hs hkey hinv hvmem hvid.symm hsettled.1 fun w hw hwid hlive => ?_
      have hwh := (hhistory hs hkey w).mpr ⟨hw, hwid⟩
      exact hmax w hwh ⟨hlive, hno t ht w hwh hlive⟩
    · intro hnone
      by_cases hex : ∃ s ∈ db.secrets, s.pathKey = (t, path)
      · obtain ⟨s, hs, hkey⟩ := hex
        refine get_none_of_no_live ht hs hkey fun w hw hwid => ?_
        have hwh := (hhistory hs hkey w).mpr ⟨hw, hwid⟩
        by_contra hlive
        have hlive : w.live = true := by simpa using hlive
        exact hnone w hwh ⟨hlive, hno t ht w hwh hlive⟩
      · exact get_of_absent ht (fun s hs hkey => hex ⟨s, hs, hkey⟩) none

/-- A reader gets the data of a rotation that nobody confirmed. -/
theorem get_returns_pending_rotation :
    let db : PgSecretBackend := run Db.step (.empty [.nil]) [
      .upsert 0 .nil Db.firstPut, .initiate 1 .nil Db.firstRotation]
    ∃ v ∈ db.versions.rows, v.status = .pending ∧ v.ciphertext = "c2" ∧
      db.get "00000000-0000-0000-0000-000000000000" "app/db" none = .ok (entryOfRow v) := by
  decide

end PgSecretBackend

end WslVault.SecretEngine
