import WslVault.Base.Map
import WslVault.SecretEngine.Verify.Entries
import WslVault.Storage.Verify.Pointers
import WslVault.Storage.Verify.Writes

/-!
# The two backends side by side

`Related` is the simulation relation between `KvStore` and `PgSecretBackend`: at every path
the rows of the secret, in the order of their numbers, are the versions of the entry. A write
keeps it only when the write pointer names the newest live version, and when the two
retention rules pick the same versions.
-/

namespace WslVault.SecretEngine

open Core Base Storage PgSecretBackend

/-! ## Serving both backends -/

structure Backends where
  memory : KvStore
  postgres : PgSecretBackend

/-- A request, with the id the database draws should it create a secret. -/
abbrev Call := Request × Uuid

def Backends.serve (b : Backends) (c : Call) : Backends × (Reply × Reply) :=
  (⟨(b.memory.serve c.1).1, (b.postgres.serve c.2 c.1).1⟩,
    ((b.memory.serve c.1).2, (b.postgres.serve c.2 c.1).2))

def SameResult {α : Type} (same : α → α → Prop) : Except VaultError α → Except VaultError α → Prop
  | .ok a, .ok b => same a b
  | .error e, .error f => e.code = f.code
  | _, _ => False

/-- The same success or kind of error, version numbers, data and counts. -/
def Reply.Agrees : Reply → Reply → Prop
  | .got a, .got b => SameResult (fun v w =>
      v.version = w.version ∧ v.ciphertext = w.ciphertext ∧ v.dekId = w.dekId) a b
  | .wrote a, .wrote b => SameResult (fun x y => x.2 = y.2) a b
  | .changed a, .changed b => SameResult (· = ·) a b
  | _, _ => False

/-- The rows at every path are the versions of the in-memory entry, and every
secret has an entry. An entry may stand without a secret: a refused first
write leaves one, with no versions. -/
structure Related (b : Backends) : Prop where
  inv : b.postgres.lifecycle.Inv
  noRotation : b.postgres.rotations.rows = []
  ascending : ∀ sid, ((b.postgres.rowsOf sid).map (·.version)).Pairwise (· < ·)
  entry : ∀ t path, b.postgres.idAt t path ≠ none → b.memory.lookup ⟨t.toString, path⟩ ≠ none
  versions : ∀ t path, versionsOf b.memory ⟨t.toString, path⟩ =
    (b.postgres.rowsAt t path).map entryOfRow

theorem Related.start (tenants : List Uuid) : Related ⟨∅, .empty tenants⟩ where
  inv := Lifecycle.inv_empty
  noRotation := rfl
  ascending := fun _ => List.Pairwise.nil
  entry := fun _ _ h => absurd rfl h
  versions := fun _ _ => rfl

namespace Related

variable {memory : KvStore} {db : PgSecretBackend} {t : Uuid} {path : String} {sid : Uuid}
  {e : SecretEntry}

variable (h : Related ⟨memory, db⟩)
  {versions : List UInt32}

include h

theorem write {db' : PgSecretBackend} {rows : List VersionRow}
    (hown : db.idAt t path = some sid ∨ ∀ t' path', db.idAt t' path' ≠ some sid)
    (hinv : db'.lifecycle.Inv) (hrot : db'.rotations.rows = [])
    (hid : ∀ t' path', db'.idAt t' path' =
      if (t', path') = (t, path) then some sid else db.idAt t' path')
    (hrows : ∀ sid', db'.rowsOf sid' = if sid' = sid then rows else db.rowsOf sid')
    (hasc : (rows.map (·.version)).Pairwise (· < ·))
    (he : e.versions = rows.map entryOfRow) :
    Related ⟨memory.insert ⟨t.toString, path⟩ e, db'⟩ where
  inv := hinv
  noRotation := hrot
  ascending := by
    intro sid'
    rw [hrows]
    split
    · exact hasc
    · exact h.ascending sid'
  entry := by
    intro t' path' hsome
    rw [lookup_insert_eq]
    split
    · simp
    · next hkey =>
      rw [hid, if_neg fun heq => hkey (by cases heq; rfl)] at hsome
      exact h.entry t' path' hsome
  versions := by
    intro t' path'
    rw [versionsOf_insert]
    by_cases heq : (t', path') = (t, path)
    · obtain ⟨rfl, rfl⟩ := Prod.mk.inj heq
      have hat : db'.idAt t' path' = some sid := by rw [hid, if_pos rfl]
      rw [if_pos rfl, he, Db.rowsAt_of_idAt hat, hrows, if_pos rfl]
    · have hkey : (⟨t'.toString, path'⟩ : SecretKey) ≠ ⟨t.toString, path⟩ := by
        intro hkey
        obtain ⟨ht, hp⟩ := SecretKey.mk.inj hkey
        exact heq (Prod.ext (Uuid.toString_injective ht) hp)
      rw [if_neg hkey, h.versions t' path']
      congr 1
      -- another path has another secret
      cases hother : db.idAt t' path' with
      | none =>
        have hat : db'.idAt t' path' = none := by rw [hid, if_neg heq, hother]
        rw [Db.rowsAt_of_none hother, Db.rowsAt_of_none hat]
      | some sid' =>
        have hne : sid' ≠ sid := by
          rintro rfl
          rcases hown with hown | hown
          · exact heq (Db.path_eq_of_idAt h.inv hother hown)
          · exact hown t' path' hother
        have hat : db'.idAt t' path' = some sid' := by rw [hid, if_neg heq, hother]
        rw [Db.rowsAt_of_idAt hother, Db.rowsAt_of_idAt hat, hrows, if_neg hne]

theorem refresh (he : e.versions = versionsOf memory ⟨t.toString, path⟩) :
    Related ⟨memory.insert ⟨t.toString, path⟩ e, db⟩ where
  inv := h.inv
  noRotation := h.noRotation
  ascending := h.ascending
  entry := by
    intro t' path' hsome
    rw [lookup_insert_eq]
    split
    · simp
    · exact h.entry t' path' hsome
  versions := by
    intro t' path'
    rw [versionsOf_insert]
    split
    · next hkey => rw [he, ← hkey, h.versions t' path']
    · exact h.versions t' path'

theorem lookup (hid : db.idAt t path = some sid) :
    ∃ e, memory.lookup ⟨t.toString, path⟩ = some e ∧
      e.versions = (db.rowsOf sid).map entryOfRow := by
  obtain ⟨e, he⟩ := Option.ne_none_iff_exists'.mp (h.entry t path (by simp [hid]))
  have hversions := h.versions t path
  rw [versionsOf, he, Db.rowsAt_of_idAt hid] at hversions
  exact ⟨e, he, hversions⟩

theorem get (version : Option UInt32) :
    Reply.Agrees (.got (memory.get t.toString path version))
      (.got (db.get t.toString path version)) := by
  have hparse := Uuid.parseStr_toString t
  cases hid : db.idAt t path with
  | none =>
    rw [get_of_absent hparse (Db.idAt_eq_none.mp hid)]
    have hversions := h.versions t path
    rw [Db.rowsAt_of_none hid, versionsOf] at hversions
    unfold KvStore.get
    cases he : memory.lookup ⟨t.toString, path⟩ with
    | none => exact rfl
    | some e =>
      -- the entry a refused first write leaves
      rw [he] at hversions
      have hnone : ∀ n, e.getVersion n = none := by
        intro n
        rw [SecretEntry.getVersion, show e.versions = [] from hversions]
        rfl
      simp only [hnone]
      split
      · exact rfl
      · exact rfl
  | some sid =>
    obtain ⟨s, hs, hkey, rfl⟩ := Db.idAt_eq_some.mp hid
    obtain ⟨e, he, hversions⟩ := h.lookup hid
    have hcurrent : e.currentVersionNumber = SecretStore.latestLiveVersion db s.id := by
      rw [SecretEntry.currentVersionNumber_eq, hversions]
      exact currentNumber_entries h.inv (h.ascending s.id)
    have hfind : ∀ n, e.getVersion n = (db.versions.get? (s.id, asI32 n)).map entryOfRow := by
      intro n
      rw [SecretEntry.getVersion, hversions]
      exact find?_entries h.inv n
    rw [get_of_mem hparse hs hkey]
    simp only [KvStore.get, he, hcurrent, hfind]
    split
    · exact rfl
    · rw [SecretStore.getSecretVersion]
      cases db.versions.get?
        (s.id, asI32 (version.getD (SecretStore.latestLiveVersion db s.id))) with
      | none => exact rfl
      | some v =>
        cases hd : v.destroyed with
        | true => simp [hd, Except.map, Reply.Agrees, SameResult]
        | false => simp [hd, Except.map, Reply.Agrees, SameResult]

/-! ### Deleting and destroying -/

/-- Both backends change the same versions of a path if their targets are the same among those
that still can be changed. -/
theorem change {c : VersionChange} (hstatus : ∀ v, (c.made v).status = v.status)
    {still : VersionEntry → Bool} (hstill : ∀ v, still (entryOfRow v) = c.still v)
    {g : VersionEntry → VersionEntry} (hg : ∀ v, entryOfRow (c.made v) = g (entryOfRow v))
    {targets : Uuid → SecretStore.SecretMetadata → List UInt32}
    {targets' : SecretEntry → List UInt32}
    (hreal : memory.lookup ⟨t.toString, path⟩ ≠ none → db.idAt t path ≠ none)
    (hsame : ∀ s e, s ∈ db.secrets → s.pathKey = (t, path) →
      memory.lookup ⟨t.toString, path⟩ = some e → e.versions = (db.rowsOf s.id).map entryOfRow →
      ∀ v ∈ db.rowsOf s.id, c.still v = true →
        ((targets t ⟨s.id, asU32 s.currentVersion⟩).contains (asU32 v.version) =
          (targets' e).contains (asU32 v.version))) :
    let out := memory.change t.toString path targets' still g
    let out' := db.changeVersions t.toString path targets fun sid versions =>
      (Db.changeVersions db c sid (versions.map asI32)).map id UInt32.ofNat
    Related ⟨out.1, out'.1⟩ ∧ Reply.Agrees (.changed out.2) (.changed out'.2) := by
  have hparse := Uuid.parseStr_toString t
  cases hid : db.idAt t path with
  | none =>
    have hlookup : memory.lookup ⟨t.toString, path⟩ = none := by_contra fun hsome => hreal hsome hid
    rw [changeVersions_of_absent hparse (Db.idAt_eq_none.mp hid), KvStore.change, hlookup]
    exact ⟨h, rfl⟩
  | some sid =>
    obtain ⟨s, hs, hkey, rfl⟩ := Db.idAt_eq_some.mp hid
    obtain ⟨e, he, hversions⟩ := h.lookup hid
    rw [changeVersions_of_mem hparse hs hkey, KvStore.change, he]
    -- the rows hit are those of the entries hit
    have hhit : ∀ v ∈ db.rowsOf s.id,
        (((targets t ⟨s.id, asU32 s.currentVersion⟩).map asI32).contains v.version &&
          c.still v) = ((targets' e).contains (entryOfRow v).version && still (entryOfRow v)) := by
      intro v hv
      rw [contains_asI32 h.inv hv, hstill, entryOfRow_version]
      cases hv' : c.still v with
      | false => rw [Bool.and_false, Bool.and_false]
      | true => rw [hsame s e hs hkey he hversions v hv hv']
    have hlifecycle : (Db.changeVersions db c s.id
        ((targets t ⟨s.id, asU32 s.currentVersion⟩).map asI32)).1.lifecycle = db.lifecycle :=
      Db.lifecycle_updateVersions c.key fun v _ _ => by rw [hstatus]
    refine ⟨h.write (.inl hid) (hlifecycle ▸ h.inv) h.noRotation (fun t' path' => ?_)
      (Db.rowsOf_updateVersions db s.id _ c.key) ?_ ?_, congrArg UInt32.ofNat ?_⟩
    · split
      · next heq =>
        obtain ⟨rfl, rfl⟩ := Prod.mk.inj heq
        exact hid
      · rfl
    · rw [List.map_map]
      convert h.ascending s.id using 1
      refine List.map_congr_left fun v _ => ?_
      simp only [Function.comp_apply]
      split
      · exact congrArg Prod.snd (c.key v)
      · rfl
    · show e.versions.map _ = _
      rw [hversions, List.map_map, List.map_map]
      refine List.map_congr_left fun v hv => ?_
      simp only [Function.comp_apply, ← hhit v hv]
      split
      · exact (hg v).symm
      · rfl
    · rw [hversions, List.countP_map]
      refine .trans ?_ (Db.countP_versions db s.id _).symm
      exact List.countP_congr fun v hv => by rw [hhit v hv, Function.comp_apply]

theorem not_live_of_current_zero
    (hid : db.idAt t path = some sid) (hzero : currentOf memory ⟨t.toString, path⟩ = 0)
    {v : VersionRow} (hv : v ∈ db.rowsOf sid) : v.live = false := by
  rw [currentOf, h.versions t path, Db.rowsAt_of_idAt hid] at hzero
  by_contra hlive
  have hasc := ascending_entries (fun _ => row_range h.inv) (h.ascending sid)
  have hle := le_currentNumber hasc (List.mem_map_of_mem hv) (by simpa using hlive)
  rw [hzero, entryOfRow_version] at hle
  obtain ⟨hpos, hmax⟩ := row_range h.inv hv
  have := toNat_asU32 v.version
  have := UInt32.le_iff_toNat_le.mp hle
  rw [UInt32.toNat_zero] at this
  omega

theorem pointer_ne_zero {s : SecretRow} (hs : s ∈ db.secrets) :
    asU32 s.currentVersion ≠ 0 ∧ asI32 (asU32 s.currentVersion) = s.currentVersion := by
  obtain ⟨hpos, hmax⟩ := h.inv.current s.pointer (List.mem_map_of_mem hs)
  have hpos : 1 ≤ s.currentVersion := hpos
  have hmax : s.currentVersion ≤ 2147483647 := hmax
  exact ⟨asU32_ne_zero hpos hmax, asI32_asU32 (by omega) hmax⟩

theorem softDelete (now : Timestamp)
    (hreal : memory.lookup ⟨t.toString, path⟩ ≠ none → db.idAt t path ≠ none)
    (hempty : versions = [] → currentOf memory ⟨t.toString, path⟩ = 0 ∨
      asI32 (currentOf memory ⟨t.toString, path⟩) = db.pointer t path) :
    Related ⟨(memory.softDelete now t.toString path versions).1,
        (db.softDelete now t.toString path versions).1⟩ ∧
      Reply.Agrees (.changed (memory.softDelete now t.toString path versions).2)
        (.changed (db.softDelete now t.toString path versions).2) := by
  refine h.change (fun _ => rfl) entryOfRow_live (fun _ => rfl) hreal
    fun s e hs hkey he hversions v hv hlive => ?_
  cases versions with
  | cons n ns => rfl
  | nil =>
    obtain ⟨hpointer, hround⟩ := h.pointer_ne_zero hs
    rcases hempty rfl with hzero | heq
    · cases hlive.symm.trans (h.not_live_of_current_zero (Db.idAt_of_mem hs hkey) hzero hv)
    · rw [Db.pointer_of_mem hs hkey, ← hround] at heq
      have hsame : e.currentVersionNumber = asU32 s.currentVersion := by
        have hcurrent : e.currentVersionNumber = currentOf memory ⟨t.toString, path⟩ := by
          rw [currentOf, versionsOf, he]
          rfl
        rw [hcurrent, ← asU32_asI32 (currentOf _ _), heq, asU32_asI32]
      have hpos : asU32 s.currentVersion > 0 := UInt32.pos_iff_ne_zero.mpr hpointer
      simp [resolveSoftDeleteTargets, KvStore.softDeleteTargets, hsame, hpointer, hpos]

theorem destroy (now : Timestamp)
    (hreal : memory.lookup ⟨t.toString, path⟩ ≠ none → db.idAt t path ≠ none) :
    Related ⟨(memory.destroy now t.toString path versions).1,
        (db.destroy now t.toString path versions).1⟩ ∧
      Reply.Agrees (.changed (memory.destroy now t.toString path versions).2)
        (.changed (db.destroy now t.toString path versions).2) := by
  refine h.change (fun _ => rfl) (fun _ => rfl) (fun _ => rfl) hreal
    fun s e hs hkey _ hversions v hv hd => ?_
  cases versions with
  | cons n ns => rfl
  | nil =>
    -- an empty list names every undestroyed version on both sides
    have hrow : asU32 v.version ∈ undestroyedVersions db t path := by
      refine List.mem_map.mpr ⟨v, List.mem_filter.mpr ⟨?_, hd⟩, rfl⟩
      obtain ⟨hmem, hvid⟩ := Db.mem_rowsOf.mp hv
      exact mem_listVersionHistory.mpr ⟨hmem, s, hs, hvid.symm, hkey⟩
    have hentry : asU32 v.version ∈ liveVersions e.versions := by
      rw [hversions]
      exact List.mem_map.mpr ⟨entryOfRow v, List.mem_filter.mpr
        ⟨List.mem_map_of_mem hv, hd⟩, rfl⟩
    simp [resolveDestroyTargets, KvStore.destroyTargets, hrow, hentry]

end Related

/-! ### Writing -/

/-- For every undestroyed version, the new one included: KvStore's limit puts
it among the versions to prune exactly when the stored function's does. -/
def SameRetention (memory : KvStore) (pointer : Int) (r : PutRequest) : Prop :=
  let vs := versionsOf memory r.key ++ [r.newVersion (memory.nextNumber r.key)]
  ∀ v ∈ vs, v.destroyed = false →
    ((memory.writeEntry r).maxVersions.toNat ≤ newerCount vs v.version ↔
      v.version.toNat ≤ pointer + 1 - asI32 (r.maxVersions.getD 10))

instance (memory : KvStore) (pointer : Int) (r : PutRequest) :
    Decidable (SameRetention memory pointer r) :=
  inferInstanceAs (Decidable (∀ v ∈ versionsOf memory r.key ++
    [r.newVersion (memory.nextNumber r.key)], _))

namespace Related

theorem row_le_pointer (h : Related ⟨memory, db⟩) {v : VersionRow} (hv : v ∈ db.rowsAt t path) :
    v.version ≤ db.pointer t path := by
  cases hid : db.idAt t path with
  | none =>
    rw [Db.rowsAt_of_none hid] at hv
    exact absurd hv List.not_mem_nil
  | some sid =>
    obtain ⟨s, hs, hkey, rfl⟩ := Db.idAt_eq_some.mp hid
    rw [Db.rowsAt_of_idAt hid] at hv
    obtain ⟨hmem, hvid⟩ := Db.mem_rowsOf.mp hv
    obtain ⟨-, hsettled, -⟩ := h.inv.numbered s.pointer (List.mem_map_of_mem hs) v.number
      (List.mem_map_of_mem hmem) hvid
    rw [Db.pointer_of_mem hs hkey]
    refine hsettled ?_
    by_contra hpending
    -- a pending row would have its rotation
    obtain ⟨rot, hrot, -⟩ := h.inv.awaited v.number (List.mem_map_of_mem hmem)
      (by simpa using hpending)
    have hnone : db.lifecycle.rotations = [] := h.noRotation
    rw [hnone] at hrot
    exact absurd hrot List.not_mem_nil

theorem pointer_nonneg (h : Related ⟨memory, db⟩) (t : Uuid) (path : String) :
    0 ≤ db.pointer t path := by
  rw [Db.pointer]
  cases hget : db.secrets.get? (t, path) with
  | none => exact Int.le_refl 0
  | some s =>
    have := (h.inv.current s.pointer (List.mem_map_of_mem (Table.get?_eq_some.mp hget).1)).1
    exact Int.le_trans (by decide) this

section Accepted

variable {r : PutRequest} {freshId : Uuid} {db₁ : Db} {s : SecretRow}

def newRow (t : Uuid) (r : PutRequest) (s : SecretRow) : VersionRow :=
  (PgSecretBackend.upsertRequest t r).params.newVersion r.now s.id (s.currentVersion + 1)

theorem entryOfRow_newRow (hpointer : asI32 (currentOf memory r.key) = s.currentVersion) :
    entryOfRow (newRow t r s) = r.newVersion (memory.nextNumber r.key) := by
  have hversion : asU32 (s.currentVersion + 1) = memory.nextNumber r.key := by
    rw [← hpointer, asU32_asI32_add_one]
    rfl
  simp only [newRow, entryOfRow, SecretStore.UpsertRequest.params, UpsertParams.newVersion,
    PutRequest.newVersion, hversion]
  rfl

variable (h : Related ⟨memory, db⟩)
  (hrow : db.upsertSecretRow r.now freshId (PgSecretBackend.upsertRequest t r).params =
    .ok (db₁, s))

include h hrow

theorem entries_newRow (ht : r.tenantId = t.toString)
    (hpointer : asI32 (currentOf memory r.key) = s.currentVersion) :
    versionsOf memory r.key ++ [r.newVersion (memory.nextNumber r.key)] =
      (db.rowsOf s.id ++ [newRow t r s]).map entryOfRow := by
  have hold : versionsOf memory r.key = (db.rowsOf s.id).map entryOfRow := by
    rw [PutRequest.key, ht, h.versions t r.path]
    exact congrArg (List.map entryOfRow) (Db.rowsAt_upsertSecretRow h.inv hrow).1
  rw [hold, ← entryOfRow_newRow hpointer, List.map_append]
  rfl

theorem ascending_newRow :
    ((db.rowsOf s.id ++ [newRow t r s]).map (·.version)).Pairwise (· < ·) := by
  rw [List.map_append, List.pairwise_append]
  refine ⟨h.ascending s.id, List.pairwise_singleton _ _, fun n hn m hm => ?_⟩
  obtain ⟨v, hv, rfl⟩ := List.mem_map.mp hn
  have hbelow : v.version ≤ db.pointer t r.path :=
    h.row_le_pointer ((Db.rowsAt_upsertSecretRow h.inv hrow).1 ▸ hv)
  have hcurrent : s.currentVersion = db.pointer t r.path := Db.currentVersion_upsertSecretRow hrow
  rw [List.mem_singleton.mp hm]
  show v.version < s.currentVersion + 1
  omega

theorem range_newRow (hmax : db.pointer t r.path < 2147483647) :
    ∀ v ∈ db.rowsOf s.id ++ [newRow t r s], 1 ≤ v.version ∧ v.version ≤ 2147483647 := by
  intro v hv
  rcases List.mem_append.mp hv with hv | hv
  · exact row_range h.inv hv
  · have hcurrent : s.currentVersion = db.pointer t r.path :=
      Db.currentVersion_upsertSecretRow hrow
    have := h.pointer_nonneg t r.path
    rw [List.mem_singleton.mp hv]
    show 1 ≤ s.currentVersion + 1 ∧ s.currentVersion + 1 ≤ 2147483647
    omega

theorem prune_newRow (ht : r.tenantId = t.toString)
    (hpointer : asI32 (currentOf memory r.key) = db.pointer t r.path)
    (hmax : db.pointer t r.path < 2147483647)
    (hret : SameRetention memory (db.pointer t r.path) r) : prune (memory.writeEntry r).maxVersions
      (versionsOf memory r.key ++ [r.newVersion (memory.nextNumber r.key)]) =
      (Db.pruned (s.currentVersion + 1 - asI32 (r.maxVersions.getD 10))
        (db.rowsOf s.id ++ [newRow t r s])).map entryOfRow := by
  have hcurrent : s.currentVersion = db.pointer t r.path := Db.currentVersion_upsertSecretRow hrow
  have hentries := h.entries_newRow hrow ht (hpointer.trans hcurrent.symm)
  have hrange := h.range_newRow hrow hmax
  rw [SameRetention, hentries] at hret
  rw [hentries]
  refine prune_rows (h.ascending_newRow hrow) hrange fun v hv hd => ?_
  have hnumber : ((asU32 v.version).toNat : Int) = v.version := by
    have := hrange v hv
    have := toNat_asU32 v.version
    omega
  have := hret (entryOfRow v) (List.mem_map_of_mem hv) hd
  rw [entryOfRow_version, hnumber] at this
  rw [hcurrent]
  exact this

end Accepted

section Put

variable (h : Related ⟨memory, db⟩) {r : PutRequest} {freshId : Uuid} (ht : r.tenantId = t.toString)
  (htenant : t ∈ db.tenants) (hfresh : ∀ s ∈ db.secrets, s.id ≠ freshId)

include h ht htenant hfresh

/-- Both backends refuse a write whose CAS argument is neither the number of
the newest live version nor the write pointer. -/
theorem put_refused {expected : UInt32} (hcas : r.cas = some expected)
    (hcurrent : expected ≠ currentOf memory r.key)
    (hpointer : asI32 expected ≠ db.pointer t r.path) :
    Related ⟨(memory.put r).1, (db.put freshId r).1⟩ ∧
      Reply.Agrees (.wrote (memory.put r).2) (.wrote (db.put freshId r).2) := by
  have hparse : Uuid.parseStr r.tenantId = some t := ht ▸ Uuid.parseStr_toString t
  have hkey : r.key = ⟨t.toString, r.path⟩ := by rw [PutRequest.key, ht]
  have hsql : db.upsertSecret r.now freshId (upsertRequest t r).params =
      .error (.casConflict (asI32 expected) (db.pointer t r.path)) :=
    Db.upsertSecret_cas_conflict r.now (by simp [upsertRequest,
      SecretStore.UpsertRequest.params, hcas]) hpointer htenant hfresh
  rw [put_of_parse hparse, hsql]
  rcases memory.put_cases r with ⟨-, ⟨e, hreply⟩, hstore⟩ | ⟨hholds, -, -⟩
  · rw [hreply, hstore, hkey]
    refine ⟨h.refresh ?_, rfl⟩
    rw [KvStore.writeEntry_versions, hkey]
  · exact absurd (hholds expected hcas) hcurrent

/-- Both backends accept a write under the same number and keep the same
versions, when the write pointer names the newest live version and the
retention rules agree. -/
theorem put_accepted (hcas : memory.CasHolds r)
    (hpointer : asI32 (currentOf memory r.key) = db.pointer t r.path)
    (hmax : db.pointer t r.path < 2147483647)
    (hfloor : Int4 (db.pointer t r.path + 1 - asI32 (r.maxVersions.getD 10)))
    (hret : SameRetention memory (db.pointer t r.path) r) :
    Related ⟨(memory.put r).1, (db.put freshId r).1⟩ ∧
      Reply.Agrees (.wrote (memory.put r).2) (.wrote (db.put freshId r).2) := by
  have hparse : Uuid.parseStr r.tenantId = some t := ht ▸ Uuid.parseStr_toString t
  have hkey : r.key = ⟨t.toString, r.path⟩ := by rw [PutRequest.key, ht]
  have hinv : db.lifecycle.Inv := h.inv
  -- the stored function succeeds
  have hcas' : ∀ expected, (upsertRequest t r).params.casVersion = some expected →
      expected = db.pointer t r.path := by
    intro expected hexpected
    obtain ⟨n, hn, rfl⟩ := Option.map_eq_some_iff.mp hexpected
    rw [hcas n hn, hpointer]
  have hfree : ¬ db.Waiting t r.path := by
    rintro ⟨rot, hrot, -⟩
    rw [Table.mem_def, h.noRotation] at hrot
    exact absurd hrot List.not_mem_nil
  have hnext : Int4 (db.pointer t r.path + 1) := by
    have := h.pointer_nonneg t r.path
    exact ⟨by omega, by omega⟩
  obtain ⟨⟨db', sid, n⟩, hok⟩ := (Db.upsertSecret_succeeds_iff hinv r.now hcas' htenant
    hfresh).mpr ⟨hfree, hnext, hfloor⟩
  obtain ⟨db₁, s, -, hrow, -, -, -, -, -, hout⟩ := Db.upsertSecret_eq_ok.mp hok
  obtain ⟨rfl, rfl⟩ := Prod.mk.inj hout
  have hcurrent : s.currentVersion = db.pointer t r.path := Db.currentVersion_upsertSecretRow hrow
  obtain ⟨hid, hrows⟩ := Db.upsertSecret_rows hok
  have hpruned := h.prune_newRow hrow ht hpointer hmax hret
  rw [put_of_parse hparse, hok]
  rcases memory.put_cases r with ⟨hrefused, -, -⟩ | ⟨-, hreply, hstore⟩
  · exact absurd hcas hrefused
  · rw [hreply, hstore, hkey]
    refine ⟨h.write (Db.rowsAt_upsertSecretRow hinv hrow).2 ?_ ?_ (fun t' path' => ?_) hrows ?_
      (hkey ▸ hpruned), ?_⟩
    · rw [SecretStore.lifecycle_setLabels]
      exact Db.inv_upsert hinv hok
    · exact (Db.rotations_upsertSecret hok).trans h.noRotation
    · exact (idAt_setLabels db' r.now _ t' path').trans (hid t' path')
    · exact (h.ascending_newRow hrow).sublist (List.filter_sublist.map _)
    · exact congrArg VersionEntry.version
        (hkey ▸ entryOfRow_newRow (t := t) (hpointer.trans hcurrent.symm)).symm

end Put

end Related

/-- The calls the backends answer alike, in the states they are made in. A
tenant is spelled as the database prints it. A write finds the tenant
registered and draws a fresh id, and both sides refuse it, or the pointer
names the newest live version and the retention rules agree. A soft delete or
destroy is not of a path that only a refused first write has touched, and a
soft delete of the current version finds the pointer at it. -/
def Backends.Good (b : Backends) : Call → Prop
  | (.get tenantId _ _, _) => ∃ t : Uuid, tenantId = t.toString
  | (.put r, freshId) => ∃ t : Uuid, r.tenantId = t.toString ∧ t ∈ b.postgres.tenants ∧
      (∀ s ∈ b.postgres.secrets, s.id ≠ freshId) ∧
      ((∃ expected, r.cas = some expected ∧ expected ≠ currentOf b.memory r.key ∧
          asI32 expected ≠ b.postgres.pointer t r.path) ∨
        (b.memory.CasHolds r ∧ asI32 (currentOf b.memory r.key) = b.postgres.pointer t r.path ∧
          b.postgres.pointer t r.path < 2147483647 ∧
          Int4 (b.postgres.pointer t r.path + 1 - asI32 (r.maxVersions.getD 10)) ∧
          SameRetention b.memory (b.postgres.pointer t r.path) r))
  | (.softDelete _ tenantId path versions, _) => ∃ t : Uuid, tenantId = t.toString ∧
      (b.memory.lookup ⟨tenantId, path⟩ ≠ none → b.postgres.idAt t path ≠ none) ∧
      (versions = [] → currentOf b.memory ⟨tenantId, path⟩ = 0 ∨
        asI32 (currentOf b.memory ⟨tenantId, path⟩) = b.postgres.pointer t path)
  | (.destroy _ tenantId path _, _) => ∃ t : Uuid, tenantId = t.toString ∧
      (b.memory.lookup ⟨tenantId, path⟩ ≠ none → b.postgres.idAt t path ≠ none)

theorem Related.serve {b : Backends} (h : Related b) {c : Call} (hgood : b.Good c) :
    Related (b.serve c).1 ∧ (b.serve c).2.1.Agrees (b.serve c).2.2 := by
  obtain ⟨memory, db⟩ := b
  obtain ⟨request, freshId⟩ := c
  cases request with
  | get tenantId path version =>
    obtain ⟨t, rfl⟩ := hgood
    exact ⟨h, h.get version⟩
  | put r =>
    obtain ⟨t, ht, htenant, hfresh, hcase⟩ := hgood
    rcases hcase with ⟨expected, hcas, hcurrent, hpointer⟩ | ⟨hcas, hpointer, hmax, hfloor, hret⟩
    · exact h.put_refused ht htenant hfresh hcas hcurrent hpointer
    · exact h.put_accepted ht htenant hfresh hcas hpointer hmax hfloor hret
  | softDelete now tenantId path versions =>
    obtain ⟨t, rfl, hreal, hempty⟩ := hgood
    exact h.softDelete now hreal hempty
  | destroy now tenantId path versions =>
    obtain ⟨t, rfl, hreal⟩ := hgood
    exact h.destroy now hreal

/-- The backends answer every run of good calls alike. -/
theorem backends_agree (tenants : List Uuid) (calls : List Call)
    (hgood : Along Backends.serve Backends.Good ⟨∅, .empty tenants⟩ calls) :
    ∀ x ∈ trace Backends.serve ⟨∅, .empty tenants⟩ calls, x.2.1.Agrees x.2.2 :=
  hgood.trace_settled Related (fun _ _ replies => replies.1.Agrees replies.2)
    (fun _ _ h hg => h.serve hg) (fun _ _ _ _ _ hagrees => hagrees) (Related.start tenants)

def firstPut : PutRequest where
  now := 0
  freshId := "s"
  tenantId := Uuid.nil.toString
  path := "app/db"
  ciphertext := "a"
  dekId := "k"
  cas := none
  customMetadata := ∅
  maxVersions := none

theorem backends_agree_put_delete :
    let calls : List Call := [(.put firstPut, .nil),
      (.put { firstPut with now := 1, ciphertext := "b", cas := some 1 }, .max),
      (.softDelete 2 Uuid.nil.toString "app/db" [], .max),
      (.get Uuid.nil.toString "app/db" none, .max),
      (.destroy 3 Uuid.nil.toString "app/db" [], .max)]
    ∀ x ∈ trace Backends.serve ⟨∅, .empty [.nil]⟩ calls, x.2.1.Agrees x.2.2 := by
  intro calls
  refine backends_agree [.nil] calls ⟨⟨.nil, rfl, ?_⟩, ⟨.nil, rfl, ?_⟩, ⟨.nil, rfl, ?_⟩,
    ⟨.nil, rfl⟩, ⟨.nil, rfl, ?_⟩, trivial⟩
  · exact ⟨by decide, by decide, .inr (by decide)⟩
  · exact ⟨by decide, by decide, .inr (by decide)⟩
  · decide
  · decide

/-- The stored function numbers from its pointer, KvStore from the newest live
version, so a write after a delete gets two numbers. -/
theorem backends_disagree_after_softDelete :
    let b := run Backends.serve ⟨∅, .empty [.nil]⟩ [(.put firstPut, .nil),
      (.softDelete 1 Uuid.nil.toString "app/db" [], .max)]
    (b.memory.put firstPut).2 = .ok ("s", 1) ∧
      (b.postgres.put .max firstPut).2 = .ok (Uuid.nil.toString, 2) := by
  decide

end WslVault.SecretEngine
