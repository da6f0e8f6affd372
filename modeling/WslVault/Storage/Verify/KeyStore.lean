import WslVault.Base.Except
import WslVault.Storage.KeyStore

/-!
# What the key table keeps

No statement of the crypto service takes a wrapped key away: rows are added, or move from one
state the service loads to another (`KeyDb.Keeps`).
-/

namespace WslVault.Storage

open Core Base

variable {db db' : KeyDb} {r : KeyRow} {fault : Option String} {rows : List PersistedKeyEntry}
  {id : Uuid} {state : KeyState}

namespace KeyDb

theorem insertRow_eq_ok (h : db.insertRow r = .ok db') :
    db.descriptors.insert? r = some db'.descriptors := by
  unfold insertRow at h
  split at h
  · cases h
  · next descriptors hins =>
    split at h
    · split at h
      · cases h
        exact hins
      · cases h
    · cases h

theorem mem_of_insertRow {x : KeyRow} (h : db.insertRow r = .ok db') :
    x ∈ db'.descriptors ↔ x ∈ db.descriptors ∨ x = r :=
  Table.mem_of_insert? (insertRow_eq_ok h)

theorem mem_setState {x : KeyRow} : x ∈ (db.setState id state).descriptors ↔
      ∃ r ∈ db.descriptors, (if r.id = id then r.setState state else r) = x := by
  rw [setState, Table.mem_update (KeyRow.id_setState state)]
  simp only [decide_eq_true_eq]

theorem of_mem_setState {x : KeyRow} (h : x ∈ (db.setState id state).descriptors) :
    ∃ r ∈ db.descriptors, x.id = r.id ∧ x.tenantId = r.tenantId := by
  obtain ⟨r, hr, rfl⟩ := mem_setState.mp h
  refine ⟨r, hr, ?_⟩
  split <;> exact ⟨rfl, rfl⟩

/-- Every key that could be loaded still can, with the same wrapping. -/
def Keeps (db db' : KeyDb) : Prop :=
  ∀ r ∈ db.descriptors, r.loadable = true → ∃ r' ∈ db'.descriptors, r'.loadable = true ∧
    r'.id = r.id ∧ r'.purpose = r.purpose ∧ r'.tenantId = r.tenantId ∧ r'.wrappedKey = r.wrappedKey

theorem Keeps.refl (db : KeyDb) : db.Keeps db :=
  fun r hr hload => ⟨r, hr, hload, rfl, rfl, rfl, rfl⟩

theorem Keeps.trans {db'' : KeyDb} (h : db.Keeps db') (h' : db'.Keeps db'') : db.Keeps db'' := by
  intro r hr hload
  obtain ⟨r', hr', hload', hid, hpurpose, htenant, hwrapped⟩ := h r hr hload
  obtain ⟨r'', hr'', hload'', hid', hpurpose', htenant', hwrapped'⟩ := h' r' hr' hload'
  exact ⟨r'', hr'', hload'', hid'.trans hid, hpurpose'.trans hpurpose, htenant'.trans htenant,
    hwrapped'.trans hwrapped⟩

theorem keeps_insertRow (h : db.insertRow r = .ok db') : db.Keeps db' :=
  fun x hx hload => ⟨x, (mem_of_insertRow h).mpr (.inl hx), hload, rfl, rfl, rfl, rfl⟩

theorem keeps_rotatingOut (db : KeyDb) (id : Uuid) : db.Keeps (db.setState id .rotatingOut) := by
  intro r hr hload
  refine ⟨if r.id = id then r.setState .rotatingOut else r, mem_setState.mpr ⟨r, hr, rfl⟩, ?_⟩
  split
  · exact ⟨rfl, rfl, rfl, rfl, rfl⟩
  · exact ⟨hload, rfl, rfl, rfl, rfl⟩

end KeyDb

namespace KeyStore

theorem insertKeyDescriptor_eq_ok {now : Timestamp} {desc : KeyDescriptor} {wrapped : String}
    (h : insertKeyDescriptor db fault now desc wrapped = .ok db') :
    db.insertRow (rowOf desc wrapped now) = .ok db' := by
  unfold insertKeyDescriptor at h
  split at h
  · cases h
  · exact mapError_eq_ok h

theorem updateKeyState_eq_ok (h : updateKeyState db fault id state = .ok db') :
    db' = db.setState id state := by
  unfold updateKeyState at h
  split at h
  · cases h
  · cases h
    rfl

theorem fetchAll_eq_ok {α : Type} {rows got : List α} (h : fetchAll fault rows = .ok got) :
    got = rows := by
  unfold fetchAll at h
  split at h
  · cases h
  · cases h
    rfl

theorem mem_byVersion {rows : List KeyRow} : r ∈ byVersion rows ↔ r ∈ rows :=
  (List.perm_insertionSort _ rows).mem_iff

theorem mem_newestFirst {rows : List KeyRow} : r ∈ newestFirst rows ↔ r ∈ rows :=
  (List.perm_insertionSort _ rows).mem_iff

theorem getKeyVersions_of_mem (hr : r ∈ db.descriptors) (hload : r.loadable = true) :
    getKeyVersionsWithWrappedKey db none r.id = .ok [entryOf r] := by
  have hselect : (db.descriptors.select fun x => x.id = r.id && x.loadable) = [r] := by
    refine Table.select_eq_singleton fun x => ?_
    simp only [Bool.and_eq_true, decide_eq_true_eq]
    constructor
    · rintro ⟨hx, hid, -⟩
      exact Table.eq_of_key hx hr hid
    · rintro rfl
      exact ⟨hr, rfl, hload⟩
  rw [getKeyVersionsWithWrappedKey, hselect]
  rfl

variable {entry : PersistedKeyEntry}

theorem mem_of_getKeyVersions (h : getKeyVersionsWithWrappedKey db fault id = .ok rows)
    (hentry : entry ∈ rows) : entry.keyId = id.toString := by
  rw [fetchAll_eq_ok h] at hentry
  obtain ⟨r, hr, rfl⟩ := List.mem_map.mp hentry
  have hid := (Table.mem_select.mp (mem_byVersion.mp hr)).2
  simp only [Bool.and_eq_true, decide_eq_true_eq] at hid
  rw [entryOf, hid.1]

variable {purpose : KeyPurpose}

theorem mem_listActiveKeys (h : listActiveKeysWithWrappedKey db fault purpose = .ok rows) :
    entry ∈ rows ↔ ∃ r ∈ db.descriptors, r.purpose = purpose ∧ r.loadable = true ∧
      entryOf r = entry := by
  rw [fetchAll_eq_ok h]
  simp only [List.mem_map, mem_byVersion, mem_newestFirst, Table.mem_select, Bool.and_eq_true,
    decide_eq_true_eq, and_assoc]

theorem nodup_ids_select (db : KeyDb) (p : KeyRow → Bool) :
    ((newestFirst (db.descriptors.select p)).map KeyRow.id).Nodup := by
  have hselect : ((db.descriptors.select p).map KeyRow.id).Nodup :=
    db.descriptors.nodup.sublist (List.filter_sublist.map KeyRow.id)
  exact ((List.perm_insertionSort _ _).map KeyRow.id).nodup_iff.mpr hselect

theorem listRecentLoadableKeys_spec {limit : Option Nat}
    (h : listRecentLoadableKeys db fault purpose limit = .ok rows) :
    (rows.map PersistedKeyEntry.keyId).Nodup ∧
      ∀ entry ∈ rows, ∃ r ∈ db.descriptors, r.loadable = true ∧ entryOf r = entry := by
  obtain ⟨recent, hsub, rfl⟩ : ∃ recent : List KeyRow, recent.Sublist
          (newestFirst (db.descriptors.select fun r => r.purpose = purpose && r.loadable)) ∧
        rows = (byVersion recent).map entryOf := by
    refine ⟨_, ?_, fetchAll_eq_ok h⟩
    cases limit with
    | none => exact List.Sublist.refl _
    | some n => exact List.take_sublist n _
  constructor
  · have hids : ((byVersion recent).map KeyRow.id).Nodup :=
      ((List.perm_insertionSort _ _).map KeyRow.id).nodup_iff.mpr
        ((nodup_ids_select db _).sublist (hsub.map KeyRow.id))
    have hkeys : ((byVersion recent).map entryOf).map PersistedKeyEntry.keyId =
        ((byVersion recent).map KeyRow.id).map Uuid.toString := by
      rw [List.map_map, List.map_map]
      rfl
    rw [hkeys]
    exact hids.map fun _ _ => Uuid.toString_injective
  · intro entry hentry
    obtain ⟨r, hr, rfl⟩ := List.mem_map.mp hentry
    have hselected := Table.mem_select.mp (mem_newestFirst.mp (hsub.subset (mem_byVersion.mp hr)))
    simp only [Bool.and_eq_true] at hselected
    exact ⟨r, hselected.1, hselected.2.2, rfl⟩

end KeyStore

end WslVault.Storage
