import WslVault.CryptoService.Verify.KekStore
import WslVault.Storage.Verify.TenantRows

/-!
# Reloading

Loading the keys folds the rows into the maps: a row of a key id that is there already moves
the key in use into the chain and takes its place.
-/

namespace WslVault.CryptoService

open Base Core Storage Storage.KeyStore

variable {aes : Aes256Gcm} {root : Key}

def chainOf : Option DekEntry → List Key
  | none => []
  | some entry => entry.superseded ++ [entry.rawDek]

namespace KekStore

variable {keks : AList (fun _ : String => TenantKekEntry)}

theorem chainOf_addVersion (old : Option DekEntry) (row : PersistedKeyEntry) :
    chainOf (addVersion aes root keks old row) =
      chainOf old ++ (rawDekOf aes root keks row).toList := by
  unfold addVersion
  cases rawDekOf aes root keks row with
  | none => simp
  | some rawDek =>
    cases old with
    | none => rfl
    | some existing => rfl

/-! ## The rows of a database -/

section Database

variable {db : KeyDb}

def loadable (db : KeyDb) (purpose : KeyPurpose) : List KeyRow :=
  db.descriptors.select fun r => r.purpose = purpose && r.loadable

def kekRows (db : KeyDb) (u : Uuid) : List KeyRow :=
  byVersion (newestFirst ((loadable db .tenantKek).filter (·.tenantId = some u)))

def versionsOf (db : KeyDb) (keyId : String) : List KeyRow :=
  byVersion ((loadable db .dataEncryption).filter (·.id.toString = keyId))

def unwrapped (aes : Aes256Gcm) (root : Key) (db : KeyDb) (r : KeyRow) : Option Key :=
  r.tenantId.bind fun u => (kekRows db u).getLast?.bind fun kekRow =>
    (unwrapTenantKek aes root u.toString kekRow.wrappedKey).bind fun kek =>
      unwrapDek aes kek (.ok root) r.id.toString r.wrappedKey

/-- The loadable rows unwrap: KEKs under the root key, DEKs under the newest KEK of
their tenant. -/
structure Unwraps (aes : Aes256Gcm) (root : Key) (db : KeyDb) : Prop where
  kek : ∀ r ∈ loadable db .tenantKek, ∀ u ∈ r.tenantId,
    (unwrapTenantKek aes root u.toString r.wrappedKey).isSome = true
  dek : ∀ r ∈ loadable db .dataEncryption, (unwrapped aes root db r).isSome = true

def load (aes : Aes256Gcm) (s : KekStore) : KekStore := (perform (loadFromDb aes none none) s).1

theorem load_eq (aes : Aes256Gcm) {s : KekStore} (hroot : s.vaultSeal.rootKey = some root)
    (hdb : s.dbPool = some db) :
    ∃ keks, keks = ((byVersion (newestFirst (loadable db .tenantKek))).map entryOf).foldl
        (loadTenantKek aes root) s.tenantKeks ∧
      load aes s = { s with
        tenantKeks := keks
        deks := ((byVersion ((newestFirst (loadable db .dataEncryption)).take
          warmLoadDekLimit)).map entryOf).foldl (loadDek aes root keks) s.deks } := by
  refine ⟨_, rfl, Outcome.left (P := (· = _)) ?_⟩
  have hrootKey : Seal.rootKey s.vaultSeal = .ok root := by rw [Seal.rootKey, hroot]
  unfold loadFromDb
  simp only [outcome_bind, outcome_get, hdb, outcome_ofExcept, hrootKey, outcome_modify]
  refine ⟨fun root' hroot' => ⟨fun kekRows hkeks => ⟨fun dekRows hdeks => ?_, fun _ h => ?_⟩,
    fun _ h => ?_⟩, fun _ h => ?_⟩
  · cases hroot'
    cases hkeks
    cases hdeks
    rfl
  · cases h
  · cases h
  · cases h

theorem lookup_load_kek (hunwraps : Unwraps aes root db) (u : Uuid)
    (keks : AList (fun _ : String => TenantKekEntry)) :
    (((byVersion (newestFirst (loadable db .tenantKek))).map entryOf).foldl
        (loadTenantKek aes root) keks).lookup u.toString =
      (kekRows db u).getLast?.elim (keks.lookup u.toString) fun r =>
        loadedKek aes root u.toString (entryOf r) := by
  have hof : (fun row : PersistedKeyEntry => decide (row.tenantId = some u.toString)) ∘ entryOf =
      fun r => decide (r.tenantId = some u) := by
    funext r
    refine decide_eq_decide.mpr ?_
    cases hr : r.tenantId with
    | none => simp [entryOf, hr]
    | some v => simp [entryOf, hr, Uuid.toString_inj]
  rw [lookup_foldl_loadTenantKek, List.filter_map, hof, filter_byVersion, filter_newestFirst,
    ← kekRows, List.getLast?_map]
  · cases (kekRows db u).getLast? with
    | none => rfl
    | some r => rfl
  · intro row hrow ht
    obtain ⟨r, hr, rfl⟩ := List.mem_map.mp hrow
    have hr : r ∈ loadable db .tenantKek := mem_newestFirst.mp (mem_byVersion.mp hr)
    obtain ⟨v, hv, hvu⟩ := Option.map_eq_some_iff.mp ht
    rw [loadedKek, Option.isSome_map, ← hvu]
    exact hunwraps.kek r hr v hv

variable {r : KeyRow}

theorem rawDekOf_entryOf (hunwraps : Unwraps aes root db)
    {before : AList (fun _ : String => TenantKekEntry)}
    (hkeks : keks = ((byVersion (newestFirst (loadable db .tenantKek))).map entryOf).foldl
      (loadTenantKek aes root) before)
    (hr : r ∈ loadable db .dataEncryption) :
    rawDekOf aes root keks (entryOf r) = unwrapped aes root db r := by
  have hsome := hunwraps.dek r hr
  unfold rawDekOf unwrapped at *
  cases hu : r.tenantId with
  | none => simp [entryOf, hu]
  | some u =>
    have htenant : (entryOf r).tenantId = some u.toString := by rw [entryOf, hu]; rfl
    have hlookup := lookup_load_kek hunwraps u before
    rw [← hkeks] at hlookup
    rw [hu, Option.bind_some] at hsome
    rw [htenant, Option.bind_some, Option.bind_some, hlookup]
    cases hlast : (kekRows db u).getLast? with
    | none => simp [hlast] at hsome
    | some kekRow =>
      rw [hlast, Option.bind_some] at hsome
      rw [Option.bind_some, Option.elim_some, loadedKek]
      change ((unwrapTenantKek aes root u.toString kekRow.wrappedKey).map _).bind _ = _
      cases unwrapTenantKek aes root u.toString kekRow.wrappedKey with
      | none => rfl
      | some kek => rfl

def recent (db : KeyDb) : List KeyRow :=
  (newestFirst (loadable db .dataEncryption)).take warmLoadDekLimit

theorem loadable_nodup (db : KeyDb) (purpose : KeyPurpose) : (loadable db purpose).Nodup :=
  db.descriptors.nodup.of_map.filter _

theorem mem_loadable_of_mem_recent (h : r ∈ recent db) :
    r ∈ loadable db .dataEncryption :=
  mem_newestFirst.mp (List.mem_of_mem_take h)

theorem recent_nodup (db : KeyDb) : (recent db).Nodup :=
  (((List.perm_insertionSort _ _).nodup_iff.mpr (loadable_nodup db _))).sublist
    (List.take_sublist _ _)

theorem filter_keyId {rows : List KeyRow} (hnodup : rows.Nodup)
    (hrows : ∀ r ∈ rows, r ∈ loadable db .dataEncryption) (hr : r ∈ rows) :
    rows.filter (·.id.toString = r.id.toString) = [r] := by
  have hmem : ∀ x, x ∈ rows.filter (·.id.toString = r.id.toString) ↔ x ∈ [r] := by
    intro x
    rw [List.mem_filter, List.mem_singleton, decide_eq_true_iff, Uuid.toString_inj]
    constructor
    · rintro ⟨hx, hid⟩
      exact Table.eq_of_key (Table.mem_select.mp (hrows x hx)).1
        (Table.mem_select.mp (hrows r hr)).1
        hid
    · rintro rfl
      exact ⟨hr, rfl⟩
  have hperm := (List.perm_ext_iff_of_nodup (hnodup.filter _) (List.nodup_singleton r)).mpr hmem
  exact List.perm_singleton.mp hperm

theorem versionsOf_eq (hr : r ∈ loadable db .dataEncryption) :
    versionsOf db r.id.toString = [r] := by
  rw [versionsOf, filter_keyId (loadable_nodup db _) (fun _ h => h) hr]
  rfl

theorem versionsOf_eq_nil {keyId : String}
    (h : ∀ r ∈ loadable db .dataEncryption, r.id.toString ≠ keyId) : versionsOf db keyId = [] := by
  rw [versionsOf, List.filter_eq_nil_iff.mpr fun r hr => by simpa using h r hr]
  rfl

section Load

variable {s : KekStore} (hroot : s.vaultSeal.rootKey = some root) (hdb : s.dbPool = some db)
  (hunwraps : Unwraps aes root db)

include hroot hdb hunwraps

theorem lookup_load_recent (hr : r ∈ recent db) :
    ∃ keks rawDek, rawDekOf aes root keks (entryOf r) = some rawDek ∧
      unwrapped aes root db r = some rawDek ∧ (load aes s).deks.lookup r.id.toString =
        addVersion aes root keks (s.deks.lookup r.id.toString) (entryOf r) := by
  obtain ⟨keks, hkeks, heq⟩ := load_eq aes hroot hdb
  have hload := mem_loadable_of_mem_recent hr
  have hraw := rawDekOf_entryOf hunwraps hkeks hload
  obtain ⟨rawDek, hsome⟩ := Option.isSome_iff_exists.mp (hunwraps.dek r hload)
  refine ⟨keks, rawDek, hraw.trans hsome, hsome, ?_⟩
  rw [heq]
  change (((byVersion (recent db)).map entryOf).foldl _ s.deks).lookup _ = _
  rw [lookup_foldl_loadDek, List.filter_map]
  have hfilter : (byVersion (recent db)).filter
      ((fun row : PersistedKeyEntry => decide (row.keyId = r.id.toString)) ∘ entryOf) = [r] := by
    change (byVersion (recent db)).filter (·.id.toString = r.id.toString) = [r]
    rw [filter_byVersion,
      filter_keyId (recent_nodup db) (fun _ h => mem_loadable_of_mem_recent h) hr]
    rfl
  rw [hfilter]
  rfl

omit hunwraps in
theorem lookup_load_other {keyId : String} (h : ∀ r ∈ recent db, r.id.toString ≠ keyId) :
    (load aes s).deks.lookup keyId = s.deks.lookup keyId := by
  obtain ⟨keks, -, heq⟩ := load_eq aes hroot hdb
  rw [heq]
  change (((byVersion (recent db)).map entryOf).foldl _ s.deks).lookup _ = _
  have hfilter : (byVersion (recent db)).filter
      ((fun row : PersistedKeyEntry => decide (row.keyId = keyId)) ∘ entryOf) = [] := by
    refine List.filter_eq_nil_iff.mpr fun r hr hid => ?_
    exact h r (mem_byVersion.mp hr) (of_decide_eq_true hid)
  rw [lookup_foldl_loadDek, List.filter_map, hfilter]
  rfl

theorem lookup_load_load_kek (tenantId : String) :
    (load aes (load aes s)).tenantKeks.lookup tenantId =
      (load aes s).tenantKeks.lookup tenantId := by
  obtain ⟨keks, hkeks, heq⟩ := load_eq aes hroot hdb
  have hroot' : (load aes s).vaultSeal.rootKey = some root := by rw [heq]; exact hroot
  have hdb' : (load aes s).dbPool = some db := by rw [heq]; exact hdb
  obtain ⟨keks', hkeks', heq'⟩ := load_eq aes hroot' hdb'
  have hfirst : (load aes s).tenantKeks = keks := by rw [heq]
  rw [heq', hfirst]
  rw [hfirst] at hkeks'
  -- the rows of the tenant are folded in once more
  have hunwrap : ∀ row ∈ (byVersion (newestFirst (loadable db .tenantKek))).map entryOf,
      row.tenantId = some tenantId → (loadedKek aes root tenantId row).isSome = true := by
    intro row hrow ht
    obtain ⟨r, hr, rfl⟩ := List.mem_map.mp hrow
    obtain ⟨u, hu, rfl⟩ := Option.map_eq_some_iff.mp ht
    rw [loadedKek, Option.isSome_map]
    exact hunwraps.kek r (mem_newestFirst.mp (mem_byVersion.mp hr)) u hu
  have hsecond := lookup_foldl_loadTenantKek _ tenantId hunwrap keks
  have hthis := lookup_foldl_loadTenantKek _ tenantId hunwrap s.tenantKeks
  rw [← hkeks'] at hsecond
  rw [← hkeks] at hthis
  rw [hsecond]
  cases hlast : (((byVersion (newestFirst (loadable db .tenantKek))).map entryOf).filter
      (·.tenantId = some tenantId)).getLast? with
  | none => rfl
  | some row =>
    rw [hlast] at hthis
    exact hthis.symm

end Load

end Database

structure Same (s s' : KekStore) : Prop where
  vaultSeal : s'.vaultSeal = s.vaultSeal
  tenantKeks : ∀ tenantId, s'.tenantKeks.lookup tenantId = s.tenantKeks.lookup tenantId
  deks : ∀ keyId, s'.deks.lookup keyId = s.deks.lookup keyId
  currentDek : s'.currentDek = s.currentDek
  dbPool : s'.dbPool = s.dbPool

/-- The entry of a key id has every loadable version, with the newest in use. -/
structure Restored (aes : Aes256Gcm) (root : Key) (db : KeyDb) (keyId : String)
    (entry : Option DekEntry) : Prop where
  chain : (chainOf entry).map some = (versionsOf db keyId).map (unwrapped aes root db)
  active : (entry.map fun e => (e.version, e.wrappedDekB64)) =
    (versionsOf db keyId).getLast?.map fun r => (asU32 r.version, r.wrappedKey)
  tenant : ∀ e ∈ entry, ∀ r ∈ versionsOf db keyId, r.tenantId.map Uuid.toString = some e.tenantId

section Reload

variable {inner : SealInner} {db : KeyDb} (hroot : inner.rootKey = some root)
  (hunwraps : Unwraps aes root db)

include hroot hunwraps

theorem restored_of_recent {r : KeyRow} (hr : r ∈ recent db) : Restored aes root db r.id.toString
      ((load aes (withSeal inner (some db))).deks.lookup r.id.toString) := by
  have hload := mem_loadable_of_mem_recent hr
  obtain ⟨keks, rawDek, hraw, hsome, heq⟩ :=
    lookup_load_recent (s := withSeal inner (some db)) hroot rfl hunwraps hr
  have hnone : (withSeal inner (some db)).deks.lookup r.id.toString = none := AList.lookup_empty _
  rw [heq, hnone]
  simp only [addVersion, hraw]
  obtain ⟨u, hu, -⟩ := Option.bind_eq_some_iff.mp hsome
  refine ⟨?_, ?_, ?_⟩
  · rw [versionsOf_eq hload]
    simp [chainOf, hsome]
  · rw [versionsOf_eq hload]
    rfl
  · rintro _ ⟨⟩ r' hr'
    rw [versionsOf_eq hload, List.mem_singleton] at hr'
    subst hr'
    simp [entryOf, hu]

/-- The first load restores every chain, unless the query leaves a row out. -/
theorem restored_iff : (∀ keyId, Restored aes root db keyId
        ((load aes (withSeal inner (some db))).deks.lookup keyId)) ↔
      (loadable db .dataEncryption).length ≤ warmLoadDekLimit := by
  have hlength : (newestFirst (loadable db .dataEncryption)).length =
      (loadable db .dataEncryption).length := List.length_insertionSort ..
  have hlookup {keyId : String} (h : ∀ r ∈ recent db, r.id.toString ≠ keyId) :
      (load aes (withSeal inner (some db))).deks.lookup keyId = none := by
    rw [lookup_load_other (s := withSeal inner (some db)) hroot rfl h]
    exact AList.lookup_empty _
  constructor
  · intro h
    by_contra hlong
    rw [← hlength, Nat.not_le] at hlong
    -- the first row behind the limit
    have hr : (newestFirst (loadable db .dataEncryption))[warmLoadDekLimit] ∈
        loadable db .dataEncryption := mem_newestFirst.mp (List.getElem_mem hlong)
    generalize hrow : (newestFirst (loadable db .dataEncryption))[warmLoadDekLimit] = r at hr
    have hleft : ∀ x ∈ recent db, x.id.toString ≠ r.id.toString := by
      intro x hx hid
      obtain rfl : x = r := Table.eq_of_key
        (Table.mem_select.mp (mem_loadable_of_mem_recent hx)).1 (Table.mem_select.mp hr).1
        (Uuid.toString_inj.mp hid)
      have hnodup : (newestFirst (loadable db .dataEncryption)).Nodup :=
        (List.perm_insertionSort _ _).nodup_iff.mpr (loadable_nodup db _)
      obtain ⟨i, hi, hix⟩ := List.mem_take_iff_getElem.mp hx
      have hindex := hnodup.getElem_inj_iff.mp (hix.trans hrow.symm)
      omega
    have hchain := (h r.id.toString).chain
    rw [hlookup hleft, versionsOf_eq hr] at hchain
    simp [chainOf] at hchain
  · intro hshort keyId
    have hall : recent db = newestFirst (loadable db .dataEncryption) :=
      List.take_of_length_le (hlength ▸ hshort)
    by_cases hrow : ∃ r ∈ recent db, r.id.toString = keyId
    · obtain ⟨r, hr, rfl⟩ := hrow
      exact restored_of_recent hroot hunwraps hr
    · have hnone : versionsOf db keyId = [] := by
        refine versionsOf_eq_nil fun r hr hid => hrow ⟨r, ?_, hid⟩
        rw [hall]
        exact mem_newestFirst.mpr hr
      rw [hlookup fun r hr hid => hrow ⟨r, hr, hid⟩]
      exact ⟨by rw [hnone]; rfl, by rw [hnone]; rfl, fun _ h => by cases h⟩

/-- A second load changes nothing only if there is no DEK to load. -/
theorem same_iff :
    (load aes (withSeal inner (some db))).Same (load aes (load aes (withSeal inner (some db)))) ↔
      loadable db .dataEncryption = [] := by
  obtain ⟨keks, hkeks, heq⟩ := load_eq aes (s := withSeal inner (some db)) hroot rfl
  have hroot' : (load aes (withSeal inner (some db))).vaultSeal.rootKey = some root := by
    rw [heq]
    exact hroot
  have hdb' : (load aes (withSeal inner (some db))).dbPool = some db := by rw [heq]; rfl
  constructor
  · intro hsame
    by_contra hne
    -- some row is read in, and its chain grows
    obtain ⟨r, hr⟩ : ∃ r, r ∈ recent db := by
      obtain ⟨r, hr⟩ := List.exists_mem_of_ne_nil _ hne
      have hpos := List.length_pos_of_mem (mem_newestFirst.mpr hr)
      exact ⟨_, List.mem_take_iff_getElem.mpr
        ⟨0, Nat.lt_min.mpr ⟨by decide, hpos⟩, rfl⟩⟩
    obtain ⟨keks', rawDek, hraw, -, hsecond⟩ := lookup_load_recent hroot' hdb' hunwraps hr
    rw [hsame.deks] at hsecond
    have hchain := congrArg (fun entry => (chainOf entry).length) hsecond
    simp only [chainOf_addVersion, hraw, List.length_append] at hchain
    simp at hchain
  · intro hnil
    have hrecent : ∀ r ∈ recent db, False := fun r hr => by
      have := mem_loadable_of_mem_recent hr
      rw [hnil] at this
      cases this
    obtain ⟨keks', -, heq'⟩ := load_eq aes hroot' hdb'
    refine ⟨by rw [heq'], fun t => lookup_load_load_kek hroot rfl hunwraps t, fun keyId => ?_,
      by rw [heq'], by rw [heq']⟩
    exact lookup_load_other hroot' hdb' fun r hr => (hrecent r hr).elim

end Reload

/-- Loading the rows of a database into a fresh store restores every chain exactly if
the rows are no more than the query returns, and doing it again leaves the store as it
is exactly if there are none. -/
theorem reload_iff (aes : Aes256Gcm) (root : Key) (inner : SealInner)
    (hroot : inner.rootKey = some root) (db : KeyDb) (hunwraps : Unwraps aes root db) :
    ((∀ keyId, Restored aes root db keyId
        ((load aes (withSeal inner (some db))).deks.lookup keyId)) ↔
      (loadable db .dataEncryption).length ≤ warmLoadDekLimit) ∧
    ((load aes (withSeal inner (some db))).Same (load aes (load aes (withSeal inner (some db)))) ↔
      loadable db .dataEncryption = []) :=
  ⟨restored_iff hroot hunwraps, same_iff hroot hunwraps⟩

def opened : SealInner := Seal.unsealWithRootKey Seal.new (.repeated 32 9)

def firstKeyDb : KeyDb :=
  (perform (generateAndStoreDek .transparent Uuid.max.toString (.repeated 5 .nil .max))
    (withSeal opened (some (.empty [.max])))).1.dbPool.getD (.empty [])

theorem first_load_restores : Unwraps .transparent (.repeated 32 9) firstKeyDb ∧
      ∀ keyId, Restored .transparent (.repeated 32 9) firstKeyDb keyId
        ((load .transparent (withSeal opened (some firstKeyDb))).deks.lookup keyId) := by
  have hunwraps : Unwraps .transparent (.repeated 32 9) firstKeyDb :=
    ⟨by decide +kernel, by decide +kernel⟩
  exact ⟨hunwraps, (reload_iff .transparent _ opened rfl firstKeyDb hunwraps).1.mpr
    (by decide +kernel)⟩

theorem second_load_doubles :
    let once := load .transparent (withSeal opened (some firstKeyDb))
    chainOf (once.deks.lookup Uuid.max.toString) = [.repeated 32 5] ∧
      chainOf ((load .transparent once).deks.lookup Uuid.max.toString) =
        [.repeated 32 5, .repeated 32 5] := by
  refine ⟨?_, ?_⟩ <;> decide +kernel

end KekStore

end WslVault.CryptoService
