import WslVault.Base.Coupled
import WslVault.CryptoService.Verify.Ownership
import WslVault.Storage.Verify.TenantRows

/-!
# What a tenant can tell apart

Two stores agree for a tenant if they have the same seal, the same keys of the tenant in
memory and the same rows of the tenant (`Agree`).
-/

namespace WslVault.CryptoService

open Base Core Storage Storage.KeyStore KekStore

variable {aes : Aes256Gcm} {tenantId : String}

namespace KekStore

def seen (tenantId : String) (entry : Option DekEntry) : Option DekEntry :=
  entry.filter fun e => SameTenant tenantId e.tenantId

variable {entry : Option DekEntry}

theorem seen_eq_some {e : DekEntry} :
    seen tenantId entry = some e ↔ entry = some e ∧ SameTenant tenantId e.tenantId := by
  simp [seen, Option.filter_eq_some_iff]

theorem seen_of_foreign {e : DekEntry} (h : ¬ SameTenant tenantId e.tenantId) :
    seen tenantId (some e) = none := by
  simp [seen, Option.filter, h]

theorem seen_of_own (h : ∀ e ∈ entry, SameTenant tenantId e.tenantId) :
    seen tenantId entry = entry := by
  cases entry with
  | none => rfl
  | some e => exact seen_eq_some.mpr ⟨rfl, h e rfl⟩

@[simp] theorem seen_none : seen tenantId none = none := rfl

structure Agree (tenantId : String) (s s' : KekStore) : Prop where
  vaultSeal : s'.vaultSeal = s.vaultSeal
  keks : ∀ t, SameTenant tenantId t → s'.tenantKeks.lookup t = s.tenantKeks.lookup t
  deks : ∀ keyId, seen tenantId (s'.deks.lookup keyId) = seen tenantId (s.deks.lookup keyId)
  currentDek : ∀ t, SameTenant tenantId t → s'.currentDek.lookup t = s.currentDek.lookup t
  db : Option.Rel (KeyDb.Agree tenantId) s.dbPool s'.dbPool

variable {entry : DekEntry} {keyId t : String} {db db' : KeyDb} {drawn : Draw} {env : Env}

namespace Agree

variable {s s' s'' : KekStore}

theorem refl (s : KekStore) : Agree tenantId s s := by
  refine ⟨rfl, fun _ _ => rfl, fun _ => rfl, fun _ _ => rfl, ?_⟩
  cases s.dbPool with
  | none => exact .none
  | some db => exact .some (.refl db)

theorem symm (h : Agree tenantId s s') : Agree tenantId s' s := by
  refine ⟨h.vaultSeal.symm, fun t ht => (h.keks t ht).symm, fun k => (h.deks k).symm,
    fun t ht => (h.currentDek t ht).symm, ?_⟩
  have hdb := h.db
  revert hdb
  cases s.dbPool <;> cases s'.dbPool <;> intro hdb <;> cases hdb
  · exact .none
  · exact .some (KeyDb.Agree.symm ‹_›)

theorem trans (h : Agree tenantId s s') (h' : Agree tenantId s' s'') : Agree tenantId s s'' := by
  refine ⟨h'.vaultSeal.trans h.vaultSeal, fun t ht => (h'.keks t ht).trans (h.keks t ht),
    fun k => (h'.deks k).trans (h.deks k),
    fun t ht => (h'.currentDek t ht).trans (h.currentDek t ht), ?_⟩
  have hdb := h.db
  have hdb' := h'.db
  revert hdb hdb'
  cases s.dbPool <;> cases s'.dbPool <;> cases s''.dbPool <;> intro hdb hdb' <;> cases hdb <;>
    cases hdb'
  · exact .none
  · exact .some (KeyDb.Agree.trans ‹_› ‹_›)

variable (h : Agree tenantId s s')

include h

theorem lookup_own
    (hentry : s.deks.lookup keyId = some entry) (hown : SameTenant tenantId entry.tenantId) :
    s'.deks.lookup keyId = some entry := by
  have hseen := seen_eq_some.mpr ⟨hentry, hown⟩
  rw [← h.deks keyId] at hseen
  exact (seen_eq_some.mp hseen).1

theorem lookup_eq (hown : ∀ e ∈ s.deks.lookup keyId, SameTenant tenantId e.tenantId)
    (hown' : ∀ e ∈ s'.deks.lookup keyId, SameTenant tenantId e.tenantId) :
    s'.deks.lookup keyId = s.deks.lookup keyId := by
  rw [← seen_of_own hown, ← seen_of_own hown', h.deks keyId]

theorem cacheKek (t : String) (entry : TenantKekEntry) :
    Agree tenantId (s.cacheKek t entry) (s'.cacheKek t entry) := by
  refine ⟨h.vaultSeal, fun t' ht' => ?_, h.deks, h.currentDek, h.db⟩
  rw [KekStore.cacheKek, KekStore.cacheKek, lookup_insert_eq, lookup_insert_eq, h.keks t' ht']

theorem cacheDek (keyId : String) (entry : DekEntry) :
    Agree tenantId (s.cacheDek keyId entry) (s'.cacheDek keyId entry) := by
  refine ⟨h.vaultSeal, h.keks, fun k => ?_, h.currentDek, h.db⟩
  rw [KekStore.cacheDek, KekStore.cacheDek, lookup_insert_eq, lookup_insert_eq]
  split
  · rfl
  · exact h.deks k

theorem setCurrentDek (t : String) (entry : CurrentDek) :
    Agree tenantId (s.setCurrentDek t entry) (s'.setCurrentDek t entry) := by
  refine ⟨h.vaultSeal, h.keks, h.deks, fun t' ht' => ?_, h.db⟩
  rw [KekStore.setCurrentDek, KekStore.setCurrentDek, lookup_insert_eq, lookup_insert_eq,
    h.currentDek t' ht']

theorem setDb (hdb : KeyDb.Agree tenantId db db') :
    Agree tenantId (s.setDb db) (s'.setDb db') :=
  ⟨h.vaultSeal, h.keks, h.deks, h.currentDek, .some hdb⟩

theorem setSeal (inner : SealInner) :
    Agree tenantId { s with vaultSeal := inner } { s' with vaultSeal := inner } :=
  ⟨rfl, h.keks, h.deks, h.currentDek, h.db⟩

theorem db_cases : (s.dbPool = none ∧ s'.dbPool = none) ∨
      ∃ db db', s.dbPool = some db ∧ s'.dbPool = some db' ∧ KeyDb.Agree tenantId db db' := by
  have hdb := h.db
  revert hdb
  cases s.dbPool <;> cases s'.dbPool <;> intro hdb <;> cases hdb
  · exact .inl ⟨rfl, rfl⟩
  · exact .inr ⟨_, _, rfl, rfl, ‹_›⟩

end Agree

variable {s : KekStore}

theorem agree_cacheDek (hbefore : seen tenantId (s.deks.lookup keyId) = none)
    (hafter : ¬ SameTenant tenantId entry.tenantId) :
    Agree tenantId s (s.cacheDek keyId entry) := by
  have hrefl : Agree tenantId s s := .refl s
  refine ⟨rfl, hrefl.keks, fun k => ?_, hrefl.currentDek, hrefl.db⟩
  rw [cacheDek, lookup_insert_eq]
  split
  · next heq => rw [heq, hbefore, seen_of_foreign hafter]
  · rfl

variable {s' : KekStore}

theorem OwnWrite.agree {drawn : List Uuid}
    (h : OwnWrite t drawn s s') (hs : s.Consistent) (hother : ¬ SameTenant tenantId t) :
    Agree tenantId s s' := by
  have hrefl : Agree tenantId s s := .refl s
  have hforeign {t' : String} (ht' : SameTenant t t') : ¬ SameTenant tenantId t' :=
    fun h => hother (h.trans ht'.symm)
  cases h with
  | @kek t' entry ht =>
    refine ⟨rfl, fun t'' ht'' => ?_, hrefl.deks, hrefl.currentDek, hrefl.db⟩
    rw [cacheKek, lookup_insert_eq, if_neg]
    rintro rfl
    exact hforeign ht ht''
  | @newDek id entry hid hfree ht =>
    refine agree_cacheDek ?_ (hforeign ht)
    have hnone : s.deks.lookup id.toString = none := by
      rw [AList.lookup_eq_none]
      intro hmem
      obtain ⟨e, he⟩ := Option.isSome_iff_exists.mp (AList.lookup_isSome.mpr hmem)
      exact hfree.2 ⟨_, e⟩ (AList.mem_lookup_iff.mp he) (Uuid.parseStr_toString id)
    rw [hnone, seen_none]
  | rotate hold hsame ht =>
    refine agree_cacheDek ?_ (hsame ▸ hforeign ht)
    rw [hold, seen_of_foreign (hforeign ht)]
  | @hydrate db r keyId entry u hdb hr hid hu hentry hnone ht =>
    refine agree_cacheDek (by rw [hnone, seen_none]) (hforeign ?_)
    rw [hentry]
    exact .of_parse ht (Uuid.parseStr_toString u)
  | @current t' entry ht =>
    refine ⟨rfl, hrefl.keks, hrefl.deks, fun t'' ht'' => ?_, hrefl.db⟩
    rw [setCurrentDek, lookup_insert_eq, if_neg]
    rintro rfl
    exact hforeign ht ht''
  | @insert db db' r u hdb hins hu ht hid =>
    refine ⟨rfl, hrefl.keks, hrefl.deks, hrefl.currentDek, ?_⟩
    rw [hdb]
    refine .some (KeyDb.agree_insertRow hins ?_)
    by_contra hof
    obtain ⟨u', hu', hparse⟩ := KeyDb.isOf_eq_true.mp (by simpa using hof)
    obtain rfl : u = u' := Option.some.inj (hu.symm.trans hu')
    exact hother (.of_parse hparse ht)
  | @mark db id keyId entry hdb hentry hid ht =>
    refine ⟨rfl, hrefl.keks, hrefl.deks, hrefl.currentDek, ?_⟩
    rw [hdb]
    refine .some (KeyDb.agree_setState _ fun r hr hrid => ?_)
    obtain ⟨u, hu, hparse⟩ := hs.row db hdb r hr keyId entry hentry (hrid ▸ hid)
    by_contra hof
    obtain ⟨u', hu', hparse'⟩ := KeyDb.isOf_eq_true.mp (by simpa using hof)
    obtain rfl : u = u' := Option.some.inj (hu.symm.trans hu')
    exact hforeign ht (.of_parse hparse' hparse)

theorem OwnWrites.agree {drawn : List Uuid}
    (h : OwnWrites t drawn s s') (hs : s.Consistent) (hother : ¬ SameTenant tenantId t) :
    Agree tenantId s s' := by
  induction h with
  | refl => exact .refl s
  | tail hwrites hwrite ih =>
    exact ih.trans (hwrite.agree (OwnWrites.consistent hwrites hs) hother)

/-! ## What the tenant does -/

section Coupled

variable {s s' : KekStore} {id : Uuid}

theorem Free.iff (hfree : s.Free id) (hfree' : s'.Free id)
    (hdb : s.dbPool = some db) (hdb' : s'.dbPool = some db') :
    (∃ x ∈ db.descriptors, x.id = id) ↔ ∃ x ∈ db'.descriptors, x.id = id :=
  ⟨fun ⟨x, hx, hid⟩ => absurd hid (hfree.1 db hdb x hx),
    fun ⟨x, hx, hid⟩ => absurd hid (hfree'.1 db' hdb' x hx)⟩

theorem lookupDek_hit (hentry : s.deks.lookup keyId = some entry) (howner : entry.tenantId = t) :
    perform (lookupDek keyId t) s = (s, .ok entry) := by
  rw [perform_eq_ok]
  unfold lookupDek
  simp only [outcome_bind, outcome_get, hentry, howner]
  simp

theorem lookupDek_miss (h : ∀ entry ∈ s.deks.lookup keyId, entry.tenantId ≠ t) :
    perform (lookupDek keyId t) s = (s, .error (.keyNotFound keyId)) := by
  rw [perform_eq_error]
  unfold lookupDek
  simp only [outcome_bind, outcome_get]
  split
  · exact .throw ⟨rfl, rfl⟩
  · next entry hentry =>
    rw [if_pos (h entry hentry)]
    exact .throw ⟨rfl, rfl⟩

/-- No row that can be loaded under the key id has a tenant. -/
def Unowned (s : KekStore) (keyId : String) : Prop :=
  ∀ db, s.dbPool = some db → ∀ r ∈ db.descriptors, Uuid.parseStr keyId = some r.id →
    r.loadable = true → r.tenantId = none

theorem hydrateDek_unowned (h : s.Unowned keyId) (hselect : env.select = none) :
    perform (hydrateDek aes keyId env) s = (s, .ok false) := by
  rw [perform_eq_ok]
  unfold hydrateDek
  simp only [outcome_bind, outcome_get]
  split
  · next db id hdb hid =>
    simp only [outcome_bind, outcome_ofExcept]
    refine ⟨fun rows hrows => ?_, fun e he => ?_⟩
    · split
      · exact .pure ⟨rfl, rfl⟩
      · next t ht =>
        obtain ⟨r, hr, rfl, hload, u, hu, -⟩ := row_of_versions hrows ht
        rw [h db hdb r hr hid hload] at hu
        cases hu
    · rw [getKeyVersionsWithWrappedKey, hselect] at he
      cases he
  · exact .pure ⟨rfl, rfl⟩

theorem hydrateDek_fault (aes : Aes256Gcm) (s : KekStore) (keyId : String) {reason : String}
    (hselect : env.select = some reason) : perform (hydrateDek aes keyId env) s =
      (s, if s.dbPool.isSome && (Uuid.parseStr keyId).isSome then .error (.database reason)
        else .ok false) := by
  have hversions (db : KeyDb) (id : Uuid) :
      getKeyVersionsWithWrappedKey db env.select id = .error (.database reason) := by
    rw [hselect]
    rfl
  split
  · next hboth =>
    obtain ⟨db, hdb⟩ := Option.isSome_iff_exists.mp (Bool.and_eq_true_iff.mp hboth).1
    obtain ⟨id, hid⟩ := Option.isSome_iff_exists.mp (Bool.and_eq_true_iff.mp hboth).2
    rw [perform_eq_error]
    unfold hydrateDek
    simp [hdb, hid, hversions]
  · next hnot =>
    rw [perform_eq_ok]
    unfold hydrateDek
    simp only [outcome_bind, outcome_get]
    split
    · next db id hdb hid =>
      rw [hdb, hid] at hnot
      exact absurd rfl hnot
    · exact .pure ⟨rfl, rfl⟩

structure OwnRow (tenantId : String) (s : KekStore) (keyId : String) (db : KeyDb) (r : KeyRow) :
    Prop where
  pool : s.dbPool = some db
  mem : r ∈ db.descriptors
  id : Uuid.parseStr keyId = some r.id
  loadable : r.loadable = true
  isOf : KeyDb.isOf tenantId r = true

theorem unowned_of_noForeignRow (ht : SameTenant tenantId t) (hnone : s.deks.lookup keyId = none)
    (hforeign : s.NoForeignRow t keyId) (hrow : ∀ db r, ¬ OwnRow tenantId s keyId db r) :
    s.Unowned keyId := by
  intro db hdb r hr hid hload
  cases hu : r.tenantId with
  | none => rfl
  | some u =>
    have hparse : Uuid.parseStr t = some u := hforeign hnone db hdb r hr hid u hu
    exact absurd ⟨hdb, hr, hid, hload, KeyDb.isOf_eq_true.mpr ⟨u, hu, ht.symm.parse hparse⟩⟩
      (hrow db r)

theorem ownedDek_mem (hmem : s.deks.lookup keyId ≠ none) (t : String) (env : Env) :
    perform (ownedDek aes keyId t env) s = perform (lookupDek keyId t) s := by
  unfold ownedDek
  change perform (if s.deks.lookup keyId = none then _ else lookupDek keyId t) s = _
  rw [if_neg hmem]

theorem ownedDek_unowned (hnone : s.deks.lookup keyId = none)
    (hunowned : s.Unowned keyId) (hselect : env.select = none) (t : String) :
    perform (ownedDek aes keyId t env) s = (s, .error (.keyNotFound keyId)) := by
  rw [perform_eq_error]
  unfold ownedDek
  rw [outcome_bind, outcome_get, if_pos hnone,
    outcome_bind_of_ok (hydrateDek_unowned hunowned hselect)]
  refine perform_eq_error.mp (lookupDek_miss fun entry hentry => ?_)
  rw [hnone] at hentry
  cases hentry

theorem exists_setState {id' : Uuid} {state : KeyState} :
    (∃ x ∈ (db.setState id state).descriptors, x.id = id') ↔ ∃ x ∈ db.descriptors, x.id = id' := by
  simp only [KeyDb.mem_setState]
  constructor
  · rintro ⟨x, ⟨r, hr, rfl⟩, hid⟩
    refine ⟨r, hr, ?_⟩
    split at hid
    · exact hid
    · exact hid
  · rintro ⟨r, hr, hid⟩
    refine ⟨_, ⟨r, hr, rfl⟩, ?_⟩
    split
    · exact hid
    · exact hid

variable (h : Agree tenantId s s') {r : KeyRow}

include h

theorem requireUuid_bind {α : Type} {field text : String} {f g : Uuid → StoreM α}
    {Q : α → KekStore → KekStore → Prop}
    (hnext : ∀ id, Uuid.parseStr text = some id → Coupled (Agree tenantId) (f id) (g id) s s' Q) :
    Coupled (Agree tenantId) (requireUuid field text >>= f) (requireUuid field text >>= g) s s'
      Q := by
  unfold requireUuid
  split
  · next id hid => exact .bind (coupled_pure (hnext id hid))
  · exact .bind (coupled_throw h)

theorem persist_coupled (hdb : KeyDb.Agree tenantId db db')
    {desc : KeyDescriptor} {wrapped failure : String}
    (hof : KeyDb.isOf tenantId (rowOf desc wrapped drawn.now) = true)
    (hid : (∃ x ∈ db.descriptors, x.id = desc.id) ↔ ∃ x ∈ db'.descriptors, x.id = desc.id) :
    Coupled (Agree tenantId) (persist db drawn desc wrapped failure)
      (persist db' drawn desc wrapped failure) s s' fun _ => Agree tenantId := by
  unfold persist insertKeyDescriptor
  cases drawn.fault with
  | some reason => exact coupled_throw h
  | none =>
    rcases hdb.insertRow hof hid with ⟨e, he, he'⟩ | ⟨db₁, db₁', hok, hok', hagree⟩
    · simp only [he, he', mapError_error]
      exact coupled_throw h
    · simp only [hok, hok', mapError_ok]
      exact coupled_modify (h.setDb hagree)

theorem Agree.ownRow (hrow : OwnRow tenantId s keyId db r) :
    ∃ db', OwnRow tenantId s' keyId db' r := by
  rcases h.db_cases with ⟨hnone, -⟩ | ⟨db₀, db', hdb, hdb', hagree⟩
  · rw [hrow.pool] at hnone
    cases hnone
  · obtain rfl : db = db₀ := Option.some.inj (hrow.pool.symm.trans hdb)
    exact ⟨db', hdb', hagree.mem hrow.mem hrow.isOf, hrow.id, hrow.loadable, hrow.isOf⟩

theorem Agree.taken_iff (hs : s.Consistent) (hs' : s'.Consistent)
    (hid : Uuid.parseStr keyId = some id)
    (hentry : s.deks.lookup keyId = some entry) (hown : SameTenant tenantId entry.tenantId)
    (hdb : s.dbPool = some db) (hdb' : s'.dbPool = some db')
    (hagree : KeyDb.Agree tenantId db db') :
    (∃ x ∈ db.descriptors, x.id = id) ↔ ∃ x ∈ db'.descriptors, x.id = id := by
  -- the row of a store that holds the entry is the tenant's
  have hof {v : KekStore} (hv : v.Consistent) (hventry : v.deks.lookup keyId = some entry)
      {d : KeyDb} (hd : v.dbPool = some d) {x : KeyRow} (hx : x ∈ d.descriptors)
      (hxid : x.id = id) : KeyDb.isOf tenantId x = true := by
    obtain ⟨u, hu, hparse⟩ := hv.row d hd x hx keyId entry hventry (hxid ▸ hid)
    exact KeyDb.isOf_eq_true.mpr ⟨u, hu, hown.symm.parse hparse⟩
  constructor
  · rintro ⟨x, hx, hxid⟩
    exact ⟨x, hagree.mem hx (hof hs hentry hdb hx hxid), hxid⟩
  · rintro ⟨x, hx, hxid⟩
    exact ⟨x, hagree.symm.mem hx (hof hs' (h.lookup_own hentry hown) hdb' hx hxid), hxid⟩

variable (ht : SameTenant tenantId t)

include ht

section

variable (hfree : s.Free drawn.id) (hfree' : s'.Free drawn.id)

include hfree hfree'

theorem getOrCreateTenantKek_coupled :
    Alike (Agree tenantId) (getOrCreateTenantKek aes t drawn) s s' := by
  unfold getOrCreateTenantKek
  refine coupled_get_bind ?_
  rw [h.keks t ht, h.vaultSeal]
  cases s.tenantKeks.lookup t with
  | some entry => exact coupled_pure h
  | none =>
    refine .bind (coupled_ofExcept (fun raw _ => ?_) fun _ _ => h)
    refine .bind (coupled_ofExcept (fun root _ => ?_) fun _ _ => h)
    refine .bind (coupled_ofExcept (fun wrapped _ => ?_) fun _ _ => h)
    refine .bind (coupled_modify ?_)
    have hcache := h.cacheKek t ⟨raw, wrapped, 1⟩
    rcases h.db_cases with ⟨hdb, hdb'⟩ | ⟨db, db', hdb, hdb', hagree⟩
    · rw [hdb, hdb']
      exact coupled_pure hcache
    · rw [hdb, hdb']
      refine requireUuid_bind hcache fun u hu => ?_
      refine .bind ((persist_coupled hcache hagree ?_ (hfree.iff hfree' hdb hdb')).mono
        fun _ _ _ h => coupled_pure h)
      exact KeyDb.isOf_eq_true.mpr ⟨u, hu, ht.symm.parse hu⟩

theorem ownKek_coupled :
    Coupled (Agree tenantId) (getOrCreateTenantKek aes t drawn) (getOrCreateTenantKek aes t drawn)
      s s' fun key v v' => Agree tenantId v v' ∧
        GotKek aes ⟨True, t, [drawn.id]⟩ s v t key drawn.id ∧
        GotKek aes ⟨True, t, [drawn.id]⟩ s' v' t key drawn.id := by
  have hown {v : KekStore} (hv : v.Free drawn.id) : Outcome (getOrCreateTenantKek aes t drawn) v
        (fun key v' => GotKek aes ⟨True, t, [drawn.id]⟩ v v' t key drawn.id) fun _ _ => True :=
    (getOrCreateTenantKek_outcome fun _ => ⟨.refl t, List.mem_cons_self, hv⟩).mono
      (fun _ _ h => h) fun _ _ _ => trivial
  exact (getOrCreateTenantKek_coupled h ht hfree hfree').and_outcomes (hown hfree) (hown hfree')

theorem storeDek_coupled (kek : Key) :
    Alike (Agree tenantId) (storeDek aes t kek drawn) s s' := by
  unfold storeDek
  refine .bind (coupled_ofExcept (fun raw _ => ?_) fun _ _ => h)
  refine .bind (coupled_ofExcept (fun wrapped _ => ?_) fun _ _ => h)
  refine .bind (coupled_modify (coupled_get_bind ?_))
  have hcache := h.cacheDek drawn.id.toString ⟨raw, [], wrapped, t, 1⟩
  rcases hcache.db_cases with ⟨hdb, hdb'⟩ | ⟨db, db', hdb, hdb', hagree⟩
  · rw [hdb, hdb']
    exact coupled_pure hcache
  · rw [hdb, hdb']
    refine requireUuid_bind hcache fun u hu => requireUuid_bind hcache fun id hid => ?_
    rw [Uuid.parseStr_toString, Option.some.injEq] at hid
    subst hid
    refine .bind ((persist_coupled hcache hagree ?_ (hfree.iff hfree' hdb hdb')).mono
      fun _ _ _ h => coupled_pure h)
    exact KeyDb.isOf_eq_true.mpr ⟨u, hu, ht.symm.parse hu⟩

end

theorem generateAndStoreDek_coupled
    (hfree : s.Free env.kek.id ∧ s.Free env.dek.id ∧ env.kek.id ≠ env.dek.id)
    (hfree' : s'.Free env.kek.id ∧ s'.Free env.dek.id ∧ env.kek.id ≠ env.dek.id) :
    Alike (Agree tenantId) (generateAndStoreDek aes t env) s s' := by
  unfold generateAndStoreDek
  refine .bind ((ownKek_coupled h ht hfree.1 hfree'.1).mono ?_)
  rintro kek s₁ s₁' ⟨h₁, hgot, hgot'⟩
  exact storeDek_coupled h₁ ht (hgot.free _ hfree.2.2.symm hfree.2.1)
    (hgot'.free _ hfree.2.2.symm hfree'.2.1) kek

theorem useCurrentDek_coupled :
    Coupled (Agree tenantId) (useCurrentDek t) (useCurrentDek t) s s' fun used u u' =>
      Agree tenantId u u' ∧ (used = none → u = s ∧ u' = s') := by
  unfold useCurrentDek
  refine coupled_get_bind ?_
  rw [h.currentDek t ht]
  cases s.currentDek.lookup t with
  | none => exact coupled_pure ⟨h, fun _ => ⟨rfl, rfl⟩⟩
  | some entry =>
    dsimp only
    split
    · exact .bind (coupled_modify (coupled_pure ⟨h.setCurrentDek t _, fun hnone => by cases hnone⟩))
    · exact coupled_pure ⟨h, fun _ => ⟨rfl, rfl⟩⟩

theorem installCurrentDek_coupled (keyId : String) :
    Alike (Agree tenantId) (installCurrentDek t keyId) s s' := by
  unfold installCurrentDek
  refine .bind ((useCurrentDek_coupled h ht).mono ?_)
  rintro (_ | installed) u u' ⟨hu, -⟩
  · exact .bind (coupled_modify (coupled_pure (hu.setCurrentDek t _)))
  · exact coupled_pure hu

theorem currentDekForEncrypt_coupled
    (hfree : s.Free env.kek.id ∧ s.Free env.dek.id ∧ env.kek.id ≠ env.dek.id)
    (hfree' : s'.Free env.kek.id ∧ s'.Free env.dek.id ∧ env.kek.id ≠ env.dek.id) :
    Alike (Agree tenantId) (currentDekForEncrypt aes t env) s s' := by
  unfold currentDekForEncrypt
  refine .bind ((useCurrentDek_coupled h ht).mono ?_)
  rintro (_ | used) u u' ⟨hu, hsame⟩
  · obtain ⟨rfl, rfl⟩ := hsame rfl
    refine .bind ((generateAndStoreDek_coupled h ht hfree hfree').mono fun keyId v v' hv => ?_)
    exact installCurrentDek_coupled hv ht keyId
  · exact coupled_pure hu

/-! ### Reading -/

theorem lookupDek_coupled (keyId : String) :
    Alike (Agree tenantId) (lookupDek keyId t) s s' := by
  by_cases hhit : ∃ entry, s.deks.lookup keyId = some entry ∧ entry.tenantId = t
  · obtain ⟨entry, hentry, rfl⟩ := hhit
    exact coupled_of_ok (lookupDek_hit hentry rfl) (lookupDek_hit (h.lookup_own hentry ht) rfl) h
  · refine coupled_of_error (lookupDek_miss fun entry hentry howner => hhit ⟨entry, hentry, howner⟩)
      (lookupDek_miss fun entry hentry howner => ?_) h
    subst howner
    exact hhit ⟨entry, h.symm.lookup_own hentry ht, rfl⟩

omit ht in
theorem hydrateDek_row_coupled (hfree : s.Free env.kek.id) (hfree' : s'.Free env.kek.id)
    (hselect : env.select = none) (hrow : OwnRow tenantId s keyId db r)
    (hrow' : OwnRow tenantId s' keyId db' r) :
    Alike (Agree tenantId) (hydrateDek aes keyId env) s s' := by
  obtain ⟨u, hu, hparse⟩ := KeyDb.isOf_eq_true.mp hrow.isOf
  have hsame : SameTenant tenantId u.toString := .of_parse hparse (Uuid.parseStr_toString u)
  unfold hydrateDek
  refine coupled_get_bind ?_
  rw [hrow.pool, hrow'.pool, hrow.id, h.vaultSeal]
  simp only [hselect, getKeyVersions_of_mem hrow.mem hrow.loadable,
    getKeyVersions_of_mem hrow'.mem hrow.loadable]
  refine .bind (coupled_ofExcept (fun rows hrows => ?_) fun _ _ => h)
  obtain rfl : [entryOf r] = rows := Except.ok.inj hrows
  have hhead : [entryOf r].head?.bind PersistedKeyEntry.tenantId = some u.toString := by
    simp [entryOf, hu]
  rw [hhead]
  refine .bind ((getOrCreateTenantKek_coupled h hsame hfree hfree').mono fun kek v v' hv => ?_)
  split
  · exact coupled_pure hv
  · exact .bind (coupled_modify (coupled_pure (hv.cacheDek keyId _)))

theorem hydrateDek_coupled (hfree : s.Free env.kek.id) (hfree' : s'.Free env.kek.id)
    (hnone : s.deks.lookup keyId = none)
    (hnone' : s'.deks.lookup keyId = none) (hforeign : s.NoForeignRow t keyId)
    (hforeign' : s'.NoForeignRow t keyId) :
    Alike (Agree tenantId) (hydrateDek aes keyId env) s s' := by
  cases hselect : env.select with
  | some reason =>
    have hfault := hydrateDek_fault aes s keyId hselect
    have hfault' := hydrateDek_fault aes s' keyId hselect
    have hdb : s'.dbPool.isSome = s.dbPool.isSome := by
      rcases h.db_cases with ⟨hdb, hdb'⟩ | ⟨db, db', hdb, hdb', -⟩
      · rw [hdb, hdb']
      · rw [hdb, hdb']
        rfl
    rw [hdb] at hfault'
    split at hfault
    · next hboth =>
      rw [if_pos hboth] at hfault'
      exact coupled_of_error hfault hfault' h
    · next hnot =>
      rw [if_neg hnot] at hfault'
      exact coupled_of_ok hfault hfault' h
  | none =>
    by_cases hrow : ∃ db r, OwnRow tenantId s keyId db r
    · obtain ⟨db, r, hrow⟩ := hrow
      obtain ⟨db', hrow'⟩ := h.ownRow hrow
      exact hydrateDek_row_coupled h hfree hfree' hselect hrow hrow'
    · have hunowned : s.Unowned keyId :=
        unowned_of_noForeignRow ht hnone hforeign fun db r hr => hrow ⟨db, r, hr⟩
      have hunowned' : s'.Unowned keyId := by
        refine unowned_of_noForeignRow ht hnone' hforeign' fun db' r hr => ?_
        obtain ⟨db, hr⟩ := h.symm.ownRow hr
        exact hrow ⟨db, r, hr⟩
      exact coupled_of_ok (hydrateDek_unowned hunowned hselect)
        (hydrateDek_unowned hunowned' hselect) h

/-- The key of another tenant that is in memory in one store only is found in
neither: it has no row of the tenant. -/
theorem ownedDek_foreign (aes : Aes256Gcm) (hs : s.Consistent)
    (hentry : s.deks.lookup keyId = some entry) (hnone' : s'.deks.lookup keyId = none)
    (hnames : SameTenant t entry.tenantId ∨ env.select = none)
    (hforeign' : s'.NoForeignRow t keyId) :
    perform (ownedDek aes keyId t env) s = (s, .error (.keyNotFound keyId)) ∧
      perform (ownedDek aes keyId t env) s' = (s', .error (.keyNotFound keyId)) := by
  have hother : ¬ SameTenant tenantId entry.tenantId := by
    intro hown
    rw [h.lookup_own hentry hown] at hnone'
    cases hnone'
  refine ⟨?_, ownedDek_unowned hnone' ?_ ?_ t⟩
  · rw [ownedDek_mem (by rw [hentry]; exact Option.some_ne_none entry)]
    refine lookupDek_miss fun e he howner => ?_
    obtain rfl : e = entry := Option.some.inj (he.symm.trans hentry)
    exact hother (howner ▸ ht)
  · refine unowned_of_noForeignRow ht hnone' hforeign' fun db' r hrow' => ?_
    obtain ⟨db, hrow⟩ := h.symm.ownRow hrow'
    obtain ⟨u, hu, hparse⟩ := KeyDb.isOf_eq_true.mp hrow.isOf
    obtain ⟨u', hu', hparse'⟩ := hs.row db hrow.pool r hrow.mem keyId entry hentry hrow.id
    obtain rfl : u = u' := Option.some.inj (hu.symm.trans hu')
    exact hother (.of_parse hparse hparse')
  · exact hnames.resolve_left fun hown => hother (ht.trans hown)

section

variable (hs : s.Consistent) (hs' : s'.Consistent)

include hs hs'

theorem ownedDek_coupled (hfree : s.Free env.kek.id)
    (hfree' : s'.Free env.kek.id) (hnames : s.NamesOwn env (.getDek keyId t))
    (hnames' : s'.NamesOwn env (.getDek keyId t)) :
    Alike (Agree tenantId) (ownedDek aes keyId t env) s s' := by
  cases hentry : s.deks.lookup keyId with
  | none =>
    cases hentry' : s'.deks.lookup keyId with
    | none =>
      unfold ownedDek
      refine coupled_get_bind ?_
      rw [if_pos hentry, if_pos hentry']
      refine .bind
        ((hydrateDek_coupled h ht hfree hfree' hentry hentry' hnames.1 hnames'.1).mono ?_)
      exact fun _ v v' hv => lookupDek_coupled hv ht keyId
    | some entry' =>
      obtain ⟨hmiss', hmiss⟩ := ownedDek_foreign h.symm ht aes hs' hentry' hentry
        (hnames'.2 entry' hentry') hnames.1
      exact coupled_of_error hmiss hmiss' h
  | some entry =>
    cases hentry' : s'.deks.lookup keyId with
    | none =>
      obtain ⟨hmiss, hmiss'⟩ := ownedDek_foreign h ht aes hs hentry hentry'
        (hnames.2 entry hentry) hnames'.1
      exact coupled_of_error hmiss hmiss' h
    | some entry' =>
      unfold ownedDek
      refine coupled_get_bind ?_
      rw [if_neg (by rw [hentry]; exact Option.some_ne_none entry),
        if_neg (by rw [hentry']; exact Option.some_ne_none entry')]
      exact lookupDek_coupled h ht keyId

theorem persist_rotated_coupled {u : Uuid}
    (hid : Uuid.parseStr keyId = some id) (hu : Uuid.parseStr t = some u)
    (hentry : s.deks.lookup keyId = some entry) (hown : SameTenant tenantId entry.tenantId)
    (hdb : s.dbPool = some db) (hdb' : s'.dbPool = some db')
    (hagree : KeyDb.Agree tenantId db db') (drawn : Draw) (version : UInt32)
    (wrapped failure : String) : Coupled (Agree tenantId)
      (persist (db.setState id .rotatingOut) drawn
        ⟨id, version, .dataEncryption, .active, some t⟩ wrapped failure)
      (persist (db'.setState id .rotatingOut) drawn
        ⟨id, version, .dataEncryption, .active, some t⟩ wrapped failure)
      (s.setDb (db.setState id .rotatingOut)) (s'.setDb (db'.setState id .rotatingOut))
      fun _ => Agree tenantId := by
  have hmarked := hagree.setState id .rotatingOut
  refine persist_coupled (h.setDb hmarked) hmarked ?_ ?_
  · exact KeyDb.isOf_eq_true.mpr ⟨u, hu, ht.symm.parse hu⟩
  · rw [exists_setState, exists_setState]
    exact h.taken_iff hs hs' hid hentry hown hdb hdb' hagree

theorem rotateDek_coupled (hfree : s.Free env.kek.id)
    (hfree' : s'.Free env.kek.id) (hnames : s.NamesOwn env (.rotateDek t keyId))
    (hnames' : s'.NamesOwn env (.rotateDek t keyId)) :
    Alike (Agree tenantId) (rotateDek aes t keyId env) s s' := by
  unfold rotateDek
  refine coupled_get_bind ?_
  rw [h.lookup_eq (fun e he => ht.trans (hnames e he)) fun e he => ht.trans (hnames' e he)]
  cases hentry : s.deks.lookup keyId with
  | none => exact coupled_throw h
  | some entry =>
    dsimp only
    split
    · exact coupled_throw h
    · next howner =>
      have hown : SameTenant tenantId entry.tenantId := not_not.mp howner ▸ ht
      refine .bind ((ownKek_coupled h ht hfree hfree').mono ?_)
      rintro kek s₁ s₁' ⟨h₁, hgot, hgot'⟩
      refine .bind (coupled_ofExcept (fun raw _ => ?_) fun _ _ => h₁)
      refine .bind (coupled_ofExcept (fun wrapped _ => ?_) fun _ _ => h₁)
      refine .bind (coupled_modify (coupled_get_bind ?_))
      have hentry₁ : s₁.deks.lookup keyId = some entry := by rw [hgot.deks, hentry]
      have hwrite {v : KekStore} (hv : v.deks.lookup keyId = some entry) :
          OwnWrite tenantId [] v (v.cacheDek keyId (entry.rotate raw wrapped)) :=
        .rotate hv rfl hown
      have hs₂ := (hwrite hentry₁).consistent ((hgot.makes.owned trivial).consistent hs)
      have hs₂' := (hwrite (h₁.lookup_own hentry₁ hown)).consistent
        ((hgot'.makes.owned trivial).consistent hs')
      have h₂ := h₁.cacheDek keyId (entry.rotate raw wrapped)
      have hentry₂ : (s₁.cacheDek keyId (entry.rotate raw wrapped)).deks.lookup keyId =
        some (entry.rotate raw wrapped) := AList.lookup_insert _
      rcases h₂.db_cases with ⟨hdb, hdb'⟩ | ⟨db, db', hdb, hdb', hagree⟩
      · rw [hdb, hdb']
        exact coupled_pure h₂
      · rw [hdb, hdb']
        refine requireUuid_bind h₂ fun id hid => requireUuid_bind h₂ fun u hu => ?_
        unfold updateKeyState
        cases env.update with
        | some reason => exact coupled_throw h₂
        | none =>
          refine .bind (coupled_modify ?_)
          refine .bind ((persist_rotated_coupled h₂ ht hs₂ hs₂' hid hu hentry₂ hown hdb hdb' hagree
            env.dek _ _ _).mono fun _ _ _ h => coupled_pure h)

end

end Coupled

theorem keyCall_coupled (h : Agree tenantId s s') (hs : s.Consistent)
    (hs' : s'.Consistent) {call : KeyCall} (ht : SameTenant tenantId call.tenantId)
    (hcall : s.Discreet (.keyCall call env)) (hcall' : s'.Discreet (.keyCall call env)) :
    Alike (Agree tenantId) (call.exec aes env) s s' := by
  obtain ⟨hfree, hnames⟩ := hcall
  obtain ⟨hfree', hnames'⟩ := hcall'
  cases call with
  | getOrCreateTenantKek t => exact .map _ (getOrCreateTenantKek_coupled h ht hfree.1 hfree'.1)
  | currentDekForEncrypt t => exact .map _ (currentDekForEncrypt_coupled h ht hfree hfree')
  | generateAndStoreDek t => exact .map _ (generateAndStoreDek_coupled h ht hfree hfree')
  | getDek keyId t | getDekChain keyId t =>
    refine .map _ (.bind ?_)
    exact (ownedDek_coupled h ht hs hs' hfree.1 hfree'.1 hnames hnames').mono
      fun _ _ _ hv => coupled_pure hv
  | rotateDek t keyId =>
    exact .map _ (rotateDek_coupled h ht hs hs' hfree.1 hfree'.1 hnames hnames')

end KekStore

end WslVault.CryptoService
