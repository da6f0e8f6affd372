import Mathlib.Data.List.Induction
import WslVault.Base.Map
import WslVault.CryptoService.KekStore
import WslVault.Storage.Verify.KeyStore

/-!
# What the calls of the key store write

A call of the key store is a sequence of single writes to its maps and its database, whether
it succeeds or fails in the middle. `Write` says what each of them can be, and invariants of
the store are proved write by write.
-/

namespace WslVault.CryptoService

open Base Core Storage Storage.KeyStore

variable {aes : Aes256Gcm}

def SameTenant (t t' : String) : Prop :=
  t = t' ∨ ((Uuid.parseStr t).isSome = true ∧ Uuid.parseStr t = Uuid.parseStr t')

instance (t t' : String) : Decidable (SameTenant t t') :=
  inferInstanceAs (Decidable (_ ∨ _))

namespace SameTenant

variable {t t' t'' : String} {u : Uuid}

theorem refl (t : String) : SameTenant t t := .inl rfl

theorem symm (h : SameTenant t t') : SameTenant t' t := by
  rcases h with rfl | ⟨hsome, heq⟩
  · exact .refl t
  · exact .inr ⟨heq ▸ hsome, heq.symm⟩

theorem trans (h : SameTenant t t') (h' : SameTenant t' t'') : SameTenant t t'' := by
  rcases h with rfl | ⟨hsome, heq⟩
  · exact h'
  · rcases h' with rfl | ⟨-, heq'⟩
    · exact .inr ⟨hsome, heq⟩
    · exact .inr ⟨hsome, heq.trans heq'⟩

theorem of_parse (h : Uuid.parseStr t = some u) (h' : Uuid.parseStr t' = some u) :
    SameTenant t t' :=
  .inr ⟨by rw [h]; rfl, h.trans h'.symm⟩

theorem parse (h : SameTenant t t') (hu : Uuid.parseStr t = some u) :
    Uuid.parseStr t' = some u := by
  rcases h with rfl | ⟨-, heq⟩
  · exact hu
  · exact heq ▸ hu

end SameTenant

namespace KekStore

variable {tenantId wrapped : String} {s s' : KekStore} {id : Uuid} {nonce : Option Nonce}

theorem unwrapTenantKek_wrapped {root kek : Key}
    (h : encryptWithDek aes nonce root kek.val (tenantKekAad tenantId) = .ok wrapped) :
    unwrapTenantKek aes root tenantId wrapped = some kek := by
  rw [unwrapTenantKek, decryptWithDek_encryptWithDek h]
  exact Block.ofSlice_val kek

theorem unwrapDek_wrapped {kek dek : Key} {keyId : String}
    (h : encryptWithDek aes nonce kek dek.val (reloadAad keyId) = .ok wrapped)
    (root : Except VaultError Key) : unwrapDek aes kek root keyId wrapped = some dek := by
  rw [unwrapDek, decryptWithDek_encryptWithDek h]
  exact Block.ofSlice_val dek

def DekRow (db : KeyDb) (id : Uuid) (tenantId : String) (r : KeyRow) : Prop :=
  r ∈ db.descriptors ∧ r.loadable = true ∧ r.id = id ∧ r.purpose = .dataEncryption ∧
    r.tenantId = Uuid.parseStr tenantId

theorem DekRow.keeps {db db' : KeyDb} {r : KeyRow}
    (h : DekRow db id tenantId r) (hkeeps : db.Keeps db') :
    ∃ r', DekRow db' id tenantId r' ∧ r'.wrappedKey = r.wrappedKey := by
  obtain ⟨hr, hload, hid, hpurpose, htenant⟩ := h
  obtain ⟨r', hr', hload', hid', hpurpose', htenant', hwrapped⟩ := hkeeps r hr hload
  exact ⟨r', ⟨hr', hload', hid'.trans hid, hpurpose'.trans hpurpose, htenant'.trans htenant⟩,
    hwrapped⟩

inductive Write (aes : Aes256Gcm) : KekStore → KekStore → Prop where
  | kek {s : KekStore} {tenantId : String} {entry root}
      (hnew : s.tenantKeks.lookup tenantId = none) (hroot : s.vaultSeal.rootKey = some root)
      (hwrap : unwrapTenantKek aes root tenantId entry.wrappedKekB64 = some entry.rawKek) :
      Write aes s (s.cacheKek tenantId entry)
  | dek {s : KekStore} {keyId entry kek} (hkek : s.tenantKeks.lookup entry.tenantId = some kek)
      -- under an id in another spelling the wrapping names the id as it is spelled
      (hwrap : ∀ id : Uuid, keyId = id.toString →
        unwrapDek aes kek.rawKek (Seal.rootKey s.vaultSeal) keyId entry.wrappedDekB64 =
          some entry.rawDek) : Write aes s (s.cacheDek keyId entry)
  | use {s : KekStore} {tenantId : String} {entry}
      (h : s.currentDek.lookup tenantId = some entry) :
      Write aes s (s.setCurrentDek tenantId { entry with operations := entry.operations + 1 })
  | install {s : KekStore} {tenantId : String} {id : Uuid}
      (hkek : tenantId ∈ s.tenantKeks) (hdek : id.toString ∈ s.deks)
      (hrow : ∀ db, s.dbPool = some db → ∃ r, DekRow db id tenantId r) :
      Write aes s (s.setCurrentDek tenantId { keyId := id.toString, operations := 1 })
  | insert {s : KekStore} {db db' row} (hdb : s.dbPool = some db)
      (hins : db.insertRow row = .ok db') (hversion : row.purpose = .tenantKek → row.version = 1) :
      Write aes s (s.setDb db')
  | rotateOut {s : KekStore} {db} (hdb : s.dbPool = some db) (id : Uuid) :
      Write aes s (s.setDb (db.setState id .rotatingOut))

abbrev Writes (aes : Aes256Gcm) : KekStore → KekStore → Prop := Relation.ReflTransGen (Write aes)

theorem Writes.vaultSeal_eq (h : Writes aes s s') : s'.vaultSeal = s.vaultSeal := by
  induction h with
  | refl => rfl
  | tail _ hstep ih => cases hstep <;> exact ih

def Free (s : KekStore) (id : Uuid) : Prop :=
  (∀ db ∈ s.dbPool, ∀ r ∈ db.descriptors.rows, r.id ≠ id) ∧
    ∀ dek ∈ s.deks.entries, Uuid.parseStr dek.1 ≠ some id

instance (s : KekStore) (id : Uuid) : Decidable (s.Free id) :=
  inferInstanceAs (Decidable (_ ∧ _))

/-- A key that is not in memory and has a row is the tenant's own. -/
def NoForeignRow (s : KekStore) (tenantId keyId : String) : Prop :=
  s.deks.lookup keyId = none → ∀ db ∈ s.dbPool, ∀ r ∈ db.descriptors.rows,
    Uuid.parseStr keyId = some r.id → ∀ u ∈ r.tenantId, Uuid.parseStr tenantId = some u

instance (s : KekStore) (tenantId keyId : String) : Decidable (s.NoForeignRow tenantId keyId) := by
  unfold NoForeignRow
  infer_instance

variable (tenantId : String) (drawn : List Uuid) (s : KekStore) in
inductive OwnWrite : KekStore → Prop where
  | kek {t entry} (ht : SameTenant tenantId t) : OwnWrite (s.cacheKek t entry)
  | newDek {id : Uuid} {entry} (hid : id ∈ drawn) (hfree : s.Free id)
      (ht : SameTenant tenantId entry.tenantId) : OwnWrite (s.cacheDek id.toString entry)
  | rotate {keyId old entry} (hold : s.deks.lookup keyId = some old)
      (hsame : entry.tenantId = old.tenantId) (ht : SameTenant tenantId old.tenantId) :
      OwnWrite (s.cacheDek keyId entry)
  | hydrate {db r keyId entry u}
      (hdb : s.dbPool = some db) (hr : r ∈ db.descriptors) (hid : Uuid.parseStr keyId = some r.id)
      (hu : r.tenantId = some u) (hentry : entry.tenantId = u.toString)
      (hnone : s.deks.lookup keyId = none) (ht : Uuid.parseStr tenantId = some u) :
      OwnWrite (s.cacheDek keyId entry)
  | current {t entry} (ht : SameTenant tenantId t) : OwnWrite (s.setCurrentDek t entry)
  | insert {db db' r u} (hdb : s.dbPool = some db)
      (hins : db.insertRow r = .ok db') (hu : r.tenantId = some u)
      (ht : Uuid.parseStr tenantId = some u)
      (hid : (r.id ∈ drawn ∧ ∀ dek ∈ s.deks.entries, Uuid.parseStr dek.1 ≠ some r.id) ∨
        ∃ keyId entry, s.deks.lookup keyId = some entry ∧ Uuid.parseStr keyId = some r.id ∧
          SameTenant tenantId entry.tenantId) : OwnWrite (s.setDb db')
  | mark {db} {id : Uuid} {keyId entry} (hdb : s.dbPool = some db)
      (hentry : s.deks.lookup keyId = some entry) (hid : Uuid.parseStr keyId = some id)
      (ht : SameTenant tenantId entry.tenantId) : OwnWrite (s.setDb (db.setState id .rotatingOut))

abbrev OwnWrites (tenantId : String) (drawn : List Uuid) : KekStore → KekStore → Prop :=
  Relation.ReflTransGen (OwnWrite tenantId drawn)

/-- The tenant a call is for and the ids it draws, if it is held to them. -/
structure Scope where
  own : Prop
  owner : String
  ids : List Uuid

def Scope.any : Scope := ⟨False, "", []⟩

/-- A key of the tenant may be made under the id. -/
def Scope.Grants (scope : Scope) (s : KekStore) (tenantId : String) (id : Uuid) : Prop :=
  scope.own → SameTenant scope.owner tenantId ∧ id ∈ scope.ids ∧ s.Free id

theorem grants_any : Scope.any.Grants s tenantId id := False.elim

variable {scope : Scope} {drawn : Draw} {env : Env}

/-- The writes of a call, each of them under its own tenant if it is held to that. -/
abbrev Makes (aes : Aes256Gcm) (scope : Scope) : KekStore → KekStore → Prop :=
  Relation.ReflTransGen fun s s' =>
    Write aes s s' ∧ (scope.own → OwnWrite scope.owner scope.ids s s')

theorem Makes.writes (h : Makes aes scope s s') : Writes aes s s' := by
  refine Relation.ReflTransGen.mono ?_ s s' h
  exact fun _ _ hmade => hmade.1

theorem Makes.owned (h : Makes aes scope s s') (hown : scope.own) :
    OwnWrites scope.owner scope.ids s s' := by
  refine Relation.ReflTransGen.mono ?_ s s' h
  exact fun _ _ hmade => hmade.2 hown

section Parts

variable {Q : Unit → KekStore → Prop} {E : VaultError → KekStore → Prop}

theorem outcome_requireUuid {field text : String} {Q : Uuid → KekStore → Prop} :
    Outcome (requireUuid field text) s Q E ↔ (∀ id, Uuid.parseStr text = some id → Q id s) ∧
      (Uuid.parseStr text = none → E (.internal (field ++ " is not a valid UUID")) s) := by
  unfold requireUuid
  split
  · next h => simp [h]
  · next h => simp [h]

theorem outcome_persist {db : KeyDb} {desc : KeyDescriptor} {failure : String}
    (hok : ∀ db', db.insertRow (rowOf desc wrapped drawn.now) = .ok db' → Q () (s.setDb db'))
    (herror : ∀ e, E e s) : Outcome (persist db drawn desc wrapped failure) s Q E := by
  unfold persist
  split
  · exact .throw (herror _)
  · next db' h => exact (outcome_modify _).mpr (hok db' (insertKeyDescriptor_eq_ok h))

end Parts

def Holds (s : KekStore) (tenantId : String) (key : Key) : Prop :=
  ∃ kek, s.tenantKeks.lookup tenantId = some kek ∧ kek.rawKek = key

/-- The tenant's KEK, if there is one in memory, can be read back. -/
def KekStored (s : KekStore) (tenantId : String) : Prop :=
  ∀ db ∈ s.dbPool, ∀ kek ∈ s.tenantKeks.lookup tenantId, ∃ r ∈ db.descriptors.rows,
    r.loadable = true ∧ r.purpose = .tenantKek ∧ r.tenantId = Uuid.parseStr tenantId ∧
      r.wrappedKey = kek.wrappedKekB64

instance (s : KekStore) (tenantId : String) : Decidable (s.KekStored tenantId) := by
  unfold KekStored
  infer_instance

theorem KekStored.keeps (h : s.KekStored tenantId)
    (hkek : s'.tenantKeks.lookup tenantId = s.tenantKeks.lookup tenantId)
    (hdb : ∀ db', s'.dbPool = some db' → ∃ db, s.dbPool = some db ∧ db.Keeps db') :
    s'.KekStored tenantId := by
  intro db' hdb' kek hkek'
  obtain ⟨db, hsome, hkeeps⟩ := hdb db' hdb'
  obtain ⟨r, hr, hload, hpurpose, htenant, hwrapped⟩ := h db hsome kek (hkek ▸ hkek')
  obtain ⟨r', hr', hload', -, hpurpose', htenant', hwrapped'⟩ := hkeeps r hr hload
  exact ⟨r', hr', hload', hpurpose'.trans hpurpose, htenant'.trans htenant,
    hwrapped'.trans hwrapped⟩

structure GotKek (aes : Aes256Gcm) (scope : Scope) (s s' : KekStore) (tenantId : String)
    (key : Key) (kekId : Uuid) : Prop where
  makes : Makes aes scope s s'
  holds : s'.Holds tenantId key
  deks : s'.deks = s.deks
  currentDek : s'.currentDek = s.currentDek
  stored : s.KekStored tenantId → s'.KekStored tenantId
  rows : ∀ db, s.dbPool = some db → ∃ db', s'.dbPool = some db' ∧
    ∀ r ∈ db.descriptors, r ∈ db'.descriptors
  free : ∀ id, id ≠ kekId → s.Free id → s'.Free id

@[simp] theorem lookup_cacheKek (s : KekStore) (tenantId : String) (entry : TenantKekEntry) :
    (s.cacheKek tenantId entry).tenantKeks.lookup tenantId = some entry :=
  AList.lookup_insert _

theorem rootKey_eq_ok {inner : SealInner} {root : Key} (h : Seal.rootKey inner = .ok root) :
    inner.rootKey = some root := by
  unfold Seal.rootKey at h
  split at h
  · next key hkey =>
    cases h
    exact hkey
  · cases h

theorem getOrCreateTenantKek_outcome (hscope : scope.Grants s tenantId drawn.id) :
    Outcome (getOrCreateTenantKek aes tenantId drawn) s
      (fun key s' => GotKek aes scope s s' tenantId key drawn.id)
      (fun _ s' => Makes aes scope s s') := by
  unfold getOrCreateTenantKek
  simp only [outcome_bind, outcome_get]
  split
  · next entry hentry =>
    rw [outcome_pure]
    exact ⟨.refl, ⟨entry, hentry, rfl⟩, rfl, rfl, id, fun db hdb => ⟨db, hdb, fun _ hr => hr⟩,
      fun _ _ h => h⟩
  · next hnone =>
    simp only [outcome_bind, outcome_ofExcept, outcome_modify]
    refine ⟨fun raw _ => ⟨fun root hroot => ⟨fun wrapped hwrapped => ?_, fun _ _ => .refl⟩,
      fun _ _ => .refl⟩, fun _ _ => .refl⟩
    have hcache : Makes aes scope s (s.cacheKek tenantId ⟨raw, wrapped, 1⟩) :=
      .single ⟨.kek hnone (rootKey_eq_ok hroot) (unwrapTenantKek_wrapped hwrapped),
        fun hown => .kek (hscope hown).1⟩
    split
    · next hdb =>
      rw [outcome_pure]
      refine ⟨hcache, ⟨_, lookup_cacheKek .., rfl⟩, rfl, rfl, fun _ db hsome => ?_,
        fun db hsome => ⟨db, hsome, fun _ hr => hr⟩, fun _ _ h => h⟩
      rw [show (s.cacheKek tenantId _).dbPool = none from hdb] at hsome
      cases hsome
    · next db hdb =>
      simp only [outcome_bind, outcome_requireUuid, outcome_pure]
      refine ⟨fun u hu => outcome_persist (fun db' hins => ?_) fun _ => hcache, fun _ => hcache⟩
      refine ⟨hcache.tail ⟨.insert hdb hins fun _ => rfl, fun hown => ?_⟩,
        ⟨_, lookup_cacheKek .., rfl⟩, rfl, rfl, fun _ => ?_, fun db₀ hsome => ?_,
        fun id hne h => ⟨?_, h.2⟩⟩
      · obtain ⟨ht, hid, hfree⟩ := hscope hown
        exact .insert hdb hins hu (ht.symm.parse hu) (.inl ⟨hid, hfree.2⟩)
      · rintro _ ⟨⟩ _ hkek
        have hkek' : _ = some _ := (lookup_cacheKek s tenantId ⟨raw, wrapped, 1⟩).symm.trans hkek
        cases hkek'
        exact ⟨_, (KeyDb.mem_of_insertRow hins).mpr (.inr rfl), rfl, rfl, rfl, rfl⟩
      · obtain rfl : db = db₀ := Option.some.inj (hdb.symm.trans hsome)
        exact ⟨db', rfl, fun r hr => (KeyDb.mem_of_insertRow hins).mpr (.inl hr)⟩
      · rintro _ ⟨⟩ r hr
        rcases (KeyDb.mem_of_insertRow hins).mp hr with hr | rfl
        · exact h.1 db hdb r hr
        · exact Ne.symm hne

structure NewDek (aes : Aes256Gcm) (scope : Scope) (s s' : KekStore) (tenantId keyId : String) :
    Prop where
  makes : Makes aes scope s s'
  currentDek : s'.currentDek = s.currentDek
  kek : tenantId ∈ s'.tenantKeks
  stored : s.KekStored tenantId → s'.KekStored tenantId
  dek : ∃ (id : Uuid) (entry : DekEntry), keyId = id.toString ∧
    s'.deks.lookup keyId = some entry ∧ entry.tenantId = tenantId ∧
    ∀ db, s'.dbPool = some db → ∃ r, DekRow db id tenantId r ∧ r.wrappedKey = entry.wrappedDekB64

theorem storeDek_outcome {kek : Key} (hkek : s.Holds tenantId kek)
    (hscope : scope.Grants s tenantId drawn.id) : Outcome (storeDek aes tenantId kek drawn) s
      (fun keyId s' => NewDek aes scope s s' tenantId keyId)
      (fun _ s' => Makes aes scope s s') := by
  obtain ⟨entry, hentry, rfl⟩ := hkek
  unfold storeDek
  simp only [outcome_bind, outcome_ofExcept, outcome_modify, outcome_get]
  refine ⟨fun raw _ => ⟨fun wrapped hwrapped => ?_, fun _ _ => .refl⟩, fun _ _ => .refl⟩
  have hcache : Makes aes scope s
      (s.cacheDek drawn.id.toString ⟨raw, [], wrapped, tenantId, 1⟩) := by
    refine .single ⟨.dek hentry fun _ _ => unwrapDek_wrapped hwrapped _, fun hown => ?_⟩
    obtain ⟨ht, hid, hfree⟩ := hscope hown
    exact .newDek hid hfree ht
  have hlookup : (s.cacheDek drawn.id.toString ⟨raw, [], wrapped, tenantId, 1⟩).deks.lookup
      drawn.id.toString = some ⟨raw, [], wrapped, tenantId, 1⟩ := AList.lookup_insert _
  have hmem : tenantId ∈ s.tenantKeks := mem_of_lookup hentry
  split
  · next hdb =>
    rw [outcome_pure]
    refine ⟨hcache, rfl, hmem, id, drawn.id, _, rfl, hlookup, rfl, fun db hsome => ?_⟩
    rw [hdb] at hsome
    cases hsome
  · next db hdb =>
    simp only [outcome_bind, outcome_requireUuid, outcome_pure, Uuid.parseStr_toString]
    refine ⟨fun u hu => ⟨?_, fun _ => hcache⟩, fun _ => hcache⟩
    rintro _ ⟨⟩
    refine outcome_persist (fun db' hins => ?_) fun _ => hcache
    refine ⟨hcache.tail ⟨.insert hdb hins fun h => (by cases h), fun hown => ?_⟩, rfl, hmem, ?_,
      drawn.id, _, rfl, hlookup, rfl, ?_⟩
    · have ht := (hscope hown).1
      exact .insert hdb hins hu (ht.symm.parse hu)
        (.inr ⟨_, _, hlookup, Uuid.parseStr_toString _, ht⟩)
    · refine fun hstored => hstored.keeps rfl ?_
      rintro _ ⟨⟩
      exact ⟨db, hdb, KeyDb.keeps_insertRow hins⟩
    · rintro _ ⟨⟩
      exact ⟨_, ⟨(KeyDb.mem_of_insertRow hins).mpr (.inr rfl), rfl, rfl, rfl, rfl⟩, rfl⟩

theorem generateAndStoreDek_outcome (hkek : scope.Grants s tenantId env.kek.id)
    (hdek : scope.Grants s tenantId env.dek.id) (hne : scope.own → env.kek.id ≠ env.dek.id) :
    Outcome (generateAndStoreDek aes tenantId env) s
      (fun keyId s' => NewDek aes scope s s' tenantId keyId)
      (fun _ s' => Makes aes scope s s') := by
  unfold generateAndStoreDek
  refine (getOrCreateTenantKek_outcome hkek).bind fun kek s₁ hgot => ?_
  have hgrants : scope.Grants s₁ tenantId env.dek.id := by
    intro hown
    obtain ⟨ht, hid, hfree⟩ := hdek hown
    exact ⟨ht, hid, hgot.free _ (hne hown).symm hfree⟩
  refine (storeDek_outcome hgot.holds hgrants).mono ?_ fun _ _ h => hgot.makes.trans h
  intro keyId s₂ hnew
  exact ⟨hgot.makes.trans hnew.makes, hnew.currentDek.trans hgot.currentDek, hnew.kek,
    fun h => hnew.stored (hgot.stored h), hnew.dek⟩

def Uses (s s' : KekStore) (tenantId keyId : String) : Prop :=
  ∃ entry, s.currentDek.lookup tenantId = some entry ∧ entry.operations < dekMaxOperations ∧
    keyId = entry.keyId ∧
    s' = s.setCurrentDek tenantId { entry with operations := entry.operations + 1 }

def Spent (s : KekStore) (tenantId : String) : Prop :=
  ∀ entry ∈ s.currentDek.lookup tenantId, ¬ entry.operations < dekMaxOperations

theorem useCurrentDek_outcome (s : KekStore) (tenantId : String) :
    Outcome (useCurrentDek tenantId) s
      (fun used s' => (∃ keyId, used = some keyId ∧ Uses s s' tenantId keyId) ∨
        (used = none ∧ s' = s ∧ s.Spent tenantId)) (fun _ _ => False) := by
  unfold useCurrentDek
  simp only [outcome_bind, outcome_get]
  split
  · next hnone =>
    rw [outcome_pure]
    exact .inr ⟨rfl, rfl, by simp [Spent, hnone]⟩
  · next entry hentry =>
    split
    · next hlt =>
      simp only [outcome_bind, outcome_modify, outcome_pure]
      exact .inl ⟨_, rfl, entry, hentry, hlt, rfl, rfl⟩
    · next hge =>
      rw [outcome_pure]
      exact .inr ⟨rfl, rfl, by simpa [Spent, hentry] using hge⟩

theorem installCurrentDek_outcome (s : KekStore) (tenantId keyId : String) :
    Outcome (installCurrentDek tenantId keyId) s
      (fun installed s' => Uses s s' tenantId installed ∨ (installed = keyId ∧ s.Spent tenantId ∧
          s' = s.setCurrentDek tenantId { keyId := keyId, operations := 1 }))
      (fun _ _ => False) := by
  unfold installCurrentDek
  refine (useCurrentDek_outcome s tenantId).bind ?_
  rintro _ s₁ (⟨installed, rfl, huses⟩ | ⟨rfl, rfl, hspent⟩)
  · exact .pure (.inl huses)
  · rw [outcome_bind, outcome_modify, outcome_pure]
    exact .inr ⟨rfl, hspent, rfl⟩

theorem currentDekForEncrypt_outcome (hkek : scope.Grants s tenantId env.kek.id)
    (hdek : scope.Grants s tenantId env.dek.id) (hne : scope.own → env.kek.id ≠ env.dek.id) :
    Outcome (currentDekForEncrypt aes tenantId env) s
      (fun keyId s' => Uses s s' tenantId keyId ∨
        s.Spent tenantId ∧ ∃ s₁, NewDek aes scope s s₁ tenantId keyId ∧
          s' = s₁.setCurrentDek tenantId { keyId := keyId, operations := 1 })
      (fun _ s' => Makes aes scope s s') := by
  unfold currentDekForEncrypt
  rw [outcome_bind]
  refine (useCurrentDek_outcome s tenantId).mono ?_ fun _ _ h => h.elim
  rintro _ s₀ (⟨keyId, rfl, huses⟩ | ⟨rfl, rfl, hspent⟩)
  · exact .pure (.inl huses)
  · refine (generateAndStoreDek_outcome hkek hdek hne).bind fun keyId s₁ hnew => ?_
    refine (installCurrentDek_outcome s₁ tenantId keyId).mono ?_ fun _ _ h => h.elim
    rintro _ s₂ (⟨entry, hentry, hlt, -⟩ | ⟨rfl, -, rfl⟩)
    · -- nothing has been installed since the first look
      rw [hnew.currentDek] at hentry
      exact absurd hlt (hspent entry hentry)
    · exact .inr ⟨hspent, s₁, hnew, rfl⟩

theorem NewDek.install {s₁ : KekStore} {keyId : String} (h : NewDek aes scope s s₁ tenantId keyId)
    (ht : scope.own → SameTenant scope.owner tenantId) :
    Makes aes scope s (s₁.setCurrentDek tenantId { keyId := keyId, operations := 1 }) := by
  obtain ⟨id, entry, rfl, hdek, -, hrow⟩ := h.dek
  have hmem := mem_of_lookup hdek
  refine h.makes.tail ⟨.install h.kek hmem fun db hdb => ?_, fun hown => .current (ht hown)⟩
  obtain ⟨r, hr, -⟩ := hrow db hdb
  exact ⟨r, hr⟩

theorem row_of_versions {db : KeyDb} {fault : Option String}
    {rows : List PersistedKeyEntry} {t : String}
    (h : getKeyVersionsWithWrappedKey db fault id = .ok rows)
    (ht : rows.head?.bind PersistedKeyEntry.tenantId = some t) :
    ∃ r ∈ db.descriptors, r.id = id ∧ r.loadable = true ∧ ∃ u, r.tenantId = some u ∧
      t = u.toString := by
  obtain ⟨entry, hhead, hentry⟩ := Option.bind_eq_some_iff.mp ht
  rw [fetchAll_eq_ok h] at hhead
  obtain ⟨r, hr, rfl⟩ := List.mem_map.mp (List.mem_of_head? hhead)
  obtain ⟨hr, hid⟩ := Table.mem_select.mp (mem_byVersion.mp hr)
  simp only [Bool.and_eq_true, decide_eq_true_eq] at hid
  obtain ⟨u, hu, rfl⟩ := Option.map_eq_some_iff.mp hentry
  exact ⟨r, hr, hid.1, hid.2, u, hu, rfl⟩

variable {env : Env} {keyId : String}

theorem hydrateDek_outcome (hscope : scope.own → s.deks.lookup keyId = none ∧
      s.NoForeignRow scope.owner keyId ∧ env.kek.id ∈ scope.ids ∧ s.Free env.kek.id) :
    Leaves (hydrateDek aes keyId env) s (Makes aes scope s) := by
  unfold hydrateDek
  simp only [outcome_bind, outcome_get]
  split
  · next db id hdb hid =>
    simp only [outcome_bind, outcome_ofExcept]
    refine ⟨fun rows hrows => ?_, fun _ _ => .refl⟩
    split
    · exact .pure .refl
    · next tenantId htenant =>
      obtain ⟨r, hr, hrid, -, u, hu, rfl⟩ := row_of_versions hrows htenant
      have hparse : scope.own → Uuid.parseStr scope.owner = some u := fun hown =>
        (hscope hown).2.1 (hscope hown).1 db hdb r hr (hrid ▸ hid) u hu
      have hgrants : scope.Grants s u.toString env.kek.id := fun hown =>
        ⟨.of_parse (hparse hown) (Uuid.parseStr_toString u), (hscope hown).2.2⟩
      refine (getOrCreateTenantKek_outcome hgrants).bind fun kek s₁ hkek => ?_
      obtain ⟨entry, hentry, rfl⟩ := hkek.holds
      split
      · exact .pure hkek.makes
      · next version raw wrapped hlast =>
        simp only [outcome_bind, outcome_modify, outcome_pure]
        obtain ⟨db₁, hdb₁, hkept⟩ := hkek.rows db hdb
        refine hkek.makes.tail ⟨.dek hentry ?_, fun hown => .hydrate hdb₁ (hkept r hr)
          (hrid ▸ hid) hu rfl (hkek.deks ▸ (hscope hown).1) (hparse hown)⟩
        rintro id' rfl
        rw [Uuid.parseStr_toString, Option.some.injEq] at hid
        subst hid
        -- the version cached was unwrapped from a row of this id
        obtain ⟨row, hrow, hunwrap⟩ := List.mem_filterMap.mp (List.mem_of_getLast? hlast)
        obtain ⟨raw', hraw, heq⟩ := Option.map_eq_some_iff.mp hunwrap
        cases heq
        rw [mem_of_getKeyVersions hrows hrow] at hraw
        rw [hkek.makes.writes.vaultSeal_eq]
        exact hraw
  · exact .pure .refl

theorem lookupDek_outcome (s : KekStore) (keyId tenantId : String) :
    Outcome (lookupDek keyId tenantId) s
      (fun entry s' => s' = s ∧ s.deks.lookup keyId = some entry ∧ entry.tenantId = tenantId)
      (fun _ s' => s' = s) := by
  unfold lookupDek
  simp only [outcome_bind, outcome_get]
  split
  · exact .throw rfl
  · next entry hentry =>
    split
    · exact .throw rfl
    · next howner => exact .pure ⟨rfl, hentry, not_not.mp howner⟩

theorem ownedDek_outcome (scope : Scope) (tenantId : String) (hscope : scope.own →
      s.NoForeignRow scope.owner keyId ∧ env.kek.id ∈ scope.ids ∧ s.Free env.kek.id) :
    Outcome (ownedDek aes keyId tenantId env) s
      (fun entry s' => Makes aes scope s s' ∧ s'.deks.lookup keyId = some entry ∧
        entry.tenantId = tenantId ∧ ((s.deks.lookup keyId).isSome → s' = s))
      (fun _ s' => Makes aes scope s s') := by
  unfold ownedDek
  simp only [outcome_bind, outcome_get]
  split
  · next hnone =>
    refine (hydrateDek_outcome fun hown => ⟨hnone, hscope hown⟩).bind fun _ s₁ hs₁ => ?_
    refine (lookupDek_outcome s₁ keyId tenantId).mono ?_ fun _ _ h => h ▸ hs₁
    rintro entry _ ⟨rfl, hentry, howner⟩
    exact ⟨hs₁, hentry, howner, by simp [hnone]⟩
  · refine (lookupDek_outcome s keyId tenantId).mono ?_ fun _ _ h => h ▸ .refl
    rintro entry _ ⟨rfl, hentry, howner⟩
    exact ⟨.refl, hentry, howner, fun _ => rfl⟩

theorem rotateDek_outcome (hscope : scope.Grants s tenantId env.kek.id) :
    Leaves (rotateDek aes tenantId keyId env) s (Makes aes scope s) := by
  unfold rotateDek
  simp only [outcome_bind, outcome_get]
  split
  · exact .throw .refl
  · next entry hentry =>
    split
    · exact .throw .refl
    · next howner =>
      rw [not_not] at howner
      have ht : scope.own → SameTenant scope.owner entry.tenantId := fun hown =>
        howner ▸ (hscope hown).1
      refine (getOrCreateTenantKek_outcome hscope).bind fun kek s₁ hkek => ?_
      obtain ⟨kekEntry, hkekEntry, rfl⟩ := hkek.holds
      simp only [outcome_bind, outcome_ofExcept, outcome_modify, outcome_get]
      refine ⟨fun raw _ => ⟨fun wrapped hwrapped => ?_, fun _ _ => hkek.makes⟩,
        fun _ _ => hkek.makes⟩
      have hold : s₁.deks.lookup keyId = some entry := hkek.deks ▸ hentry
      have hcache : Makes aes scope s (s₁.cacheDek keyId (entry.rotate raw wrapped)) :=
        hkek.makes.tail ⟨.dek (howner ▸ hkekEntry) fun _ _ => unwrapDek_wrapped hwrapped _,
          fun hown => .rotate hold rfl (ht hown)⟩
      have hlookup : (s₁.cacheDek keyId (entry.rotate raw wrapped)).deks.lookup keyId =
        some (entry.rotate raw wrapped) := AList.lookup_insert _
      split
      · exact .pure hcache
      · next db hdb =>
        simp only [outcome_bind, outcome_requireUuid]
        refine ⟨fun id hid => ⟨fun u hu => ?_, fun _ => hcache⟩, fun _ => hcache⟩
        split
        · exact .throw hcache
        · next db₁ hupdate =>
          -- the old row is marked even if the new one is refused
          have hmarked := hcache.tail
            ⟨.rotateOut hdb id, fun hown => .mark hdb hlookup hid (ht hown)⟩
          rw [← updateKeyState_eq_ok hupdate] at hmarked
          simp only [outcome_bind, outcome_modify]
          refine outcome_persist (fun db' hins => ?_) fun _ => hmarked
          refine .pure (hmarked.tail ⟨.insert rfl hins fun h => (by cases h), fun hown => ?_⟩)
          exact .insert rfl hins hu ((hscope hown).1.symm.parse hu)
            (.inr ⟨keyId, _, hlookup, hid, ht hown⟩)

/-! ## Loading -/

section Rows

variable (aes) (root : Key) (keks : AList (fun _ : String => TenantKekEntry))

def rawDekOf (row : PersistedKeyEntry) : Option Key :=
  row.tenantId.bind fun t => (keks.lookup t).bind fun kek =>
    unwrapDek aes kek.rawKek (.ok root) row.keyId row.wrappedKey

def addVersion (old : Option DekEntry) (row : PersistedKeyEntry) : Option DekEntry :=
  match rawDekOf aes root keks row, old with
  | none, _ => old
  | some rawDek, some existing =>
    some { existing with
      superseded := existing.superseded ++ [existing.rawDek]
      rawDek := rawDek
      wrappedDekB64 := row.wrappedKey
      version := row.version }
  | some rawDek, none =>
    some { rawDek := rawDek, superseded := [], wrappedDekB64 := row.wrappedKey,
           tenantId := row.tenantId.getD "", version := row.version }

variable {aes root keks} (rows : List PersistedKeyEntry) (deks : AList (fun _ : String => DekEntry))

theorem lookup_loadDek (row : PersistedKeyEntry)
    (keyId : String) : (loadDek aes root keks deks row).lookup keyId =
      if row.keyId = keyId then addVersion aes root keks (deks.lookup keyId) row
      else deks.lookup keyId := by
  unfold loadDek addVersion rawDekOf
  cases row.tenantId with
  | none => simp
  | some t =>
    simp only [Option.bind_some, Option.getD_some]
    cases keks.lookup t with
    | none => simp
    | some kek =>
      simp only [Option.bind_some]
      cases unwrapDek aes kek.rawKek (.ok root) row.keyId row.wrappedKey with
      | none => simp
      | some rawDek =>
        by_cases hid : row.keyId = keyId
        · subst hid
          cases deks.lookup row.keyId with
          | none => simp
          | some existing => simp
        · cases deks.lookup row.keyId with
          | none => simp [hid, Ne.symm hid]
          | some existing => simp [hid, Ne.symm hid]

theorem lookup_foldl_loadDek
    (keyId : String) : (rows.foldl (loadDek aes root keks) deks).lookup keyId =
      (rows.filter (·.keyId = keyId)).foldl (addVersion aes root keks) (deks.lookup keyId) := by
  induction rows generalizing deks with
  | nil => rfl
  | cons row rows ih =>
    rw [List.foldl_cons, ih, lookup_loadDek, List.filter_cons]
    by_cases hid : row.keyId = keyId
    · rw [if_pos hid, if_pos (decide_eq_true hid), List.foldl_cons]
    · rw [if_neg hid, if_neg (by simpa using hid)]

def loadedKek (aes : Aes256Gcm) (root : Key) (tenantId : String) (row : PersistedKeyEntry) :
    Option TenantKekEntry :=
  (unwrapTenantKek aes root tenantId row.wrappedKey).map fun rawKek =>
    { rawKek := rawKek, wrappedKekB64 := row.wrappedKey, version := row.version }

theorem lookup_loadTenantKek (keks : AList (fun _ : String => TenantKekEntry))
    (row : PersistedKeyEntry) (t : String) : (loadTenantKek aes root keks row).lookup t =
      if row.tenantId = some t then (loadedKek aes root t row).or (keks.lookup t)
      else keks.lookup t := by
  unfold loadTenantKek loadedKek
  cases row.tenantId with
  | none => simp
  | some owner =>
    by_cases ht : owner = t
    · subst ht
      cases hraw : unwrapTenantKek aes root owner row.wrappedKey <;> simp [hraw]
    · cases hraw : unwrapTenantKek aes root owner row.wrappedKey <;> simp [hraw, ht, Ne.symm ht]

theorem lookup_foldl_loadTenantKek (tenantId : String)
    (hunwrap : ∀ row ∈ rows, row.tenantId = some tenantId →
      (loadedKek aes root tenantId row).isSome = true)
    (keks : AList (fun _ : String => TenantKekEntry)) :
    (rows.foldl (loadTenantKek aes root) keks).lookup tenantId =
      ((rows.filter (·.tenantId = some tenantId)).getLast?.elim (keks.lookup tenantId)
        (loadedKek aes root tenantId)) := by
  induction rows using List.reverseRecOn with
  | nil => rfl
  | append_singleton rows row ih =>
    have ih := ih fun row' hrow' => hunwrap row' (List.mem_append_left _ hrow')
    rw [List.foldl_append, List.filter_append, List.foldl_cons, List.foldl_nil]
    generalize rows.foldl (loadTenantKek aes root) keks = before at ih
    by_cases ht : row.tenantId = some tenantId
    · obtain ⟨kek, hkek⟩ := Option.isSome_iff_exists.mp
        (hunwrap row (List.mem_append_right _ List.mem_cons_self) ht)
      simp [lookup_loadTenantKek, ht, hkek]
    · simp [lookup_loadTenantKek, ht, ih]

end Rows

end KekStore

open KekStore

variable {root : Key} {keks : AList (fun _ : String => TenantKekEntry)}

def WrappedUnder (aes : Aes256Gcm) (root : Key)
    (keks : AList (fun _ : String => TenantKekEntry)) : Prop :=
  ∀ tenantId kek, keks.lookup tenantId = some kek →
    unwrapTenantKek aes root tenantId kek.wrappedKekB64 = some kek.rawKek

theorem WrappedUnder.insert (h : WrappedUnder aes root keks) {tenantId : String}
    {entry : TenantKekEntry}
    (hentry : unwrapTenantKek aes root tenantId entry.wrappedKekB64 = some entry.rawKek) :
    WrappedUnder aes root (keks.insert tenantId entry) :=
  forall_lookup_insert h hentry

theorem WrappedUnder.loaded (h : WrappedUnder aes root keks) (rows : List PersistedKeyEntry) :
    WrappedUnder aes root (rows.foldl (loadTenantKek aes root) keks) := by
  induction rows generalizing keks with
  | nil => exact h
  | cons row rows ih =>
    refine ih fun t kek hkek => ?_
    rw [lookup_loadTenantKek] at hkek
    split at hkek
    · rcases Option.or_eq_some_iff.mp hkek with hkek | ⟨-, hkek⟩
      · obtain ⟨rawKek, hraw, rfl⟩ := Option.map_eq_some_iff.mp hkek
        exact hraw
      · exact h t kek hkek
    · exact h t kek hkek

end WslVault.CryptoService
