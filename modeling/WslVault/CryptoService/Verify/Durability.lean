import WslVault.Base.Run
import WslVault.CryptoService.Grpc
import WslVault.CryptoService.Verify.KekStore

/-!
# Which ciphertexts survive a restart

A ciphertext can be decrypted after a restart if the rows of the database lead back to its
key. Rows stay, so it is enough that this holds when the ciphertext is made (`Durable`). It
fails for a KEK that is kept in memory when its row was refused, and for a DEK that was
rotated: its new row always is refused, since it has the id of the old one.
-/

namespace WslVault.CryptoService

open Base Core Storage Storage.KeyStore KekStore

variable {aes : Aes256Gcm}

/-- What is in memory unwraps from its wrapped form, and the row of a current
DEK is there. -/
structure Inv (aes : Aes256Gcm) (root : Key) (s : KekStore) : Prop where
  rootKey : s.vaultSeal.rootKey = some root
  kekVersion : ∀ db, s.dbPool = some db → ∀ r ∈ db.descriptors, r.purpose = .tenantKek →
    r.version = 1
  keks : ∀ tenantId kek, s.tenantKeks.lookup tenantId = some kek →
    unwrapTenantKek aes root tenantId kek.wrappedKekB64 = some kek.rawKek
  deks : ∀ (id : Uuid) entry, s.deks.lookup id.toString = some entry →
    ∃ kek, s.tenantKeks.lookup entry.tenantId = some kek ∧
      unwrapDek aes kek.rawKek (.ok root) id.toString entry.wrappedDekB64 = some entry.rawDek
  currentDek : ∀ tenantId current, s.currentDek.lookup tenantId = some current →
    ∃ id : Uuid, current.keyId = id.toString ∧ id.toString ∈ s.deks ∧
      ∀ db, s.dbPool = some db → ∃ r, DekRow db id tenantId r

variable {root dek kek : Key} {s s' : KekStore} {db db' : KeyDb} {tenantId : String}
  {req : EncryptRequest} {resp : EncryptResponse} {inner : SealInner}
  {kekRows dekRows : List PersistedKeyEntry} {id : Uuid} {r : KeyRow} {entry : DekEntry}
  (keks : AList (fun _ : String => TenantKekEntry))

theorem Inv.setDb (hs : Inv aes root s) (hdb : s.dbPool = some db) (hkeeps : db.Keeps db')
    (hversion : ∀ r ∈ db'.descriptors, r.purpose = .tenantKek → r.version = 1) :
    Inv aes root (s.setDb db') := by
  refine ⟨hs.rootKey, ?_, hs.keks, hs.deks, fun t c hc => ?_⟩
  · rintro _ ⟨⟩
    exact hversion
  · obtain ⟨id, hid, hmem, hrow⟩ := hs.currentDek t c hc
    refine ⟨id, hid, hmem, ?_⟩
    rintro _ ⟨⟩
    obtain ⟨r, hr⟩ := hrow db hdb
    obtain ⟨r', hr', -⟩ := hr.keeps hkeeps
    exact ⟨r', hr'⟩

theorem Inv.write (hs : Inv aes root s) (h : Write aes s s') : Inv aes root s' := by
  cases h with
  | @kek tenantId entry root' hnew hroot hwrap =>
    have hroot' : root' = root := Option.some.inj (hroot.symm.trans hs.rootKey)
    subst hroot'
    refine ⟨hs.rootKey, hs.kekVersion, WrappedUnder.insert hs.keks hwrap, fun id e he => ?_,
      hs.currentDek⟩
    obtain ⟨kek, hkek, hunwrap⟩ := hs.deks id e he
    refine ⟨kek, ?_, hunwrap⟩
    rw [cacheKek, lookup_insert_eq, if_neg, hkek]
    rintro rfl
    rw [hnew] at hkek
    cases hkek
  | @dek keyId entry kek hkek hwrap =>
    refine ⟨hs.rootKey, hs.kekVersion, hs.keks, fun id e he => ?_, fun t c hc => ?_⟩
    · obtain ⟨rfl, rfl⟩ | ⟨-, he⟩ := lookup_insert_cases he
      · have hunwrap := hwrap id rfl
        rw [Seal.rootKey, hs.rootKey] at hunwrap
        exact ⟨kek, hkek, hunwrap⟩
      · exact hs.deks id e he
    · obtain ⟨id, hid, hmem, hrow⟩ := hs.currentDek t c hc
      exact ⟨id, hid, (AList.mem_insert _).mpr (.inr hmem), hrow⟩
  | @use tenantId entry hentry =>
    refine ⟨hs.rootKey, hs.kekVersion, hs.keks, hs.deks, ?_⟩
    exact forall_lookup_insert hs.currentDek (hs.currentDek tenantId entry hentry)
  | @install tenantId id hkek hdek hrow =>
    refine ⟨hs.rootKey, hs.kekVersion, hs.keks, hs.deks, ?_⟩
    exact forall_lookup_insert hs.currentDek ⟨id, rfl, hdek, hrow⟩
  | @insert db db' row hdb hins hversion =>
    refine hs.setDb hdb (KeyDb.keeps_insertRow hins) fun r hr hpurpose => ?_
    rcases (KeyDb.mem_of_insertRow hins).mp hr with hr | rfl
    · exact hs.kekVersion db hdb r hr hpurpose
    · exact hversion hpurpose
  | @rotateOut db hdb id =>
    refine hs.setDb hdb (KeyDb.keeps_rotatingOut db id) fun r hr => ?_
    obtain ⟨r', hr', rfl⟩ := KeyDb.mem_setState.mp hr
    have hversion := hs.kekVersion db hdb r' hr'
    split
    · exact hversion
    · exact hversion

theorem Inv.writes (hs : Inv aes root s) (h : Writes aes s s') : Inv aes root s' := by
  induction h with
  | refl => exact hs
  | tail _ hstep ih => exact ih.write hstep

theorem KekStore.Writes.keeps (h : Writes aes s s') (hdb : s.dbPool = some db) :
    ∃ db', s'.dbPool = some db' ∧ db.Keeps db' := by
  induction h with
  | refl => exact ⟨db, hdb, .refl db⟩
  | tail _ hstep ih =>
    obtain ⟨db₁, hdb₁, hkeeps⟩ := ih
    cases hstep with
    | kek | dek | use | install => exact ⟨db₁, hdb₁, hkeeps⟩
    | insert hdb' hins =>
      cases hdb'.symm.trans hdb₁
      exact ⟨_, rfl, hkeeps.trans (KeyDb.keeps_insertRow hins)⟩
    | rotateOut hdb' id =>
      cases hdb'.symm.trans hdb₁
      exact ⟨_, rfl, hkeeps.trans (KeyDb.keeps_rotatingOut _ id)⟩

/-! ## Ciphertexts that can be recovered -/

def Canonical (tenantId : String) : Prop :=
  (Uuid.parseStr tenantId).map Uuid.toString = some tenantId

instance (tenantId : String) : Decidable (Canonical tenantId) := by
  unfold Canonical
  infer_instance

def KekRow (db : KeyDb) (tenantId : String) (r : KeyRow) : Prop :=
  r ∈ db.descriptors ∧ r.loadable = true ∧ r.purpose = .tenantKek ∧
    r.tenantId = Uuid.parseStr tenantId

/-- The rows lead from the root key to a DEK. -/
def Recoverable (aes : Aes256Gcm) (root : Key) (db : KeyDb) (tenantId : String) (id : Uuid)
    (dek : Key) : Prop :=
  ∃ kekRow dekRow kek, KekRow db tenantId kekRow ∧
    unwrapTenantKek aes root tenantId kekRow.wrappedKey = some kek ∧ DekRow db id tenantId dekRow ∧
    unwrapDek aes kek (.ok root) id.toString dekRow.wrappedKey = some dek

theorem Recoverable.keeps (h : Recoverable aes root db tenantId id dek) (hkeeps : db.Keeps db') :
    Recoverable aes root db' tenantId id dek := by
  obtain ⟨kekRow, dekRow, kek, ⟨hmem, hload, hpurpose, htenant⟩, hkek, hdekRow, hdek⟩ := h
  obtain ⟨kekRow', hmem', hload', -, hpurpose', htenant', hwrapped⟩ := hkeeps kekRow hmem hload
  obtain ⟨dekRow', hdekRow', hwrapped'⟩ := hdekRow.keeps hkeeps
  exact ⟨kekRow', dekRow', kek, ⟨hmem', hload', hpurpose'.trans hpurpose, htenant'.trans htenant⟩,
    hwrapped ▸ hkek, hdekRow', hwrapped' ▸ hdek⟩

/-- The tenant's current DEK, if it is going to be used again, is in memory as it
is in its row. -/
def KekStore.DekStored (s : KekStore) (tenantId : String) : Prop :=
  ∀ db ∈ s.dbPool, ∀ current ∈ s.currentDek.lookup tenantId,
    current.operations < dekMaxOperations → ∀ entry ∈ s.deks.lookup current.keyId,
      ∃ r ∈ db.descriptors.rows, r.id.toString = current.keyId ∧ r.wrappedKey = entry.wrappedDekB64

instance (s : KekStore) (tenantId : String) : Decidable (s.DekStored tenantId) := by
  unfold KekStore.DekStored
  infer_instance

/-- What an encryption for a tenant needs to survive a restart. -/
structure Durable (s : KekStore) (tenantId : String) : Prop where
  canonical : Canonical tenantId
  kek : s.KekStored tenantId
  dek : s.DekStored tenantId

/-- A DEK whose wrapped form is in its row, of a tenant whose KEK is in its own,
can be recovered. -/
theorem Inv.recoverable (hs : Inv aes root s)
    (hdb : s.dbPool = some db) (hkek : s.KekStored tenantId)
    (hentry : s.deks.lookup id.toString = some entry) (howner : entry.tenantId = tenantId)
    (hr : DekRow db id tenantId r) (hwrapped : r.wrappedKey = entry.wrappedDekB64) :
    Recoverable aes root db tenantId id entry.rawDek := by
  subst howner
  obtain ⟨kek, hlookup, hunwrap⟩ := hs.deks id entry hentry
  obtain ⟨kekRow, hmem, hload, hpurpose, htenant, hkekWrapped⟩ := hkek db hdb kek hlookup
  refine ⟨kekRow, r, kek.rawKek, ⟨hmem, hload, hpurpose, htenant⟩, ?_, hr, hwrapped ▸ hunwrap⟩
  rw [hkekWrapped]
  exact hs.keks _ kek hlookup

theorem currentDekForEncrypt_recoverable (hs : Inv aes root s) (tenantId : String) (env : Env) :
    Outcome (currentDekForEncrypt aes tenantId env) s
      (fun keyId s₁ => Writes aes s s₁ ∧ ∃ (id : Uuid) (entry : DekEntry), keyId = id.toString ∧
        s₁.deks.lookup id.toString = some entry ∧
        (Durable s tenantId → entry.tenantId = tenantId → ∀ db, s₁.dbPool = some db →
          Recoverable aes root db tenantId id entry.rawDek))
      (fun _ s₁ => Writes aes s s₁) := by
  refine (currentDekForEncrypt_outcome grants_any grants_any False.elim).mono ?_
    fun _ _ h => h.writes
  rintro keyId s₁ (⟨current, hcurrent, hlt, rfl, rfl⟩ | ⟨-, s₀, hnew, rfl⟩)
  · -- the DEK in use: its row is the one with the wrapped form in memory
    obtain ⟨id, hid, hmem, hrow⟩ := hs.currentDek tenantId current hcurrent
    obtain ⟨entry, hentry⟩ := Option.isSome_iff_exists.mp (AList.lookup_isSome.mpr hmem)
    refine ⟨.single (.use hcurrent), id, entry, hid, hentry, fun hdurable howner db hdb => ?_⟩
    obtain ⟨r, hr⟩ := hrow db hdb
    obtain ⟨r', hr', hid', hwrapped⟩ :=
      hdurable.dek db hdb current hcurrent hlt entry (hid ▸ hentry)
    have hsame : r' = r :=
      Table.eq_of_key hr' hr.1 ((Uuid.toString_injective (hid'.trans hid)).trans hr.2.2.1.symm)
    exact hs.recoverable hdb hdurable.kek hentry howner hr (hsame ▸ hwrapped)
  · obtain ⟨id, entry, rfl, hentry, howner, hrow⟩ := hnew.dek
    refine ⟨(hnew.install False.elim).writes, id, entry, rfl, hentry, fun hdurable _ db hdb => ?_⟩
    obtain ⟨r, hr, hwrapped⟩ := hrow db hdb
    exact (hs.writes hnew.makes.writes).recoverable hdb (hnew.stored hdurable.kek) hentry howner hr
      hwrapped

def Encrypted (aes : Aes256Gcm) (root : Key) (db : KeyDb) (req : EncryptRequest)
    (resp : EncryptResponse) : Prop :=
  Canonical req.tenantId ∧ ∃ id dek nonce, resp.dekId = id.toString ∧
    Recoverable aes root db req.tenantId id dek ∧
    encryptWithDek aes nonce dek req.plaintext req.aad = .ok resp.ciphertextB64

theorem encrypt_outcome (hs : Inv aes root s) (req : EncryptRequest)
    (nonce : Option Nonce) (env : Env) : Outcome (encrypt aes req nonce env) s
      (fun resp s' => Writes aes s s' ∧ (Durable s req.tenantId →
        ∀ db, s'.dbPool = some db → Encrypted aes root db req resp))
      (fun _ s' => Writes aes s s') := by
  unfold encrypt
  simp only [outcome_bind, outcome_ofExcept]
  refine ⟨fun _ _ => ?_, fun _ _ => .refl⟩
  split
  · simp only [outcome_bind, outcome_throw]
    exact .refl
  · simp only [outcome_bind, outcome_adaptExcept]
    refine (currentDekForEncrypt_recoverable hs req.tenantId env).mono ?_ fun _ _ h => h
    rintro _ s₁ ⟨hs₁, id, entry, rfl, hentry, hrecover⟩
    rw [getDek, outcome_bind]
    refine (ownedDek_outcome .any req.tenantId False.elim).mono ?_ fun _ _ h => hs₁.trans h.writes
    rintro entry' s₂ ⟨hs₂, hentry', howner, hcached⟩
    -- the key just chosen is in memory
    obtain rfl : s₂ = s₁ := hcached (Option.isSome_of_eq_some hentry)
    obtain rfl : entry = entry' := Option.some.inj (hentry.symm.trans hentry')
    simp only [outcome_pure, outcome_ofExcept]
    refine ⟨fun ciphertext hciphertext => ⟨hs₁, fun hdurable db hdb => ?_⟩, fun _ _ => hs₁⟩
    exact ⟨hdurable.canonical, id, entry.rawDek, nonce, rfl, hrecover hdurable howner db hdb,
      mapError_eq_ok hciphertext⟩

theorem Encrypted.keeps (h : Encrypted aes root db req resp) (hkeeps : db.Keeps db') :
    Encrypted aes root db' req resp := by
  obtain ⟨hcanonical, id, dek, nonce, hid, hrecover, hciphertext⟩ := h
  exact ⟨hcanonical, id, dek, nonce, hid, hrecover.keeps hkeeps, hciphertext⟩

/-! ## Restarts -/

theorem lookup_loadTenantKeks (entry : PersistedKeyEntry) (htenant : entry.tenantId = some tenantId)
    (hunwrap : unwrapTenantKek aes root tenantId entry.wrappedKey = some kek)
    (rows : List PersistedKeyEntry) (keks : AList (fun _ : String => TenantKekEntry))
    (honly : ∀ row ∈ rows, row.tenantId = some tenantId → row = entry) (h : entry ∈ rows) :
    (rows.foldl (loadTenantKek aes root) keks).lookup tenantId =
      some ⟨kek, entry.wrappedKey, entry.version⟩ := by
  have hkek : loadedKek aes root tenantId entry = some ⟨kek, entry.wrappedKey, entry.version⟩ := by
    rw [loadedKek, hunwrap]
    rfl
  rw [lookup_foldl_loadTenantKek rows tenantId fun row hrow ht => by
    rw [honly row hrow ht, hkek]; rfl]
  cases hlast : (rows.filter (·.tenantId = some tenantId)).getLast? with
  | none =>
    rw [List.getLast?_eq_none_iff, List.filter_eq_nil_iff] at hlast
    exact absurd (decide_eq_true htenant) (hlast entry h)
  | some row =>
    obtain ⟨hrow, ht⟩ := List.mem_filter.mp (List.mem_of_getLast? hlast)
    rw [Option.elim_some, honly row hrow (of_decide_eq_true ht), hkek]

theorem lookup_loadDeks
    {rows : List PersistedKeyEntry} (hnodup : (rows.map PersistedKeyEntry.keyId).Nodup)
    (keyId : String) : (rows.foldl (loadDek aes root keks) ∅).lookup keyId = none ∨
      ∃ row ∈ rows, row.keyId = keyId ∧ (rows.foldl (loadDek aes root keks) ∅).lookup keyId =
        addVersion aes root keks none row := by
  rw [lookup_foldl_loadDek, AList.lookup_empty]
  cases hfilter : rows.filter (·.keyId = keyId) with
  | nil => exact .inl rfl
  | cons row rest =>
    have hof : ∀ row' ∈ row :: rest, row' ∈ rows ∧ row'.keyId = keyId := fun row' h => by
      rw [← hfilter, List.mem_filter, decide_eq_true_iff] at h
      exact h
    obtain ⟨hrow, hkeyId⟩ := hof row List.mem_cons_self
    have hone : rest = [] := by
      have hsub := hnodup.sublist ((List.filter_sublist (p := (·.keyId = keyId))).map _)
      rw [hfilter, List.map_cons, List.nodup_cons] at hsub
      refine List.eq_nil_iff_forall_not_mem.mpr fun row' h => hsub.1 ?_
      rw [hkeyId, ← (hof row' (List.mem_cons_of_mem _ h)).2]
      exact List.mem_map_of_mem h
    refine .inr ⟨row, hrow, hkeyId, ?_⟩
    rw [hone]
    rfl

def loaded (aes : Aes256Gcm) (root : Key) (inner : SealInner) (db : KeyDb)
    (kekRows dekRows : List PersistedKeyEntry) : KekStore :=
  let keks := kekRows.foldl (loadTenantKek aes root) ∅
  { withSeal inner (some db) with
    tenantKeks := keks
    deks := dekRows.foldl (loadDek aes root keks) ∅ }

theorem loadFromDb_fresh (hroot : inner.rootKey = some root)
    (db : KeyDb) (kekFault dekFault : Option String) :
    Outcome (loadFromDb aes kekFault dekFault) (withSeal inner (some db))
      (fun _ s' => ∃ kekRows dekRows,
        listActiveKeysWithWrappedKey db kekFault .tenantKek = .ok kekRows ∧
        listRecentLoadableKeys db dekFault .dataEncryption (some warmLoadDekLimit) = .ok dekRows ∧
        s' = loaded aes root inner db kekRows dekRows)
      (fun _ s' => (∃ kekRows, s' = loaded aes root inner db kekRows []) ∧
        (kekFault ≠ none ∨ dekFault ≠ none)) := by
  unfold loadFromDb
  simp only [outcome_bind, outcome_get, withSeal, outcome_ofExcept, outcome_modify]
  have hrootKey : Seal.rootKey inner = .ok root := by rw [Seal.rootKey, hroot]
  rw [hrootKey]
  refine ⟨fun root' hroot' => ?_, fun _ h => by cases h⟩
  cases hroot'
  refine ⟨fun kekRows hkekRows => ⟨fun dekRows hdekRows => ?_, fun e he => ?_⟩, fun e he => ?_⟩
  · exact ⟨kekRows, dekRows, hkekRows, hdekRows, rfl⟩
  · refine ⟨⟨kekRows, rfl⟩, .inr ?_⟩
    rintro rfl
    cases he
  · refine ⟨⟨[], rfl⟩, .inl ?_⟩
    rintro rfl
    cases he

theorem inv_loaded (hroot : inner.rootKey = some root)
    (hversion : ∀ r ∈ db.descriptors, r.purpose = .tenantKek → r.version = 1)
    (kekRows dekRows : List PersistedKeyEntry)
    (hnodup : (dekRows.map PersistedKeyEntry.keyId).Nodup) :
    Inv aes root (loaded aes root inner db kekRows dekRows) := by
  refine ⟨hroot, ?_, ?_, fun id entry hentry => ?_, fun tenantId current hcurrent => ?_⟩
  · rintro _ ⟨⟩
    exact hversion
  · refine WrappedUnder.loaded (fun tenantId kek hkek => ?_) kekRows
    rw [AList.lookup_empty] at hkek
    cases hkek
  · rcases lookup_loadDeks (kekRows.foldl (loadTenantKek aes root) ∅) hnodup id.toString with
      hnone | ⟨row, -, hkeyId, hrow⟩
    · cases hnone.symm.trans hentry
    · have hadded := hrow.symm.trans hentry
      unfold addVersion at hadded
      split at hadded
      · cases hadded
      · next hnone => cases hnone
      · next hraw _ =>
        cases hadded
        obtain ⟨tenantId, htenant, hkek⟩ := Option.bind_eq_some_iff.mp hraw
        obtain ⟨kek, hkek, hunwrap⟩ := Option.bind_eq_some_iff.mp hkek
        exact ⟨kek, by rw [htenant]; exact hkek, hkeyId ▸ hunwrap⟩
  · rw [show (loaded aes root inner db kekRows dekRows).currentDek = ∅ from rfl,
      AList.lookup_empty] at hcurrent
    cases hcurrent

theorem decrypt_writes (s : KekStore) (req : DecryptRequest) (env : Env) :
    Leaves (decrypt aes req env) s (Writes aes s) := by
  unfold decrypt
  simp only [outcome_bind, outcome_ofExcept]
  refine ⟨fun _ _ => ?_, fun _ _ => .refl⟩
  split
  · exact .throw .refl
  · simp only [outcome_bind, outcome_ofExcept, outcome_adaptExcept]
    refine ⟨fun _ _ => ⟨fun _ _ => ?_, fun _ _ => .refl⟩, fun _ _ => .refl⟩
    rw [getDekChain, outcome_bind]
    refine (ownedDek_outcome .any req.tenantId False.elim).mono ?_ fun _ _ h => h.writes
    rintro entry s₁ ⟨hs₁, -⟩
    rw [outcome_pure]
    split
    · exact .throw hs₁.writes
    · exact .pure hs₁.writes

theorem generateDek_writes (s : KekStore) (tenantId context : String) (env : Env) :
    Leaves (generateDek aes tenantId context env) s (Writes aes s) := by
  unfold generateDek
  simp only [outcome_bind, outcome_ofExcept, outcome_adaptExcept, outcome_get]
  refine ⟨fun _ _ => ⟨fun _ _ => ?_, fun _ _ => .refl⟩, fun _ _ => .refl⟩
  refine (generateAndStoreDek_outcome grants_any grants_any False.elim).mono ?_
    fun _ _ h => h.writes
  exact fun keyId s₁ hnew => ⟨fun _ _ => .pure hnew.makes.writes, fun _ _ => hnew.makes.writes⟩

theorem rotateKey_writes (s : KekStore) (tenantId keyId : String) (env : Env) :
    Leaves (rotateKey aes tenantId keyId env) s (Writes aes s) := by
  unfold rotateKey
  simp only [outcome_bind, outcome_ofExcept, outcome_adaptExcept]
  refine ⟨fun _ _ => ⟨fun _ _ => ?_, fun _ _ => .refl⟩, fun _ _ => .refl⟩
  exact (rotateDek_outcome grants_any).mono (fun _ _ h => .pure h.writes) fun _ _ h => h.writes

theorem getKeyDescriptor_unchanged (s : KekStore) (keyId : String) :
    Leaves (getKeyDescriptor keyId) s fun s' => s' = s := by
  unfold getKeyDescriptor
  simp only [outcome_bind, outcome_ofExcept, outcome_get, outcome_pure, implies_true, and_self]

structure Carries (aes : Aes256Gcm) (root : Key) (db : KeyDb) (s : KekStore) : Prop where
  inv : Inv aes root s
  keeps : ∃ db', s.dbPool = some db' ∧ db.Keeps db'

section

variable (hs : Inv aes root s) (hdb : s.dbPool = some db)

include hs hdb

theorem Inv.carries (h : Writes aes s s') : Carries aes root db s' :=
  ⟨hs.writes h, h.keeps hdb⟩

theorem restart_carries (kekFault dekFault : Option String) :
    Leaves (serve aes (.restart kekFault dekFault)) s (Carries aes root db) := by
  rw [serve]
  simp only [outcome_bind, outcome_modify, outcome_adaptExcept, hdb]
  refine (loadFromDb_fresh hs.rootKey db kekFault dekFault).mono ?_ ?_
  · rintro _ _ ⟨kekRows, dekRows, -, hdekRows, rfl⟩
    rw [outcome_pure]
    exact ⟨inv_loaded hs.rootKey (hs.kekVersion db hdb) kekRows dekRows
      (listRecentLoadableKeys_spec hdekRows).1, db, rfl, .refl db⟩
  · rintro _ _ ⟨⟨kekRows, rfl⟩, -⟩
    exact ⟨inv_loaded hs.rootKey (hs.kekVersion db hdb) kekRows [] List.nodup_nil, db, rfl,
      .refl db⟩

/-- No call takes a wrapped key out of the database. -/
theorem step_carries (call : Call) : Carries aes root db (step aes s call).1 := by
  refine Outcome.left ?_
  cases call with
  | encrypt req nonce env =>
    simp only [serve, outcome_map]
    exact (encrypt_outcome hs req nonce env).mono (fun _ _ h => hs.carries hdb h.1)
      fun _ _ h => hs.carries hdb h
  | decrypt req env =>
    simp only [serve, outcome_map]
    exact (decrypt_writes s req env).imp fun _ h => hs.carries hdb h
  | generateDek tenantId context env =>
    simp only [serve, outcome_map]
    exact (generateDek_writes s tenantId context env).imp fun _ h => hs.carries hdb h
  | rotateKey tenantId keyId env =>
    simp only [serve, outcome_map]
    exact (rotateKey_writes s tenantId keyId env).imp fun _ h => hs.carries hdb h
  | getKeyDescriptor keyId =>
    simp only [serve, outcome_map]
    exact (getKeyDescriptor_unchanged s keyId).imp fun _ h => hs.carries hdb (h ▸ .refl)
  | restart kekFault dekFault => exact restart_carries hs hdb kekFault dekFault

end

theorem Carries.step (hs : Carries aes root db s) (call : Call) :
    Carries aes root db (step aes s call).1 := by
  obtain ⟨hinv, db', hdb', hkeeps⟩ := hs
  obtain ⟨hinv', db'', hdb'', hkeeps'⟩ := step_carries hinv hdb' call
  exact ⟨hinv', db'', hdb'', hkeeps.trans hkeeps'⟩

/-! ## Decryption after a restart -/

theorem Canonical.parse (h : Canonical tenantId) :
    ∃ tenant : Uuid, Uuid.parseStr tenantId = some tenant ∧ tenant.toString = tenantId :=
  Option.map_eq_some_iff.mp h

theorem loaded_holds (inner : SealInner) {kekRow : KeyRow} (hcanonical : Canonical tenantId)
    (hversion : ∀ r ∈ db.descriptors, r.purpose = .tenantKek → r.version = 1)
    (hrow : KekRow db tenantId kekRow)
    (hunwrap : unwrapTenantKek aes root tenantId kekRow.wrappedKey = some kek)
    (hrows : listActiveKeysWithWrappedKey db none .tenantKek = .ok kekRows)
    (dekRows : List PersistedKeyEntry) :
    (loaded aes root inner db kekRows dekRows).Holds tenantId kek := by
  obtain ⟨tenant, hparse, rfl⟩ := hcanonical.parse
  obtain ⟨hmem, hload, hpurpose, htenant⟩ := hrow
  rw [hparse] at htenant
  refine ⟨_, lookup_loadTenantKeks (entryOf kekRow) ?_ hunwrap kekRows ∅ ?_ ?_, rfl⟩
  · rw [entryOf, htenant]
    rfl
  · intro row hrow hrowTenant
    obtain ⟨r, hr, hrPurpose, -, rfl⟩ := (mem_listActiveKeys hrows).mp hrow
    obtain ⟨tenant', htenant', heq⟩ := Option.map_eq_some_iff.mp hrowTenant
    obtain rfl : tenant' = tenant := Uuid.toString_injective heq
    have hkey : ∀ x ∈ db.descriptors, x.purpose = .tenantKek → x.tenantId = some tenant' →
        x.kekKey = some (tenant', .tenantKek, 1) := by
      intro x hx hxPurpose hxTenant
      rw [KeyRow.kekKey, hxPurpose, hxTenant, hversion x hx hxPurpose]
      rfl
    rw [Table.eq_of_index db.kekUnique hr hmem (hkey r hr hrPurpose htenant')
      (hkey kekRow hmem hpurpose htenant)]
  · exact (mem_listActiveKeys hrows).mpr ⟨kekRow, hmem, hpurpose, hload, rfl⟩

def entryOfRow (r : KeyRow) (tenantId : String) (dek : Key) : DekEntry where
  rawDek := dek
  superseded := []
  wrappedDekB64 := r.wrappedKey
  tenantId := tenantId
  version := asU32 r.version

theorem lookup_loaded_dek (inner : SealInner) {tenant : Uuid} {kek : TenantKekEntry}
    (hkek : (loaded aes root inner db kekRows dekRows).tenantKeks.lookup tenant.toString = some kek)
    (hr : r ∈ db.descriptors) (htenant : r.tenantId = some tenant)
    (hdek : unwrapDek aes kek.rawKek (.ok root) r.id.toString r.wrappedKey = some dek)
    (hrows : listRecentLoadableKeys db none .dataEncryption (some warmLoadDekLimit) = .ok dekRows) :
    (loaded aes root inner db kekRows dekRows).deks.lookup r.id.toString = none ∨
      (loaded aes root inner db kekRows dekRows).deks.lookup r.id.toString =
        some (entryOfRow r tenant.toString dek) := by
  obtain ⟨hnodup, hmem⟩ := listRecentLoadableKeys_spec hrows
  refine (lookup_loadDeks (kekRows.foldl (loadTenantKek aes root) ∅) hnodup r.id.toString).imp_right
    ?_
  rintro ⟨row, hrow, hkeyId, hdeks⟩
  obtain ⟨r', hr', -, rfl⟩ := hmem row hrow
  obtain rfl : r' = r := Table.eq_of_key hr' hr (Uuid.toString_injective hkeyId)
  have hrowTenant : (entryOf r').tenantId = some tenant.toString := by
    rw [entryOf, htenant]
    rfl
  have hkek' : (kekRows.foldl (loadTenantKek aes root) ∅).lookup tenant.toString = some kek :=
    hkek
  have hdek' : unwrapDek aes kek.rawKek (.ok root) (entryOf r').keyId (entryOf r').wrappedKey =
    some dek := hdek
  have hraw : rawDekOf aes root (kekRows.foldl (loadTenantKek aes root) ∅) (entryOf r') =
      some dek := by
    rw [rawDekOf, hrowTenant, Option.bind_some, hkek', Option.bind_some, hdek']
  refine hdeks.trans ?_
  simp only [addVersion, hraw, hrowTenant]
  rfl

variable {env : Env}

theorem hydrateDek_of_row {tenant : Uuid} (hroot : s.vaultSeal.rootKey = some root)
    (hdb : s.dbPool = some db) (hkek : s.Holds tenant.toString kek) (hr : r ∈ db.descriptors)
    (hload : r.loadable = true) (htenant : r.tenantId = some tenant)
    (hdek : unwrapDek aes kek (.ok root) r.id.toString r.wrappedKey = some dek)
    (hselect : env.select = none) : Outcome (hydrateDek aes r.id.toString env) s
      (fun _ s' => s' = s.cacheDek r.id.toString (entryOfRow r tenant.toString dek))
      (fun _ _ => False) := by
  obtain ⟨kekEntry, hkekEntry, rfl⟩ := hkek
  have hrows : getKeyVersionsWithWrappedKey db env.select r.id = .ok [entryOf r] := by
    rw [hselect]
    exact getKeyVersions_of_mem hr hload
  have hrowTenant : ([entryOf r].head?.bind PersistedKeyEntry.tenantId) = some tenant.toString := by
    simp [entryOf, htenant]
  have hversions : unwrapVersions aes kekEntry.rawKek (Seal.rootKey s.vaultSeal) [entryOf r] =
      [(asU32 r.version, dek, r.wrappedKey)] := by
    simp [unwrapVersions, entryOf, Seal.rootKey, hroot, hdek]
  unfold hydrateDek
  simp only [outcome_bind, outcome_get, hdb, Uuid.parseStr_toString, outcome_ofExcept, hrows,
    Except.ok.injEq, reduceCtorEq, false_implies, implies_true, and_true, forall_eq',
    hrowTenant, getOrCreateTenantKek, hkekEntry, outcome_pure, hversions, List.getLast?_singleton,
    outcome_modify]
  rfl

theorem lookupDek_of_mem {keyId : String}
    (h : s.deks.lookup keyId = some entry) (howner : entry.tenantId = tenantId) :
    Outcome (lookupDek keyId tenantId) s (fun e _ => e = entry) (fun _ _ => False) := by
  unfold lookupDek
  simp [h, howner]

theorem requireNonEmpty_of_mem {value : String} {c : Char} (hc : c ∈ value.toList)
    (hspace : Text.isWhitespace c = false) (field : String) :
    requireNonEmpty value field = .ok () :=
  if_neg (Text.trim_ne_empty hc hspace)

theorem requireNonEmpty_uuid (id : Uuid) (field : String) :
    requireNonEmpty id.toString field = .ok () :=
  requireNonEmpty_of_mem id.hyphen_mem_toString (by decide) field

theorem requireNonEmpty_ciphertext {nonce : Option Nonce} {plaintext aad : Bytes}
    {text : String} (h : encryptWithDek aes nonce dek plaintext aad = .ok text) (field : String) :
    requireNonEmpty text field = .ok () := by
  obtain ⟨n, ciphertext, -, rfl⟩ := encryptWithDek_eq_ok h
  have hne : n.val ++ ciphertext ≠ [] :=
    List.append_ne_nil_of_left_ne_nil (List.ne_nil_of_length_eq_add_one n.property) _
  obtain ⟨k, hk, cs, htext⟩ := Base64.encodeChars_head hne
  have hspace : ∀ k < 64, Text.isWhitespace (Base64.symbol k) = false := by decide
  refine requireNonEmpty_of_mem ?_ (hspace k hk) field
  rw [Base64.encode, String.toList_ofList, htext]
  exact List.mem_cons_self

theorem splitOnce_uuid (id : Uuid) (text : String) :
    Text.splitOnce ':' (id.toString ++ ":" ++ text) = some (id.toString, text) := by
  refine Text.splitOnce_join fun hmem => ?_
  rcases Uuid.mem_toString hmem with h | h
  · exact absurd h (by decide)
  · exact absurd h (by decide)

section Loaded

variable (hroot : inner.rootKey = some root)
  (hversion : ∀ r ∈ db.descriptors, r.purpose = .tenantKek → r.version = 1)
  (hkekRows : listActiveKeysWithWrappedKey db none .tenantKek = .ok kekRows)
  (hdekRows : listRecentLoadableKeys db none .dataEncryption (some warmLoadDekLimit) = .ok dekRows)
  (hselect : env.select = none)

include hroot hversion hkekRows hdekRows hselect

theorem getDekChain_loaded (hcanonical : Canonical tenantId)
    (hrecover : Recoverable aes root db tenantId id dek) :
    Outcome (getDekChain aes id.toString tenantId env) (loaded aes root inner db kekRows dekRows)
      (fun chain _ => chain = [dek]) (fun _ _ => False) := by
  obtain ⟨kekRow, r, kek, hkekRow, hkek, ⟨hr, hload, rfl, -, htenant⟩, hdek⟩ := hrecover
  obtain ⟨entry, hentry, rfl⟩ :=
    loaded_holds inner hcanonical hversion hkekRow hkek hkekRows dekRows
  obtain ⟨tenant, hparse, rfl⟩ := hcanonical.parse
  rw [hparse] at htenant
  have howned : Outcome (ownedDek aes r.id.toString tenant.toString env)
      (loaded aes root inner db kekRows dekRows)
      (fun e _ => e = entryOfRow r tenant.toString dek) (fun _ _ => False) := by
    unfold ownedDek
    simp only [outcome_bind, outcome_get]
    rcases lookup_loaded_dek inner hentry hr htenant hdek hdekRows with hdeks | hdeks
    · rw [if_pos hdeks, outcome_bind]
      refine (hydrateDek_of_row hroot rfl ⟨entry, hentry, rfl⟩ hr hload htenant hdek hselect).mono
        ?_ fun _ _ h => h
      rintro _ _ rfl
      exact lookupDek_of_mem (AList.lookup_insert _) rfl
    · rw [if_neg (hdeks ▸ Option.some_ne_none _)]
      exact lookupDek_of_mem hdeks rfl
  rw [getDekChain, outcome_bind]
  refine howned.mono ?_ fun _ _ h => h
  rintro _ s rfl
  exact (outcome_pure _).2 rfl

theorem step_decrypt_loaded (h : Encrypted aes root db req resp) :
    (step aes (loaded aes root inner db kekRows dekRows)
      (.decrypt ⟨req.tenantId, resp.dekId ++ ":" ++ resp.ciphertextB64, req.aad⟩ env)).2 =
      .ok (.decrypted req.plaintext) := by
  obtain ⟨hcanonical, id, dek, nonce, hid, hrecover, hciphertext⟩ := h
  have htenant : ∀ field, requireNonEmpty req.tenantId field = .ok () := by
    obtain ⟨tenant, -, htenant⟩ := hcanonical.parse
    rw [← htenant]
    exact requireNonEmpty_uuid tenant
  have houtcome : Outcome (serve aes (.decrypt
        ⟨req.tenantId, resp.dekId ++ ":" ++ resp.ciphertextB64, req.aad⟩ env))
      (loaded aes root inner db kekRows dekRows) (fun reply _ => reply = .decrypted req.plaintext)
      (fun _ _ => False) := by
    simp only [serve, decrypt, hid, splitOnce_uuid, htenant, requireNonEmpty_uuid,
      requireNonEmpty_ciphertext hciphertext, outcome_map, outcome_bind, outcome_ofExcept,
      outcome_adaptExcept, reduceCtorEq, false_implies, implies_true, and_true, forall_const]
    refine (getDekChain_loaded hroot hversion hkekRows hdekRows hselect hcanonical hrecover).mono ?_
      fun _ _ h => h
    rintro _ s rfl
    simp [decryptWithChain, decryptWithDek_encryptWithDek hciphertext, Except.toOption]
  obtain ⟨_, hreply, rfl⟩ := houtcome.returns
  exact hreply

end Loaded

theorem step_restart (hroot : s.vaultSeal.rootKey = some root) (hdb : s.dbPool = some db) :
    ∃ kekRows dekRows, listActiveKeysWithWrappedKey db none .tenantKek = .ok kekRows ∧
      listRecentLoadableKeys db none .dataEncryption (some warmLoadDekLimit) = .ok dekRows ∧
      (step aes s (.restart none none)).1 = loaded aes root s.vaultSeal db kekRows dekRows := by
  refine ⟨_, _, rfl, rfl, Outcome.left (P := (· = _)) ?_⟩
  rw [serve]
  simp only [outcome_bind, outcome_modify, outcome_adaptExcept, hdb]
  refine (loadFromDb_fresh hroot db none none).mono ?_ ?_
  · rintro _ _ ⟨kekRows, dekRows, ⟨⟩, ⟨⟩, rfl⟩
    exact .pure rfl
  · rintro _ _ ⟨-, hfault | hfault⟩
    · exact absurd rfl hfault
    · exact absurd rfl hfault

/-! ## Runs -/

/-- A call after whose success, if it encrypts, the ciphertext survives a restart. -/
def DurableCall (s : KekStore) : Call → Prop
  | .encrypt req _ _ => Durable s req.tenantId
  | _ => True

def Settled (aes : Aes256Gcm) (root : Key) (s : KekStore) : Call → Except Status Reply → Prop
  | .encrypt req _ _, .ok (.encrypted resp) =>
    ∀ db, s.dbPool = some db → Encrypted aes root db req resp
  | _, _ => True

/-- A ciphertext that is answered opens with keys that the database holds. -/
theorem step_settled (hs : Inv aes root s) {call : Call} (hcall : DurableCall s call) :
    Settled aes root (step aes s call).1 call (step aes s call).2 := by
  cases call with
  | encrypt req nonce env =>
    have houtcome : Outcome (serve aes (.encrypt req nonce env)) s
        (fun reply s' => Settled aes root s' (.encrypt req nonce env) (.ok reply))
        (fun _ _ => True) := by
      rw [serve, outcome_map]
      exact (encrypt_outcome hs req nonce env).mono (fun _ _ h => h.2 hcall) fun _ _ _ => trivial
    cases hreply : (step aes s (.encrypt req nonce env)).2 with
    | ok reply => exact (outcome_iff_perform.mp houtcome).1 reply hreply
    | error e => trivial
  | decrypt | generateDek | rotateKey | getKeyDescriptor | restart => trivial

theorem Settled.step (hs : Carries aes root db s) {earlier : Call} {reply : Except Status Reply}
    (h : Settled aes root s earlier reply) (call : Call) :
    Settled aes root (step aes s call).1 earlier reply := by
  obtain ⟨hinv, db₁, hdb₁, -⟩ := hs
  obtain ⟨-, db₂, hdb₂, hkeeps⟩ := step_carries hinv hdb₁ call
  unfold Settled at h ⊢
  split
  · rw [hdb₂]
    rintro _ ⟨⟩
    exact (h db₁ hdb₁).keeps hkeeps
  · trivial

/-- If at every encryption what is in memory for the tenant is what is in its
rows, then every ciphertext a run returned is decrypted after a restart. -/
theorem ciphertexts_survive_restart (aes : Aes256Gcm) (root : Key) (inner : SealInner)
    (hroot : inner.rootKey = some root) (db : KeyDb)
    (hversion : ∀ r ∈ db.descriptors, r.purpose = .tenantKek → r.version = 1) (calls : List Call)
    (hdurable : Along (step aes) DurableCall (withSeal inner (some db)) calls) :
    ∀ req nonce env resp, (Call.encrypt req nonce env, .ok (.encrypted resp)) ∈
        trace (step aes) (withSeal inner (some db)) calls →
      ∀ env' : Env, env'.select = none →
        (step aes (run (step aes) (withSeal inner (some db)) (calls ++ [.restart none none]))
          (.decrypt ⟨req.tenantId, resp.dekId ++ ":" ++ resp.ciphertextB64, req.aad⟩ env')).2 =
        .ok (.decrypted req.plaintext) := by
  intro req nonce env resp hmem env' hselect
  have hstart : Carries aes root db (withSeal inner (some db)) :=
    ⟨inv_loaded hroot hversion [] [] List.nodup_nil, db, rfl, .refl db⟩
  have hsettled := hdurable.trace_settled (Carries aes root db) (Settled aes root)
    (fun s call hs hcall => ⟨hs.step call, step_settled hs.inv hcall⟩)
    (fun s call _ _ hs h => h.step hs call) hstart _ hmem
  obtain ⟨hinv, db', hdb', -⟩ :=
    run_invariant (step aes) (Carries aes root db) (fun s call hs => hs.step call) hstart calls
  obtain ⟨kekRows, dekRows, hkekRows, hdekRows, hrestart⟩ := step_restart hinv.rootKey hdb'
  rw [run_concat, hrestart]
  exact step_decrypt_loaded hinv.rootKey (hinv.kekVersion db' hdb') hkekRows hdekRows hselect
    (hsettled db' hdb')

def encryptByte (b : UInt8) : Call :=
  .encrypt ⟨Uuid.max.toString, [b], []⟩ (some (.repeated 12 b)) (.repeated b .nil .max)

def rotateFirst : Call :=
  .rotateKey Uuid.max.toString Uuid.max.toString (.repeated 7 .nil .nil)

def freshVault : KekStore :=
  withSeal (Seal.unsealWithRootKey Seal.new (.repeated 32 9)) (some (KeyDb.empty [.max]))

/-- A tenant's first ciphertext survives, also a rotation that fails. -/
theorem first_ciphertext_survives_restart :
    let calls := [encryptByte 1, rotateFirst]
    let ciphertext := "AQEBAQEBAQEBAQEBAQAB"
    (encryptByte 1, .ok (.encrypted ⟨ciphertext, Uuid.max.toString⟩)) ∈
        trace (step .transparent) freshVault calls ∧
      (step .transparent (run (step .transparent) freshVault (calls ++ [.restart none none]))
        (.decrypt ⟨Uuid.max.toString, Uuid.max.toString ++ ":" ++ ciphertext, []⟩ .idle)).2 =
        .ok (.decrypted [1]) := by
  intro calls ciphertext
  have hmem : (encryptByte 1, .ok (.encrypted ⟨ciphertext, Uuid.max.toString⟩)) ∈
      trace (step .transparent) freshVault calls := by
    refine List.mem_cons.mpr (.inl (Prod.ext rfl ?_))
    decide +kernel
  exact ⟨hmem, ciphertexts_survive_restart .transparent (.repeated 32 9) _ rfl (KeyDb.empty [.max])
    (fun _ h => absurd h List.not_mem_nil) calls
    ⟨⟨by decide +kernel, by decide +kernel, by decide +kernel⟩, trivial, trivial⟩ _ _ _ _ hmem
    .idle rfl⟩

/-- A ciphertext made after the rotation of its key is lost. -/
theorem rotated_ciphertext_is_lost :
    let calls := [encryptByte 1, rotateFirst, encryptByte 2]
    let ciphertext := "AgICAgICAgICAgICBwAC"
    (encryptByte 2, .ok (.encrypted ⟨ciphertext, Uuid.max.toString⟩)) ∈
        trace (step .transparent) freshVault calls ∧
      (step .transparent (run (step .transparent) freshVault (calls ++ [.restart none none]))
        (.decrypt ⟨Uuid.max.toString, Uuid.max.toString ++ ":" ++ ciphertext, []⟩ .idle)).2 =
        .error ⟨.internal, "decryption operation failed"⟩ := by
  intro calls ciphertext
  refine ⟨?_, by decide +kernel⟩
  refine List.mem_cons_of_mem _ (List.mem_cons_of_mem _ (List.mem_singleton.mpr ?_))
  exact Prod.ext rfl (by decide +kernel)

end WslVault.CryptoService
