import WslVault.CryptoService.Grpc
import WslVault.CryptoService.Verify.Seal

/-!
# Chains of keys

What a run has drawn for a key id is the history of that key (`drawnFor`), and the chain of
the key is its history, newest first. Ids are assumed to be fresh when they are drawn.
-/

namespace WslVault.CryptoService

open Base Core Storage KekStore

inductive Drawn where
  | created (tenantId keyId : String) (key : Key)
  | rotated (keyId : String) (key : Key)
  deriving DecidableEq

/-- What an operation has drawn, told from its reply. A call for the current DEK
has drawn one if it returns the id that was drawn. -/
def Op.drew : Op → Except VaultError Answer → Option Drawn
  | .keyCall (.generateAndStoreDek tenantId) env, .ok (.keyId keyId) =>
    env.dek.key.toOption.map (.created tenantId keyId)
  | .keyCall (.currentDekForEncrypt tenantId) env, .ok (.keyId keyId) =>
    if keyId = env.dek.id.toString then env.dek.key.toOption.map (.created tenantId keyId)
    else none
  | .keyCall (.rotateDek _ keyId) env, .ok (.version _) =>
    env.dek.key.toOption.map (.rotated keyId)
  | _, _ => none

def drawnIn (served : List (Op × Except VaultError Answer)) : List Drawn :=
  served.filterMap fun x => x.1.drew x.2

def Drawn.keyFor (keyId : String) : Drawn → Option Key
  | .created _ id key => if id = keyId then some key else none
  | .rotated id key => if id = keyId then some key else none

def drawnFor (keyId : String) (drawn : List Drawn) : List Key :=
  drawn.filterMap (Drawn.keyFor keyId)

def CreatedFor (drawn : List Drawn) (tenantId keyId : String) : Prop :=
  ∃ key, .created tenantId keyId key ∈ drawn

theorem drawnFor_append (keyId : String) (drawn drawn' : List Drawn) :
    drawnFor keyId (drawn ++ drawn') = drawnFor keyId drawn ++ drawnFor keyId drawn' :=
  List.filterMap_append

theorem createdFor_append {drawn drawn' : List Drawn} {tenantId keyId : String} :
    CreatedFor (drawn ++ drawn') tenantId keyId ↔
      CreatedFor drawn tenantId keyId ∨ CreatedFor drawn' tenantId keyId := by
  simp only [CreatedFor, List.mem_append, exists_or]

theorem drawnFor_singleton (keyId : String) (d : Drawn) :
    drawnFor keyId [d] = (d.keyFor keyId).toList := by
  cases h : d.keyFor keyId <;> simp [drawnFor, h]

/-! ## What a call does in memory -/

namespace KekStore

variable {aes : Aes256Gcm}

structure SameDeks (s s' : KekStore) : Prop where
  deks : s'.deks = s.deks
  currentDek : s'.currentDek = s.currentDek
  dbPool : s'.dbPool = s.dbPool

theorem SameDeks.refl (s : KekStore) : SameDeks s s := ⟨rfl, rfl, rfl⟩

theorem generateRandom32Bytes_eq_ok {drawn : Except String Key} {key : Key}
    (h : generateRandom32Bytes drawn = .ok key) : drawn = .ok key := by
  cases drawn with
  | error e => cases h
  | ok key' =>
    cases h
    rfl

section Memory

variable {s : KekStore} (hdb : s.dbPool = none)

include hdb

theorem getOrCreateTenantKek_memory (tenantId : String) (drawn : Draw) :
    Leaves (getOrCreateTenantKek aes tenantId drawn) s (SameDeks s) := by
  unfold getOrCreateTenantKek
  simp only [outcome_bind, outcome_get]
  split
  · exact .pure (.refl s)
  · simp only [outcome_bind, outcome_ofExcept, outcome_modify, hdb, outcome_pure]
    exact ⟨fun _ _ => ⟨fun _ _ => ⟨fun _ _ => ⟨rfl, rfl, rfl⟩, fun _ _ => .refl s⟩,
      fun _ _ => .refl s⟩, fun _ _ => .refl s⟩

omit hdb in
structure Created (s s' : KekStore) (tenantId : String) (env : Env) : Prop where
  dek : ∃ key wrapped, env.dek.key = .ok key ∧
    s'.deks = s.deks.insert env.dek.id.toString ⟨key, [], wrapped, tenantId, 1⟩
  dbPool : s'.dbPool = none

theorem generateAndStoreDek_memory (tenantId : String) (env : Env) :
    Outcome (generateAndStoreDek aes tenantId env) s
      (fun keyId s' => keyId = env.dek.id.toString ∧ Created s s' tenantId env ∧
        s'.currentDek = s.currentDek)
      (fun _ s' => SameDeks s s') := by
  unfold generateAndStoreDek
  refine (getOrCreateTenantKek_memory hdb tenantId env.kek).bind fun kek s₁ hs₁ => ?_
  have hdb₁ : s₁.dbPool = none := hs₁.dbPool.trans hdb
  unfold storeDek
  simp only [outcome_bind, outcome_ofExcept, outcome_modify, outcome_get]
  refine ⟨fun key hkey => ⟨fun wrapped _ => ?_, fun _ _ => hs₁⟩, fun _ _ => hs₁⟩
  simp only [cacheDek, hdb₁]
  refine .pure ⟨rfl, ⟨⟨key, wrapped, generateRandom32Bytes_eq_ok hkey, ?_⟩, rfl⟩, hs₁.currentDek⟩
  rw [hs₁.deks]

theorem currentDekForEncrypt_memory (tenantId : String) (env : Env) :
    Outcome (currentDekForEncrypt aes tenantId env) s
      (fun keyId s' =>
        (∃ entry operations, s.currentDek.lookup tenantId = some entry ∧ keyId = entry.keyId ∧
          s'.deks = s.deks ∧ s'.dbPool = none ∧
          s'.currentDek = s.currentDek.insert tenantId ⟨keyId, operations⟩) ∨
        (keyId = env.dek.id.toString ∧ Created s s' tenantId env ∧
          s'.currentDek = s.currentDek.insert tenantId ⟨keyId, 1⟩))
      (fun _ s' => SameDeks s s') := by
  rw [currentDekForEncrypt, outcome_bind]
  refine (useCurrentDek_outcome s tenantId).mono ?_ fun _ _ h => h.elim
  rintro _ s₀ (⟨keyId, rfl, entry, hentry, -, rfl, rfl⟩ | ⟨rfl, rfl, hspent⟩)
  · exact .pure (.inl ⟨entry, _, hentry, rfl, rfl, hdb, rfl⟩)
  · refine (generateAndStoreDek_memory hdb tenantId env).bind ?_
    rintro keyId s₁ ⟨hid, hcreated, hcurrent⟩
    refine (installCurrentDek_outcome s₁ tenantId keyId).mono ?_ fun _ _ h => h.elim
    rintro _ s₂ (⟨entry, hentry, hlt, -⟩ | ⟨rfl, -, rfl⟩)
    · rw [hcurrent] at hentry
      exact absurd hlt (hspent entry hentry)
    · refine .inr ⟨hid, ⟨hcreated.dek, hcreated.dbPool⟩, ?_⟩
      rw [setCurrentDek, hcurrent]

theorem ownedDek_memory (keyId tenantId : String) (env : Env) :
    Outcome (ownedDek aes keyId tenantId env) s
      (fun entry s' => s' = s ∧ s.deks.lookup keyId = some entry ∧ entry.tenantId = tenantId)
      (fun _ s' => s' = s) := by
  unfold ownedDek hydrateDek
  simp only [outcome_bind, outcome_get]
  split
  · simp only [outcome_bind, outcome_get, hdb, outcome_pure]
    exact lookupDek_outcome s keyId tenantId
  · exact lookupDek_outcome s keyId tenantId

omit hdb in
theorem getDekChain_of_lookup {keyId : String} {entry : DekEntry}
    (hentry : s.deks.lookup keyId = some entry) (env : Env) :
    Outcome (getDekChain aes keyId entry.tenantId env) s
      (fun chain _ => chain = entry.rawDek :: entry.superseded.reverse) (fun _ _ => False) := by
  unfold getDekChain ownedDek lookupDek
  simp [hentry]

theorem rotateDek_memory (tenantId keyId : String) (env : Env) :
    Outcome (rotateDek aes tenantId keyId env) s
      (fun version s' => ∃ entry key wrapped, s.deks.lookup keyId = some entry ∧
        env.dek.key = .ok key ∧ s'.deks = s.deks.insert keyId (entry.rotate key wrapped) ∧
        s'.currentDek = s.currentDek ∧ s'.dbPool = none ∧ version = entry.version + 1)
      (fun _ s' => SameDeks s s') := by
  unfold rotateDek
  simp only [outcome_bind, outcome_get]
  split
  · exact .throw (.refl s)
  · next entry hentry =>
    split
    · exact .throw (.refl s)
    · refine (getOrCreateTenantKek_memory hdb tenantId env.kek).bind fun kek s₁ hs₁ => ?_
      have hdb₁ : s₁.dbPool = none := hs₁.dbPool.trans hdb
      simp only [outcome_bind, outcome_ofExcept, outcome_modify, outcome_get]
      refine ⟨fun key hkey => ⟨fun wrapped _ => ?_, fun _ _ => hs₁⟩, fun _ _ => hs₁⟩
      simp only [cacheDek, hdb₁]
      refine .pure ⟨entry, key, wrapped, hentry,
        generateRandom32Bytes_eq_ok hkey, ?_, hs₁.currentDek, rfl, rfl⟩
      rw [hs₁.deks]

end Memory

/-- What one operation does to the DEKs in memory, and what it has drawn for it. -/
inductive Changes (s s' : KekStore) : Option Drawn → Prop where
  | same (h : s'.deks = s.deks) : Changes s s' none
  | created {tenantId keyId wrapped key} (hnew : s.deks.lookup keyId = none)
      (h : s'.deks = s.deks.insert keyId ⟨key, [], wrapped, tenantId, 1⟩) :
      Changes s s' (some (.created tenantId keyId key))
  | rotated {keyId wrapped entry key} (hentry : s.deks.lookup keyId = some entry)
      (h : s'.deks = s.deks.insert keyId (entry.rotate key wrapped)) :
      Changes s s' (some (.rotated keyId key))

structure InMemory (s : KekStore) : Prop where
  dbPool : s.dbPool = none
  currentDek : ∀ tenantId current, s.currentDek.lookup tenantId = some current →
    current.keyId ∈ s.deks

theorem inMemory_withSeal (inner : SealInner) : (withSeal inner none).InMemory := by
  refine ⟨rfl, fun tenantId current hcurrent => ?_⟩
  rw [withSeal, AList.lookup_empty] at hcurrent
  cases hcurrent

variable {s : KekStore}

theorem InMemory.same {s' : KekStore} (h : s.InMemory) (hsame : SameDeks s s') :
    s'.InMemory ∧ Changes s s' none := by
  refine ⟨⟨hsame.dbPool.trans h.dbPool, ?_⟩, .same hsame.deks⟩
  rw [hsame.deks, hsame.currentDek]
  exact h.currentDek

def Fresh (s : KekStore) : Op → Prop
  | .keyCall (.generateAndStoreDek _) env | .keyCall (.currentDekForEncrypt _) env =>
    env.dek.id.toString ∉ s.deks
  | _ => True

theorem InMemory.created {s' : KekStore} (h : s.InMemory) {tenantId : String} {env : Env}
    (hfresh : env.dek.id.toString ∉ s.deks) (hcreated : Created s s' tenantId env)
    (hcurrent : ∀ t current, s'.currentDek.lookup t = some current →
      current.keyId = env.dek.id.toString ∨
        ∃ t' current', s.currentDek.lookup t' = some current' ∧ current'.keyId = current.keyId) :
    s'.InMemory ∧ Changes s s'
      (env.dek.key.toOption.map (.created tenantId env.dek.id.toString)) := by
  obtain ⟨⟨key, wrapped, hkey, hdeks⟩, hdb⟩ := hcreated
  refine ⟨⟨hdb, fun t current ht => ?_⟩, ?_⟩
  · rw [hdeks, AList.mem_insert]
    rcases hcurrent t current ht with hid | ⟨t', current', hlookup, hid⟩
    · exact .inl hid
    · exact .inr (hid ▸ h.currentDek t' current' hlookup)
  · rw [hkey]
    exact .created (AList.lookup_eq_none.mpr hfresh) hdeks

theorem keyCall_memory (h : s.InMemory) (call : KeyCall) (env : Env)
    (hfresh : s.Fresh (.keyCall call env)) : Outcome (call.exec aes env) s
      (fun answer s' => s'.InMemory ∧ Changes s s' ((Op.keyCall call env).drew (.ok answer)))
      (fun _ s' => s'.InMemory ∧ Changes s s' none) := by
  cases call with
  | getOrCreateTenantKek tenantId =>
    rw [KeyCall.exec, outcome_map]
    exact (getOrCreateTenantKek_memory h.dbPool tenantId env.kek).imp fun _ => h.same
  | generateAndStoreDek tenantId =>
    rw [KeyCall.exec, outcome_map]
    refine (generateAndStoreDek_memory h.dbPool tenantId env).mono ?_ fun _ _ => h.same
    rintro keyId s' ⟨rfl, hcreated, hcurrent⟩
    refine h.created hfresh hcreated fun t current ht => .inr ⟨t, current, ?_, rfl⟩
    rwa [← hcurrent]
  | currentDekForEncrypt tenantId =>
    rw [KeyCall.exec, outcome_map]
    refine (currentDekForEncrypt_memory h.dbPool tenantId env).mono ?_ fun _ _ => h.same
    rintro keyId s' (⟨entry, operations, hentry, rfl, hdeks, hdb, hcurrent⟩ |
      ⟨rfl, hcreated, hcurrent⟩)
    · have hmem := h.currentDek tenantId entry hentry
      -- the current DEK is in memory, so its id is not the fresh one
      have hne : entry.keyId ≠ env.dek.id.toString := fun heq => hfresh (heq ▸ hmem)
      refine ⟨⟨hdb, ?_⟩, ?_⟩
      · rw [hdeks, hcurrent]
        exact forall_lookup_insert h.currentDek hmem
      · simp only [Op.drew, if_neg hne]
        exact .same hdeks
    · simp only [Op.drew, if_true]
      refine h.created hfresh hcreated ?_
      rw [hcurrent]
      exact forall_lookup_insert (fun t current ht => .inr ⟨t, current, ht, rfl⟩) (.inl rfl)
  | getDek keyId tenantId | getDekChain keyId tenantId =>
    simp only [KeyCall.exec, outcome_map, getDek, getDekChain, outcome_bind, outcome_pure]
    refine (ownedDek_memory h.dbPool keyId tenantId env).mono ?_ ?_
    · rintro entry s' ⟨rfl, -, -⟩
      exact h.same (.refl s')
    · rintro _ s' rfl
      exact h.same (.refl s')
  | rotateDek tenantId keyId =>
    rw [KeyCall.exec, outcome_map]
    refine (rotateDek_memory h.dbPool tenantId keyId env).mono ?_ fun _ _ => h.same
    rintro version s' ⟨entry, key, wrapped, hentry, hkey, hdeks, hcurrent, hdb, -⟩
    refine ⟨⟨hdb, fun t current ht => ?_⟩, ?_⟩
    · rw [hcurrent] at ht
      rw [hdeks, AList.mem_insert]
      exact .inr (h.currentDek t current ht)
    · simp only [Op.drew, hkey]
      exact .rotated hentry hdeks

theorem exec_memory (p : Primitives) (h : s.InMemory) (op : Op) (hfresh : s.Fresh op) :
    Comes (op.exec p) s fun s' reply => s'.InMemory ∧ Changes s s' (op.drew reply) := by
  by_cases hcall : ∃ call env, op = .keyCall call env
  · obtain ⟨call, env, rfl⟩ := hcall
    refine (keyCall_memory h call env hfresh).mono (fun _ _ h => h) fun e s' hs' => ?_
    cases call <;> exact hs'
  · have hsame : Leaves (op.exec p) s (SameDeks s) := by
      refine exec_of_seal p (fun s' inner h' => ⟨h'.deks, h'.currentDek, h'.dbPool⟩)
        (fun s' kekFault dekFault h' => ?_) (fun call env heq => hcall ⟨call, env, heq⟩) (.refl s)
      unfold loadFromDb
      simp only [outcome_bind, outcome_get, h'.dbPool.trans h.dbPool, outcome_pure]
      exact h'
    have hnone : ∀ reply, op.drew reply = none := by
      intro reply
      cases op with
      | keyCall call env => exact absurd ⟨call, env, rfl⟩ hcall
      | _ => rfl
    simp only [Comes, hnone]
    exact hsame.imp fun _ => h.same

end KekStore

/-- The chains in memory are the histories of their ids. -/
structure Chains (drawn : List Drawn) (s : KekStore) : Prop where
  missing : ∀ keyId, s.deks.lookup keyId = none →
    drawnFor keyId drawn = [] ∧ ∀ tenantId, ¬ CreatedFor drawn tenantId keyId
  stored : ∀ keyId entry, s.deks.lookup keyId = some entry →
    entry.superseded ++ [entry.rawDek] = drawnFor keyId drawn ∧
      entry.version = UInt32.ofNat (entry.superseded.length + 1) ∧
      ∀ tenantId, CreatedFor drawn tenantId keyId ↔ tenantId = entry.tenantId

theorem chains_withSeal (inner : SealInner) : Chains [] (withSeal inner none) := by
  refine ⟨fun keyId _ => ⟨rfl, fun tenantId h => ?_⟩, fun keyId entry hentry => ?_⟩
  · obtain ⟨key, hkey⟩ := h
    cases hkey
  · rw [withSeal, AList.lookup_empty] at hentry
    cases hentry

/-- For one id: nothing happens to it, or it is the id of the key created or rotated. -/
theorem KekStore.Changes.lookup {s s' : KekStore} {d : Option Drawn} (h : Changes s s' d)
    (k : String) :
    (s'.deks.lookup k = s.deks.lookup k ∧ drawnFor k d.toList = [] ∧
      ∀ tenantId, ¬ CreatedFor d.toList tenantId k) ∨
    (∃ key wrapped tenantId, s.deks.lookup k = none ∧ d = some (.created tenantId k key) ∧
      s'.deks.lookup k = some ⟨key, [], wrapped, tenantId, 1⟩) ∨
    ∃ entry key wrapped, s.deks.lookup k = some entry ∧ d = some (.rotated k key) ∧
      s'.deks.lookup k = some (entry.rotate key wrapped) := by
  cases h with
  | same hdeks => exact .inl ⟨by rw [hdeks], rfl, fun _ h => by simp [CreatedFor] at h⟩
  | @created tenantId keyId wrapped key hnew hdeks =>
    rw [hdeks, lookup_insert_eq]
    split
    · next heq =>
      subst heq
      exact .inr (.inl ⟨key, wrapped, tenantId, hnew, rfl, rfl⟩)
    · next hne => exact .inl ⟨rfl, by simp [drawnFor_singleton, Drawn.keyFor, Ne.symm hne],
        fun _ h => by simp [CreatedFor, hne] at h⟩
  | @rotated keyId wrapped entry key hentry hdeks =>
    rw [hdeks, lookup_insert_eq]
    split
    · next heq =>
      subst heq
      exact .inr (.inr ⟨entry, key, wrapped, hentry, rfl, rfl⟩)
    · next hne => exact .inl ⟨rfl, by simp [drawnFor_singleton, Drawn.keyFor, Ne.symm hne],
        fun _ h => by simp [CreatedFor] at h⟩

theorem Chains.step {drawn : List Drawn} {s s' : KekStore} (h : Chains drawn s)
    {d : Option Drawn} (hchanges : Changes s s' d) : Chains (drawn ++ d.toList) s' := by
  refine ⟨fun k hk => ?_, fun k e he => ?_⟩ <;> simp only [drawnFor_append, createdFor_append] <;>
    rcases hchanges.lookup k with ⟨hsame, hnone, hnobody⟩ |
      ⟨key, wrapped, tenantId, hnew, rfl, hlookup⟩ | ⟨entry, key, wrapped, hentry, rfl, hlookup⟩
  · simpa [hnone, hnobody] using h.missing k (hsame ▸ hk)
  · simp [hlookup] at hk
  · simp [hlookup] at hk
  · simpa [hnone, hnobody] using h.stored k e (hsame ▸ he)
  · cases hlookup.symm.trans he
    obtain ⟨hempty, hnobody⟩ := h.missing k hnew
    refine ⟨?_, rfl, fun t => ?_⟩
    · simp [hempty, drawnFor_singleton, Drawn.keyFor]
    · rw [or_iff_right (hnobody t)]
      simp [CreatedFor]
  · cases hlookup.symm.trans he
    obtain ⟨hchain, hversion, howner⟩ := h.stored k entry hentry
    refine ⟨?_, ?_, ?_⟩
    · simp [DekEntry.rotate, hchain, drawnFor_singleton, Drawn.keyFor]
    · simp only [DekEntry.rotate, hversion, List.length_append, List.length_singleton]
      exact (UInt32.ofNat_add _ 1).symm
    · simpa [DekEntry.rotate, CreatedFor] using howner

/-- The versions of a data key in memory are the keys drawn for its id, in order. -/
theorem run_chains (p : Primitives) (inner : SealInner) {ops : List Op}
    (hfresh : Along (KekStore.step p) Fresh (withSeal inner none) ops) :
    (run (KekStore.step p) (withSeal inner none) ops).InMemory ∧
      Chains (drawnIn (trace (KekStore.step p) (withSeal inner none) ops))
        (run (KekStore.step p) (withSeal inner none) ops) := by
  refine hfresh.history (fun served s => s.InMemory ∧ Chains (drawnIn served) s) ?_
    ⟨inMemory_withSeal inner, chains_withSeal inner⟩
  rintro served s op ⟨hmemory, hchains⟩ hop
  have hnext := (exec_memory p hmemory op hop).perform
  refine ⟨hnext.1, ?_⟩
  rw [drawnIn, filterMap_concat]
  exact hchains.step hnext.2

/-! ## Ciphertexts -/

def WrongKeyFails (aes : Aes256Gcm) : Prop :=
  ∀ key key' nonce msg aad ciphertext, aes.encrypt key nonce msg aad = some ciphertext →
    key' ≠ key → aes.decrypt key' nonce ciphertext aad = none

theorem decryptWithDek_wrongKey {aes : Aes256Gcm} (hwrong : WrongKeyFails aes) {key key' : Key}
    {nonce : Option Nonce} {plaintext aad : Bytes} {text : String}
    (h : encryptWithDek aes nonce key plaintext aad = .ok text) (hne : key' ≠ key) :
    decryptWithDek aes key' text aad = .error .decryptionFailed := by
  obtain ⟨n, ciphertext, henc, rfl⟩ := encryptWithDek_eq_ok h
  rw [decryptWithDek_encode, hwrong key key' n plaintext aad ciphertext henc hne]
  rfl

theorem decryptWithChain_of_mem {aes : Aes256Gcm} (hwrong : WrongKeyFails aes) {key : Key}
    {nonce : Option Nonce} {plaintext aad : Bytes} {text : String}
    (h : encryptWithDek aes nonce key plaintext aad = .ok text) {chain : List Key}
    (hmem : key ∈ chain) : decryptWithChain aes chain text aad = some plaintext := by
  induction chain with
  | nil => cases hmem
  | cons head chain ih =>
    rw [decryptWithChain, List.findSome?_cons]
    by_cases heq : head = key
    · rw [heq, decryptWithDek_encryptWithDek h]
      rfl
    · rw [decryptWithDek_wrongKey hwrong h heq]
      exact ih ((List.mem_cons.mp hmem).resolve_left (Ne.symm heq))

/-- In memory, after any operations in any order: a key is there for exactly the
tenant that it was created for; its chain has every key that was drawn for it, once
for each time and newest first; its version is one more than the number of keys it
was rotated away from, as a `u32`; and what was encrypted under any key of the
chain decrypts. -/
theorem dek_chain_round_trip (p : Primitives) (hwrong : WrongKeyFails p.aes) (inner : SealInner)
    (ops : List Op) (hfresh : Along (KekStore.step p) Fresh (withSeal inner none) ops)
    (drawn : List Drawn)
    (hdrawn : drawn = drawnIn (trace (KekStore.step p) (withSeal inner none) ops)) :
    (∀ tenantId keyId, CreatedFor drawn tenantId keyId ↔
      ∃ entry, (run (KekStore.step p) (withSeal inner none) ops).deks.lookup keyId = some entry ∧
        entry.tenantId = tenantId) ∧
    ∀ keyId entry,
      (run (KekStore.step p) (withSeal inner none) ops).deks.lookup keyId = some entry →
      (∀ env, (KekStore.step p (run (KekStore.step p) (withSeal inner none) ops)
        (.keyCall (.getDekChain keyId entry.tenantId) env)).2 =
          .ok (.chain (drawnFor keyId drawn).reverse)) ∧
      entry.version = UInt32.ofNat (entry.superseded.length + 1) ∧
      ∀ key ∈ drawnFor keyId drawn, ∀ nonce plaintext aad text,
        encryptWithDek p.aes nonce key plaintext aad = .ok text →
        decryptWithChain p.aes (drawnFor keyId drawn).reverse text aad = some plaintext := by
  obtain ⟨hmemory, hchains⟩ := run_chains p inner hfresh
  rw [← hdrawn] at hchains
  refine ⟨fun tenantId keyId => ?_, fun keyId entry hentry => ⟨fun env => ?_, ?_, ?_⟩⟩
  · cases hlookup : (run (KekStore.step p) (withSeal inner none) ops).deks.lookup keyId with
    | none => simp [(hchains.missing keyId hlookup).2 tenantId]
    | some entry => simp [(hchains.stored keyId entry hlookup).2.2 tenantId, eq_comm]
  · obtain ⟨hchain, -⟩ := hchains.stored keyId entry hentry
    have hreturns : Outcome ((KeyCall.getDekChain keyId entry.tenantId).exec p.aes env)
        (run (KekStore.step p) (withSeal inner none) ops)
        (fun answer _ => answer = .chain (drawnFor keyId drawn).reverse) (fun _ _ => False) := by
      rw [KeyCall.exec, outcome_map]
      refine (getDekChain_of_lookup hentry env).mono ?_ fun _ _ h => h
      rintro chain _ rfl
      rw [← hchain, List.reverse_append, List.reverse_singleton, List.singleton_append]
    obtain ⟨answer, hanswer, rfl⟩ := hreturns.returns
    exact hanswer
  · exact (hchains.stored keyId entry hentry).2.1
  · intro key hkey nonce plaintext aad text htext
    exact decryptWithChain_of_mem hwrong htext (List.mem_reverse.mpr hkey)

def keyedCipher : Aes256Gcm where
  encrypt key _ msg _ := some (key.val ++ msg)
  decrypt key _ ciphertext _ :=
    if ciphertext.take 32 = key.val then some (ciphertext.drop 32) else none
  decrypt_encrypt := by
    rintro key nonce msg aad ciphertext ⟨⟩
    rw [List.take_left' key.property, List.drop_left' key.property, if_pos rfl]

theorem wrongKeyFails_keyedCipher : WrongKeyFails keyedCipher := by
  rintro key key' nonce msg aad ciphertext ⟨⟩ hne
  refine if_neg fun heq => hne (Subtype.ext ?_)
  rw [← heq, List.take_left' key.property]

def keyedPrimitives : Primitives := { Primitives.transparent with aes := keyedCipher }

def rotations : List Op :=
  [.unsealWithRootKey (.repeated 32 1),
    .keyCall (.generateAndStoreDek "acme") (.repeated 2 .nil .max),
    .keyCall (.rotateDek "acme" Uuid.max.toString) (.repeated 3 .nil .nil),
    .keyCall (.currentDekForEncrypt "globex") (.repeated 4 .nil .nil),
    .keyCall (.rotateDek "acme" Uuid.max.toString) (.repeated 5 .nil .nil)]

theorem dek_chain_of_rotations : ∃ drawn entry,
      drawn = drawnIn (trace (KekStore.step keyedPrimitives) (withSeal Seal.new none) rotations) ∧
      (run (KekStore.step keyedPrimitives) (withSeal Seal.new none) rotations).deks.lookup
        Uuid.max.toString = some entry ∧
      drawnFor Uuid.max.toString drawn = [.repeated 32 2, .repeated 32 3, .repeated 32 5] ∧
      entry.version = UInt32.ofNat (entry.superseded.length + 1) := by
  refine ⟨_, _, rfl, rfl, by decide +kernel, ?_⟩
  have hfresh : Along (KekStore.step keyedPrimitives) Fresh (withSeal Seal.new none) rotations := by
    refine ⟨trivial, ?_, trivial, ?_, trivial, trivial⟩
    · exact fun hmem => absurd hmem (by decide +kernel)
    · exact fun hmem => absurd hmem (by decide +kernel)
  exact ((dek_chain_round_trip keyedPrimitives wrongKeyFails_keyedCipher Seal.new rotations hfresh _
    rfl).2 Uuid.max.toString _ rfl).2.1

end WslVault.CryptoService
