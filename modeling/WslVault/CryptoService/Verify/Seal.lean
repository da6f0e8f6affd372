import WslVault.Base.Run
import WslVault.CryptoService.Sys
import WslVault.CryptoService.Verify.KekStore

/-!
# What sealing takes away

Sealing drops the root key and leaves the maps of unwrapped keys alone.
-/

namespace WslVault.CryptoService

open Base Core Storage Storage.KeyStore

def KeyCall.tenantId : KeyCall → String
  | .getOrCreateTenantKek tenantId | .currentDekForEncrypt tenantId
  | .generateAndStoreDek tenantId | .getDek _ tenantId | .getDekChain _ tenantId
  | .rotateDek tenantId _ => tenantId

def KeyCall.draws (env : Env) : KeyCall → List Uuid
  | .currentDekForEncrypt _ | .generateAndStoreDek _ => [env.kek.id, env.dek.id]
  | _ => [env.kek.id]

namespace KekStore

variable {aes : Aes256Gcm}

/-- Every DEK in memory belongs to a tenant whose KEK is. -/
structure Rooted (s : KekStore) : Prop where
  deks : ∀ keyId entry, s.deks.lookup keyId = some entry → entry.tenantId ∈ s.tenantKeks
  currentDek : ∀ tenantId ∈ s.currentDek, tenantId ∈ s.tenantKeks

theorem rooted_withSeal (inner : SealInner) (db : Option KeyDb) : (withSeal inner db).Rooted := by
  refine ⟨fun keyId entry hentry => ?_, fun tenantId ht => absurd ht (AList.notMem_empty tenantId)⟩
  rw [withSeal, AList.lookup_empty] at hentry
  cases hentry

structure Grows (s s' : KekStore) : Prop where
  keks : ∀ tenantId ∈ s.tenantKeks, tenantId ∈ s'.tenantKeks
  rooted : s.Rooted → s'.Rooted

theorem Grows.refl (s : KekStore) : s.Grows s := ⟨fun _ h => h, id⟩

variable {s s' : KekStore} {op : Op} {root : Key} {E : VaultError → KekStore → Prop} {α : Type}
  {P : KekStore → Prop} (rows : List PersistedKeyEntry)

theorem Grows.trans {s'' : KekStore} (h : s.Grows s') (h' : s'.Grows s'') : s.Grows s'' :=
  ⟨fun t ht => h'.keks t (h.keks t ht), fun hs => h'.rooted (h.rooted hs)⟩

theorem Grows.of_keks (hkeks : ∀ tenantId ∈ s.tenantKeks, tenantId ∈ s'.tenantKeks)
    (hdeks : s'.deks = s.deks) (hcurrent : s'.currentDek = s.currentDek) : s.Grows s' := by
  refine ⟨hkeks, fun hs => ⟨?_, ?_⟩⟩
  · rw [hdeks]
    exact fun k e he => hkeks _ (hs.deks k e he)
  · rw [hcurrent]
    exact fun t ht => hkeks t (hs.currentDek t ht)

theorem Write.grows (h : Write aes s s') : s.Grows s' := by
  cases h with
  | kek => exact .of_keks (fun t ht => (AList.mem_insert _).mpr (.inr ht)) rfl rfl
  | dek hkek =>
    refine ⟨fun _ ht => ht, fun hs => ⟨forall_lookup_insert hs.deks ?_, hs.currentDek⟩⟩
    exact mem_of_lookup hkek
  | use hentry =>
    refine ⟨fun _ ht => ht, fun hs => ⟨hs.deks, fun t ht => ?_⟩⟩
    rcases (AList.mem_insert _).mp ht with rfl | ht
    · exact hs.currentDek t (mem_of_lookup hentry)
    · exact hs.currentDek t ht
  | install hkek =>
    refine ⟨fun _ ht => ht, fun hs => ⟨hs.deks, fun t ht => ?_⟩⟩
    rcases (AList.mem_insert _).mp ht with rfl | ht
    · exact hkek
    · exact hs.currentDek t ht
  | insert => exact .of_keks (fun _ ht => ht) rfl rfl
  | rotateOut => exact .of_keks (fun _ ht => ht) rfl rfl

theorem Writes.grows (h : Writes aes s s') : s.Grows s' := by
  induction h with
  | refl => exact .refl s
  | tail _ hstep ih => exact ih.trans hstep.grows

theorem mem_loadTenantKeks
    (keks : AList (fun _ : String => TenantKekEntry)) {tenantId : String} (h : tenantId ∈ keks) :
    tenantId ∈ rows.foldl (loadTenantKek aes root) keks := by
  induction rows generalizing keks with
  | nil => exact h
  | cons row rows ih =>
    refine ih _ (AList.lookup_isSome.mp ?_)
    rw [lookup_loadTenantKek]
    split
    · rw [Option.isSome_or, AList.lookup_isSome.mpr h, Bool.or_true]
    · exact AList.lookup_isSome.mpr h

theorem loadDeks_owned {keks : AList (fun _ : String => TenantKekEntry)}
    (deks : AList (fun _ : String => DekEntry))
    (h : ∀ keyId entry, deks.lookup keyId = some entry → entry.tenantId ∈ keks) :
    ∀ keyId entry, (rows.foldl (loadDek aes root keks) deks).lookup keyId = some entry →
      entry.tenantId ∈ keks := by
  induction rows generalizing deks with
  | nil => exact h
  | cons row rows ih =>
    refine ih _ ?_
    intro keyId entry hentry
    unfold loadDek at hentry
    split at hentry
    · exact h _ _ hentry
    · split at hentry
      · exact h _ _ hentry
      · next tenantId _ kek hkek =>
        split at hentry
        · exact h _ _ hentry
        · split at hentry
          · next existing hexisting =>
            refine forall_lookup_insert h ?_ _ _ hentry
            exact h row.keyId existing hexisting
          · refine forall_lookup_insert h ?_ _ _ hentry
            exact mem_of_lookup hkek

theorem loadFromDb_grows (s : KekStore) (kekFault dekFault : Option String) :
    Leaves (loadFromDb aes kekFault dekFault) s s.Grows := by
  unfold loadFromDb
  simp only [outcome_bind, outcome_get]
  split
  · exact .pure (.refl s)
  · simp only [outcome_bind, outcome_ofExcept, outcome_modify]
    refine ⟨fun root _ => ⟨fun rows _ => ?_, fun _ _ => .refl s⟩, fun _ _ => .refl s⟩
    have hkeks : ∀ t ∈ s.tenantKeks, t ∈ rows.foldl (loadTenantKek aes root) s.tenantKeks :=
      fun t ht => mem_loadTenantKeks rows _ ht
    refine ⟨fun dekRows _ => ⟨hkeks, fun hs => ⟨?_, fun t ht => hkeks t (hs.currentDek t ht)⟩⟩,
      fun _ _ => .of_keks hkeks rfl rfl⟩
    exact loadDeks_owned dekRows _ fun k e he => hkeks _ (hs.deks k e he)

theorem loadFromDb_vaultSeal (s : KekStore) (kekFault dekFault : Option String) :
    Leaves (loadFromDb aes kekFault dekFault) s fun s' => s'.vaultSeal = s.vaultSeal := by
  unfold loadFromDb
  simp only [outcome_bind, outcome_get]
  split
  · exact .pure rfl
  · simp only [outcome_bind, outcome_ofExcept, outcome_modify, implies_true, and_self]

/-! ## Every operation -/

theorem outcome_modifySeal (f : SealInner → SealInner) {Q : Unit → KekStore → Prop} :
    Outcome (modifySeal f) s Q E ↔ Q () { s with vaultSeal := f s.vaultSeal } :=
  outcome_modify _

theorem outcome_onSeal {m : EStateM VaultError SealInner α} {Q : α → KekStore → Prop} :
    Outcome (onSeal m) s Q E ↔ Outcome m s.vaultSeal
      (fun a inner => Q a { s with vaultSeal := inner })
      (fun e inner => E e { s with vaultSeal := inner }) := by
  simp only [Outcome, EStateM.run, onSeal]
  cases m s.vaultSeal with
  | ok a inner => exact Iff.rfl
  | error e inner => exact Iff.rfl

theorem onSeal_outcome (m : EStateM VaultError SealInner α)
    (h : ∀ inner, P { s with vaultSeal := inner }) :
    Outcome (onSeal m) s (fun _ => P) (fun _ => P) := by
  rw [outcome_onSeal]
  unfold Outcome
  split
  · exact h _
  · exact h _

/-- The call names no key of another tenant. A call that reads may name one that is
in memory, if the database can be reached. -/
def NamesOwn (s : KekStore) (env : Env) : KeyCall → Prop
  | .getDek keyId tenantId | .getDekChain keyId tenantId =>
    s.NoForeignRow tenantId keyId ∧
      ∀ entry ∈ s.deks.lookup keyId, SameTenant tenantId entry.tenantId ∨ env.select = none
  | .rotateDek tenantId keyId => ∀ entry ∈ s.deks.lookup keyId, SameTenant tenantId entry.tenantId
  | _ => True

instance (s : KekStore) (env : Env) (call : KeyCall) : Decidable (s.NamesOwn env call) := by
  cases call <;> unfold NamesOwn <;> infer_instance

theorem keyCall_makes {call : KeyCall} {env : Env} {own : Prop}
    (h : own → (s.Free env.kek.id ∧ s.Free env.dek.id ∧ env.kek.id ≠ env.dek.id) ∧
      s.NamesOwn env call) :
    Leaves (call.exec aes env) s (Makes aes ⟨own, call.tenantId, call.draws env⟩ s) := by
  have hdrawn : env.kek.id ∈ call.draws env := by cases call <;> exact List.mem_cons_self
  have hkek : Scope.Grants ⟨own, call.tenantId, call.draws env⟩ s call.tenantId env.kek.id :=
    fun hown => ⟨.refl _, hdrawn, (h hown).1.1⟩
  cases call with
  | getOrCreateTenantKek tenantId =>
    simp only [KeyCall.exec, outcome_map]
    exact (getOrCreateTenantKek_outcome hkek).mono (fun _ _ h => h.makes) fun _ _ h => h
  | currentDekForEncrypt tenantId =>
    simp only [KeyCall.exec, outcome_map]
    refine (currentDekForEncrypt_outcome hkek (fun hown => ⟨.refl _, ?_, (h hown).1.2.1⟩)
      fun hown => (h hown).1.2.2).mono ?_ fun _ _ h => h
    · simp [KeyCall.draws]
    · rintro keyId s' (⟨entry, hentry, -, rfl, rfl⟩ | ⟨-, s₁, hnew, rfl⟩)
      · exact .single ⟨.use hentry, fun _ => .current (.refl tenantId)⟩
      · exact hnew.install fun _ => .refl tenantId
  | generateAndStoreDek tenantId =>
    simp only [KeyCall.exec, outcome_map]
    refine (generateAndStoreDek_outcome hkek (fun hown => ⟨.refl _, ?_, (h hown).1.2.1⟩)
      fun hown => (h hown).1.2.2).mono (fun _ _ h => h.makes) fun _ _ h => h
    simp [KeyCall.draws]
  | getDek keyId tenantId | getDekChain keyId tenantId =>
    simp only [KeyCall.exec, outcome_map]
    refine (ownedDek_outcome _ tenantId fun hown => ?_).bind fun _ _ h => .pure h.1
    exact ⟨(h hown).2.1, hdrawn, (h hown).1.1⟩
  | rotateDek tenantId keyId =>
    simp only [KeyCall.exec, outcome_map]
    exact rotateDek_outcome hkek

theorem keyCall_writes (s : KekStore) (call : KeyCall) (env : Env) :
    Leaves (call.exec aes env) s (Writes aes s) :=
  (keyCall_makes False.elim).imp fun _ h => h.writes

/-- What changes of the seal and loading keep, every operation that is no call of
the key store keeps. -/
theorem exec_of_seal (p : Primitives) (hseal : ∀ s inner, P s → P { s with vaultSeal := inner })
    (hload : ∀ s kekFault dekFault, P s →
      Outcome (loadFromDb p.aes kekFault dekFault) s
    (fun _ => P) fun _ => P) (hop : ∀ call env, op ≠ .keyCall call env) (hs : P s) :
    Outcome (op.exec p) s (fun _ => P) (fun _ => P) := by
  cases op with
  | keyCall call env => exact absurd rfl (hop call env)
  | loadFromDb kekFault dekFault =>
    exact (hload s kekFault dekFault hs).bind fun _ _ h => .pure h
  | init | unsealShare => exact onSeal_outcome _ fun inner => hseal s inner hs
  | load | unsealWithRootKey | sealVault | resetUnsealProgress =>
    rw [Op.exec, outcome_bind, outcome_modifySeal, outcome_pure]
    exact hseal s _ hs
  | sealRequest configured presented =>
    rw [Op.exec, outcome_map, Sys.sealHandler]
    split
    · exact .pure hs
    · simp only [outcome_bind, outcome_modifySeal, outcome_get, outcome_pure]
      exact hseal s _ hs
  | unsealRequest key kekFault dekFault =>
    rw [Op.exec, outcome_map, Sys.unsealHandler]
    simp only [outcome_bind, outcome_get, outcome_tryCatch, outcome_pure]
    refine (onSeal_outcome (Seal.unsealShare p key) fun inner => hseal s inner hs).mono
      (fun status s₁ hs₁ => ?_) fun _ _ h => h
    split
    · simp only [outcome_tryCatch, outcome_bind, outcome_pure]
      exact hload s₁ kekFault dekFault hs₁
    · exact .pure hs₁

theorem exec_grows (p : Primitives) (s : KekStore) (op : Op) :
    Leaves (op.exec p) s s.Grows := by
  by_cases hcall : ∃ call env, op = .keyCall call env
  · obtain ⟨call, env, rfl⟩ := hcall
    exact (keyCall_writes s call env).imp fun _ h => h.grows
  · refine exec_of_seal p (fun s' inner h => h.trans (.of_keks (fun _ ht => ht) rfl rfl))
      (fun s' kekFault dekFault h => ?_) (fun call env h => hcall ⟨call, env, h⟩) (.refl s)
    exact (loadFromDb_grows s' kekFault dekFault).imp fun _ h' => h.trans h'

/-! ## A sealed vault without keys in memory -/

structure Bare (s : KekStore) : Prop where
  tenantKeks : ∀ tenantId, s.tenantKeks.lookup tenantId = none
  deks : ∀ keyId, s.deks.lookup keyId = none
  currentDek : ∀ tenantId, s.currentDek.lookup tenantId = none

theorem Rooted.bare (h : s.Rooted) (hkeks : ∀ tenantId, tenantId ∉ s.tenantKeks) :
    s.Bare := by
  refine ⟨fun t => AList.lookup_eq_none.mpr (hkeks t), fun k => ?_, fun t => ?_⟩
  · cases hentry : s.deks.lookup k with
    | none => rfl
    | some entry => exact absurd (h.deks k entry hentry) (hkeks _)
  · exact AList.lookup_eq_none.mpr fun ht => hkeks t (h.currentDek t ht)

theorem Bare.withSeal (h : s.Bare) (inner : SealInner) :
    ({ s with vaultSeal := inner } : KekStore).Bare :=
  ⟨h.tenantKeks, h.deks, h.currentDek⟩

section Sealed

variable {s : KekStore} (hbare : s.Bare) (hsealed : s.vaultSeal.rootKey = none)

include hsealed in
theorem rootKey_sealed : Seal.rootKey s.vaultSeal = .error .sealed := by
  rw [Seal.rootKey, hsealed]

include hbare hsealed

theorem getOrCreateTenantKek_sealed (tenantId : String) (drawn : Draw) :
    Outcome (getOrCreateTenantKek aes tenantId drawn) s (fun _ _ => False)
      (fun _ s' => s' = s) := by
  unfold getOrCreateTenantKek
  simp only [outcome_bind, outcome_get, hbare.tenantKeks, outcome_ofExcept, rootKey_sealed hsealed]
  refine ⟨fun _ _ => ⟨fun _ h => ?_, fun _ _ => trivial⟩, fun _ _ => trivial⟩
  cases h

theorem generateAndStoreDek_sealed (tenantId : String) (env : Env) :
    Outcome (generateAndStoreDek aes tenantId env) s (fun _ _ => False) (fun _ s' => s' = s) := by
  exact (getOrCreateTenantKek_sealed hbare hsealed tenantId env.kek).bind fun _ _ h => h.elim

theorem currentDekForEncrypt_sealed (tenantId : String) (env : Env) :
    Outcome (currentDekForEncrypt aes tenantId env) s (fun _ _ => False) (fun _ s' => s' = s) := by
  rw [currentDekForEncrypt, outcome_bind]
  refine (useCurrentDek_outcome s tenantId).mono ?_ fun _ _ h => h.elim
  rintro _ s₀ (⟨_, -, entry, hentry, -⟩ | ⟨rfl, rfl, -⟩)
  · rw [hbare.currentDek] at hentry
    cases hentry
  · exact (generateAndStoreDek_sealed hbare hsealed tenantId env).bind fun _ _ h => h.elim

theorem hydrateDek_sealed (keyId : String) (env : Env) :
    Leaves (hydrateDek aes keyId env) s fun s' => s' = s := by
  unfold hydrateDek
  simp only [outcome_bind, outcome_get]
  split
  · simp only [outcome_bind, outcome_ofExcept]
    refine ⟨fun rows _ => ?_, fun _ _ => trivial⟩
    split
    · exact .pure rfl
    · exact (getOrCreateTenantKek_sealed hbare hsealed _ env.kek).bind fun _ _ h => h.elim
  · exact .pure rfl

theorem ownedDek_sealed (keyId tenantId : String) (env : Env) :
    Outcome (ownedDek aes keyId tenantId env) s (fun _ _ => False) (fun _ s' => s' = s) := by
  unfold ownedDek
  simp only [outcome_bind, outcome_get, hbare.deks, if_true]
  refine (hydrateDek_sealed hbare hsealed keyId env).mono ?_ fun _ _ h => h
  rintro _ _ rfl
  refine (lookupDek_outcome _ keyId tenantId).mono ?_ fun _ _ h => h
  rintro entry _ ⟨-, hentry, -⟩
  rw [hbare.deks] at hentry
  cases hentry

theorem keyCall_sealed (call : KeyCall) (env : Env) :
    Outcome (call.exec aes env) s (fun _ _ => False) (fun _ s' => s' = s) := by
  cases call with
  | getOrCreateTenantKek tenantId =>
    rw [KeyCall.exec, outcome_map]
    exact getOrCreateTenantKek_sealed hbare hsealed tenantId env.kek
  | currentDekForEncrypt tenantId =>
    rw [KeyCall.exec, outcome_map]
    exact currentDekForEncrypt_sealed hbare hsealed tenantId env
  | generateAndStoreDek tenantId =>
    rw [KeyCall.exec, outcome_map]
    exact generateAndStoreDek_sealed hbare hsealed tenantId env
  | getDek keyId tenantId | getDekChain keyId tenantId =>
    rw [KeyCall.exec, outcome_map]
    exact (ownedDek_sealed hbare hsealed keyId tenantId env).bind fun _ _ h => h.elim
  | rotateDek tenantId keyId =>
    rw [KeyCall.exec, outcome_map, rotateDek]
    simp only [outcome_bind, outcome_get, hbare.deks, outcome_throw]

omit hbare in
theorem loadFromDb_sealed (kekFault dekFault : Option String) :
    Leaves (loadFromDb aes kekFault dekFault) s fun s' => s' = s := by
  unfold loadFromDb
  simp only [outcome_bind, outcome_get]
  split
  · exact .pure rfl
  · simp only [outcome_bind, outcome_ofExcept, rootKey_sealed hsealed]
    refine ⟨fun _ h => ?_, fun _ _ => trivial⟩
    cases h

omit hsealed in
theorem unsealHandler_sealed (p : Primitives) (key : String) (kekFault dekFault : Option String) :
    Leaves (Sys.unsealHandler p key kekFault dekFault) s
      fun s' => s'.vaultSeal.rootKey = none → s'.Bare := by
  unfold Sys.unsealHandler
  simp only [outcome_bind, outcome_get, outcome_tryCatch, outcome_pure]
  refine (onSeal_outcome (Seal.unsealShare p key) hbare.withSeal).mono (fun status s₁ hs₁ => ?_)
    fun _ _ h _ => h
  split
  · simp only [outcome_tryCatch, outcome_bind, outcome_pure]
    cases hroot : s₁.vaultSeal.rootKey with
    | none =>
      exact (loadFromDb_sealed hroot kekFault dekFault).imp fun _ h _ => h ▸ hs₁
    | some root =>
      refine (loadFromDb_vaultSeal s₁ kekFault dekFault).imp fun _ h hnone => ?_
      rw [h, hroot] at hnone
      cases hnone
  · exact .pure fun _ => hs₁

theorem exec_sealed (p : Primitives) (op : Op) :
    Leaves (op.exec p) s fun s' => s'.vaultSeal.rootKey = none → s'.Bare := by
  have hseal : ∀ inner : SealInner, inner.rootKey = none →
      ({ s with vaultSeal := inner } : KekStore).Bare := fun inner _ => hbare.withSeal inner
  cases op with
  | keyCall call env =>
    exact (keyCall_sealed hbare hsealed call env).mono (fun _ _ h => h.elim)
      fun _ _ h _ => h ▸ hbare
  | loadFromDb kekFault dekFault =>
    simp only [Op.exec, outcome_bind]
    exact (loadFromDb_sealed hsealed kekFault dekFault).mono
      (fun _ _ h => .pure fun _ => h ▸ hbare) fun _ _ h _ => h ▸ hbare
  | init | unsealShare => exact onSeal_outcome _ hseal
  | load | unsealWithRootKey | sealVault | resetUnsealProgress =>
    simp only [Op.exec, outcome_bind, outcome_modifySeal, outcome_pure]
    exact hseal _
  | sealRequest configured presented =>
    simp only [Op.exec, outcome_map, Sys.sealHandler]
    split
    · exact .pure fun _ => hbare
    · simp only [outcome_bind, outcome_modifySeal, outcome_get, outcome_pure]
      exact hseal _
  | unsealRequest key kekFault dekFault =>
    simp only [Op.exec, outcome_map]
    exact unsealHandler_sealed hbare p key kekFault dekFault

end Sealed

/-! ## Runs -/

variable (p : Primitives)

theorem step_grows (s : KekStore) (op : Op) : s.Grows (step p s op).1 := (exec_grows p s op).left

def StaysSealed (s : KekStore) (op : Op) : Prop := (step p s op).1.vaultSeal.rootKey = none

def sealed (s : KekStore) : KekStore := { s with vaultSeal := Seal.sealVault s.vaultSeal }

/-- The operation seals the vault: a call, or a request with the token that is
asked for. -/
def Seals : Op → Prop
  | .sealVault => True
  | .sealRequest configured presented =>
    ∀ expected ∈ configured, expected = "" ∨ presented.getD "" = expected
  | _ => False

theorem step_seals (hop : Seals op) (s : KekStore) : (step p s op).1 = sealed s := by
  cases op with
  | sealVault => rfl
  | sealRequest configured presented =>
    have htoken : ¬ ∃ expected ∈ configured, expected ≠ "" ∧ presented.getD "" ≠ expected := by
      rintro ⟨expected, hexpected, hne, hpresented⟩
      rcases hop expected hexpected with h | h
      · exact hne h
      · exact hpresented h
    simp only [step, Op.exec, Sys.sealHandler, if_neg htoken]
    rfl
  | keyCall | loadFromDb | load | unsealWithRootKey | init | unsealShare | resetUnsealProgress
  | unsealRequest => exact hop.elim

theorem step_cachedKek {tenantId : String} (h : tenantId ∈ s.tenantKeks) (env : Env) :
    ∃ answer, (step p s (.keyCall (.getOrCreateTenantKek tenantId) env)).2 = .ok answer := by
  obtain ⟨entry, hentry⟩ := Option.isSome_iff_exists.mp (AList.lookup_isSome.mpr h)
  have hreturns : Outcome ((KeyCall.getOrCreateTenantKek tenantId).exec p.aes env) s
      (fun answer _ => answer = .key entry.rawKek) fun _ _ => False := by
    rw [KeyCall.exec, outcome_map, getOrCreateTenantKek]
    simp only [outcome_bind, outcome_get, hentry, outcome_pure]
  obtain ⟨answer, hanswer, -⟩ := hreturns.returns
  exact ⟨answer, hanswer⟩

theorem calls_fail_iff_of_rooted (hs : s.Rooted) {after : List Op}
    (hafter : Along (step p) (StaysSealed p) (sealed s) after) :
    (∀ call env, ∃ e, (step p (run (step p) (sealed s) after) (.keyCall call env)).2 = .error e) ↔
      ∀ tenantId, tenantId ∉ s.tenantKeks := by
  constructor
  · intro hfail tenantId hmem
    have hatSeal : tenantId ∈ (sealed s).tenantKeks := hmem
    have hkept : tenantId ∈ (run (step p) (sealed s) after).tenantKeks :=
      run_invariant (step p) (fun s => tenantId ∈ s.tenantKeks)
        (fun s op hs => (step_grows p s op).keks tenantId hs) hatSeal after
    obtain ⟨answer, hanswer⟩ := step_cachedKek p hkept .idle
    obtain ⟨e, he⟩ := hfail (.getOrCreateTenantKek tenantId) .idle
    rw [hanswer] at he
    cases he
  · intro hnone call env
    have hbare := hafter.invariant (fun s => s.Bare ∧ s.vaultSeal.rootKey = none)
      (fun s op hs hop => ⟨(exec_sealed hs.1 hs.2 p op).left hop, hop⟩)
      ⟨(hs.bare hnone).withSeal _, rfl⟩
    obtain ⟨e, he, -⟩ := (keyCall_sealed hbare.1 hbare.2 call env).fails
    exact ⟨e, he⟩

/-- Between a seal and the next successful unseal, the calls of the key store
fail, all of them, exactly when no tenant's KEK was in memory at the seal. -/
theorem sealed_calls_fail_iff (inner : SealInner) (db : Option KeyDb) (before after : List Op)
    (op : Op) (hop : Seals op)
    (hafter : Along (step p) (StaysSealed p)
      (run (step p) (withSeal inner db) (before ++ [op])) after) :
    (∀ call env, ∃ e, (step p (run (step p) (withSeal inner db) (before ++ [op] ++ after))
        (.keyCall call env)).2 = .error e) ↔
      ∀ tenantId, tenantId ∉ (run (step p) (withSeal inner db) before).tenantKeks := by
  have hrooted : (run (step p) (withSeal inner db) before).Rooted :=
    run_invariant (step p) Rooted (fun s op hs => (step_grows p s op).rooted hs)
      (rooted_withSeal inner db) before
  have hsealed : run (step p) (withSeal inner db) (before ++ [op]) =
      sealed (run (step p) (withSeal inner db) before) := by
    rw [run_concat, step_seals p hop]
  rw [run_append, hsealed]
  rw [hsealed] at hafter
  exact calls_fail_iff_of_rooted p hrooted hafter

/-- A vault that is opened and sealed again before a key is used hands out none,
though one is asked for before. -/
theorem sealed_before_use_fails :
    ∃ e, (step .transparent (run (step .transparent) (withSeal Seal.new none)
      ([.unsealWithRootKey (.repeated 32 1)] ++ [.sealRequest (some "token") (some "token")] ++
        [.keyCall (.currentDekForEncrypt "acme") (.repeated 2 .nil .max)]))
      (.keyCall (.getDek Uuid.max.toString "acme") .idle)).2 = .error e :=
  (sealed_calls_fail_iff .transparent Seal.new none [.unsealWithRootKey (.repeated 32 1)]
    [.keyCall (.currentDekForEncrypt "acme") (.repeated 2 .nil .max)]
    (.sealRequest (some "token") (some "token")) (by rintro _ ⟨⟩; exact .inr rfl)
    ⟨rfl, trivial⟩).mpr (fun tenantId => AList.notMem_empty tenantId)
    (.getDek Uuid.max.toString "acme") .idle

/-- A DEK used before the seal is handed out after it. -/
theorem sealed_vault_returns_dek :
    (step .transparent (run (step .transparent) (withSeal Seal.new none)
      [.unsealWithRootKey (.repeated 32 1),
        .keyCall (.currentDekForEncrypt "acme") (.repeated 2 .nil .max), .sealVault])
      (.keyCall (.getDek Uuid.max.toString "acme") .idle)).2 = .ok (.key (.repeated 32 2)) := by
  decide +kernel

end KekStore

end WslVault.CryptoService
