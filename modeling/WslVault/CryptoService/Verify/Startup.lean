import WslVault.CryptoService.Startup
import WslVault.CryptoService.Verify.Init
import WslVault.CryptoService.Verify.Seal

/-!
# A root key from the environment

A vault that was opened with a root key from the environment has no seal material.
`POST /v1/sys/init` asks only for material, not for a root key, and replaces the one under
which the tenants' keys are wrapped.
-/

namespace WslVault.CryptoService

open Base Core Storage KekStore

variable {aes : Aes256Gcm} {p : Primitives} {root : Key} {inner : SealInner}

/-- The store has no seal material, no root key but this one, and no KEK that is
wrapped under another. -/
structure Custody (aes : Aes256Gcm) (root : Key) (store : KekStore) : Prop where
  material : store.vaultSeal.material = none
  rootKey : ∀ key, store.vaultSeal.rootKey = some key → key = root
  keks : WrappedUnder aes root store.tenantKeks

theorem custody_withSeal (hmaterial : inner.material = none)
    (hroot : ∀ key, inner.rootKey = some key → key = root) (dbPool : Option KeyDb) :
    Custody aes root (withSeal inner dbPool) := by
  refine ⟨hmaterial, hroot, fun tenantId kek hkek => ?_⟩
  rw [withSeal, AList.lookup_empty] at hkek
  cases hkek

variable {s s' : KekStore} {op : Op}

theorem Custody.write (h : Custody aes root s) (hwrite : Write aes s s') : Custody aes root s' := by
  cases hwrite with
  | kek hnew hroot hwrap =>
    rw [h.rootKey _ hroot] at hwrap
    exact ⟨h.material, h.rootKey, h.keks.insert hwrap⟩
  | dek | use | install | insert | rotateOut => exact ⟨h.material, h.rootKey, h.keks⟩

theorem Custody.writes (h : Custody aes root s) (hwrites : Writes aes s s') :
    Custody aes root s' := by
  induction hwrites with
  | refl => exact h
  | tail _ hstep ih => exact ih.write hstep

theorem loadFromDb_custody (h : Custody aes root s) (kekFault dekFault : Option String) :
    Leaves (loadFromDb aes kekFault dekFault) s (Custody aes root) := by
  unfold loadFromDb
  simp only [outcome_bind, outcome_get]
  split
  · exact .pure h
  · simp only [outcome_bind, outcome_ofExcept, outcome_modify]
    refine ⟨fun key hkey => ⟨fun rows _ => ?_, fun _ _ => h⟩, fun _ _ => h⟩
    have hroot := h.rootKey key (rootKey_eq_ok hkey)
    subst hroot
    have hloaded := h.keks.loaded rows
    exact ⟨fun _ _ => ⟨h.material, h.rootKey, hloaded⟩, fun _ _ => ⟨h.material, h.rootKey, hloaded⟩⟩

theorem unsealHandler_custody (h : Custody p.aes root s) (key : String)
    (kekFault dekFault : Option String) :
    Leaves (Sys.unsealHandler p key kekFault dekFault) s fun s' => s' = s := by
  have hunseal : Outcome (Seal.unsealShare p key) s.vaultSeal (fun _ _ => False)
      (fun _ inner => inner = s.vaultSeal) := by
    rw [Seal.unsealShare, outcome_bind, outcome_get, h.material]
    exact .throw rfl
  unfold Sys.unsealHandler
  simp only [outcome_bind, outcome_get, outcome_tryCatch, outcome_pure, outcome_onSeal]
  refine hunseal.mono (fun _ _ h => h.elim) ?_
  rintro _ _ rfl
  rfl

/-- No request brings in another root key. -/
theorem step_custody (h : Custody p.aes root s) (hop : (∃ call env, op = .keyCall call env) ∨
      (∃ configured presented, op = .sealRequest configured presented) ∨
      ∃ key kekFault dekFault, op = .unsealRequest key kekFault dekFault) :
    Custody p.aes root (KekStore.step p s op).1 := by
  rcases hop with ⟨call, env, rfl⟩ | ⟨configured, presented, rfl⟩ | ⟨key, kekFault, dekFault, rfl⟩
  · exact ((keyCall_writes s call env).imp fun _ hw => h.writes hw).left
  · have hout : Leaves (Sys.sealHandler configured presented) s (Custody p.aes root) := by
      rw [Sys.sealHandler]
      split
      · exact .pure h
      · simp only [outcome_bind, outcome_modifySeal, outcome_get, outcome_pure]
        exact ⟨h.material, fun key hkey => (by cases hkey), h.keks⟩
    exact ((leaves_map _).mpr hout).left
  · have hout : Leaves (Sys.unsealHandler p key kekFault dekFault) s (Custody p.aes root) :=
      (unsealHandler_custody h key kekFault dekFault).imp fun _ heq => heq ▸ h
    exact ((leaves_map _).mpr hout).left

/-! ## The service -/

variable {vars : Vars}

section Start

variable (hvars : selectProvider vars = .ok (.ok root))

include hvars

theorem startSeal_custody {hasDatabase : Bool} {fault : Option String}
    (h : startSeal vars hasDatabase none fault = .ok inner) :
    inner = Seal.unsealWithRootKey Seal.new root := by
  unfold startSeal at h
  cases hasDatabase with
  | false =>
    simp only [Bool.false_eq_true, if_false, sealFromProvider, hvars] at h
    exact (Except.ok.inj h).symm
  | true =>
    cases fault with
    | some reason => cases h
    | none =>
      simp only [if_true, SealStore.load, Option.map_none, sealFromProvider, hvars] at h
      exact (Except.ok.inj h).symm

theorem startUp_custody {dbPool : Option KeyDb} {faults : StartFaults} {store : KekStore}
    (h : startUp aes vars dbPool none faults = .ok store) : Custody aes root store := by
  have hcustody : Custody aes root (withSeal (Seal.unsealWithRootKey Seal.new root) dbPool) :=
    custody_withSeal rfl (fun key hkey => (Option.some.inj hkey).symm) dbPool
  have hloaded := (loadFromDb_custody hcustody faults.keks faults.deks).left
  unfold startUp at h
  split at h
  · cases h
  · split at h
    · cases h
    · next inner hinner =>
      have heq := startSeal_custody hvars hinner
      subst heq
      split at h
      · split at h
        · cases h
        · next store' hload =>
          cases h
          rw [hload] at hloaded
          exact hloaded
      · cases h
        exact hcustody

end Start

namespace Service

structure Kept (p : Primitives) (root : Key) (s : Service) : Prop where
  vars : selectProvider s.vars = .ok (.ok root)
  config : s.config = none
  custody : Custody p.aes root s.store

def Admits (s : Service) (body : Option Sys.InitRequest) : Prop :=
  s.running = true ∧ s.store.dbPool.isSome = true ∧
    Seal.checkInit s.store.vaultSeal (body.getD Sys.defaultRequest).secretShares
      (body.getD Sys.defaultRequest).secretThreshold = .ok ()

/-- The request is none to initialise that is admitted. -/
def KeepsOut (s : Service) (request : Request) : Prop :=
  ∀ body drawn delivery, request = .initRequest body drawn delivery → ¬ s.Admits body

theorem initVault_of_not_admits {s : Service} {body : Option Sys.InitRequest}
    (h : ¬ s.Admits body) (drawn : Seal.InitDraw) (delivery : Delivery) :
    (s.initVault p body drawn delivery).1 = s := by
  unfold initVault
  by_cases hrunning : s.running = true
  · rw [if_pos hrunning]
    by_cases hdb : s.store.dbPool.isSome = true
    · have hcheck : ∃ e, Seal.checkInit s.store.vaultSeal
          (body.getD Sys.defaultRequest).secretShares
          (body.getD Sys.defaultRequest).secretThreshold = .error e := by
        cases hresult : Seal.checkInit s.store.vaultSeal
            (body.getD Sys.defaultRequest).secretShares
            (body.getD Sys.defaultRequest).secretThreshold with
        | error e => exact ⟨e, rfl⟩
        | ok => exact absurd ⟨hrunning, hdb, hresult⟩ h
      obtain ⟨e, he⟩ := hcheck
      simp only [Sys.initHandler, hdb, if_true, Seal.init, he, error_bind]
    · simp only [Sys.initHandler, hdb, Bool.false_eq_true, if_false]
  · rw [if_neg hrunning]

theorem Kept.serve {s : Service} (h : Kept p root s)
    (hop : Custody p.aes root (KekStore.step p s.store op).1) : Kept p root (s.serve p op).1 := by
  unfold Service.serve
  split
  · exact ⟨h.vars, h.config, hop⟩
  · exact h

theorem Kept.restart {s : Service} (h : Kept p root s) (faults : StartFaults) :
    Kept p root (s.restart p faults).1 := by
  unfold Service.restart
  split
  · next store hstart =>
    rw [h.config] at hstart
    exact ⟨h.vars, h.config, startUp_custody h.vars hstart⟩
  · exact ⟨h.vars, h.config, custody_withSeal rfl (fun key hkey => by cases hkey) _⟩

theorem kept_installed (hvars : selectProvider vars = .ok (.ok root))
    (dbPool : Option KeyDb) : Kept p root (installed vars dbPool) where
  vars := hvars
  config := rfl
  custody := custody_withSeal rfl (fun key hkey => by cases hkey) dbPool

theorem Kept.step {s : Service} (h : Kept p root s) {request : Request}
    (hrequest : s.KeepsOut request) : Kept p root (s.step p request).1 := by
  cases request with
  | keyCall call env => exact h.serve (step_custody h.custody (.inl ⟨call, env, rfl⟩))
  | sealRequest configured presented =>
    exact h.serve (step_custody h.custody (.inr (.inl ⟨configured, presented, rfl⟩)))
  | unsealRequest key kekFault dekFault =>
    exact h.serve (step_custody h.custody (.inr (.inr ⟨key, kekFault, dekFault, rfl⟩)))
  | initRequest body drawn delivery =>
    change Kept p root (s.initVault p body drawn delivery).1
    rw [initVault_of_not_admits (hrequest body drawn delivery rfl)]
    exact h
  | restart faults => exact h.restart faults

end Service

/-- A vault that takes its root key from the environment has no other root key, and
no tenant's KEK in memory that is wrapped under another, after any requests and
restarts among which no request to initialise is admitted. -/
theorem root_key_stays (p : Primitives) (root : Key) (vars : Vars) (dbPool : Option KeyDb)
    (hvars : selectProvider vars = .ok (.ok root)) (requests : List Service.Request)
    (hrequests : Along (Service.step p) Service.KeepsOut (.installed vars dbPool) requests) :
    (∀ key, Seal.rootKey (run (Service.step p) (.installed vars dbPool) requests).store.vaultSeal =
      .ok key → key = root) ∧
    ∀ tenantId kek,
      (run (Service.step p) (.installed vars dbPool) requests).store.tenantKeks.lookup tenantId =
        some kek →
      unwrapTenantKek p.aes root tenantId kek.wrappedKekB64 = some kek.rawKek := by
  have hkept := hrequests.invariant (Service.Kept p root) (fun s request hs hgood => hs.step hgood)
    (Service.kept_installed hvars dbPool)
  exact ⟨fun key hkey => hkept.custody.rootKey key (rootKey_eq_ok hkey), hkept.custody.keks⟩

def sampleVars : Vars where
  vaultRootKeyProvider := none
  vaultRootKey := some (Base64.encode (List.replicate 32 9))

def sampleService : Service := .installed sampleVars (some (.empty [.max]))

/-- The service starts, wraps a KEK, refuses to split its key into fewer shares than
are needed to open it, and starts again. -/
def refusedRequests : List Service.Request :=
  [.restart .none, .keyCall (.getOrCreateTenantKek Uuid.max.toString) (.repeated 2 .max .nil),
    .initRequest (some ⟨2, 3⟩) Seal.sampleDraw .answered, .sealRequest none none, .restart .none]

theorem root_key_stays_after_refusal :
    Seal.rootKey (run (Service.step .indexed) sampleService refusedRequests).store.vaultSeal =
        .ok (.repeated 32 9) ∧
      ∀ key, Seal.rootKey
        (run (Service.step .indexed) sampleService refusedRequests).store.vaultSeal = .ok key →
        key = .repeated 32 9 := by
  have hkeeps : Along (Service.step .indexed) Service.KeepsOut sampleService refusedRequests := by
    refine ⟨?_, ?_, ?_, ?_, ?_, trivial⟩
    all_goals
      rintro body drawn delivery hrequest
      cases hrequest
    rintro ⟨-, -, hcheck⟩
    exact absurd (Seal.checkInit_eq_ok hcheck).2.1 (by decide)
  refine ⟨by decide +kernel, ?_⟩
  exact (root_key_stays .indexed (.repeated 32 9) sampleVars (some (.empty [.max]))
    (by decide +kernel) refusedRequests hkeeps).1

def usedRequests : List Service.Request :=
  [.restart .none, .keyCall (.getOrCreateTenantKek Uuid.max.toString) (.repeated 2 .max .nil)]

/-- It is initialised, and opened with the share that it gave out. -/
def initRequests : List Service.Request :=
  [.initRequest (some ⟨1, 1⟩) Seal.sampleDraw .answered,
    .unsealRequest (Base64.encode (1 :: List.replicate 32 2)) none none]

/-- A vault opened with the key of the environment has another root key after it
was initialised, under which the tenant's KEK does not unwrap. -/
theorem init_replaces_root_key :
    ∃ kek, (run (Service.step .indexed) sampleService usedRequests).store.tenantKeks.lookup
        Uuid.max.toString = some kek ∧
      unwrapTenantKek Primitives.indexed.aes (.repeated 32 9) Uuid.max.toString kek.wrappedKekB64 =
        some kek.rawKek ∧
      Seal.rootKey (run (Service.step .indexed) sampleService
        (usedRequests ++ initRequests)).store.vaultSeal = .ok (.repeated 32 1) ∧
      unwrapTenantKek Primitives.indexed.aes (.repeated 32 1) Uuid.max.toString kek.wrappedKekB64 =
        none := by
  refine ⟨_, rfl, ?_, ?_, ?_⟩
  · decide +kernel
  · decide +kernel
  · decide +kernel

end WslVault.CryptoService
