import WslVault.Base.Coupled
import WslVault.PolicyEngine.Verify.Revocation

/-!
# A tenant's decisions come from its own policies

Two runs of the policy service, over two stores that have the same policies of one tenant
and any policies of the others. What the tenant sees of a service is its own policies, the
rules that the snapshots have under its name, and its own handlers in flight (`Seen`).
-/

namespace WslVault.PolicyEngine

open Core Base

variable {t : String} {store : Store} {compiled compiled' : CompiledPolicies}

theorem evaluate_congr {tenantId : String}
    (h : ∀ name, compiled.lookup ⟨tenantId, name⟩ = compiled'.lookup ⟨tenantId, name⟩)
    (policies : List String) (action resource : String) :
    evaluate compiled tenantId policies action resource =
      evaluate compiled' tenantId policies action resource := by
  have hscan : ∀ required (policies : List String) anyAllow,
      scanPolicies compiled tenantId required resource policies anyAllow =
        scanPolicies compiled' tenantId required resource policies anyAllow := by
    intro required policies
    induction policies with
    | nil => exact fun _ => rfl
    | cons name policies ih =>
      intro anyAllow
      simp only [scanPolicies, h name, ih]
  simp only [evaluate, hscan]

/-! ## What a tenant sees -/

/-- Handlers under these ids are the tenant's, and no others are. -/
def Event.Assigned (backend : Backend) (a : String) (mine : Nat → Bool) : Event → Prop
  | .put id _ t _ _ | .delete id _ t _ _ => mine id = true ↔ backend.Same a t
  | _ => True

def Event.visible (backend : Backend) (a : String) (mine : Nat → Bool) : Event → Bool
  | .put id _ _ _ _ | .delete id _ _ _ _ | .advance id _ => mine id
  | .compileRead _ | .compileSwap => true
  | .authorize _ t _ _ _ => decide (backend.Same a t)

section Seen

variable (backend : Backend) (a : String) (mine : Nat → Bool)

def SameRules (compiled compiled' : CompiledPolicies) : Prop :=
  ∀ t name, backend.Same a t → compiled.lookup ⟨t, name⟩ = compiled'.lookup ⟨t, name⟩

structure Seen (s s' : Service) : Prop where
  policies : ∀ name, s.store.policy a name = s'.store.policy a name
  compiled : SameRules backend a s.compiled s'.compiled
  building : s.building.isSome = s'.building.isSome
  built : ∀ snapshot snapshot', s.building = some snapshot → s'.building = some snapshot' →
    SameRules backend a snapshot snapshot'
  inFlight : ∀ id, mine id = true → s.inFlight.lookup id = s'.inFlight.lookup id

/-- The store is of the backend and well named, and handlers that are not the
tenant's are another tenant's. -/
structure Sound (s : Service) : Prop where
  backend_eq : s.store.backend = backend
  named : s.store.WellNamed
  others : ∀ id h, mine id = false → s.inFlight.lookup id = some h → ¬ backend.Same a h.tenantId

end Seen

variable {backend : Backend} {a : String} {mine : Nat → Bool} {s s' s'' : Service} {id : Nat}
  {e : Event}

namespace Seen

theorem refl (s : Service) : Seen backend a mine s s where
  policies _ := rfl
  compiled _ _ _ := rfl
  building := rfl
  built _ _ h h' := by
    rw [h, Option.some.injEq] at h'
    subst h'
    exact fun _ _ _ => rfl
  inFlight _ _ := rfl

theorem symm (h : Seen backend a mine s s') : Seen backend a mine s' s where
  policies name := (h.policies name).symm
  compiled t name ht := (h.compiled t name ht).symm
  building := h.building.symm
  built snapshot snapshot' hs hs' t name ht := (h.built snapshot' snapshot hs' hs t name ht).symm
  inFlight id hid := (h.inFlight id hid).symm

theorem trans (h : Seen backend a mine s s') (h' : Seen backend a mine s' s'') :
    Seen backend a mine s s'' where
  policies name := (h.policies name).trans (h'.policies name)
  compiled t name ht := (h.compiled t name ht).trans (h'.compiled t name ht)
  building := h.building.trans h'.building
  built snapshot snapshot'' hs hs'' t name ht := by
    obtain ⟨snapshot', hs'⟩ : ∃ snapshot', s'.building = some snapshot' := by
      rw [← Option.isSome_iff_exists, ← h.building, hs]
      rfl
    exact (h.built _ _ hs hs' t name ht).trans (h'.built _ _ hs' hs'' t name ht)
  inFlight id hid := (h.inFlight id hid).trans (h'.inFlight id hid)

end Seen

theorem SameRules.upsert
    (h : SameRules backend a compiled compiled') (t name : String) (rules : List PolicyRule) :
    SameRules backend a (compiled.upsert t name rules) (compiled'.upsert t name rules) := by
  intro t' name' ht
  rw [CompiledPolicies.upsert, CompiledPolicies.upsert, lookup_insert_eq, lookup_insert_eq,
    h t' name' ht]

theorem SameRules.remove (h : SameRules backend a compiled compiled') (t name : String) :
    SameRules backend a (compiled.remove t name) (compiled'.remove t name) := by
  intro t' name' ht
  rw [CompiledPolicies.remove, CompiledPolicies.remove, lookup_erase_eq, lookup_erase_eq,
    h t' name' ht]

section Steps

variable (h : Seen backend a mine s s') (hs : Sound backend a mine s)
  (hs' : Sound backend a mine s')

include h hs hs'

namespace Seen

theorem policy_eq (ht : backend.Same a t) (name : String) :
    s.store.policy t name = s'.store.policy t name :=
  calc s.store.policy t name = s.store.policy a name :=
        Store.policy_of_same (hs.backend_eq.symm ▸ ht) name
    _ = s'.store.policy a name := h.policies name
    _ = s'.store.policy t name :=
        (Store.policy_of_same (hs'.backend_eq.symm ▸ ht) name).symm

variable (dbOk : Bool)

theorem compile :
    SameRules backend a (compile (s.store.getAll dbOk)) (compile (s'.store.getAll dbOk)) := by
  intro t name ht
  rw [lookup_compile_getAll hs.named, lookup_compile_getAll hs'.named, hs.backend_eq,
    hs'.backend_eq, h.policy_eq hs hs' ht]

theorem deletePolicy (t name name' : String) : (s.store.deletePolicy dbOk t name).1.policy a name' =
      (s'.store.deletePolicy dbOk t name).1.policy a name' := by
  rw [Store.policy_deletePolicy, Store.policy_deletePolicy, hs.backend_eq, hs'.backend_eq,
    h.policies]

omit hs hs' in
theorem inFlight_insert (id : Nat) (hd : Handler) (id' : Nat) (hid : mine id' = true) :
    (s.inFlight.insert id hd).lookup id' = (s'.inFlight.insert id hd).lookup id' := by
  rw [lookup_insert_eq, lookup_insert_eq, h.inFlight id' hid]

omit hs hs' in
theorem inFlight_erase (id : Nat) (id' : Nat) (hid : mine id' = true) :
    (s.inFlight.erase id).lookup id' = (s'.inFlight.erase id).lookup id' := by
  rw [lookup_erase_eq, lookup_erase_eq, h.inFlight id' hid]

/-! ### The tenant's steps and the compilation task -/

theorem put (id : Nat) (api : Api) (t : String) (doc : PolicyDocument) (dbOk : Bool) :
    (s.put id api t doc dbOk).2 = (s'.put id api t doc dbOk).2 ∧
      Seen backend a mine (s.put id api t doc dbOk).1 (s'.put id api t doc dbOk).1 := by
  unfold Service.put
  split
  · exact ⟨rfl, h⟩
  · exact ⟨rfl, fun name => by rw [Store.policy_putPolicy, Store.policy_putPolicy, hs.backend_eq,
      hs'.backend_eq, h.policies], h.compiled, h.building, h.built,
      h.inFlight_insert id _⟩

theorem deleteHttp (id : Nat) (ht : backend.Same a t) (name : String) (dbOk : Bool) :
    (s.deleteHttp id t name dbOk).2 = (s'.deleteHttp id t name dbOk).2 ∧
      Seen backend a mine (s.deleteHttp id t name dbOk).1 (s'.deleteHttp id t name dbOk).1 := by
  -- both stores return the removed document, or neither does
  have hsnd : (s.store.deletePolicy dbOk t name).2 = (s'.store.deletePolicy dbOk t name).2 := by
    rw [Store.deletePolicy_snd, Store.deletePolicy_snd, hs.backend_eq, hs'.backend_eq,
      h.policy_eq hs hs' ht]
  have hfst := h.deletePolicy hs hs' dbOk t name
  unfold Service.deleteHttp
  revert hsnd hfst
  rcases s.store.deletePolicy dbOk t name with ⟨store, removed⟩
  rcases s'.store.deletePolicy dbOk t name with ⟨store', removed'⟩
  rintro rfl hfst
  cases removed with
  | none => exact ⟨rfl, hfst, h.compiled, h.building, h.built, h.inFlight⟩
  | some doc => exact ⟨rfl, hfst, h.compiled, h.building, h.built, h.inFlight_insert id _⟩

theorem deleteGrpc (id : Nat) (ht : backend.Same a t) (name : String) (dbOk : Bool) :
    (s.deleteGrpc id t name dbOk).2 = (s'.deleteGrpc id t name dbOk).2 ∧
      Seen backend a mine (s.deleteGrpc id t name dbOk).1 (s'.deleteGrpc id t name dbOk).1 := by
  have hget : s.store.getPolicy dbOk t name = s'.store.getPolicy dbOk t name := by
    rw [Store.getPolicy_eq, Store.getPolicy_eq, hs.backend_eq, hs'.backend_eq,
      h.policy_eq hs hs' ht]
  unfold Service.deleteGrpc
  rw [hget]
  split
  · exact ⟨rfl, h⟩
  · split
    · exact ⟨rfl, h⟩
    · exact ⟨rfl, h.policies, h.compiled, h.building, h.built, h.inFlight_insert id _⟩

theorem advance (hid : mine id = true) (dbOk : Bool) :
    (s.advance id dbOk).2 = (s'.advance id dbOk).2 ∧
      Seen backend a mine (s.advance id dbOk).1 (s'.advance id dbOk).1 := by
  unfold Service.advance
  rw [← h.inFlight id hid]
  split
  · exact ⟨rfl, h⟩
  · exact ⟨rfl, h.policies, h.compiled.upsert _ _ _, h.building, h.built, h.inFlight_erase id⟩
  · exact ⟨rfl, h.deletePolicy hs hs' dbOk _ _, h.compiled, h.building, h.built,
      h.inFlight_insert id _⟩
  · exact ⟨rfl, h.policies, h.compiled.remove _ _, h.building, h.built, h.inFlight_erase id⟩

omit hs hs' in
theorem building_cases : (s.building = none ∧ s'.building = none) ∨
    ∃ b b', s.building = some b ∧ s'.building = some b' := by
  have hbuilding := h.building
  cases hb : s.building with
  | none => exact .inl ⟨rfl, by simpa [hb] using hbuilding⟩
  | some b =>
    obtain ⟨b', hb'⟩ : ∃ b', s'.building = some b' := by
      simpa [hb, Option.isSome_iff_exists] using hbuilding
    exact .inr ⟨b, b', rfl, hb'⟩

theorem compileRead : (s.step (.compileRead dbOk)).2 = (s'.step (.compileRead dbOk)).2 ∧
      Seen backend a mine (s.step (.compileRead dbOk)).1 (s'.step (.compileRead dbOk)).1 := by
  rcases h.building_cases with ⟨hb, hb'⟩ | ⟨b, b', hb, hb'⟩ <;> simp only [Service.step, hb, hb']
  · refine ⟨trivial, h.policies, h.compiled, rfl, ?_, h.inFlight⟩
    rintro _ _ ⟨⟩ ⟨⟩
    exact h.compile hs hs' dbOk
  · exact ⟨trivial, h⟩

omit hs hs' in
theorem compileSwap : (s.step .compileSwap).2 = (s'.step .compileSwap).2 ∧
      Seen backend a mine (s.step .compileSwap).1 (s'.step .compileSwap).1 := by
  rcases h.building_cases with ⟨hb, hb'⟩ | ⟨b, b', hb, hb'⟩ <;> simp only [Service.step, hb, hb']
  · exact ⟨trivial, h⟩
  · exact ⟨trivial, h.policies, h.built _ _ hb hb', rfl, (fun _ _ hb => by cases hb), h.inFlight⟩

omit hs hs' in
theorem authorize (api : Api) (ht : backend.Same a t) (policies : List String)
    (action resource : String) :
    s.authorize api t policies action resource = s'.authorize api t policies action resource := by
  unfold Service.authorize
  rw [evaluate_congr fun name => h.compiled t name ht]

theorem step (he : e.Assigned backend a mine) (hvisible : e.visible backend a mine = true) :
    (s.step e).2 = (s'.step e).2 ∧ Seen backend a mine (s.step e).1 (s'.step e).1 := by
  cases e with
  | put id api t doc dbOk =>
    simp only [Service.step, ← h.inFlight id hvisible]
    split
    · exact ⟨rfl, h⟩
    · exact h.put hs hs' id api t doc dbOk
  | delete id api t name dbOk =>
    have ht : backend.Same a t := he.mp hvisible
    simp only [Service.step, ← h.inFlight id hvisible]
    split
    · exact ⟨rfl, h⟩
    · cases api with
      | http => exact h.deleteHttp hs hs' id ht name dbOk
      | grpc => exact h.deleteGrpc hs hs' id ht name dbOk
  | advance id dbOk => exact h.advance hs hs' hvisible dbOk
  | compileRead dbOk => exact h.compileRead hs hs' dbOk
  | compileSwap => exact h.compileSwap
  | authorize api t policies action resource =>
    exact ⟨h.authorize api (of_decide_eq_true hvisible) policies action resource, h⟩

end Seen

end Steps

/-! ### Other tenants' steps -/

namespace Sound

variable (hs : Sound backend a mine s)

include hs

theorem policy_deletePolicy (ht : ¬ backend.Same a t) (dbOk : Bool) (name name' : String) :
    s.store.policy a name' = (s.store.deletePolicy dbOk t name).1.policy a name' := by
  rw [Store.policy_deletePolicy, hs.backend_eq, if_neg fun h => ht h.2.1]

omit hs in
theorem lookup_insert (hid : mine id = false) (hd : Handler) (id' : Nat)
    (hid' : mine id' = true) : s.inFlight.lookup id' = (s.inFlight.insert id hd).lookup id' := by
  rw [lookup_insert_eq, if_neg]
  rintro rfl
  exact absurd hid' (by rw [hid]; exact Bool.false_ne_true)

omit hs in
theorem lookup_erase (hid : mine id = false) (id' : Nat) (hid' : mine id' = true) :
    s.inFlight.lookup id' = (s.inFlight.erase id).lookup id' := by
  rw [lookup_erase_eq, if_neg]
  rintro rfl
  exact absurd hid' (by rw [hid]; exact Bool.false_ne_true)

/-- A request of another tenant changes nothing that this one sees. -/
theorem seen_step (he : e.Assigned backend a mine)
    (hhidden : e.visible backend a mine = false) : Seen backend a mine s (s.step e).1 := by
  have hrefl : Seen backend a mine s s := Seen.refl s
  cases e with
  | put id api t doc dbOk =>
    have ht : ¬ backend.Same a t := fun ht => by simp [Event.visible, he.mpr ht] at hhidden
    simp only [Service.step, Service.put]
    split
    · exact hrefl
    · split
      · exact hrefl
      · exact ⟨fun name => by
          rw [Store.policy_putPolicy, hs.backend_eq, if_neg fun h => ht h.2.1],
          hrefl.compiled, hrefl.building, hrefl.built, lookup_insert hhidden _⟩
  | delete id api t name dbOk =>
    have ht : ¬ backend.Same a t := fun ht => by simp [Event.visible, he.mpr ht] at hhidden
    have hpolicy := hs.policy_deletePolicy ht dbOk name
    simp only [Service.step]
    split
    · exact hrefl
    · cases api with
      | http =>
        simp only [Service.deleteHttp]
        split
        · next store _ hdel =>
          rw [hdel] at hpolicy
          exact ⟨hpolicy, hrefl.compiled, hrefl.building, hrefl.built, lookup_insert hhidden _⟩
        · next store hdel =>
          rw [hdel] at hpolicy
          exact ⟨hpolicy, hrefl.compiled, hrefl.building, hrefl.built, hrefl.inFlight⟩
      | grpc =>
        simp only [Service.deleteGrpc]
        split
        · exact hrefl
        · split
          · exact hrefl
          · exact ⟨hrefl.policies, hrefl.compiled, hrefl.building, hrefl.built,
              lookup_insert hhidden _⟩
  | advance id dbOk =>
    simp only [Service.step, Service.advance]
    cases hid : s.inFlight.lookup id with
    | none => exact hrefl
    | some hd =>
      have ht := hs.others id hd hhidden hid
      cases hd with
      | putting t doc =>
        refine ⟨hrefl.policies, fun t' name ht' => ?_, hrefl.building, hrefl.built,
          lookup_erase hhidden⟩
        change _ = (s.compiled.upsert t doc.name doc.rules).lookup _
        rw [CompiledPolicies.upsert, lookup_insert_eq, if_neg]
        rintro ⟨⟩
        exact ht ht'
      | deleting t name =>
        exact ⟨hs.policy_deletePolicy ht dbOk name, hrefl.compiled, hrefl.building, hrefl.built,
          lookup_insert hhidden _⟩
      | evicting t name =>
        refine ⟨hrefl.policies, fun t' name' ht' => ?_, hrefl.building, hrefl.built,
          lookup_erase hhidden⟩
        change _ = (s.compiled.remove t name).lookup _
        rw [CompiledPolicies.remove, lookup_erase_eq, if_neg]
        rintro ⟨⟩
        exact ht ht'
  | compileRead dbOk => cases hhidden
  | compileSwap => cases hhidden
  | authorize => exact hrefl

theorem others_insert {hd : Handler}
    (hd' : mine id = false → ¬ backend.Same a hd.tenantId) (id' : Nat) (h' : Handler)
    (hid' : mine id' = false) (hlookup : (s.inFlight.insert id hd).lookup id' = some h') :
    ¬ backend.Same a h'.tenantId := by
  obtain ⟨rfl, rfl⟩ | ⟨-, hlookup⟩ := lookup_insert_cases hlookup
  · exact hd' hid'
  · exact hs.others id' h' hid' hlookup

theorem step (he : e.Assigned backend a mine) : Sound backend a mine (s.step e).1 := by
  cases e with
  | put id api t doc dbOk =>
    have hother : mine id = false → ¬ backend.Same a t := fun hid ht => by
      simp [he.mpr ht] at hid
    simp only [Service.step, Service.put]
    split
    · exact hs
    · split
      · exact hs
      · exact ⟨(Store.backend_putPolicy ..).trans hs.backend_eq, hs.named.putPolicy dbOk t doc,
          hs.others_insert hother⟩
  | delete id api t name dbOk =>
    have hother : mine id = false → ¬ backend.Same a t := fun hid ht => by
      simp [he.mpr ht] at hid
    have hbackend := (Store.backend_deletePolicy s.store dbOk t name).trans hs.backend_eq
    have hnamed := hs.named.deletePolicy dbOk t name
    simp only [Service.step]
    split
    · exact hs
    · cases api with
      | http =>
        simp only [Service.deleteHttp]
        split
        · next store _ hdel =>
          rw [hdel] at hbackend hnamed
          exact ⟨hbackend, hnamed, hs.others_insert hother⟩
        · next store hdel =>
          rw [hdel] at hbackend hnamed
          exact ⟨hbackend, hnamed, hs.others⟩
      | grpc =>
        simp only [Service.deleteGrpc]
        split
        · exact hs
        · split
          · exact hs
          · exact ⟨hs.backend_eq, hs.named, hs.others_insert hother⟩
  | advance id dbOk =>
    simp only [Service.step, Service.advance]
    cases hid : s.inFlight.lookup id with
    | none => exact hs
    | some hd =>
      have hother : mine id = false → ¬ backend.Same a hd.tenantId :=
        fun hmine => hs.others id hd hmine hid
      cases hd with
      | deleting t name =>
        exact ⟨(Store.backend_deletePolicy ..).trans hs.backend_eq,
          hs.named.deletePolicy dbOk t name, hs.others_insert hother⟩
      | putting | evicting => exact ⟨hs.backend_eq, hs.named, fun id' h' hid' hl =>
          hs.others id' h' hid' (lookup_of_lookup_erase hl).2⟩
  | compileRead | compileSwap =>
    simp only [Service.step]
    split
    · exact hs
    · exact ⟨hs.backend_eq, hs.named, hs.others⟩
  | authorize => exact hs

end Sound

theorem sound_start (hnamed : store.WellNamed) (dbOk : Bool) :
    Sound store.backend a mine (Service.start store dbOk) :=
  ⟨rfl, hnamed, fun _ _ _ h => by simp [Service.start] at h⟩

theorem seen_start {store' : Store} (hnamed : store.WellNamed) (hnamed' : store'.WellNamed)
    (hbackend : store.backend = store'.backend)
    (hpolicies : ∀ name, store.policy a name = store'.policy a name) (dbOk : Bool) :
    Seen store.backend a mine (Service.start store dbOk) (Service.start store' dbOk) where
  policies := hpolicies
  compiled t name ht := by
    have hpolicy : store.policy t name = store'.policy t name :=
      calc store.policy t name = store.policy a name := Store.policy_of_same ht name
        _ = store'.policy a name := hpolicies name
        _ = store'.policy t name := (Store.policy_of_same (hbackend ▸ ht) name).symm
    simp only [Service.start]
    rw [lookup_compile_getAll hnamed, lookup_compile_getAll hnamed', hpolicy, hbackend]
  building := rfl
  built _ _ h := by cases h
  inFlight _ _ := rfl

/-- **Policy isolation.** Two services start from stores that have the same
policies of tenant `a` and otherwise any. In the two runs the calls of `a` and
the steps of the compilation task are the same, in the same order; other
tenants' calls are any, in each run its own. Every call of `a`, and so every
decision for it, gets the same reply. -/
theorem decisions_isolated {store store' : Store} (hnamed : store.WellNamed)
    (hnamed' : store'.WellNamed) (hbackend : store.backend = store'.backend)
    (hpolicies : ∀ name, store.policy a name = store'.policy a name) (dbOk : Bool)
    {es es' : List Event} (hes : ∀ e ∈ es, e.Assigned store.backend a mine)
    (hes' : ∀ e ∈ es', e.Assigned store.backend a mine)
    (hsame : es.filter (Event.visible store.backend a mine) =
      es'.filter (Event.visible store.backend a mine)) :
    (trace Service.step (Service.start store dbOk) es).filter
        (Event.visible store.backend a mine ·.1) =
      (trace Service.step (Service.start store' dbOk) es').filter
        (Event.visible store.backend a mine ·.1) := by
  -- what the two runs keep: they look the same to `a`, and each is sound
  let R : Service → Service → Prop := fun s s' =>
    Seen store.backend a mine s s' ∧ Sound store.backend a mine s ∧ Sound store.backend a mine s'
  have hstart : R (Service.start store dbOk) (Service.start store' dbOk) :=
    ⟨seen_start hnamed hnamed' hbackend hpolicies dbOk, sound_start hnamed dbOk,
      hbackend ▸ sound_start hnamed' dbOk⟩
  refine (Along.unwinding (Event.visible store.backend a mine) R ?_ ?_ ?_ hstart
    (along_of_forall Service.step hes) (along_of_forall Service.step hes') hsame).1
  · rintro s s' e ⟨h, hs, hs'⟩ hvisible he -
    obtain ⟨hreply, hnext⟩ := h.step hs hs' he hvisible
    exact ⟨hreply, hnext, hs.step he, hs'.step he⟩
  · rintro s s' e ⟨h, hs, hs'⟩ hhidden he
    exact ⟨(hs.seen_step he hhidden).symm.trans h, hs.step he, hs'⟩
  · rintro s s' e ⟨h, hs, hs'⟩ hhidden he
    exact ⟨h.trans (hs'.seen_step he hhidden), hs, hs'.step he⟩

def closedPolicy : PolicyDocument := ⟨"reader", [⟨["**"], {.deny}⟩]⟩

/-- Tenant `a` reads by its policy `reader`, while tenant `b` has, writes and
deletes a policy of that name. -/
theorem decisions_isolated_from_same_name :
    (trace Service.step (Service.start (.memory (AList.insert ⟨"a", "reader"⟩ readerPolicy ∅)) true)
        [.authorize .grpc "a" ["reader"] "read" "secret/db"]).filter
        (Event.visible .memory "a" (fun _ => false) ·.1) =
      (trace Service.step
        (Service.start (.memory (AList.insert ⟨"b", "reader"⟩ closedPolicy
          (AList.insert ⟨"a", "reader"⟩ readerPolicy ∅))) true)
        [.put 1 .http "b" closedPolicy true, .advance 1 true,
          .delete 2 .http "b" "reader" true,
          .authorize .grpc "a" ["reader"] "read" "secret/db"]).filter
        (Event.visible .memory "a" (fun _ => false) ·.1) := by
  have hnamed : (Store.memory (AList.insert ⟨"a", "reader"⟩ readerPolicy ∅)).WellNamed :=
    Store.wellNamed_empty.putPolicy true "a" readerPolicy
  have hnamed' := hnamed.putPolicy true "b" closedPolicy
  refine decisions_isolated hnamed hnamed' rfl (fun name => ?_) true ?_ ?_ rfl
  · rw [Store.policy_putPolicy, if_neg (by simp [Store.backend])]
  · simp [Event.Assigned]
  · simp [Event.Assigned, Store.backend]

end WslVault.PolicyEngine
