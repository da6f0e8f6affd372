import WslVault.Base.Map
import WslVault.PolicyEngine.Service

/-!
# Policy stores by key

What the two stores hold of a tenant, and what the snapshot compiled from a store has of it.
PostgreSQL lists a tenant by its UUID, in whatever way a request spells it.
-/

namespace WslVault.PolicyEngine

open Core Base

inductive Backend where
  | memory
  | postgres
  deriving DecidableEq, Repr

variable {store : Store} {dbOk : Bool} {t name a : String} {doc : PolicyDocument} {k : PolicyKey}

namespace Backend

/-- The spelling of a tenant id under which a store of the backend lists it. -/
def tenantKey : Backend → String → String
  | memory, tenantId => tenantId
  | postgres, tenantId => ((Uuid.parseStr tenantId).map Uuid.toString).getD tenantId

def Same (backend : Backend) (a t : String) : Prop := backend.tenantKey t = backend.tenantKey a

instance (backend : Backend) (a t : String) : Decidable (backend.Same a t) :=
  inferInstanceAs (Decidable (_ = _))

def Reaches (backend : Backend) (dbOk : Bool) (t : String) : Prop :=
  match backend with
  | memory => True
  | postgres => dbOk = true ∧ (Uuid.parseStr t).isSome = true

instance (backend : Backend) (dbOk : Bool) (t : String) : Decidable (backend.Reaches dbOk t) :=
  match backend with
  | memory => inferInstanceAs (Decidable True)
  | postgres => inferInstanceAs (Decidable (_ ∧ _))

@[simp] theorem same_memory : memory.Same a t ↔ t = a := Iff.rfl

theorem same_postgres {u : Uuid} (ht : Uuid.parseStr t = some u) :
    postgres.Same a t ↔ Uuid.parseStr a = some u := by
  simp only [Same, tenantKey, ht, Option.map_some, Option.getD_some]
  cases ha : Uuid.parseStr a with
  | none =>
    -- a text that is no UUID is not the printed form of one
    simp only [Option.map_none, Option.getD_none, reduceCtorEq, iff_false]
    intro heq
    rw [← heq, Uuid.parseStr_toString] at ha
    cases ha
  | some v => simp [Uuid.toString_inj, eq_comm]

end Backend

/-! ## The policies of one tenant -/

namespace Store

def backend : Store → Backend
  | memory _ => .memory
  | postgres _ => .postgres

def tenantKey (store : Store) : String → String := store.backend.tenantKey

def Canonical (store : Store) (tenantId : String) : Prop := store.tenantKey tenantId = tenantId

def Lacks (store : Store) (k : PolicyKey) : Prop := store.getPolicy true k.tenantId k.name = none

def WellNamed : Store → Prop
  | memory policies => ∀ k doc, policies.lookup k = some doc → doc.name = k.name
  | postgres rows => ∀ k doc, rows.lookup k = some doc → doc.name = k.2

def Deletes (store : Store) (dbOk : Bool) : Prop :=
  match store with
  | memory _ => True
  | postgres _ => dbOk = true

@[simp] theorem backend_putPolicy (store : Store) (dbOk : Bool) (t : String)
    (doc : PolicyDocument) : (store.putPolicy dbOk t doc).backend = store.backend := by
  unfold putPolicy
  split
  · rfl
  · split
    · rfl
    · split <;> rfl

@[simp] theorem backend_deletePolicy (store : Store) (dbOk : Bool) (t name : String) :
    (store.deletePolicy dbOk t name).1.backend = store.backend := by
  unfold deletePolicy
  split
  · rfl
  · split
    · rfl
    · split <;> rfl

def policy (store : Store) (a name : String) : Option PolicyDocument := store.getPolicy true a name

theorem policy_putPolicy (store : Store) (dbOk : Bool) (t : String) (doc : PolicyDocument)
    (a name : String) : (store.putPolicy dbOk t doc).policy a name =
      if store.backend.Reaches dbOk t ∧ store.backend.Same a t ∧ name = doc.name then some doc
      else store.policy a name := by
  cases store with
  | memory policies =>
    simp only [policy, putPolicy, getPolicy, lookup_insert_eq, backend, Backend.Reaches,
      Backend.same_memory, true_and, PolicyKey.mk.injEq, eq_comm (a := t)]
  | postgres rows =>
    cases ht : Uuid.parseStr t with
    | none => simp [putPolicy, ht, backend, Backend.Reaches]
    | some u =>
      cases dbOk with
      | false => simp [putPolicy, ht, backend, Backend.Reaches]
      | true =>
        cases ha : Uuid.parseStr a with
        | none => simp [policy, putPolicy, getPolicy, ht, ha, backend, Backend.same_postgres ht]
        | some v =>
          simp [policy, putPolicy, getPolicy, ht, ha, backend, Backend.same_postgres ht,
            Backend.Reaches, lookup_insert_eq]

theorem policy_deletePolicy (store : Store) (dbOk : Bool) (t name a name' : String) :
    (store.deletePolicy dbOk t name).1.policy a name' =
      if store.backend.Reaches dbOk t ∧ store.backend.Same a t ∧ name' = name then none
      else store.policy a name' := by
  cases store with
  | memory policies =>
    simp only [policy, deletePolicy, getPolicy, lookup_erase_eq, backend, Backend.Reaches,
      Backend.same_memory, true_and, PolicyKey.mk.injEq, eq_comm (a := t)]
  | postgres rows =>
    cases ht : Uuid.parseStr t with
    | none => simp [deletePolicy, ht, backend, Backend.Reaches]
    | some u =>
      cases dbOk with
      | false => simp [deletePolicy, ht, backend, Backend.Reaches]
      | true =>
        cases ha : Uuid.parseStr a with
        | none =>
          simp [policy, deletePolicy, getPolicy, ht, ha, backend, Backend.same_postgres ht]
        | some v =>
          simp [policy, deletePolicy, getPolicy, ht, ha, backend, Backend.same_postgres ht,
            Backend.Reaches, lookup_erase_eq]

theorem deletePolicy_snd (store : Store) (dbOk : Bool) (t name : String) :
    (store.deletePolicy dbOk t name).2 =
      match store.backend with
      | .memory => store.policy t name
      | .postgres => none := by
  cases store with
  | memory policies => rfl
  | postgres rows =>
    simp only [deletePolicy, backend]
    split
    · rfl
    · split <;> rfl

theorem getPolicy_eq (store : Store) (dbOk : Bool) (t name : String) : store.getPolicy dbOk t name =
      if store.backend.Reaches dbOk t then store.policy t name else none := by
  cases store with
  | memory policies => simp [getPolicy, policy, backend, Backend.Reaches]
  | postgres rows =>
    cases ht : Uuid.parseStr t with
    | none => simp [getPolicy, ht, backend, Backend.Reaches]
    | some u => simp [getPolicy, policy, ht, backend, Backend.Reaches]

theorem policy_of_same (h : store.backend.Same a t) (name : String) :
    store.policy t name = store.policy a name := by
  cases store with
  | memory policies => rw [Backend.same_memory.mp h]
  | postgres rows =>
    cases ht : Uuid.parseStr t with
    | some u => simp [policy, getPolicy, ht, (Backend.same_postgres ht).mp h]
    | none =>
      cases ha : Uuid.parseStr a with
      | some v =>
        have := (Backend.same_postgres ha).mp h.symm
        rw [ht] at this
        cases this
      | none => simp [policy, getPolicy, ht, ha]

@[simp] theorem canonical_putPolicy {t' : String} :
    (store.putPolicy dbOk t doc).Canonical t' ↔ store.Canonical t' := by
  rw [Canonical, tenantKey, backend_putPolicy, Canonical, tenantKey]

@[simp] theorem canonical_deletePolicy {t' : String} :
    (store.deletePolicy dbOk t name).1.Canonical t' ↔ store.Canonical t' := by
  rw [Canonical, tenantKey, backend_deletePolicy, Canonical, tenantKey]

theorem Lacks.putPolicy (h : store.Lacks k) (hk : store.Canonical k.tenantId)
    (ht : store.Canonical t) (hne : k ≠ ⟨t, doc.name⟩) (dbOk : Bool) :
    (store.putPolicy dbOk t doc).Lacks k := by
  refine (policy_putPolicy store dbOk t doc k.tenantId k.name).trans ?_
  rw [if_neg]
  · exact h
  · rintro ⟨-, hsame, hname⟩
    -- two canonical spellings of one tenant are the same string
    have htenant : t = k.tenantId := ht.symm.trans (hsame.trans hk)
    exact hne (by rw [htenant, ← hname])

theorem lacks_deletePolicy_self (h : store.Deletes dbOk) (t name : String) :
    (store.deletePolicy dbOk t name).1.Lacks ⟨t, name⟩ := by
  cases store with
  | memory policies => exact AList.lookup_erase _ _
  | postgres rows =>
    have hok : dbOk = true := h
    subst hok
    cases hu : Uuid.parseStr t with
    | none => simp [Store.deletePolicy, Lacks, getPolicy, hu]
    | some u => simp [Store.deletePolicy, Lacks, getPolicy, hu]

theorem Lacks.deletePolicy (h : store.Lacks k) (dbOk : Bool) (t name : String) :
    (store.deletePolicy dbOk t name).1.Lacks k := by
  refine (policy_deletePolicy store dbOk t name k.tenantId k.name).trans ?_
  split
  · rfl
  · exact h

theorem wellNamed_empty : (memory ∅).WellNamed := fun _ _ h => by simp at h

theorem WellNamed.putPolicy (h : store.WellNamed) (dbOk : Bool) (t : String)
    (doc : PolicyDocument) : (store.putPolicy dbOk t doc).WellNamed := by
  cases store with
  | memory policies => exact forall_lookup_insert h rfl
  | postgres rows =>
    unfold Store.putPolicy
    cases Uuid.parseStr t with
    | none => exact h
    | some u =>
      cases dbOk with
      | false => exact h
      | true => exact forall_lookup_insert h rfl

theorem WellNamed.deletePolicy (h : store.WellNamed) (dbOk : Bool) (t name : String) :
    (store.deletePolicy dbOk t name).1.WellNamed := by
  cases store with
  | memory policies => exact fun k d hd => h k d (lookup_of_lookup_erase hd).2
  | postgres rows =>
    unfold Store.deletePolicy
    cases Uuid.parseStr t with
    | none => exact h
    | some u =>
      cases dbOk with
      | false => exact h
      | true => exact fun k d hd => h k d (lookup_of_lookup_erase hd).2

end Store

/-! ## Compiled policies of one tenant -/

theorem lookup_compile {docs : List (String × PolicyDocument)}
    (hkeys : ∀ d ∈ docs, ∀ d' ∈ docs, d.1 = d'.1 → d.2.name = d'.2.name → d = d')
    {k : PolicyKey} {rules : List PolicyRule} : (compile docs).lookup k = some rules ↔
      ∃ d ∈ docs, d.1 = k.tenantId ∧ d.2.name = k.name ∧ d.2.rules = rules := by
  unfold compile
  induction docs using List.reverseRecOn with
  | nil => simp
  | append_singleton docs d ih =>
    have hdocs : ∀ d ∈ docs, ∀ d' ∈ docs, d.1 = d'.1 → d.2.name = d'.2.name → d = d' :=
      fun x hx y hy => hkeys x (List.mem_append_left _ hx) y (List.mem_append_left _ hy)
    rw [List.foldl_append, List.foldl_cons, List.foldl_nil, CompiledPolicies.upsert,
      lookup_insert_eq]
    by_cases hk : k = ⟨d.1, d.2.name⟩
    · subst hk
      rw [if_pos rfl, Option.some.injEq]
      constructor
      · exact fun h => ⟨d, List.mem_append_right _ List.mem_cons_self, rfl, rfl, h⟩
      · rintro ⟨d', hd', htenant, hname, hrules⟩
        have hself : d ∈ docs ++ [d] := List.mem_append_right _ List.mem_cons_self
        rw [← hrules, hkeys d' hd' d hself htenant hname]
    · have hne : ¬ (d.1 = k.tenantId ∧ d.2.name = k.name) := by
        rintro ⟨htenant, hname⟩
        exact hk (by rw [htenant, hname])
      rw [if_neg hk, ih hdocs]
      constructor
      · rintro ⟨d', hd', h⟩
        exact ⟨d', List.mem_append_left _ hd', h⟩
      · rintro ⟨d', hd', htenant, hname, hrules⟩
        rcases List.mem_append.mp hd' with hd' | hd'
        · exact ⟨d', hd', htenant, hname, hrules⟩
        · rw [List.mem_singleton.mp hd'] at htenant hname
          exact absurd ⟨htenant, hname⟩ hne

theorem Store.mem_getAll_iff (h : store.WellNamed) {dbOk : Bool} {doc : PolicyDocument} :
    (t, doc) ∈ store.getAll dbOk ↔ store.backend.Reaches dbOk t ∧ store.backend.tenantKey t = t ∧
        store.policy t doc.name = some doc := by
  cases store with
  | memory policies =>
    simp only [getAll, List.mem_map, Prod.mk.injEq, backend, Backend.Reaches, Backend.tenantKey,
      policy, getPolicy, true_and]
    constructor
    · rintro ⟨e, he, rfl, rfl⟩
      have hk := AList.mem_lookup_iff.mpr he
      rw [h e.1 e.2 hk]
      exact hk
    · intro hk
      exact ⟨⟨⟨t, doc.name⟩, doc⟩, AList.mem_lookup_iff.mp hk, rfl, rfl⟩
  | postgres rows =>
    cases dbOk with
    | false => simp [getAll, backend, Backend.Reaches]
    | true =>
      simp only [getAll, if_true, List.mem_map, Prod.mk.injEq, backend, Backend.Reaches, true_and,
        Backend.tenantKey, policy, getPolicy]
      constructor
      · rintro ⟨⟨⟨u, name⟩, d⟩, he, rfl, rfl⟩
        have hk := AList.mem_lookup_iff.mpr he
        have hname : d.name = name := h (u, name) d hk
        simp only [Uuid.parseStr_toString, Option.isSome_some, Option.map_some, Option.getD_some,
          true_and]
        rw [hname]
        exact hk
      · rintro ⟨hparsed, hkey, hk⟩
        obtain ⟨u, hu⟩ := Option.isSome_iff_exists.mp hparsed
        rw [hu] at hkey hk
        exact ⟨⟨(u, doc.name), doc⟩, AList.mem_lookup_iff.mp hk, hkey, rfl⟩

theorem lookup_compile_getAll (h : store.WellNamed) (dbOk : Bool) (t name : String) :
    (compile (store.getAll dbOk)).lookup ⟨t, name⟩ =
      if store.backend.Reaches dbOk t ∧ store.backend.tenantKey t = t then
        (store.policy t name).map (·.rules)
      else none := by
  have hkeys : ∀ d ∈ store.getAll dbOk, ∀ d' ∈ store.getAll dbOk, d.1 = d'.1 →
      d.2.name = d'.2.name → d = d' := by
    rintro ⟨t, d⟩ hd ⟨t', d'⟩ hd' rfl hname
    have hp := ((Store.mem_getAll_iff h).mp hd).2.2
    have hp' := ((Store.mem_getAll_iff h).mp hd').2.2
    rw [show d.name = d'.name from hname, hp', Option.some.injEq] at hp
    rw [hp]
  ext rules
  rw [lookup_compile hkeys]
  constructor
  · rintro ⟨⟨t', d⟩, hd, rfl, rfl, rfl⟩
    obtain ⟨hreaches, hkey, hpolicy⟩ := (Store.mem_getAll_iff h).mp hd
    simp [hreaches, hkey, hpolicy]
  · intro hrules
    split at hrules
    · next hlisted =>
      obtain ⟨d, hd, rfl⟩ := Option.map_eq_some_iff.mp hrules
      -- the policy under a name has that name
      have hname : d.name = name := by
        cases store with
        | memory policies => exact h _ _ hd
        | postgres rows =>
          obtain ⟨u, hu⟩ := Option.isSome_iff_exists.mp hlisted.1.2
          simp only [Store.policy, Store.getPolicy, hu, if_true] at hd
          exact h _ _ hd
      subst hname
      exact ⟨(t, d), (Store.mem_getAll_iff h).mpr ⟨hlisted.1, hlisted.2, hd⟩, rfl, rfl, rfl⟩
    · cases hrules

theorem compile_getAll (h : store.WellNamed) (hk : (compile (store.getAll dbOk)).lookup k ≠ none) :
    store.Canonical k.tenantId ∧ ¬ store.Lacks k := by
  rw [lookup_compile_getAll h] at hk
  split at hk
  · next hlisted =>
    refine ⟨hlisted.2, fun hlacks => hk ?_⟩
    rw [show store.policy k.tenantId k.name = none from hlacks]
    rfl
  · exact absurd rfl hk

end WslVault.PolicyEngine
