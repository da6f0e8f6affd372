import WslVault.CryptoService.Verify.Seal

/-!
# Whose keys a call touches

A call writes under its own tenant (`OwnWrite`), as long as it names no key of another. The
entry of a key id and the row of that id name one tenant (`Consistent`), for which a key of
that id was made (`Traced`). A tenant may be spelled in several ways (`SameTenant`).
-/

namespace WslVault.CryptoService

open Base Core Storage Storage.KeyStore KekStore

variable {aes : Aes256Gcm}

variable {env : Env} {keyId : String} {call : KeyCall} {entry : DekEntry} {op : Op}

namespace KekStore

/-- All DEKs are read in when the keys are loaded. -/
def Fits (s : KekStore) : Prop :=
  ∀ db ∈ s.dbPool,
    (db.descriptors.select fun r => r.purpose = .dataEncryption && r.loadable).length ≤
      warmLoadDekLimit

instance (s : KekStore) : Decidable s.Fits := by
  unfold Fits
  infer_instance

/-- New keys get new ids, calls name keys of their own tenant, and no DEK is left
out when the keys are loaded. -/
def Discreet (s : KekStore) : Op → Prop
  | .keyCall call env =>
    (s.Free env.kek.id ∧ s.Free env.dek.id ∧ env.kek.id ≠ env.dek.id) ∧ s.NamesOwn env call
  | .loadFromDb _ _ | .unsealRequest _ _ _ => s.Fits
  | _ => True

instance (s : KekStore) (op : Op) : Decidable (s.Discreet op) := by
  cases op <;> unfold Discreet <;> infer_instance

variable {s s' : KekStore} {tenantId : String} {drawn : List Uuid}

theorem keyCall_own (h : s.Discreet (.keyCall call env)) :
    Leaves (call.exec aes env) s (OwnWrites call.tenantId (call.draws env) s) :=
  (keyCall_makes fun h => h).imp fun _ hmakes => hmakes.owned h

/-- The entries and the row of a key id name one tenant. -/
structure Consistent (s : KekStore) : Prop where
  row : ∀ db, s.dbPool = some db → ∀ r ∈ db.descriptors, ∀ keyId entry,
    s.deks.lookup keyId = some entry → Uuid.parseStr keyId = some r.id →
      ∃ u, r.tenantId = some u ∧ Uuid.parseStr entry.tenantId = some u
  twin : ∀ keyId keyId' entry entry' id, s.deks.lookup keyId = some entry →
    s.deks.lookup keyId' = some entry' → Uuid.parseStr keyId = some id →
      Uuid.parseStr keyId' = some id → SameTenant entry.tenantId entry'.tenantId

theorem consistent_withSeal (inner : SealInner) (db : Option KeyDb) :
    (withSeal inner db).Consistent := by
  refine ⟨fun _ _ r _ keyId entry hentry => ?_, fun keyId _ entry _ _ hentry => ?_⟩
  · rw [withSeal, AList.lookup_empty] at hentry
    cases hentry
  · rw [withSeal, AList.lookup_empty] at hentry
    cases hentry

theorem Consistent.cacheDek (h : s.Consistent)
    (hrow : ∀ db, s.dbPool = some db → ∀ r ∈ db.descriptors, Uuid.parseStr keyId = some r.id →
      ∃ u, r.tenantId = some u ∧ Uuid.parseStr entry.tenantId = some u)
    (htwin : ∀ keyId' entry' id, s.deks.lookup keyId' = some entry' →
      Uuid.parseStr keyId = some id → Uuid.parseStr keyId' = some id →
        SameTenant entry.tenantId entry'.tenantId) : (s.cacheDek keyId entry).Consistent := by
  refine ⟨fun db hdb r hr => forall_lookup_insert (h.row db hdb r hr) (hrow db hdb r hr),
    fun k k' e e' id he he' hk hk' => ?_⟩
  obtain ⟨rfl, rfl⟩ | ⟨-, hold⟩ := lookup_insert_cases he
  · obtain ⟨-, rfl⟩ | ⟨-, he'⟩ := lookup_insert_cases he'
    · exact .refl _
    · exact htwin k' e' id he' hk hk'
  · obtain ⟨rfl, rfl⟩ | ⟨-, he'⟩ := lookup_insert_cases he'
    · exact (htwin k e id hold hk' hk).symm
    · exact h.twin k k' e e' id hold he' hk hk'

theorem OwnWrite.consistent
    (h : OwnWrite tenantId drawn s s') (hs : s.Consistent) : s'.Consistent := by
  cases h with
  | kek | current => exact ⟨hs.row, hs.twin⟩
  | @newDek id entry hid hfree ht =>
    refine hs.cacheDek (fun db hdb r hr hparse => ?_) fun keyId' entry' id' he' hk hk' => ?_
    · rw [Uuid.parseStr_toString, Option.some.injEq] at hparse
      exact absurd hparse.symm (hfree.1 db hdb r hr)
    · rw [Uuid.parseStr_toString] at hk
      exact absurd (hk'.trans hk.symm) (hfree.2 ⟨keyId', entry'⟩ (AList.mem_lookup_iff.mp he'))
  | rotate hold hsame ht =>
    refine hs.cacheDek (fun db hdb r hr hparse => ?_) fun keyId' entry' id he' hk hk' => ?_
    · rw [hsame]
      exact hs.row db hdb r hr _ _ hold hparse
    · rw [hsame]
      exact hs.twin _ _ _ _ id hold he' hk hk'
  | @hydrate db r keyId entry u hdb hr hid hu hentry hnone ht =>
    have hparse : Uuid.parseStr entry.tenantId = some u := by rw [hentry, Uuid.parseStr_toString]
    refine hs.cacheDek (fun db' hdb' r' hr' hid' => ?_) fun keyId' entry' id he' hk hk' => ?_
    · obtain rfl : db = db' := Option.some.inj (hdb.symm.trans hdb')
      obtain rfl : r' = r := Table.eq_of_key hr' hr (Option.some.inj (hid'.symm.trans hid))
      exact ⟨u, hu, hparse⟩
    · obtain rfl : id = r.id := Option.some.inj (hk.symm.trans hid)
      obtain ⟨u', hu', hparse'⟩ := hs.row db hdb r hr keyId' entry' he' hk'
      obtain rfl : u = u' := Option.some.inj (hu.symm.trans hu')
      exact .of_parse hparse hparse'
  | @insert db db' r u hdb hins hu ht hid =>
    refine ⟨?_, hs.twin⟩
    rintro _ ⟨⟩ r' hr' k e he hk
    rcases (KeyDb.mem_of_insertRow hins).mp hr' with hr' | rfl
    · exact hs.row db hdb r' hr' k e he hk
    · refine ⟨u, hu, ?_⟩
      rcases hid with ⟨-, hnone⟩ | ⟨k', e', he', hk', hsame⟩
      · exact absurd hk (hnone ⟨k, e⟩ (AList.mem_lookup_iff.mp he))
      · exact (hsame.trans (hs.twin k' k e' e _ he' he hk' hk)).parse ht
  | @mark db id keyId entry hdb hentry hid ht =>
    refine ⟨?_, hs.twin⟩
    rintro _ ⟨⟩ r' hr' k e he hk
    obtain ⟨r, hr, hrid, hrtenant⟩ := KeyDb.of_mem_setState hr'
    rw [hrid] at hk
    rw [hrtenant]
    exact hs.row db hdb r hr k e he hk

theorem OwnWrites.consistent
    (h : OwnWrites tenantId drawn s s') (hs : s.Consistent) : s'.Consistent := by
  induction h with
  | refl => exact hs
  | tail _ hwrite ih => exact hwrite.consistent ih

/-- The entry that a row is read in as: a further version of the one there is, or the
first of the row's tenant. -/
def ReadIn (s : KekStore) (r : KeyRow) (entry : DekEntry) : Prop :=
  (∃ old, s.deks.lookup r.id.toString = some old ∧ entry.tenantId = old.tenantId) ∨
    (s.deks.lookup r.id.toString = none ∧ ∃ u, r.tenantId = some u ∧ entry.tenantId = u.toString)

theorem loadDek_cases (root : Key) (keks : AList (fun _ : String => TenantKekEntry))
    (s : KekStore) (r : KeyRow) : loadDek aes root keks s.deks (entryOf r) = s.deks ∨
      ∃ entry, loadDek aes root keks s.deks (entryOf r) = (s.cacheDek r.id.toString entry).deks ∧
        s.ReadIn r entry := by
  unfold loadDek
  split
  · exact .inl rfl
  · next t ht =>
    obtain ⟨u, hu, rfl⟩ := Option.map_eq_some_iff.mp ht
    split
    · exact .inl rfl
    · split
      · exact .inl rfl
      · split
        · next old hold => exact .inr ⟨_, rfl, .inl ⟨old, hold, rfl⟩⟩
        · next hnone => exact .inr ⟨_, rfl, .inr ⟨hnone, u, hu, rfl⟩⟩

/-- What loading keeps: a fact that says nothing of the KEKs and that reading in a
row keeps. -/
theorem loadFromDb_keeps {P : KekStore → Prop}
    (hkeks : ∀ s keks, P s → P { s with tenantKeks := keks })
    (hdek : ∀ s db r entry, P s → s.dbPool = some db → r ∈ db.descriptors → s.ReadIn r entry →
      P (s.cacheDek r.id.toString entry))
    (hs : P s) (kekFault dekFault : Option String) :
    Outcome (loadFromDb aes kekFault dekFault) s (fun _ => P) (fun _ => P) := by
  -- the rows are read in one after another
  have hfold : ∀ (root : Key) (keks : AList (fun _ : String => TenantKekEntry))
      (rows : List PersistedKeyEntry) (s : KekStore) (db : KeyDb), P s → s.dbPool = some db →
      (∀ row ∈ rows, ∃ r ∈ db.descriptors, entryOf r = row) →
      P { s with deks := rows.foldl (loadDek aes root keks) s.deks } := by
    intro root keks rows
    induction rows with
    | nil => exact fun s db hs _ _ => hs
    | cons row rows ih =>
      intro s db hs hdb hrows
      obtain ⟨r, hr, rfl⟩ := hrows row List.mem_cons_self
      have hrest : ∀ row ∈ rows, ∃ r ∈ db.descriptors, entryOf r = row :=
        fun row hrow => hrows row (List.mem_cons_of_mem _ hrow)
      rw [List.foldl_cons]
      rcases loadDek_cases root keks s r with heq | ⟨entry, heq, hread⟩
      · rw [heq]
        exact ih s db hs hdb hrest
      · rw [heq]
        exact ih (s.cacheDek r.id.toString entry) db (hdek s db r entry hs hdb hr hread) hdb hrest
  unfold loadFromDb
  simp only [outcome_bind, outcome_get]
  split
  · exact .pure hs
  · next db hdb =>
    simp only [outcome_bind, outcome_ofExcept, outcome_modify]
    refine ⟨fun root _ => ⟨fun rows _ => ⟨fun dekRows hdekRows => ?_, fun _ _ => hkeks s _ hs⟩,
      fun _ _ => hs⟩, fun _ _ => hs⟩
    refine hfold root _ dekRows
      { s with tenantKeks := rows.foldl (loadTenantKek aes root) s.tenantKeks } db
      (hkeks s _ hs) hdb
      fun row hrow => ?_
    obtain ⟨r, hr, -, heq⟩ := (listRecentLoadableKeys_spec hdekRows).2 row hrow
    exact ⟨r, hr, heq⟩

theorem ReadIn.own {r : KeyRow} (h : s.ReadIn r entry)
    (hs : s.Consistent) {db : KeyDb} (hdb : s.dbPool = some db) (hr : r ∈ db.descriptors) :
    ∃ u, r.tenantId = some u ∧ OwnWrite u.toString [] s (s.cacheDek r.id.toString entry) := by
  rcases h with ⟨old, hold, hsame⟩ | ⟨hnone, u, hu, hentry⟩
  · obtain ⟨u, hu, hparse⟩ := hs.row db hdb r hr _ old hold (Uuid.parseStr_toString r.id)
    exact ⟨u, hu, .rotate hold hsame (.of_parse (Uuid.parseStr_toString u) hparse)⟩
  · exact ⟨u, hu, .hydrate hdb hr (Uuid.parseStr_toString r.id) hu hentry hnone
      (Uuid.parseStr_toString u)⟩

theorem exec_consistent (p : Primitives) (hs : s.Consistent)
    (hop : s.Discreet op) : Outcome (op.exec p) s (fun _ => Consistent) (fun _ => Consistent) := by
  by_cases hcall : ∃ call env, op = .keyCall call env
  · obtain ⟨call, env, rfl⟩ := hcall
    exact (keyCall_own hop).imp fun _ h => h.consistent hs
  · refine exec_of_seal p (fun _ _ h => ⟨h.row, h.twin⟩) (fun _ kekFault dekFault h => ?_)
      (fun call env h => hcall ⟨call, env, h⟩) hs
    refine loadFromDb_keeps (fun _ _ h => ⟨h.row, h.twin⟩)
      (fun _ _ _ _ h hdb hr hread => ?_) h kekFault dekFault
    obtain ⟨u, -, hwrite⟩ := hread.own h hdb hr
    exact hwrite.consistent h

end KekStore

/-! ## For whom a key was made -/

/-- A key of the id was made for the tenant: its row was there from the start, or a
call for the tenant has drawn the id. -/
def MadeFor (start : Option KeyDb) (ops : List Op) (tenantId : String) (id : Uuid) : Prop :=
  (∃ db, start = some db ∧ ∃ r ∈ db.descriptors, r.id = id ∧ ∃ u, r.tenantId = some u ∧
    Uuid.parseStr tenantId = some u) ∨
  ∃ call env, .keyCall call env ∈ ops ∧ id ∈ call.draws env ∧ SameTenant tenantId call.tenantId

variable {ops ops' : List Op} {id : Uuid}

theorem MadeFor.mono {start : Option KeyDb} {tenantId : String}
    (h : MadeFor start ops tenantId id) (hops : ∀ op ∈ ops, op ∈ ops') :
    MadeFor start ops' tenantId id := by
  rcases h with h | ⟨call, env, hop, hid, hsame⟩
  · exact .inl h
  · exact .inr ⟨call, env, hops _ hop, hid, hsame⟩

theorem MadeFor.same {start : Option KeyDb} {t t' : String}
    (h : MadeFor start ops t id) (hsame : SameTenant t t') : MadeFor start ops t' id := by
  rcases h with ⟨db, hdb, r, hr, hid, u, hu, ht⟩ | ⟨call, env, hop, hid, ht⟩
  · exact .inl ⟨db, hdb, r, hr, hid, u, hu, hsame.parse ht⟩
  · exact .inr ⟨call, env, hop, hid, hsame.symm.trans ht⟩

/-- Whatever carries a tenant was made for it. -/
structure Traced (start : Option KeyDb) (ops : List Op) (s : KekStore) : Prop where
  dek : ∀ keyId entry, s.deks.lookup keyId = some entry →
    ∃ id, Uuid.parseStr keyId = some id ∧ MadeFor start ops entry.tenantId id
  row : ∀ db, s.dbPool = some db → ∀ r ∈ db.descriptors, ∀ u, r.tenantId = some u →
    MadeFor start ops u.toString r.id

namespace Traced

variable {start : Option KeyDb} {ops : List Op} {s s' : KekStore}

theorem withSeal (inner : SealInner) (db : Option KeyDb) : Traced db [] (withSeal inner db) := by
  refine ⟨fun keyId entry hentry => ?_, fun db' hdb r hr u hu => ?_⟩
  · rw [KekStore.withSeal, AList.lookup_empty] at hentry
    cases hentry
  · exact .inl ⟨db', hdb, r, hr, rfl, u, hu, Uuid.parseStr_toString u⟩

section

variable (h : Traced start ops s)

include h

theorem mono (hops : ∀ op ∈ ops, op ∈ ops') : Traced start ops' s := by
  refine ⟨fun keyId entry hentry => ?_, fun db hdb r hr u hu => ?_⟩
  · obtain ⟨id, hid, hmade⟩ := h.dek keyId entry hentry
    exact ⟨id, hid, hmade.mono hops⟩
  · exact (h.row db hdb r hr u hu).mono hops

theorem cacheDek
    (hid : Uuid.parseStr keyId = some id) (hmade : MadeFor start ops entry.tenantId id) :
    Traced start ops (s.cacheDek keyId entry) :=
  ⟨forall_lookup_insert h.dek ⟨id, hid, hmade⟩, h.row⟩

theorem write
    (hop : .keyCall call env ∈ ops) (hwrite : OwnWrite call.tenantId (call.draws env) s s') :
    Traced start ops s' := by
  have hdrew {id : Uuid} (hid : id ∈ call.draws env) : MadeFor start ops call.tenantId id :=
    .inr ⟨call, env, hop, hid, .refl _⟩
  cases hwrite with
  | kek | current => exact ⟨h.dek, h.row⟩
  | newDek hid hfree ht => exact h.cacheDek (Uuid.parseStr_toString _) ((hdrew hid).same ht)
  | rotate hold hsame ht =>
    obtain ⟨id, hid, hmade⟩ := h.dek _ _ hold
    exact h.cacheDek hid (hsame ▸ hmade)
  | hydrate hdb hr hid hu hentry hnone ht =>
    exact h.cacheDek hid (hentry ▸ h.row _ hdb _ hr _ hu)
  | @insert db db' r u hdb hins hu ht hid =>
    refine ⟨h.dek, ?_⟩
    rintro _ ⟨⟩ r' hr' u' hu'
    rcases (KeyDb.mem_of_insertRow hins).mp hr' with hr' | rfl
    · exact h.row db hdb r' hr' u' hu'
    · obtain rfl : u = u' := Option.some.inj (hu.symm.trans hu')
      have hsame : SameTenant call.tenantId u.toString := .of_parse ht (Uuid.parseStr_toString u)
      rcases hid with ⟨hid, -⟩ | ⟨keyId, entry, hentry, hkeyId, hown⟩
      · exact (hdrew hid).same hsame
      · obtain ⟨id, hid, hmade⟩ := h.dek keyId entry hentry
        obtain rfl : id = r'.id := Option.some.inj (hid.symm.trans hkeyId)
        exact hmade.same (hown.symm.trans hsame)
  | @mark db id keyId entry hdb hentry hid ht =>
    refine ⟨h.dek, ?_⟩
    rintro _ ⟨⟩ r' hr' u hu
    obtain ⟨r, hr, hrid, hrtenant⟩ := KeyDb.of_mem_setState hr'
    rw [hrtenant] at hu
    rw [hrid]
    exact h.row db hdb r hr u hu

theorem writes
    (hop : .keyCall call env ∈ ops) (hwrites : OwnWrites call.tenantId (call.draws env) s s') :
    Traced start ops s' := by
  induction hwrites with
  | refl => exact h
  | tail _ hwrite ih => exact ih.write hop hwrite

end

theorem exec (p : Primitives) (h : Traced start ops s) (hop : op ∈ ops)
    (hdiscreet : s.Discreet op) :
    Outcome (op.exec p) s (fun _ => Traced start ops) (fun _ => Traced start ops) := by
  by_cases hcall : ∃ call env, op = .keyCall call env
  · obtain ⟨call, env, rfl⟩ := hcall
    exact (keyCall_own hdiscreet).imp fun _ hw => h.writes hop hw
  · refine exec_of_seal p (fun _ _ h => ⟨h.dek, h.row⟩) (fun _ kekFault dekFault h => ?_)
      (fun call env h => hcall ⟨call, env, h⟩) h
    refine loadFromDb_keeps (fun _ _ h => ⟨h.dek, h.row⟩) (fun s' db r entry h hdb hr hread => ?_) h
      kekFault dekFault
    rcases hread with ⟨old, hold, hsame⟩ | ⟨-, u, hu, hentry⟩
    · obtain ⟨id, hid, hmade⟩ := h.dek _ _ hold
      exact h.cacheDek hid (hsame ▸ hmade)
    · exact h.cacheDek (Uuid.parseStr_toString r.id) (hentry ▸ h.row db hdb r hr u hu)

end Traced

theorem run_owned (p : Primitives) (inner : SealInner) (db : Option KeyDb)
    (h : Along (KekStore.step p) Discreet (withSeal inner db) ops) :
    (run (KekStore.step p) (withSeal inner db) ops).Consistent ∧
      Traced db ops (run (KekStore.step p) (withSeal inner db) ops) := by
  have hrun := h.history (fun served s => s.Consistent ∧ Traced db (served.map Prod.fst) s)
    (fun served s op hs hop => ?_) ⟨consistent_withSeal inner db, .withSeal inner db⟩
  · rw [map_fst_trace] at hrun
    exact hrun
  · rw [List.map_append]
    have htraced := hs.2.mono fun op' h => List.mem_append_left [op] h
    exact ⟨(exec_consistent p hs.1 hop).left,
      (htraced.exec p (List.mem_append_right _ List.mem_cons_self) hop).left⟩

end WslVault.CryptoService
