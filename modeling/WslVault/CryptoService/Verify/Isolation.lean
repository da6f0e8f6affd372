import WslVault.CryptoService.Verify.Agreement

/-!
# Tenant isolation of keys

Two runs in which a tenant and the operator do the same answer them alike, whatever the other
tenants do (`run_agree`), and a key that was not made for the tenant is not handed to it
(`step_strange`).
-/

namespace WslVault.CryptoService

open Base Core Storage Storage.KeyStore KekStore

variable {aes : Aes256Gcm} {tenantId keyId : String} {s : KekStore}

namespace KekStore

/-! ## Loading -/

section Loading

variable {root : Key} {keks keks' : AList (fun _ : String => TenantKekEntry)}

def KeksAgree (tenantId : String) (keks keks' : AList (fun _ : String => TenantKekEntry)) : Prop :=
  ∀ t, SameTenant tenantId t → keks'.lookup t = keks.lookup t

theorem loadTenantKek_foreign {r : KeyRow} (hof : KeyDb.isOf tenantId r = false) :
    KeksAgree tenantId keks (loadTenantKek aes root keks (entryOf r)) := by
  intro t ht
  rw [lookup_loadTenantKek, if_neg]
  intro hrow
  obtain ⟨u, hu, rfl⟩ := Option.map_eq_some_iff.mp hrow
  rw [KeyDb.isOf_eq_true.mpr ⟨u, hu, ht.symm.parse (Uuid.parseStr_toString u)⟩] at hof
  cases hof

variable {db db' : KeyDb} {rows rows' : List PersistedKeyEntry}
  (hread : ReadAlike tenantId db db' rows rows')

include hread

theorem loadTenantKeks_agree (h : KeksAgree tenantId keks keks') :
    KeksAgree tenantId (rows.foldl (loadTenantKek aes root) keks)
      (rows'.foldl (loadTenantKek aes root) keks') := by
  refine foldl_unwinding (ofTenant tenantId) (KeksAgree tenantId) ?_ ?_ ?_ h hread.mem hread.mem'
    hread.own
  · intro k k' row hk _ _ _ t ht
    rw [lookup_loadTenantKek, lookup_loadTenantKek, hk t ht]
  · rintro k k' _ hk hhidden ⟨r, -, rfl⟩ t ht
    rw [ofTenant_entryOf] at hhidden
    rw [hk t ht, loadTenantKek_foreign hhidden t ht]
  · rintro k k' _ hk hhidden ⟨r, -, rfl⟩ t ht
    rw [ofTenant_entryOf] at hhidden
    rw [loadTenantKek_foreign hhidden t ht, hk t ht]

omit hread

variable {s s' : KekStore} {r : KeyRow}

theorem loadDek_consistent (hs : s.Consistent) (hdb : s.dbPool = some db)
    (hr : r ∈ db.descriptors) :
    ({ s with deks := loadDek aes root keks s.deks (entryOf r) } : KekStore).Consistent := by
  rcases loadDek_cases root keks s r with heq | ⟨entry, heq, hread⟩
  · rw [heq]
    exact hs
  · rw [heq]
    obtain ⟨u, -, hwrite⟩ := hread.own hs hdb hr
    exact hwrite.consistent hs

theorem loadDek_foreign (hs : s.Consistent) (hdb : s.dbPool = some db) (hr : r ∈ db.descriptors)
    (hof : KeyDb.isOf tenantId r = false) :
    Agree tenantId s { s with deks := loadDek aes root keks s.deks (entryOf r) } := by
  rcases loadDek_cases root keks s r with heq | ⟨entry, heq, hread⟩
  · rw [heq]
    exact .refl s
  · rw [heq]
    obtain ⟨u, hu, hwrite⟩ := hread.own hs hdb hr
    refine hwrite.agree hs fun hsame => ?_
    rw [KeyDb.isOf_eq_true.mpr ⟨u, hu, hsame.symm.parse (Uuid.parseStr_toString u)⟩] at hof
    cases hof

theorem loadDek_agree (h : Agree tenantId s s') (hs : s.Consistent) (hs' : s'.Consistent)
    (hdb : s.dbPool = some db) (hdb' : s'.dbPool = some db') (hr : r ∈ db.descriptors)
    (hr' : r ∈ db'.descriptors) (hof : KeyDb.isOf tenantId r = true)
    (hkeks : KeksAgree tenantId keks keks') :
    Agree tenantId { s with deks := loadDek aes root keks s.deks (entryOf r) }
      { s' with deks := loadDek aes root keks' s'.deks (entryOf r) } := by
  obtain ⟨u, hu, hparse⟩ := KeyDb.isOf_eq_true.mp hof
  have hkek : keks'.lookup u.toString = keks.lookup u.toString :=
    hkeks _ (.of_parse hparse (Uuid.parseStr_toString u))
  -- what is there under the id is the tenant's
  have hown {v : KekStore} {d : KeyDb} (hv : v.Consistent) (hd : v.dbPool = some d)
      (hrd : r ∈ d.descriptors) :
      ∀ e ∈ v.deks.lookup r.id.toString, SameTenant tenantId e.tenantId := by
    intro e he
    obtain ⟨u', hu', hparse'⟩ := hv.row d hd r hrd _ e he (Uuid.parseStr_toString r.id)
    obtain rfl : u = u' := Option.some.inj (hu.symm.trans hu')
    exact .of_parse hparse hparse'
  have hdek : s'.deks.lookup (entryOf r).keyId = s.deks.lookup (entryOf r).keyId :=
    h.lookup_eq (hown hs hdb hr) (hown hs' hdb' hr')
  have htenant : (entryOf r).tenantId = some u.toString := by rw [entryOf, hu]; rfl
  simp only [loadDek, htenant, hkek, hdek]
  cases keks.lookup u.toString with
  | none => exact h
  | some kek =>
    dsimp only
    split
    · exact h
    · split
      · exact h.cacheDek _ _
      · exact h.cacheDek _ _

include hread in
theorem loadDeks_agree (hkeks : KeksAgree tenantId keks keks') (h : Agree tenantId s s')
    (hs : s.Consistent) (hs' : s'.Consistent) (hdb : s.dbPool = some db)
    (hdb' : s'.dbPool = some db') (hagree : KeyDb.Agree tenantId db db') :
    Agree tenantId { s with deks := rows.foldl (loadDek aes root keks) s.deks }
      { s' with deks := rows'.foldl (loadDek aes root keks') s'.deks } := by
  refine (foldl_unwinding (ofTenant tenantId)
    (fun d d' => Agree tenantId { s with deks := d } { s' with deks := d' } ∧
      ({ s with deks := d } : KekStore).Consistent ∧ ({ s' with deks := d' } : KekStore).Consistent)
    ?_ ?_ ?_ ⟨h, hs, hs'⟩ hread.mem hread.mem' hread.own).1
  · rintro d d' _ ⟨hd, hc, hc'⟩ hshown ⟨r, hr, rfl⟩ -
    rw [ofTenant_entryOf] at hshown
    have hr' := hagree.mem hr hshown
    exact ⟨loadDek_agree hd hc hc' hdb hdb' hr hr' hshown hkeks, loadDek_consistent hc hdb hr,
      loadDek_consistent hc' hdb' hr'⟩
  · rintro d d' _ ⟨hd, hc, hc'⟩ hhidden ⟨r, hr, rfl⟩
    rw [ofTenant_entryOf] at hhidden
    exact ⟨(loadDek_foreign hc hdb hr hhidden).symm.trans hd, loadDek_consistent hc hdb hr, hc'⟩
  · rintro d d' _ ⟨hd, hc, hc'⟩ hhidden ⟨r, hr, rfl⟩
    rw [ofTenant_entryOf] at hhidden
    exact ⟨hd.trans (loadDek_foreign hc' hdb' hr hhidden), hc, loadDek_consistent hc' hdb' hr⟩

theorem Fits.whole (h : s.Fits) (hdb : s.dbPool = some db) :
    Whole db .dataEncryption (some warmLoadDekLimit) :=
  fun _ hn => Option.some.inj hn ▸ h db hdb

theorem fetchAll_coupled {β : Type} {R : KekStore → KekStore → Prop}
    {Q : β → KekStore → KekStore → Prop} {f g : List PersistedKeyEntry → StoreM β} (h : R s s')
    (fault : Option String) (hnext : Coupled R (f rows) (g rows') s s' Q) :
    Coupled R (MonadExcept.ofExcept (fetchAll fault rows) >>= f)
      (MonadExcept.ofExcept (fetchAll fault rows') >>= g) s s' Q := by
  cases fault with
  | some reason => exact .bind (coupled_throw h)
  | none => exact hnext

theorem loadFromDb_coupled (h : Agree tenantId s s') (hs : s.Consistent) (hs' : s'.Consistent)
    (hfits : s.Fits) (hfits' : s'.Fits) (kekFault dekFault : Option String) :
    Alike (Agree tenantId) (loadFromDb aes kekFault dekFault) s s' := by
  unfold loadFromDb
  refine coupled_get_bind ?_
  rcases h.db_cases with ⟨hdb, hdb'⟩ | ⟨db, db', hdb, hdb', hagree⟩
  · rw [hdb, hdb']
    exact coupled_pure h
  · rw [hdb, hdb', h.vaultSeal]
    refine .bind (coupled_ofExcept (fun root _ => ?_) fun _ _ => h)
    unfold listActiveKeysWithWrappedKey
    obtain ⟨kekRows, kekRows', he, he', hread⟩ := agree_listRecentLoadableKeys hagree kekFault
      (whole_none db .tenantKek) (whole_none db' .tenantKek)
    rw [he, he']
    have hkeks : KeksAgree tenantId (kekRows.foldl (loadTenantKek aes root) s.tenantKeks)
        (kekRows'.foldl (loadTenantKek aes root) s'.tenantKeks) := loadTenantKeks_agree hread h.keks
    have h₁ : Agree tenantId
        { s with tenantKeks := kekRows.foldl (loadTenantKek aes root) s.tenantKeks }
        { s' with tenantKeks := kekRows'.foldl (loadTenantKek aes root) s'.tenantKeks } :=
      ⟨h.vaultSeal, hkeks, h.deks, h.currentDek, h.db⟩
    refine fetchAll_coupled h kekFault (.bind (coupled_modify ?_))
    obtain ⟨dekRows, dekRows', he, he', hread⟩ := agree_listRecentLoadableKeys hagree dekFault
      (hfits.whole hdb) (hfits'.whole hdb')
    rw [he, he']
    exact fetchAll_coupled h₁ dekFault (coupled_modify (loadDeks_agree hread hkeks h₁
      ⟨hs.row, hs.twin⟩ ⟨hs'.row, hs'.twin⟩ hdb hdb' hagree))

end Loading

/-! ## The seal -/

section Seal

variable {s s' : KekStore} {α : Type} (m : EStateM VaultError SealInner α)

theorem onSeal_coupled (h : Agree tenantId s s') :
    Coupled (Agree tenantId) (onSeal m) (onSeal m) s s' fun _ v v' =>
      ∃ inner, v = { s with vaultSeal := inner } ∧ v' = { s' with vaultSeal := inner } := by
  have hs : (onSeal m).run s = onSeal m s := rfl
  have hs' : (onSeal m).run s' = onSeal m s' := rfl
  rw [onSeal] at hs hs'
  rw [h.vaultSeal] at hs'
  cases hm : m.run s.vaultSeal with
  | ok a inner =>
    rw [hm] at hs hs'
    exact .ok hs hs' ⟨inner, rfl, rfl⟩
  | error e inner =>
    rw [hm] at hs hs'
    exact .error hs hs' (h.setSeal inner)

theorem onSeal_agree (h : Agree tenantId s s') : Alike (Agree tenantId) (onSeal m) s s' := by
  refine (onSeal_coupled m h).mono ?_
  rintro _ _ _ ⟨inner, rfl, rfl⟩
  exact h.setSeal inner

theorem modifySeal_coupled (f : SealInner → SealInner) (h : Agree tenantId s s') :
    Alike (Agree tenantId) (modifySeal f) s s' := by
  refine coupled_modify ?_
  rw [h.vaultSeal]
  exact h.setSeal _

theorem sealHandler_coupled (configured presented : Option String) (h : Agree tenantId s s') :
    Alike (Agree tenantId) (Sys.sealHandler configured presented) s s' := by
  unfold Sys.sealHandler
  split
  · exact coupled_pure h
  · refine .bind ((modifySeal_coupled _ h).mono fun _ v v' hv => coupled_get_bind ?_)
    rw [hv.vaultSeal]
    exact coupled_pure hv

theorem unsealHandler_coupled (p : Primitives) (key : String) (kekFault dekFault : Option String)
    (h : Agree tenantId s s') (hs : s.Consistent) (hs' : s'.Consistent) (hfits : s.Fits)
    (hfits' : s'.Fits) : Alike (Agree tenantId) (Sys.unsealHandler p key kekFault dekFault) s s' :=
      by
  unfold Sys.unsealHandler
  refine coupled_get_bind ?_
  rw [h.vaultSeal]
  refine .tryCatch (.bind ((onSeal_coupled _ h).mono ?_)) fun e v v' hv => coupled_pure hv
  rintro status _ _ ⟨inner, rfl, rfl⟩
  have hinner := h.setSeal inner
  split
  · refine .tryCatch (.bind ((loadFromDb_coupled hinner ⟨hs.row, hs.twin⟩ ⟨hs'.row, hs'.twin⟩ hfits
      hfits' kekFault dekFault).mono fun _ v v' hv => coupled_pure hv)) fun e v v' hv =>
        coupled_pure hv
  · exact coupled_pure hinner

end Seal

/-- The operations that count for the tenant: its own calls, and those of the operator. -/
def visible (tenantId : String) : Op → Bool
  | .keyCall call _ => SameTenant tenantId call.tenantId
  | _ => true

variable (p : Primitives) (inner : SealInner)

theorem exec_coupled {s' : KekStore} (h : Agree tenantId s s')
    (hs : s.Consistent) (hs' : s'.Consistent) {op : Op} (hvisible : visible tenantId op = true)
    (hop : s.Discreet op) (hop' : s'.Discreet op) : Alike (Agree tenantId) (op.exec p) s s' := by
  cases op with
  | keyCall call env => exact keyCall_coupled h hs hs' (of_decide_eq_true hvisible) hop hop'
  | loadFromDb kekFault dekFault =>
    exact .bind ((loadFromDb_coupled h hs hs' hop hop' kekFault dekFault).mono
      fun _ _ _ hv => coupled_pure hv)
  | load | unsealWithRootKey | sealVault | resetUnsealProgress =>
    exact .bind ((modifySeal_coupled _ h).mono fun _ _ _ hv => coupled_pure hv)
  | init | unsealShare => exact onSeal_agree _ h
  | sealRequest configured presented => exact .map _ (sealHandler_coupled configured presented h)
  | unsealRequest key kekFault dekFault =>
    exact .map _ (unsealHandler_coupled p key kekFault dekFault h hs hs' hop hop')

/-- What is not visible to the tenant changes nothing it can see. -/
theorem agree_step_hidden (hs : s.Consistent) {op : Op}
    (hhidden : visible tenantId op = false) (hop : s.Discreet op) :
    Agree tenantId s (KekStore.step p s op).1 := by
  cases op with
  | keyCall call env =>
    have hother : ¬ SameTenant tenantId call.tenantId := of_decide_eq_false hhidden
    have hwrites : OwnWrites call.tenantId (call.draws env) s
        (KekStore.step p s (.keyCall call env)).1 :=
      Outcome.left (m := call.exec p.aes env) (keyCall_own hop)
    exact hwrites.agree hs hother
  | _ => cases hhidden

/-- Whatever is done for other tenants, a tenant is answered the same. -/
theorem run_agree {db db' : Option KeyDb}
    (hdb : Option.Rel (KeyDb.Agree tenantId) db db') {ops ops' : List Op}
    (h : Along (KekStore.step p) Discreet (withSeal inner db) ops)
    (h' : Along (KekStore.step p) Discreet (withSeal inner db') ops')
    (heq : ops.filter (visible tenantId) = ops'.filter (visible tenantId)) :
    (trace (KekStore.step p) (withSeal inner db) ops).filter (visible tenantId ·.1) =
        (trace (KekStore.step p) (withSeal inner db') ops').filter (visible tenantId ·.1) ∧
      Agree tenantId (run (KekStore.step p) (withSeal inner db) ops)
        (run (KekStore.step p) (withSeal inner db') ops') := by
  have hnext {s : KekStore} {op : Op} (hs : s.Consistent) (hop : s.Discreet op) :
      (KekStore.step p s op).1.Consistent := (exec_consistent p hs hop).left
  have hstart : Agree tenantId (withSeal inner db) (withSeal inner db') :=
    ⟨rfl, fun _ _ => rfl, fun _ => rfl, fun _ _ => rfl, hdb⟩
  have hrun := Along.unwinding (visible tenantId)
    (fun s s' => Agree tenantId s s' ∧ s.Consistent ∧ s'.Consistent) ?_ ?_ ?_
    ⟨hstart, consistent_withSeal inner db, consistent_withSeal inner db'⟩ h h' heq
  · exact ⟨hrun.1, hrun.2.1⟩
  · rintro s s' op ⟨hagree, hs, hs'⟩ hshown hop hop'
    obtain ⟨hreply, hleft⟩ := (exec_coupled p hagree hs hs' hshown hop hop').perform
    exact ⟨hreply, hleft, hnext hs hop, hnext hs' hop'⟩
  · rintro s s' op ⟨hagree, hs, hs'⟩ hhidden hop
    exact ⟨(agree_step_hidden p hs hhidden hop).symm.trans hagree, hnext hs hop, hs'⟩
  · rintro s s' op ⟨hagree, hs, hs'⟩ hhidden hop'
    exact ⟨hagree.trans (agree_step_hidden p hs' hhidden hop'), hs, hnext hs' hop'⟩

theorem getDekMetadata_of_ne (h : ∀ entry ∈ s.deks.lookup keyId, entry.tenantId ≠ tenantId) :
    getDekMetadata s keyId tenantId = .error (.keyNotFound keyId) := by
  unfold getDekMetadata
  split
  · rfl
  · next entry hentry => rw [if_pos (h entry hentry)]

theorem getDekMetadata_agree {s' : KekStore} (h : Agree tenantId s s') (keyId : String) :
    getDekMetadata s keyId tenantId = getDekMetadata s' keyId tenantId := by
  -- only an entry of the tenant counts, and it is in both
  have hread {v v' : KekStore} (hv : Agree tenantId v v') {entry : DekEntry}
      (hentry : v.deks.lookup keyId = some entry) (howner : entry.tenantId = tenantId) :
      getDekMetadata v keyId tenantId = getDekMetadata v' keyId tenantId := by
    rw [getDekMetadata, getDekMetadata, hentry, hv.lookup_own hentry (.inl howner.symm)]
  by_cases hown : ∃ entry, s.deks.lookup keyId = some entry ∧ entry.tenantId = tenantId
  · obtain ⟨entry, hentry, howner⟩ := hown
    exact hread h hentry howner
  · by_cases hown' : ∃ entry, s'.deks.lookup keyId = some entry ∧ entry.tenantId = tenantId
    · obtain ⟨entry, hentry, howner⟩ := hown'
      exact (hread h.symm hentry howner).symm
    · rw [getDekMetadata_of_ne fun entry he howner => hown ⟨entry, he, howner⟩,
        getDekMetadata_of_ne fun entry he howner => hown' ⟨entry, he, howner⟩]

/-! ## Keys that were not made for the tenant -/

/-- Nothing in memory under the key id, and no row of it, is the tenant's. -/
structure Strange (s : KekStore) (tenantId keyId : String) : Prop where
  dek : ∀ entry ∈ s.deks.lookup keyId, ¬ SameTenant tenantId entry.tenantId
  row : ∀ db, s.dbPool = some db → ∀ r ∈ db.descriptors, Uuid.parseStr keyId = some r.id →
    KeyDb.isOf tenantId r = false

section Strange

variable {s : KekStore} {keyId : String} (h : s.Strange tenantId keyId) (env : Env)

include h

theorem Strange.ne (entry : DekEntry) (hentry : entry ∈ s.deks.lookup keyId) :
    entry.tenantId ≠ tenantId := fun howner => h.dek entry hentry (.inl howner.symm)

theorem rotateDek_strange :
    Outcome (rotateDek aes tenantId keyId env) s (fun _ _ => False) (fun _ s' => s' = s) := by
  unfold rotateDek
  simp only [outcome_bind, outcome_get]
  split
  · exact .throw rfl
  · next entry hentry =>
    rw [if_pos (h.ne entry hentry)]
    exact .throw rfl

theorem hydrateDek_strange : Outcome (hydrateDek aes keyId env) s
      (fun _ s' => ∀ entry ∈ s'.deks.lookup keyId, entry.tenantId ≠ tenantId)
      (fun _ _ => True) := by
  unfold hydrateDek
  simp only [outcome_bind, outcome_get]
  split
  · next db id hdb hid =>
    simp only [outcome_bind, outcome_ofExcept]
    refine ⟨fun rows hrows => ?_, fun _ _ => trivial⟩
    split
    · exact .pure h.ne
    · next t ht =>
      obtain ⟨r, hr, rfl, -, u, hu, rfl⟩ := row_of_versions hrows ht
      rw [outcome_bind]
      refine (getOrCreateTenantKek_outcome grants_any).mono (fun kek s₁ hgot => ?_)
        fun _ _ _ => trivial
      split
      · rw [outcome_pure, hgot.deks]
        exact h.ne
      · rw [outcome_bind, outcome_modify, outcome_pure]
        intro entry hentry howner
        rw [cacheDek, AList.lookup_insert, Option.mem_some_iff] at hentry
        subst hentry
        have hof : KeyDb.isOf tenantId r = true :=
          KeyDb.isOf_eq_true.mpr ⟨u, hu, howner ▸ Uuid.parseStr_toString u⟩
        rw [h.row db hdb r hr hid] at hof
        cases hof
  · exact .pure h.ne

theorem ownedDek_strange_keeps (hforeign : s.NoForeignRow tenantId keyId) (env : Env) :
    Leaves (ownedDek aes keyId tenantId env) s fun s' => s' = s := by
  have hlookup : Leaves (lookupDek keyId tenantId) s fun s' => s' = s :=
    (lookupDek_outcome s keyId tenantId).mono (fun _ _ h => h.1) fun _ _ h => h
  simp only [ownedDek, outcome_bind, outcome_get]
  split
  · next hnone =>
    have hunowned : s.Unowned keyId :=
      unowned_of_noForeignRow (.refl tenantId) hnone hforeign fun db r hrow => by
        have hof := h.row db hrow.pool r hrow.mem hrow.id
        rw [hrow.isOf] at hof
        cases hof
    have hkeeps : Leaves (hydrateDek aes keyId env) s fun s' => s' = s := by
      simp only [outcome_iff_perform]
      cases hselect : env.select with
      | none =>
        rw [hydrateDek_unowned hunowned hselect]
        exact ⟨fun _ _ => rfl, fun _ _ => rfl⟩
      | some reason =>
        rw [hydrateDek_fault aes s keyId hselect]
        exact ⟨fun _ _ => rfl, fun _ _ => rfl⟩
    exact hkeeps.bind fun _ _ h => h ▸ hlookup
  · exact hlookup

theorem ownedDek_strange : Outcome (ownedDek aes keyId tenantId env) s (fun _ _ => False)
      (fun _ s' => s.NoForeignRow tenantId keyId → s' = s) := by
  have hmiss {v : KekStore} (hv : ∀ entry ∈ v.deks.lookup keyId, entry.tenantId ≠ tenantId) :
      Outcome (lookupDek keyId tenantId) v (fun _ _ => False) (fun _ _ => True) :=
    (perform_eq_error.mp (lookupDek_miss hv)).mono (fun _ _ h => h) fun _ _ _ => trivial
  have hfails : Outcome (ownedDek aes keyId tenantId env) s (fun _ _ => False) fun _ _ => True := by
    rw [ownedDek, outcome_bind, outcome_get]
    split
    · exact (hydrateDek_strange h env).bind fun _ _ hv => hmiss hv
    · exact hmiss h.ne
  by_cases hforeign : s.NoForeignRow tenantId keyId
  · exact (hfails.and (ownedDek_strange_keeps h hforeign env)).mono (fun _ _ h => h.1)
      fun _ _ h _ => h.2
  · exact hfails.mono (fun _ _ h => h) fun _ _ _ h => absurd h hforeign

end Strange

end KekStore

theorem Traced.strange {start : Option KeyDb} {ops : List Op} (h : Traced start ops s)
    (hmade : ∀ id, Uuid.parseStr keyId = some id → ¬ MadeFor start ops tenantId id) :
    s.Strange tenantId keyId := by
  constructor
  · intro entry hentry hsame
    obtain ⟨id, hid, hmadeFor⟩ := h.dek keyId entry hentry
    exact hmade id hid (hmadeFor.same hsame.symm)
  · intro db hdb r hr hid
    by_contra hof
    obtain ⟨u, hu, hparse⟩ := KeyDb.isOf_eq_true.mp (by simpa using hof)
    exact hmade r.id hid ((h.row db hdb r hr u hu).same
      (.of_parse (Uuid.parseStr_toString u) hparse))

def KeyCall.Asks (tenantId keyId : String) (call : KeyCall) : Prop :=
  call = .getDek keyId tenantId ∨ call = .getDekChain keyId tenantId ∨
    call = .rotateDek tenantId keyId

/-- A call for a key that is not the tenant's fails, and leaves the store as it is
unless a row of another tenant is read in. -/
theorem step_strange (p : Primitives)
    (h : s.Strange tenantId keyId) {call : KeyCall} (hcall : call.Asks tenantId keyId) (env : Env) :
    (∃ e, (KekStore.step p s (.keyCall call env)).2 = .error e) ∧
      (s.NoForeignRow tenantId keyId → (KekStore.step p s (.keyCall call env)).1 = s) := by
  have hfails : Outcome (call.exec p.aes env) s (fun _ _ => False)
      fun _ s' => s.NoForeignRow tenantId keyId → s' = s := by
    rcases hcall with rfl | rfl | rfl
    · rw [KeyCall.exec, outcome_map]
      exact (ownedDek_strange h env).bind fun _ _ h => h.elim
    · rw [KeyCall.exec, outcome_map]
      exact (ownedDek_strange h env).bind fun _ _ h => h.elim
    · rw [KeyCall.exec, outcome_map]
      exact (rotateDek_strange h env).mono (fun _ _ h => h) fun _ _ h _ => h
  obtain ⟨e, he, hkeeps⟩ := hfails.fails
  exact ⟨⟨e, he⟩, hkeeps⟩

/-- A tenant is handed a key, or changes one, only if the key was made for it, and what it is
answered does not depend on what other tenants do, as long as calls name keys of their own
tenant and loading leaves no DEK out. -/
theorem tenant_isolation (p : Primitives) (inner : SealInner) (db : Option KeyDb) (ops : List Op)
    (hops : Along (KekStore.step p) Discreet (withSeal inner db) ops) (tenantId : String) :
    (∀ keyId, (∀ id, Uuid.parseStr keyId = some id → ¬ MadeFor db ops tenantId id) →
      (∀ call env, call.Asks tenantId keyId →
        (∃ e, (KekStore.step p (run (KekStore.step p) (withSeal inner db) ops)
          (.keyCall call env)).2 = .error e) ∧
        ((run (KekStore.step p) (withSeal inner db) ops).NoForeignRow tenantId keyId →
          (KekStore.step p (run (KekStore.step p) (withSeal inner db) ops)
            (.keyCall call env)).1 = run (KekStore.step p) (withSeal inner db) ops)) ∧
      getDekMetadata (run (KekStore.step p) (withSeal inner db) ops) keyId tenantId =
        .error (.keyNotFound keyId)) ∧
    ∀ db' ops', Option.Rel (KeyDb.Agree tenantId) db db' →
      Along (KekStore.step p) Discreet (withSeal inner db') ops' →
      ops.filter (visible tenantId) = ops'.filter (visible tenantId) →
      (trace (KekStore.step p) (withSeal inner db) ops).filter (visible tenantId ·.1) =
        (trace (KekStore.step p) (withSeal inner db') ops').filter (visible tenantId ·.1) ∧
      ∀ keyId, getDekMetadata (run (KekStore.step p) (withSeal inner db) ops) keyId tenantId =
          getDekMetadata (run (KekStore.step p) (withSeal inner db') ops') keyId tenantId := by
  constructor
  · intro keyId hmade
    have hstrange := (run_owned p inner db hops).2.strange hmade
    exact ⟨fun call env hcall => step_strange p hstrange hcall env,
      getDekMetadata_of_ne hstrange.ne⟩
  · intro db' ops' hdb hops' heq
    obtain ⟨htrace, hagree⟩ := run_agree p inner hdb hops hops' heq
    exact ⟨htrace, getDekMetadata_agree hagree⟩

def ownCalls : List Op :=
  [.unsealWithRootKey (.repeated 32 9), .keyCall (.generateAndStoreDek Uuid.nil.toString)
      (.repeated 1 (.repeated '1' (.refl true)) (.repeated '2' (.refl true))),
    .keyCall (.rotateDek Uuid.nil.toString (Uuid.repeated '2' (.refl true)).toString)
      (.repeated 3 (.repeated '3' (.refl true)) (.repeated '4' (.refl true)))]

def sharedCalls : List Op :=
  ownCalls.take 2 ++ [.keyCall (.generateAndStoreDek Uuid.max.toString)
    (.repeated 5 (.repeated '5' (.refl true)) (.repeated '6' (.refl true)))] ++ ownCalls.drop 2

theorem tenant_isolation_of_own_calls :
    (trace (KekStore.step .transparent) (withSeal Seal.new none) ownCalls).filter
        (visible Uuid.nil.toString ·.1) =
      (trace (KekStore.step .transparent) (withSeal Seal.new none) sharedCalls).filter
        (visible Uuid.nil.toString ·.1) :=
  ((tenant_isolation .transparent Seal.new none ownCalls (by decide +kernel) Uuid.nil.toString).2
    none sharedCalls .none (by decide +kernel) rfl).1

def otherCalls : List Op :=
  [.unsealWithRootKey (.repeated 32 9), .keyCall (.generateAndStoreDek Uuid.max.toString)
      (.repeated 5 (.repeated '5' rfl) (.repeated '6' rfl))]

/-- A rotation answers one way if the key of another tenant is in memory and another
way if there is no such key. After a restart a read of that key brings it in from its
row: the other tenant then has a KEK in memory that it did not ask for. -/
theorem rotate_tells_keys_of_others :
    let keyId := (Uuid.repeated '6' rfl).toString
    let env : Env := .repeated 3 (.repeated '3' rfl) (.repeated '4' rfl)
    let step := KekStore.step .transparent
    let rotate : Op := .keyCall (.rotateDek Uuid.nil.toString keyId) env
    let stored := (run step (withSeal Seal.new (some (.empty [.nil, .max]))) otherCalls).dbPool
    let restarted := run step (withSeal Seal.new stored) (otherCalls.take 1)
    (step (run step (withSeal Seal.new none) otherCalls) rotate).2 =
        .error (.permissionDenied ("key:" ++ keyId)
          "key does not belong to the requesting tenant") ∧
      (step (run step (withSeal Seal.new none) (otherCalls.take 1)) rotate).2 =
        .error (.keyNotFound keyId) ∧
      restarted.tenantKeks.lookup Uuid.max.toString = none ∧
      ((step restarted (.keyCall (.getDek keyId Uuid.nil.toString) env)).1.tenantKeks.lookup
        Uuid.max.toString).map (·.rawKek) = some (.repeated 32 3) := by
  refine ⟨?_, ?_, ?_, ?_⟩ <;> decide +kernel

end WslVault.CryptoService
