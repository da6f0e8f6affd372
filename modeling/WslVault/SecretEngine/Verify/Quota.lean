import WslVault.SecretEngine.Quota
import WslVault.SecretEngine.Verify.PgStore

/-!
# How exact the secret quota is

Puts that have passed the check together may exceed the limit together, as the count is not
looked at again. An existing path is refused at the limit like a new one. And the size that
is compared is that of the base64 text of the envelope, not that of the plaintext.
-/

namespace WslVault.SecretEngine.Quota

open Core Base Storage

/-- The eighth character tells an error's text from those of the others. -/
def mark : QuotaStoreError → Char
  | .database _ => 'e'
  | .secretCountExceeded _ _ => 'c'
  | .secretSizeExceeded _ _ => 'v'

theorem getElem?_display (e : QuotaStoreError) : e.display.toList[7]? = some (mark e) := by
  cases e with
  | database reason => exact Text.getElem?_append (by simp [mark]) reason
  | secretCountExceeded current max =>
    refine Text.getElem?_append (Text.getElem?_append (Text.getElem?_append
      (Text.getElem?_append ?_ _) _) _) _
    simp [mark]
  | secretSizeExceeded size max =>
    refine Text.getElem?_append (Text.getElem?_append (Text.getElem?_append
      (Text.getElem?_append ?_ _) _) _) _
    simp [mark]

theorem mark_of_display {e e' : QuotaStoreError} (h : e.display = e'.display) :
    mark e = mark e' := by
  have hmark := getElem?_display e
  rw [h, getElem?_display] at hmark
  exact (Option.some.inj hmark).symm

def secretCount (db : Db) (tid : Uuid) : Nat := (db.secrets.select (·.tenantId == tid)).length

def paths (db : Db) : List (Uuid × String) := db.secrets.rows.map SecretRow.pathKey

theorem secretCount_eq (db : Db) (tid : Uuid) :
    secretCount db tid = (paths db).countP (·.1 == tid) := by
  rw [secretCount, Table.select, ← List.countP_eq_length_filter, paths, List.countP_map]
  rfl

variable {tid freshId : Uuid} {r : PutRequest} {q : QuotaRow} {db : Database} {path : String}
  {p : UpsertParams}

theorem isNewPath_iff : isNewPath db tid path = true ↔ (tid, path) ∉ paths db.tables := by
  rw [isNewPath, Option.isNone_iff_eq_none, Table.get?_eq_none]
  simp [paths, Table.mem_def]

theorem paths_upsertSecret {db db' : Db} {now : Timestamp}
    {out : Uuid × Int} (h : db.upsertSecret now freshId p = .ok (db', out)) :
    db'.tenants = db.tenants ∧ (((p.tenantId, p.path) ∈ paths db ∧ paths db' = paths db) ∨
        ((p.tenantId, p.path) ∉ paths db ∧ p.tenantId ∈ db.tenants ∧
          paths db' = paths db ++ [(p.tenantId, p.path)])) := by
  obtain ⟨db₁, s, versions, hrow, -, -, -, -, rfl, -⟩ := Db.upsertSecret_eq_ok.mp h
  have hpaths : paths (db₁.written now p s versions) = paths db₁ :=
    Table.map_rows_update (t := db₁.secrets) (g := SecretRow.pathKey)
      (f := fun r => (r.setCurrentVersion (s.currentVersion + 1)).touch now)
      (SecretRow.pathKey_setCurrentVersion (s.currentVersion + 1)) fun r _ _ => rfl
  rw [hpaths]
  rcases Db.upsertSecretRow_eq_ok.mp hrow with
    ⟨s₀, hs₀, hkey, -, rfl⟩ | ⟨hno, -, htenant, rfl, secrets, hins, rfl⟩
  · refine ⟨rfl, .inl ⟨hkey ▸ List.mem_map_of_mem hs₀, ?_⟩⟩
    exact Table.map_rows_update (p.pathKey_refresh now) fun r _ _ => p.pathKey_refresh now r
  · refine ⟨rfl, .inr ⟨?_, htenant, ?_⟩⟩
    · intro hmem
      obtain ⟨x, hx, hkey⟩ := List.mem_map.mp hmem
      exact hno x hx hkey
    · rw [paths, (Table.insert?_eq_some.mp hins).2, List.map_append]
      rfl

theorem paths_setLabels (db : Db) (now : Timestamp) (r : SecretStore.UpsertRequest) :
    paths (SecretStore.setLabels db now r) = paths db :=
  Table.map_rows_update (SecretRow.pathKey_setLabels now r.environment r.tags r.customMetadata)
    fun s _ _ => SecretRow.pathKey_setLabels now r.environment r.tags r.customMetadata s

/-! ## What a put writes -/

variable {db' : Database} {reply : String × UInt32}

/-- The secrets and the count change together: both for a new path, neither for an
existing one. -/
theorem writes_eq_ok (h : writes db freshId tid r = .ok (db', reply)) :
    db'.tables.tenants = db.tables.tenants ∧
      ((isNewPath db tid r.path = false ∧ paths db'.tables = paths db.tables ∧
          db'.quotas = db.quotas) ∨
        (isNewPath db tid r.path = true ∧ tid ∈ db.tables.tenants ∧
          paths db'.tables = paths db.tables ++ [(tid, r.path)] ∧
          updateSecretCount db.quotas .insert tid = .ok db'.quotas)) := by
  simp only [writes, bind_eq_ok, pure_eq_ok] at h
  obtain ⟨-, -, quotas, hquotas, ⟨tables, secretId, version⟩, hupsert, hout⟩ := h
  cases hout
  have hcount := mapError_eq_ok hquotas
  rw [SecretStore.upsertSecretVersion] at hupsert
  split at hupsert
  · cases hupsert
  · next db₁ sid n hok =>
    cases hupsert
    obtain ⟨htenants, hpaths⟩ := paths_upsertSecret hok
    refine ⟨htenants, ?_⟩
    rw [paths_setLabels]
    rcases hpaths with ⟨hmem, hsame⟩ | ⟨hnew, htenant, hadded⟩
    · have hold : isNewPath db tid r.path = false := by
        rw [Bool.eq_false_iff, ne_eq, isNewPath_iff]
        exact fun hnot => hnot hmem
      rw [hold] at hcount
      cases hcount
      exact .inl ⟨hold, hsame, rfl⟩
    · have hfresh : isNewPath db tid r.path = true := isNewPath_iff.mpr hnew
      rw [hfresh] at hcount
      exact .inr ⟨hfresh, htenant, hadded, hcount⟩

theorem isNewPath_of_writes {t : Uuid} (h : writes db freshId tid r = .ok (db', reply))
    (hnew : isNewPath db' t path = true) : isNewPath db t path = true := by
  rw [isNewPath_iff] at hnew ⊢
  obtain ⟨-, ⟨-, hpaths, -⟩ | ⟨-, -, hpaths, -⟩⟩ := writes_eq_ok h
  · rwa [hpaths] at hnew
  · rw [hpaths] at hnew
    exact fun hmem => hnew (List.mem_append_left _ hmem)

theorem writes_error {e : VaultError} (h : writes db freshId tid r = .error e) :
    ∃ cause, e = (PgSecretBackend.upsertRequest tid r).error cause := by
  simp only [writes, bind_eq_error, mapError_eq_error] at h
  rcases h with ⟨cause, -, rfl⟩ | ⟨-, -, ⟨cause, -, rfl⟩ | ⟨quotas, -, hupsert⟩⟩
  · exact ⟨cause, rfl⟩
  · exact ⟨cause, rfl⟩
  · rcases hupsert with hupsert | ⟨out, -, hpure⟩
    · rw [SecretStore.upsertSecretVersion] at hupsert
      split at hupsert
      · next cause _ =>
        cases hupsert
        exact ⟨cause, rfl⟩
      · cases hupsert
    · cases hpure

theorem error_ne_quotaExceeded (request : SecretStore.UpsertRequest) (cause : SqlError)
    (reason : String) : request.error cause ≠ .quotaExceeded reason := by
  cases cause <;> simp [SecretStore.UpsertRequest.error]

/-- Every tenant has its quota row, and the rows count the secrets. -/
structure InSync (db : Database) : Prop where
  provisioned : ∀ tid ∈ db.tables.tenants, ∃ q ∈ db.quotas, q.tenantId = tid
  counted : ∀ q ∈ db.quotas, q.currentSecretCount = secretCount db.tables q.tenantId

variable {quotas : QuotaTable} {n : Int}

theorem updateSecretCount_insert {quotas' : QuotaTable} (hq : q ∈ quotas)
    (hcount : 0 ≤ q.currentSecretCount)
    (h : updateSecretCount quotas .insert q.tenantId = .ok quotas') :
    quotas' = setSecretCount quotas q.tenantId (q.currentSecretCount + 1) := by
  have hget : quotas.get? q.tenantId = some q := Table.get?_eq_some.mpr ⟨hq, rfl⟩
  simp only [updateSecretCount, TriggerOp.delta, hget, bind_eq_ok, pure_eq_ok, int4_eq_ok] at h
  obtain ⟨n, ⟨-, rfl⟩, rfl⟩ := h
  rw [max_eq_right (by omega)]

theorem mem_setSecretCount {q' : QuotaRow} (h : q' ∈ setSecretCount quotas tid n) :
    ∃ q ∈ quotas, q'.tenantId = q.tenantId ∧ q'.maxSecrets = q.maxSecrets ∧
      q'.currentSecretCount = if q.tenantId = tid then n else q.currentSecretCount := by
  obtain ⟨q, hq, rfl⟩ := (Table.mem_update _).mp h
  refine ⟨q, hq, ?_⟩
  split
  · next heq => exact ⟨rfl, rfl, (if_pos (beq_iff_eq.mp heq)).symm⟩
  · next hne => exact ⟨rfl, rfl, (if_neg fun heq => hne (beq_iff_eq.mpr heq)).symm⟩

theorem exists_mem_setSecretCount (hq : q ∈ quotas) :
    ∃ q' ∈ setSecretCount quotas tid n, q'.tenantId = q.tenantId := by
  refine ⟨_, (Table.mem_update _).mpr ⟨q, hq, rfl⟩, ?_⟩
  split
  · rfl
  · rfl

theorem inSync_writes (hsync : InSync db) (h : writes db freshId tid r = .ok (db', reply)) :
    InSync db' ∧ ∀ q' ∈ db'.quotas, ∃ q ∈ db.quotas, q'.tenantId = q.tenantId ∧
      q'.maxSecrets = q.maxSecrets ∧
      secretCount db'.tables q.tenantId = secretCount db.tables q.tenantId +
        if (tid == q.tenantId && isNewPath db tid r.path) = true then 1 else 0 := by
  obtain ⟨htenants, ⟨hold, hpaths, hquotas⟩ | ⟨hnew, htenant, hpaths, hquotas⟩⟩ := writes_eq_ok h
  · have hcount : ∀ t, secretCount db'.tables t = secretCount db.tables t := by
      intro t
      rw [secretCount_eq, secretCount_eq, hpaths]
    refine ⟨⟨?_, ?_⟩, ?_⟩
    · rw [htenants, hquotas]
      exact hsync.provisioned
    · rw [hquotas]
      intro q hq
      rw [hcount, hsync.counted q hq]
    · rw [hquotas]
      intro q hq
      refine ⟨q, hq, rfl, rfl, ?_⟩
      simp [hcount, hold]
  · have hcount : ∀ t, secretCount db'.tables t =
        secretCount db.tables t + if (tid == t) = true then 1 else 0 := by
      intro t
      rw [secretCount_eq, secretCount_eq, hpaths, List.countP_append, List.countP_singleton]
    obtain ⟨q₀, hq₀, rfl⟩ := hsync.provisioned tid htenant
    have hcounted := hsync.counted q₀ hq₀
    have hset := updateSecretCount_insert hq₀ (by omega) hquotas
    refine ⟨⟨?_, ?_⟩, ?_⟩
    · intro t ht
      obtain ⟨q, hq, rfl⟩ := hsync.provisioned t (htenants ▸ ht)
      rw [hset]
      exact exists_mem_setSecretCount hq
    · intro q' hq'
      rw [hset] at hq'
      obtain ⟨q, hq, htid, -, hvalue⟩ := mem_setSecretCount hq'
      rw [hvalue, htid, hcount]
      split
      · next heq =>
        rw [heq, hcounted]
        simp
      · next hne =>
        rw [hsync.counted q hq, if_neg (fun h => hne (beq_iff_eq.mp h).symm), Nat.add_zero]
    · intro q' hq'
      rw [hset] at hq'
      obtain ⟨q, hq, htid, hmax, -⟩ := mem_setSecretCount hq'
      refine ⟨q, hq, htid, hmax, ?_⟩
      rw [hcount, hnew, Bool.and_true]

section Advance

variable {aes : Aes256Gcm} {db : Database} {others : List (SealedPut aes × Phase)}
  {fault : Option String} {w : SealedPut aes} {phase : Phase}

def Phase.tenant : Phase → Option Uuid
  | start => none
  | opened tid => some tid
  | checked tid => some tid
  | upserted tid _ => some tid
  | written tid _ => some tid

theorem parseTenantId_eq_ok {text : String} :
    PgSecretBackend.parseTenantId text = .ok tid ↔ Uuid.parseStr text = some tid := by
  unfold PgSecretBackend.parseTenantId
  split
  · next t ht => simp [ht]
  · next hnone => simp [hnone]

variable (db fault w) in
/-- What a statement can do. Only the check refuses a put for a quota, and nothing is written
before the commit. -/
inductive Turns : Phase → Statement → Prop where
  | waits {phase : Phase} : Turns phase .wait
  | opens {tid : Uuid} (hparse : Uuid.parseStr w.put.tenantId = some tid) :
      Turns .start (.goOn (.opened tid))
  | passes {tid : Uuid} (hfault : fault = none)
      (hcheck : QuotaStore.checkWriteQuota db.quotas tid (checkedSize w.put) = .ok ()) :
      Turns (.opened tid) (.goOn (.checked tid))
  | proceeds {phase next : Phase} (htenant : next.tenant = phase.tenant)
      (hadmitted : next.admitted = phase.admitted) : Turns phase (.goOn next)
  | fails {phase : Phase} {e} (h : ∀ reason, e ≠ .quotaExceeded reason) :
      Turns phase (.finish db (.error e))
  | refuses {tid : Uuid} {cause} (h : verdict db fault tid w.put = .error cause) :
      Turns (.opened tid) (.finish db (.error (.quotaExceeded cause.display)))
  | commits {tid : Uuid} {isNew db' out} (h : writes db w.freshId tid w.put = .ok (db', out)) :
      Turns (.written tid isNew) (.finish db' (.ok out))

theorem turns_of_advance {result : Statement} (h : advance db others fault w phase = result) :
    Turns db fault w phase result := by
  subst h
  cases phase with
  | start =>
    simp only [advance, openScope, refuse]
    split
    · next e he =>
      unfold PgSecretBackend.parseTenantId at he
      split at he
      · cases he
      · cases he
        exact .fails nofun
    · exact .fails nofun
    · next tid hparse => exact .opens (parseTenantId_eq_ok.mp hparse)
  | opened tid =>
    simp only [advance, check, refuse]
    split
    · next cause hcause => exact .refuses hcause
    · next hcheck =>
      cases fault with
      | none => exact .passes rfl hcheck
      | some reason => cases hcheck
  | checked tid =>
    simp only [advance, upsertRow, refuse]
    split
    · exact .fails nofun
    · split
      · exact .waits
      · split
        · exact .fails (error_ne_quotaExceeded _ _)
        · exact .proceeds rfl rfl
  | upserted tid isNew =>
    simp only [advance, finishWrite, refuse]
    split
    · exact .fails nofun
    · split
      · exact .waits
      · split
        · next e he =>
          obtain ⟨cause, rfl⟩ := writes_error he
          exact .fails (error_ne_quotaExceeded _ cause)
        · exact .proceeds rfl rfl
  | written tid isNew =>
    simp only [advance, commit, refuse]
    split
    · exact .fails nofun
    · next e he =>
      obtain ⟨cause, rfl⟩ := writes_error he
      exact .fails (error_ne_quotaExceeded _ cause)
    · next hwrites => exact .commits hwrites

end Advance

/-! ## Runs -/

section Runs

variable {aes : Aes256Gcm} {e : PutEvent aes} {s : PutSessions aes}

/-- A put for a new path of the tenant that has passed its check. -/
def reserves (db : Database) (tid : Uuid) (x : SealedPut aes × Phase) : Bool :=
  x.2.admitted == some tid && isNewPath db tid x.1.put.path

/-- The secrets and the puts that have passed their check are together within the limit. -/
structure Sound (s : PutSessions aes) : Prop where
  sync : InSync s.db
  room : ∀ q ∈ s.db.quotas,
    (secretCount s.db.tables q.tenantId + s.tally (reserves s.db q.tenantId) : Int) ≤ q.maxSecrets
  tenant : ∀ i w phase, s.current.lookup i = some (w, phase) → ∀ tid, phase.tenant = some tid →
    Uuid.parseStr w.put.tenantId = some tid

/-- What is asked of a put when it comes to its check, of the quota row `q` of its tenant. -/
@[mk_iff]
structure Roomy (s : PutSessions aes) (w : SealedPut aes) (q : QuotaRow) : Prop where
  new : isNewPath s.db q.tenantId w.put.path = true → q.currentSecretCount < q.maxSecrets →
    q.currentSecretCount + s.tally (reserves s.db q.tenantId) < q.maxSecrets
  existing : isNewPath s.db q.tenantId w.put.path = false → q.currentSecretCount < q.maxSecrets
  size : (w.plaintext.length : Int) ≤ q.maxSecretSizeBytes →
    checkedSize w.put ≤ asUsize q.maxSecretSizeBytes

instance (s : PutSessions aes) (w : SealedPut aes) (q : QuotaRow) :
    Decidable (Roomy s w q) :=
  decidable_of_iff' _ (roomy_iff s w q)

def Phase.checking : Phase → Option Uuid
  | opened tid => some tid
  | _ => none

def Disciplined (s : PutSessions aes) : PutEvent aes → Prop
  | .resume i none =>
    ∀ x ∈ s.current.lookup i, ∀ tid ∈ x.2.checking, ∀ q ∈ s.db.quotas.get? tid, Roomy s x.1 q
  | _ => True

instance (s : PutSessions aes) (e : PutEvent aes) : Decidable (Disciplined s e) := by
  rcases e with _ | ⟨_, _ | _⟩ | _ <;> unfold Disciplined <;> infer_instance

variable {w : SealedPut aes} {i : Nat} {fault : Option String}

theorem Disciplined.roomy (h : Disciplined s (.resume i none))
    (hi : s.current.lookup i = some (w, .opened tid)) (hq : q ∈ s.db.quotas)
    (htid : q.tenantId = tid) : Roomy s w q :=
  h _ hi tid rfl q (Table.get?_eq_some.mpr ⟨hq, htid⟩)

def RefusedForCount (reply : Except VaultError (String × UInt32)) : Prop :=
  ∃ current max,
    reply = .error (.quotaExceeded (QuotaStoreError.secretCountExceeded current max).display)

def RefusedForSize (reply : Except VaultError (String × UInt32)) : Prop :=
  ∃ size max, reply = .error (.quotaExceeded (QuotaStoreError.secretSizeExceeded size max).display)

structure Exact (s : PutSessions aes) (e : PutEvent aes) : Prop where
  within : ∀ q ∈ (step s e).1.db.quotas,
    (secretCount (step s e).1.db.tables q.tenantId : Int) ≤ q.maxSecrets
  count : ∀ w reply tid, (step s e).2 = some (w, reply) → RefusedForCount reply →
    Uuid.parseStr w.put.tenantId = some tid → isNewPath s.db tid w.put.path = true
  size : ∀ w reply q, (step s e).2 = some (w, reply) → RefusedForSize reply → q ∈ s.db.quotas →
    Uuid.parseStr w.put.tenantId = some q.tenantId → q.maxSecretSizeBytes < w.plaintext.length

theorem reserves_of_admitted {phase next : Phase} (h : next.admitted = phase.admitted) :
    reserves db tid (w, next) = reserves db tid (w, phase) := by
  rw [reserves, reserves, h]

theorem room_checked (h : Sound s) (hq : q ∈ s.db.quotas) (hroomy : q.tenantId = tid → Roomy s w q)
    (hcheck : QuotaStore.checkWriteQuota s.db.quotas tid (checkedSize w.put) = .ok ()) :
    (secretCount s.db.tables q.tenantId + (s.tally (reserves s.db q.tenantId) +
      if reserves s.db q.tenantId (w, .checked tid) = true then 1 else 0 : Nat) : Int) ≤
      q.maxSecrets := by
  have hroom := h.room q hq
  have hcounted := h.sync.counted q hq
  split
  · next hreserves =>
    simp only [reserves, Phase.admitted, Bool.and_eq_true, beq_iff_eq, Option.some.injEq]
      at hreserves
    obtain ⟨htid, hnew⟩ := hreserves
    have hget : s.db.quotas.get? tid = some q := Table.get?_eq_some.mpr ⟨hq, htid.symm⟩
    have hbelow := QuotaStore.count_lt_of_check hcheck hget
    have hfree := (hroomy htid.symm).new hnew hbelow
    omega
  · omega

theorem sound_goOn (h : Sound s) {phase next : Phase}
    (hgood : Disciplined s (.resume i fault)) (hi : s.current.lookup i = some (w, phase))
    (hadvance : advance s.db (s.others i) fault w phase = .goOn next) :
    Sound ⟨s.db, s.current.insert i (w, next)⟩ := by
  have htenant : ∀ tid, next.tenant = some tid → Uuid.parseStr w.put.tenantId = some tid := by
    intro tid htid
    cases turns_of_advance hadvance with
    | opens hparse =>
      cases htid
      exact hparse
    | passes => exact h.tenant i w _ hi tid htid
    | proceeds hsame => exact h.tenant i w phase hi tid (hsame ▸ htid)
  refine ⟨h.sync, fun q hq => ?_, fun j w' phase' hj => ?_⟩
  · have htally := Sessions.tally_of_some hi (reserves s.db q.tenantId)
    rw [Sessions.tally_insert]
    cases turns_of_advance hadvance with
    | @opens t =>
      have hneither : Phase.admitted (.opened t) = Phase.admitted .start := rfl
      rw [reserves_of_admitted hneither, ← htally]
      exact h.room q hq
    | @passes t hfault hcheck =>
      subst hfault
      have hnone : reserves s.db q.tenantId (w, .opened t) = false := rfl
      rw [hnone, if_neg Bool.false_ne_true, Nat.add_zero] at htally
      rw [← htally]
      exact room_checked h hq (fun htid => hgood.roomy hi hq htid) hcheck
    | proceeds _ hsame =>
      rw [reserves_of_admitted hsame, ← htally]
      exact h.room q hq
  · obtain ⟨-, ⟨⟩⟩ | ⟨-, hj⟩ := lookup_insert_cases hj
    · exact htenant
    · exact h.tenant j w' phase' hj

theorem sound_erase (h : Sound s) (i : Nat) : Sound ⟨s.db, s.current.erase i⟩ := by
  refine ⟨h.sync, fun q hq => ?_, fun j w phase hj => ?_⟩
  · have hroom := h.room q hq
    have hfewer := s.countP_others_le i (reserves s.db q.tenantId)
    rw [Sessions.tally_erase]
    dsimp only
    omega
  · exact h.tenant j w phase (lookup_of_lookup_erase hj).2

theorem sound_commit (h : Sound s) {isNew : Bool}
    {out : String × UInt32} (hi : s.current.lookup i = some (w, .written tid isNew))
    (hwrites : writes s.db w.freshId tid w.put = .ok (db, out)) :
    Sound ⟨db, s.current.erase i⟩ := by
  obtain ⟨hsync, hrows⟩ := inSync_writes h.sync hwrites
  -- a path that is new afterwards was new before
  have hmono : ∀ (t : Uuid) (x : SealedPut aes × Phase), reserves db t x = true →
      reserves s.db t x = true := by
    intro t x hx
    simp only [reserves, Bool.and_eq_true] at hx ⊢
    exact ⟨hx.1, isNewPath_of_writes hwrites hx.2⟩
  refine ⟨hsync, fun q' hq' => ?_, fun j w' phase hj => ?_⟩
  · obtain ⟨q, hq, htid, hmax, hcount⟩ := hrows q' hq'
    have hroom := h.room q hq
    rw [Sessions.tally_of_some hi] at hroom
    have hfewer : (s.others i).countP (reserves db q.tenantId) ≤
        (s.others i).countP (reserves s.db q.tenantId) :=
      List.countP_mono_left fun x _ hx => hmono q.tenantId x hx
    have hown : reserves s.db q.tenantId (w, .written tid isNew) =
        (tid == q.tenantId && isNewPath s.db tid w.put.path) := by
      rw [reserves, Phase.admitted, Option.some_beq_some]
      cases heq : tid == q.tenantId with
      | false => rfl
      | true => rw [beq_iff_eq.mp heq]
    rw [hown] at hroom
    rw [Sessions.tally_erase, htid, hmax, hcount]
    dsimp only
    omega
  · exact h.tenant j w' phase (lookup_of_lookup_erase hj).2

/-- A put that passed its check still has room when it commits. -/
theorem sound_step (h : Sound s) (hgood : Disciplined s e) : Sound (step s e).1 := by
  rw [step, Sessions.step]
  rcases Tasks.step_happens Phase.start (Sessions.turns advance) s e with
    ⟨-, -, hstep | ⟨i, hstep⟩⟩ | ⟨i, w, -, rfl, hi, hstep⟩ |
    ⟨i, fault, w, phase, db, next, -, rfl, hi, hadvance, hstep⟩ |
    ⟨i, fault, w, phase, db, reply, -, rfl, hi, hadvance, hstep⟩
  all_goals rw [hstep]
  · exact h
  · exact sound_erase h i
  · refine ⟨h.sync, fun q hq => ?_, fun j w' phase hj => ?_⟩
    · have hroom := h.room q hq
      rw [Sessions.tally_of_none hi] at hroom
      rw [Sessions.tally_insert]
      simpa [reserves, Phase.admitted] using hroom
    · obtain ⟨-, ⟨⟩⟩ | ⟨-, hj⟩ := lookup_insert_cases hj
      · exact fun tid htid => by cases htid
      · exact h.tenant j w' phase hj
  · obtain ⟨rfl, hgoOn⟩ := Sessions.turn_eq_goOn.mp hadvance
    exact sound_goOn h hgood hi hgoOn
  · cases turns_of_advance (Sessions.turn_eq_finish.mp hadvance) with
    | fails | refuses => exact sound_erase h i
    | commits hwrites => exact sound_commit h hi hwrites

theorem refused_of_step {reply : Except VaultError (String × UInt32)}
    {reported : QuotaStoreError} (hreply : (step s e).2 = some (w, reply))
    (hreason : reply = .error (.quotaExceeded reported.display)) :
    ∃ i fault tid cause, e = .resume i fault ∧ s.current.lookup i = some (w, .opened tid) ∧
      verdict s.db fault tid w.put = .error cause ∧ mark cause = mark reported := by
  rw [step, Sessions.step] at hreply
  rcases Tasks.step_happens Phase.start (Sessions.turns advance) s e with
    ⟨-, hnone, -⟩ | ⟨i, w', -, -, -, hstep⟩ |
    ⟨i, fault, w', phase, db, next, -, -, -, -, hstep⟩ |
    ⟨i, fault, w', phase, db, reply', -, rfl, hi, hadvance, hstep⟩
  · cases hnone.symm.trans hreply
  all_goals
    rw [hstep] at hreply
    cases hreply
  cases turns_of_advance (Sessions.turn_eq_finish.mp hadvance) with
  | fails hother => exact absurd (Except.error.inj hreason) (hother _)
  | @refuses tid cause hverdict =>
    have hdisplay := VaultError.quotaExceeded.inj (Except.error.inj hreason)
    exact ⟨i, fault, tid, cause, rfl, hi, hverdict, mark_of_display hdisplay⟩
  | commits => cases hreason

theorem row_of_verdict {cause : QuotaStoreError}
    (h : verdict db fault tid r = .error cause) (hmark : mark cause ≠ 'e') :
    fault = none ∧ ∃ q ∈ db.quotas, q.tenantId = tid ∧
      ((mark cause = 'c' ∧ q.maxSecrets ≤ q.currentSecretCount) ∨
        (mark cause = 'v' ∧ asUsize q.maxSecretSizeBytes < checkedSize r)) := by
  cases fault with
  | some reason =>
    cases h
    exact absurd rfl hmark
  | none =>
    simp only [verdict, QuotaStore.checkWriteQuota] at h
    split at h
    · cases h
    · next q hget =>
      obtain ⟨hq, htid⟩ := Table.get?_eq_some.mp hget
      refine ⟨rfl, q, hq, htid, ?_⟩
      split at h
      · next hfull =>
        cases h
        exact .inl ⟨rfl, hfull⟩
      · split at h
        · next hlarge =>
          cases h
          exact .inr ⟨rfl, hlarge⟩
        · cases h

theorem exact_step (h : Sound s) (hgood : Disciplined s e) : Exact s e := by
  refine ⟨?_, ?_, ?_⟩
  · intro q hq
    have hroom := (sound_step h hgood).room q hq
    omega
  · rintro w reply tid hreply ⟨current, max, hreason⟩ hparse
    obtain ⟨i, fault, t, cause, rfl, hi, hverdict, hmark⟩ := refused_of_step hreply hreason
    cases (h.tenant i w _ hi t rfl).symm.trans hparse
    obtain ⟨rfl, q, hq, rfl, ⟨-, hfull⟩ | ⟨hsize, -⟩⟩ :=
      row_of_verdict hverdict (by rw [hmark]; simp [mark])
    · by_contra hold
      have hbelow := (hgood.roomy hi hq rfl).existing (by simpa using hold)
      omega
    · rw [hmark] at hsize
      simp [mark] at hsize
  · rintro w reply q hreply ⟨size, max, hreason⟩ hq hparse
    obtain ⟨i, fault, t, cause, rfl, hi, hverdict, hmark⟩ := refused_of_step hreply hreason
    cases (h.tenant i w _ hi t rfl).symm.trans hparse
    obtain ⟨rfl, q', hq', htid, ⟨hcount, -⟩ | ⟨-, hlarge⟩⟩ :=
      row_of_verdict hverdict (by rw [hmark]; simp [mark])
    · rw [hmark] at hcount
      simp [mark] at hcount
    · cases Table.eq_of_key hq hq' htid.symm
      by_contra hfits
      have hsize := (hgood.roomy hi hq rfl).size (by omega)
      omega

/-- The quota is exact over every run whose puts come to their checks as they should. -/
theorem quota_exact {db : Database} {events : List (PutEvent aes)}
    (hsync : InSync db) (hwithin : ∀ q ∈ db.quotas, q.currentSecretCount ≤ q.maxSecrets)
    (h : Along step Disciplined (Sessions.idle db) events) :
    Along step Exact (Sessions.idle db) events := by
  refine h.imp_of_invariant Sound (fun s e hs hgood => ⟨sound_step hs hgood, exact_step hs hgood⟩)
    ⟨hsync, fun q hq => ?_, fun i w phase hi => ?_⟩
  · have hcounted := hsync.counted q hq
    have hwithin := hwithin q hq
    have hidle : (Sessions.idle db : PutSessions aes).tally
        (reserves db q.tenantId) = 0 := rfl
    dsimp only [Sessions.idle] at hidle ⊢
    omega
  · simp [Sessions.idle] at hi

end Runs

def trailing : Aes256Gcm where
  encrypt _ _ msg _ := some (msg ++ List.replicate 16 0)
  decrypt _ _ ciphertext _ := some (ciphertext.take (ciphertext.length - 16))
  decrypt_encrypt := by
    rintro key nonce msg aad ciphertext ⟨⟩
    simp

def acme : Uuid := Uuid.repeated 'a' (.refl true)

def onePut (path : String) (id : Uuid) : SealedPut trailing where
  plaintext := [7]
  put :=
    { now := 0
      freshId := ""
      tenantId := acme.toString
      path := path
      ciphertext := Base64.encode (List.replicate 12 0 ++ ([7] ++ List.replicate 16 0))
      dekId := ""
      cas := none
      customMetadata := ∅
      maxVersions := none }
  freshId := id
  encrypted := ⟨some ⟨List.replicate 12 0, rfl⟩, ⟨List.replicate 32 0, rfl⟩, [], rfl⟩

def smallTenant (maxSecrets maxSecretSizeBytes : Int) : Database where
  tables := .empty [acme]
  quotas :=
    ⟨[{ tenantId := acme, maxSecrets := maxSecrets, maxSecretSizeBytes := maxSecretSizeBytes }],
      List.nodup_singleton _⟩

/-- Two puts for new paths, statement by statement side by side. -/
def sideBySide : List (PutEvent trailing) :=
  .arrive 1 (onePut "a" (Uuid.repeated '1' (.refl true))) ::
    .arrive 2 (onePut "b" (Uuid.repeated '2' (.refl true))) ::
      (List.replicate 6 [.resume 1 none, .resume 2 none]).flatten

def sameAgain : List (PutEvent trailing) :=
  .arrive 1 (onePut "a" (Uuid.repeated '1' (.refl true))) :: List.replicate 5 (.resume 1 none) ++
    .arrive 1 (onePut "a" (Uuid.repeated '2' (.refl true))) :: List.replicate 2 (.resume 1 none)

def lastReply (db : Database) (events : List (PutEvent trailing)) :
    Option (Except VaultError (String × UInt32)) :=
  (trace step (Sessions.idle db) events).getLast?.bind fun x => x.2.map (·.2)

/-- Two puts side by side leave two secrets where one is allowed; a put to the tenant's own
only path is refused for the count; and a plaintext of one byte is refused for its size
where one byte is allowed. -/
theorem quota_inexact :
    (secretCount (run step (Sessions.idle (smallTenant 1 65536)) sideBySide).db.tables acme = 2 ∧
      ∀ q ∈ (run step (Sessions.idle (smallTenant 1 65536)) sideBySide).db.quotas.rows,
        q.maxSecrets = 1) ∧
    (isNewPath (run step (Sessions.idle (smallTenant 1 65536)) sameAgain).db acme "a" = false ∧
      lastReply (smallTenant 1 65536) sameAgain =
        some (.error (.quotaExceeded (QuotaStoreError.secretCountExceeded 1 1).display))) ∧
    (onePut "a" acme).plaintext.length = 1 ∧
    lastReply (smallTenant 1 1) (.arrive 1 (onePut "a" acme) :: List.replicate 2 (.resume 1 none)) =
      some (.error (.quotaExceeded (QuotaStoreError.secretSizeExceeded 40 1).display)) := by
  refine ⟨⟨?_, ?_⟩, ⟨?_, ?_⟩, rfl, ?_⟩
  · decide +kernel
  · decide +kernel
  · decide +kernel
  · rfl
  · rfl

theorem inSync_smallTenant (maxSecrets maxSecretSizeBytes : Int) :
    InSync (smallTenant maxSecrets maxSecretSizeBytes) := by
  constructor
  · intro tid htid
    cases List.mem_singleton.mp htid
    exact ⟨_, List.mem_singleton.mpr rfl, rfl⟩
  · intro q hq
    cases List.mem_singleton.mp hq
    rfl

theorem quota_exact_side_by_side :
    Along step Disciplined (Sessions.idle (smallTenant 2 65536)) sideBySide ∧
      Along step Exact (Sessions.idle (smallTenant 2 65536)) sideBySide := by
  have hdisciplined : Along step Disciplined (Sessions.idle (smallTenant 2 65536)) sideBySide := by
    decide +kernel
  refine ⟨hdisciplined, quota_exact (inSync_smallTenant 2 65536) ?_ hdisciplined⟩
  intro q hq
  cases List.mem_singleton.mp hq
  decide

end WslVault.SecretEngine.Quota
