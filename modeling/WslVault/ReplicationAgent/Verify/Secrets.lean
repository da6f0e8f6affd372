import Mathlib.Data.Prod.Lex
import Mathlib.Data.String.Basic
import WslVault.ReplicationAgent.Mesh
import WslVault.ReplicationAgent.Verify.Updates
import WslVault.SecretEngine.Verify.PgStore

/-!
# Replicated secrets

A peer's write is compared with the local row's `updated_at`, and accepting it stamps the
row with the time of the application (`result_secret`).
-/

namespace WslVault.ReplicationAgent

open Core Base Storage SecretEngine

structure WritesPath (tid : Uuid) (path : String) (e : ReplicationEvent) : Prop where
  type : e.eventType = .secretUpsert
  tenant : (e.payload.texts.lookup "tenant_id").bind Uuid.ofPg = some tid
  path : e.payload.texts.lookup "path" = some path

def ReplicationEvent.ciphertext (e : ReplicationEvent) : Option String :=
  e.payload.texts.lookup "ciphertext"

def ReplicationEvent.dekId (e : ReplicationEvent) : Option String :=
  e.payload.texts.lookup "dek_id"

variable {tid : Uuid} {path : String}

theorem WritesPath.unique {tid' : Uuid} {path' : String} {e : ReplicationEvent}
    (h : WritesPath tid path e) (h' : WritesPath tid' path' e) : (tid, path) = (tid', path') :=
  Prod.ext (Option.some.inj (h.tenant.symm.trans h'.tenant))
    (Option.some.inj (h.path.symm.trans h'.path))

/-- The region takes the event's data: it has no row yet, or resolves the
conflict for the remote side. -/
def accepts (strategy localRegion : String) (tid : Uuid) (path : String) (r : RegionDb)
    (e : ReplicationEvent) : Bool :=
  match r.secrets.get? (tid, path) with
  | none => true
  | some s => resolve strategy (RegionDb.conflictContext localRegion s e) == .acceptRemote

namespace RegionDb

variable {r r' : RegionDb} {e : ReplicationEvent} {now : Timestamp} {freshId : Uuid}
  {p : UpsertParams}

/-- A row of the path that an application left at the time, and what it shows. -/
def ShowsAt (tid : Uuid) (path : String) (r : RegionDb) (updatedAt : Timestamp)
    (shown : Option String × SecretEnvironment × List String) : Prop :=
  (∃ s, r.secrets.get? (tid, path) = some s ∧ s.updatedAt = updatedAt) ∧
    r.db.current tid path = some shown

theorem acceptSecret_eq_ok (hok : r.acceptSecret now freshId e p = .ok r') :
    ∃ db out, r.db.upsertSecret now freshId p = .ok (db, out) ∧ r' = r.withDb { db with
      secrets := db.secrets.update (fun s => s.pathKey == (p.tenantId, p.path))
        (fun s => (setOrigin e s).touch now) (pathKey_setOrigin now e) } := by
  unfold acceptSecret at hok
  split at hok
  · cases hok
  · next db out hup =>
    cases hok
    exact ⟨db, out, hup, rfl⟩

theorem acceptSecret_shows (hok : r.acceptSecret now freshId e p = .ok r')
    (hmax : 0 < p.maxVersions) : ShowsAt p.tenantId p.path r' now (some p.ciphertext,
      ((r.secrets.get? (p.tenantId, p.path)).map Db.labels).getD (.int, [])) := by
  obtain ⟨db, out, hup, rfl⟩ := acceptSecret_eq_ok hok
  obtain ⟨s, hget, -, -, htime, -⟩ := Db.get?_upsertSecret hup
  constructor
  · refine ⟨(setOrigin e s).touch now, ?_, rfl⟩
    exact (Table.get?_update_key (pathKey_setOrigin now e) (fun _ => beq_iff_eq)).trans
      (congrArg (Option.map _) hget)
  · have hsame := Db.current_update db
      (q := fun s => s.pathKey == (p.tenantId, p.path)) (f := fun s => (setOrigin e s).touch now)
      (pathKey_setOrigin now e) (fun _ => rfl) (fun _ => rfl) (fun _ => rfl) p.tenantId p.path
    exact hsame.trans (Db.current_upsertSecret hup hmax)

end RegionDb

variable {strategy localRegion : String} {a : Application} {r r' : RegionDb}

/-- What applying a write does: the path is the event's, and its data is taken
unless the conflict is decided against it. -/
theorem result_upsert
    (htype : a.event.eventType = .secretUpsert) (hok : a.result strategy localRegion r = .ok r') :
    ∃ tid path ciphertext dekId, WritesPath tid path a.event ∧
      a.event.ciphertext = some ciphertext ∧ a.event.dekId = some dekId ∧
      ((accepts strategy localRegion tid path r a.event = false ∧ r' = r) ∨
        accepts strategy localRegion tid path r a.event = true ∧
          r.acceptSecret a.now a.freshId a.event
            (RegionDb.replicatedWrite tid path ciphertext dekId) = .ok r') := by
  have hok := a.applyEvent_of_result hok
  simp only [RegionDb.applyEvent, htype, RegionDb.applySecretUpsert, bind_eq_ok] at hok
  obtain ⟨text, htext, path, hpath, ciphertext, hcipher, dekId, hdek, tid, htid, hok⟩ := hok
  have hcast : Uuid.ofPg text = some tid := by
    unfold castUuid at htid
    split at htid
    · next hsome =>
      cases htid
      exact hsome
    · cases htid
  have hwrites : WritesPath tid path a.event :=
    ⟨htype, by rw [ReplicationEvent.lookup_of_field htext]; exact hcast,
      ReplicationEvent.lookup_of_field hpath⟩
  refine ⟨tid, path, ciphertext, dekId, hwrites, ReplicationEvent.lookup_of_field hcipher,
    ReplicationEvent.lookup_of_field hdek, ?_⟩
  split at hok
  · next hs =>
    rw [accepts, hs]
    exact .inr ⟨rfl, hok⟩
  · next s hs =>
    rw [accepts, hs]
    dsimp only
    split at hok
    · next hres =>
      rw [hres]
      exact .inl ⟨rfl, (pure_eq_ok.mp hok).symm⟩
    · next hres =>
      rw [hres]
      exact .inl ⟨rfl, (pure_eq_ok.mp hok).symm⟩
    · next hres =>
      rw [hres]
      exact .inr ⟨rfl, hok⟩

section

variable (hw : WritesPath tid path a.event) (hok : a.result strategy localRegion r = .ok r')

include hw hok

theorem result_writesPath : (accepts strategy localRegion tid path r a.event = false ∧ r' = r) ∨
      accepts strategy localRegion tid path r a.event = true ∧ ∃ ciphertext dekId,
        a.event.ciphertext = some ciphertext ∧ r.acceptSecret a.now a.freshId a.event
          (RegionDb.replicatedWrite tid path ciphertext dekId) = .ok r' := by
  obtain ⟨tid', path', ciphertext, dekId, hw', hcipher, -, hcase⟩ := result_upsert hw.type hok
  obtain ⟨rfl, rfl⟩ := Prod.mk.inj (hw.unique hw')
  exact hcase.imp_right fun ⟨haccepts, hok⟩ => ⟨haccepts, ciphertext, dekId, hcipher, hok⟩

theorem result_secret : (accepts strategy localRegion tid path r a.event = true →
      r'.ShowsAt tid path a.now (a.event.ciphertext,
        ((r.secrets.get? (tid, path)).map Db.labels).getD (.int, []))) ∧
    (accepts strategy localRegion tid path r a.event = false → r' = r) := by
  rcases result_writesPath hw hok with
    ⟨hrefused, rfl⟩ | ⟨haccepts, ciphertext, dekId, hcipher, hok⟩
  · rw [hrefused]
    exact ⟨fun h => (by cases h), fun _ => rfl⟩
  · rw [haccepts, hcipher]
    exact ⟨fun _ => RegionDb.acceptSecret_shows hok (by decide : (0 : Int) < 10),
      fun h => (by cases h)⟩

end

/-! ## One writing region -/

/-- The strategy is neither of the two with a name of their own. -/
def LastWriteWins (strategy : String) : Prop := strategy ≠ "vector_clock" ∧ strategy ≠ "manual"

theorem resolve_of_lastWriteWins (h : LastWriteWins strategy)
    (ctx : ConflictContext) : resolve strategy ctx = resolveLww ctx := by
  unfold resolve
  split
  · exact absurd rfl h.1
  · exact absurd rfl h.2
  · rfl

/-- The event is later than the time, or its region's name decides a tie. -/
def Newer (localRegion : String) (t : Timestamp) (e : ReplicationEvent) : Prop :=
  t < e.createdAt ∨ (t = e.createdAt ∧ localRegion < e.sourceRegion)

theorem accepts_iff_newer (hlww : LastWriteWins strategy) {s : SecretRow}
    (hrow : r.secrets.get? (tid, path) = some s) (e : ReplicationEvent) :
    accepts strategy localRegion tid path r e = true ↔ Newer localRegion s.updatedAt e := by
  rw [accepts, hrow, beq_iff_eq, resolve_of_lastWriteWins hlww, resolveLww_eq_acceptRemote rfl]
  rfl

section SingleWriter

variable {strategy localRegion : String} {tid : Uuid} {path : String}

/-- Writes that come in order are all taken. -/
theorem current_run_of_chain (hlww : LastWriteWins strategy) {b : Application}
    {as : List Application} {s : Replica}
    (hrow : ∃ row, s.db.secrets.get? (tid, path) = some row ∧ row.updatedAt = b.now)
    (hcurrent : (s.db.db.current tid path).map (·.1) = some b.event.ciphertext)
    (hwrites : ∀ a ∈ as, WritesPath tid path a.event)
    (hok : Along (Replica.step strategy localRegion)
      (fun s a => (a.result strategy localRegion s.db).isOk = true) s as)
    (hchain : (b :: as).IsChain fun x y => Newer localRegion x.now y.event) :
    ((run (Replica.step strategy localRegion) s as).db.db.current tid path).map (·.1) =
      some ((b :: as).getLast (List.cons_ne_nil b as)).event.ciphertext := by
  induction as generalizing s b with
  | nil => exact hcurrent
  | cons a as ih =>
    obtain ⟨hnewer, hchain⟩ := List.isChain_cons_cons.mp hchain
    obtain ⟨row, hget, htime⟩ := hrow
    obtain ⟨db, hres, hstep⟩ := Replica.step_of_isOk hok.1
    have haccepts : accepts strategy localRegion tid path s.db a.event = true :=
      (accepts_iff_newer hlww hget a.event).mpr (htime ▸ hnewer)
    obtain ⟨hrow', hshown⟩ := (result_secret (hwrites a List.mem_cons_self) hres).1 haccepts
    rw [run, List.getLast_cons (List.cons_ne_nil a as)]
    have hok' := hok.2
    rw [hstep] at hok' ⊢
    exact ih hrow' (by rw [hshown]; rfl) (fun x hx => hwrites x (List.mem_cons_of_mem a hx)) hok'
      hchain

/-- A region without the path applies writes of it in order. When each was
recorded after the one before it had been applied here, the path ends with the
ciphertext of the last. -/
theorem single_writer_current (hlww : LastWriteWins strategy) (r : RegionDb)
    (hnew : r.secrets.get? (tid, path) = none) (as : List Application) (hne : as ≠ [])
    (hwrites : ∀ a ∈ as, WritesPath tid path a.event)
    (hok : Along (Replica.step strategy localRegion)
      (fun s a => (a.result strategy localRegion s.db).isOk = true) ⟨r, []⟩ as)
    (hchain : as.IsChain fun x y => Newer localRegion x.now y.event) :
    ((run (Replica.step strategy localRegion) ⟨r, []⟩ as).db.db.current tid path).map (·.1) =
      some (as.getLast hne).event.ciphertext := by
  cases as with
  | nil => exact absurd rfl hne
  | cons a as =>
    obtain ⟨db, hres, hstep⟩ := Replica.step_of_isOk hok.1
    have haccepts : accepts strategy localRegion tid path r a.event = true := by
      rw [accepts, hnew]
    obtain ⟨hrow, hshown⟩ := (result_secret (hwrites a List.mem_cons_self) hres).1 haccepts
    have hok' := hok.2
    rw [run]
    rw [hstep] at hok' ⊢
    exact current_run_of_chain hlww hrow (by rw [hshown]; rfl)
      (fun x hx => hwrites x (List.mem_cons_of_mem a hx)) hok' hchain

end SingleWriter

def writeRequest (now : Timestamp) (ciphertext : String) (customMetadata : Metadata) :
    PutRequest where
  now := now
  freshId := ""
  tenantId := Uuid.nil.toString
  path := "p"
  ciphertext := ciphertext
  dekId := "k"
  cas := none
  customMetadata := customMetadata
  maxVersions := none

def writeEvent (region : String) (createdAt : Timestamp) (ciphertext : String) : ReplicationEvent :=
  secretUpsertEvent region .nil createdAt (writeRequest createdAt ciphertext ∅)

theorem writesPath_writeEvent (region : String) (createdAt : Timestamp) (ciphertext : String) :
    WritesPath .nil "p" (writeEvent region createdAt ciphertext) := by
  have hcast : Uuid.ofPg Uuid.nil.toString = some .nil := by decide +kernel
  refine ⟨rfl, ?_, rfl⟩
  simp [writeEvent, secretUpsertEvent, writeRequest, hcast]

theorem single_writer_current_of_two :
    let as : List Application :=
      [{ now := 3, event := writeEvent "eu" 1 "a" }, { now := 6, event := writeEvent "eu" 5 "b" }]
    ((run (Replica.step "lww" "us") ⟨Key.acmeRegion, []⟩ as).db.db.current .nil "p").map (·.1) =
      some (some "b") := by
  intro as
  refine single_writer_current ⟨by decide, by decide⟩ Key.acmeRegion rfl
    as (by simp [as]) ?_ ⟨rfl, rfl, trivial⟩ ?_
  · simp only [as, List.forall_mem_cons]
    exact ⟨writesPath_writeEvent "eu" 1 "a", writesPath_writeEvent "eu" 5 "b",
      fun _ h => absurd h List.not_mem_nil⟩
  · exact List.isChain_cons_cons.mpr ⟨.inl (by decide), List.IsChain.singleton _⟩

/-- Both writes had been made when the first was applied: the second is dropped. -/
theorem second_write_dropped : ((run (Replica.step "lww" "us") ⟨Key.acmeRegion, []⟩
      [{ now := 10, event := writeEvent "eu" 1 "a" },
        { now := 11, event := writeEvent "eu" 2 "b" }]).db.db.current .nil "p").map (·.1) =
      some (some "a") := rfl

/-! ## The lifecycle of a secret under plain writes -/

/-- A write through the secret engine and one of a peer leave the lifecycle of
the path's secret as it was exactly if they change nothing, or its type and its
grace period are the defaults. -/
theorem plain_write_keeps_lifecycle_iff {t : Uuid} {path : String} {s : SecretRow}
    {db : PgSecretBackend} (hdb : db.secrets.get? (t, path) = some s) {region : Replica}
    (hregion : region.db.secrets.get? (t, path) = some s) :
    (∀ freshId (r : PutRequest), Uuid.parseStr r.tenantId = some t → r.path = path →
      (((db.put freshId r).1.secrets.get? (t, path)).map Db.lifecycleColumns =
          some (Db.lifecycleColumns s) ↔
        ((∃ out, (db.put freshId r).2 = .ok out) →
          s.secretType = .staleTtl ∧ s.gracePeriodSeconds = some 3600))) ∧
    ∀ strategy localRegion (a : Application), WritesPath t path a.event →
      (((region.step strategy localRegion a).1.db.secrets.get? (t, path)).map Db.lifecycleColumns =
          some (Db.lifecycleColumns s) ↔
        ((a.result strategy localRegion region.db).isOk = true →
          accepts strategy localRegion t path region.db a.event = true →
          s.secretType = .staleTtl ∧ s.gracePeriodSeconds = some 3600)) := by
  constructor
  · rintro freshId r ht rfl
    cases hput : db.put freshId r with
    | mk db' reply =>
      cases reply with
      | error e =>
        have hsame : db' = db := by
          rw [← PgSecretBackend.put_of_error (congrArg Prod.snd hput), hput]
        rw [hsame, hdb]
        simp
      | ok out =>
        obtain ⟨t', db₁, sid, n, ht', hup, rfl, -⟩ := PgSecretBackend.put_eq_ok hput
        obtain rfl : t' = t := Option.some.inj (ht'.symm.trans ht)
        rw [forall_prop_of_true ⟨out, rfl⟩,
          ← Db.PlainWrite.lifecycleColumns_iff ⟨rfl, rfl, rfl, rfl, rfl⟩ hup hdb]
        exact Eq.congr_left
          (Db.map_get?_update (SecretRow.pathKey_setLabels r.now _ _ _) (fun _ => rfl) _)
  · intro strategy localRegion a hw
    rw [Replica.step]
    cases hres : a.result strategy localRegion region.db with
    | error e => simp [hregion, Except.isOk, Except.toBool]
    | ok r' =>
      simp only [Except.isOk, Except.toBool, forall_const]
      rcases result_writesPath hw hres with ⟨hrefused, rfl⟩ | ⟨haccepts, ciphertext, dekId, -, hok⟩
      · simp [hregion, hrefused]
      · obtain ⟨db₁, out, hup, rfl⟩ := RegionDb.acceptSecret_eq_ok hok
        rw [forall_prop_of_true haccepts,
          ← Db.PlainWrite.lifecycleColumns_iff ⟨rfl, rfl, rfl, rfl, rfl⟩ hup hregion]
        exact Eq.congr_left
          (Db.map_get?_update (RegionDb.pathKey_setOrigin a.now a.event) (fun _ => rfl) _)

def typedRegion (type : SecretType) : RegionDb :=
  { Key.acmeRegion with
    secrets := ⟨[{ (RegionDb.replicatedWrite .nil "p" "a" "k").newSecret 0 .nil with
      secretType := type }], List.nodup_singleton _⟩ }

theorem plain_write_keeps_default_type :
    let db : PgSecretBackend := (typedRegion .staleTtl).db
    ((db.put .nil (writeRequest 1 "b" ∅)).1.secrets.get? (.nil, "p")).map Db.lifecycleColumns =
      some (.staleTtl, none, none, some 3600, none, none) := by
  intro db
  have hdb : db.secrets.get? (.nil, "p") = some _ := rfl
  have hregion : (⟨typedRegion .staleTtl, []⟩ : Replica).db.secrets.get? (.nil, "p") = some _ := rfl
  exact ((plain_write_keeps_lifecycle_iff hdb hregion).1 .nil (writeRequest 1 "b" ∅)
    (by decide +kernel) rfl).mpr fun _ => ⟨rfl, rfl⟩

/-- A secret that must be rotated is an ordinary one after a write, whoever made it. -/
theorem plain_write_resets_type :
    let db : PgSecretBackend := (typedRegion .rotationRequired).db
    let region : Replica := ⟨typedRegion .rotationRequired, []⟩
    (db.secrets.get? (.nil, "p")).map (·.secretType) = some .rotationRequired ∧
      ((db.put .nil (writeRequest 1 "b" ∅)).1.secrets.get? (.nil, "p")).map (·.secretType) =
        some .staleTtl ∧
      ((region.step "lww" "us" { now := 2, event := writeEvent "eu" 1 "b" }).1.db.secrets.get?
        (.nil, "p")).map (·.secretType) = some .staleTtl :=
  ⟨rfl, by decide +kernel, by decide +kernel⟩

/-! ## Any number of writing regions -/

/-- The order in which last-write-wins puts the writes: by time, and at equal
times by region. -/
def ReplicationEvent.stamp (e : ReplicationEvent) : Timestamp ×ₗ String :=
  toLex (e.createdAt, e.sourceRegion)

/-- What a write through the store leaves at its path: the labels come from the
request's metadata. -/
theorem current_put {db : PgSecretBackend} {req : PutRequest}
    (ht : Uuid.parseStr req.tenantId = some tid)
    {db' : PgSecretBackend} (hput : db.put freshId req = (db', .ok out))
    (hmax : 0 < asI32 (req.maxVersions.getD 10)) : db'.current tid req.path =
      some (some req.ciphertext, (PgSecretBackend.upsertRequest tid req).environment,
        (PgSecretBackend.upsertRequest tid req).tags) := by
  obtain ⟨s, hget, hlabels, -, hversion⟩ := PgSecretBackend.get?_put ht hput
  rw [Db.current, hget, Option.map_some, hversion hmax, hlabels]
  rfl

namespace Mesh

/-- A write of the path, or a region taking in what another has recorded. -/
def Replicates (tid : Uuid) (path : String) (m : Mesh) : Action → Prop
  | .write _ _ r _ _ => Uuid.parseStr r.tenantId = some tid ∧ r.path = path
  | .apply name a => WritesPath tid path a.event ∧ a.event.sourceRegion ≠ name ∧
      a.event ∈ m.seen a.event.sourceRegion

/-- A write that is later than what its region has seen, keeps at least its own
version and has no labels; an event that compares with the row's `updated_at`
as it does with the events seen. -/
def InOrder (tid : Uuid) (path : String) (m : Mesh) : Action → Prop
  | .write name _ r eventId createdAt =>
    (∀ b ∈ m.seen name, b.stamp < (secretUpsertEvent name eventId createdAt r).stamp) ∧
      0 < asI32 (r.maxVersions.getD 10) ∧ (PgSecretBackend.upsertRequest tid r).environment = .int ∧
      (PgSecretBackend.upsertRequest tid r).tags = []
  | .apply name a => ∀ s, (m.region name).secrets.get? (tid, path) = some s →
      (Newer name s.updatedAt a.event ↔ ∀ b ∈ m.seen name, b.stamp < a.event.stamp)

/-- Every region shows the latest write it has seen, without labels. -/
structure Ordered (tid : Uuid) (path : String) (m : Mesh) : Prop where
  shows : ∀ name, ∃ held, Latest ReplicationEvent.stamp (m.seen name) held ∧
    (m.region name).db.current tid path =
      held.map fun e => (e.ciphertext, SecretEnvironment.int, [])
  recorded : ∀ name, ∀ e ∈ m.seen name, e ∈ m.seen e.sourceRegion
  distinct : ∀ name, ∀ e ∈ m.seen name, ∀ f ∈ m.seen name,
    e.sourceRegion = name → f.sourceRegion = name → e.stamp = f.stamp → e = f

variable {m : Mesh} {name : String} {tid : Uuid} {path : String} {e : ReplicationEvent}
  {db : RegionDb}

theorem mem_seen_record {name' : String} {f : ReplicationEvent} :
    f ∈ (m.record name db e).seen name' ↔ f ∈ m.seen name' ∨ (name' = name ∧ f = e) := by
  by_cases h : name' = name
  · subst h
    simp [record]
  · simp [record, h]

/-- A region that takes an event in and shows the latest again. The event is its
own and has a stamp no other of its own has, or it was recorded elsewhere. -/
theorem Ordered.record (h : m.Ordered tid path)
    (hshows : ∃ held, Latest ReplicationEvent.stamp (m.seen name ++ [e]) held ∧
      db.db.current tid path = held.map fun e => (e.ciphertext, SecretEnvironment.int, []))
    (hevent : (e.sourceRegion = name ∧ ∀ b ∈ m.seen name, b.stamp ≠ e.stamp) ∨
      (e.sourceRegion ≠ name ∧ e ∈ m.seen e.sourceRegion)) :
    (m.record name db e).Ordered tid path := by
  refine ⟨fun name' => ?_, fun name' f hf => ?_, fun name' f hf g hg hfname hgname heq => ?_⟩
  · by_cases hname : name' = name
    · subst hname
      simpa [Mesh.record] using hshows
    · simpa [Mesh.record, hname] using h.shows name'
  · rw [mem_seen_record] at hf ⊢
    rcases hf with hf | ⟨-, rfl⟩
    · exact .inl (h.recorded name' f hf)
    · rcases hevent with ⟨hown, -⟩ | ⟨-, hmem⟩
      · exact .inr ⟨hown, rfl⟩
      · exact .inl hmem
  · rw [mem_seen_record] at hf hg
    rcases hf with hf | ⟨rfl, rfl⟩
    · rcases hg with hg | ⟨rfl, rfl⟩
      · exact h.distinct name' f hf g hg hfname hgname heq
      · rcases hevent with ⟨-, hnew⟩ | ⟨hother, -⟩
        · exact absurd heq (hnew f hf)
        · exact absurd hgname hother
    · rcases hg with hg | ⟨-, rfl⟩
      · rcases hevent with ⟨-, hnew⟩ | ⟨hother, -⟩
        · exact absurd heq.symm (hnew g hg)
        · exact absurd hfname hother
      · rfl

theorem Ordered.labels_eq (h : m.Ordered tid path) (name : String) :
    (((m.region name).secrets.get? (tid, path)).map Db.labels).getD (.int, []) = (.int, []) := by
  obtain ⟨held, -, hcurrent⟩ := h.shows name
  cases hrow : (m.region name).secrets.get? (tid, path) with
  | none => rfl
  | some s =>
    rw [Db.current, RegionDb.db, hrow] at hcurrent
    cases held with
    | none => cases hcurrent
    | some e => exact congrArg Prod.snd (Option.some.inj hcurrent)

theorem Ordered.row_of_seen (h : m.Ordered tid path) {b : ReplicationEvent}
    (hb : b ∈ m.seen name) : ∃ s, (m.region name).secrets.get? (tid, path) = some s := by
  obtain ⟨held, hlatest, hcurrent⟩ := h.shows name
  obtain ⟨c, rfl, -⟩ := hlatest.le_of_mem hb
  cases hrow : (m.region name).secrets.get? (tid, path) with
  | none =>
    rw [Db.current, RegionDb.db, hrow] at hcurrent
    cases hcurrent
  | some s => exact ⟨s, rfl⟩

variable {strategy : String}

theorem Ordered.accepts_iff (hlww : LastWriteWins strategy) (h : m.Ordered tid path)
    (horder : m.InOrder tid path (.apply name a)) :
    accepts strategy name tid path (m.region name) a.event = true ↔
      ∀ b ∈ m.seen name, b.stamp < a.event.stamp := by
  cases hrow : (m.region name).secrets.get? (tid, path) with
  | none =>
    refine iff_of_true (by rw [accepts, hrow]) fun b hb => ?_
    obtain ⟨s, hs⟩ := h.row_of_seen hb
    rw [hrow] at hs
    cases hs
  | some s => exact (accepts_iff_newer hlww hrow a.event).trans (horder s hrow)

theorem Ordered.write (h : m.Ordered tid path) {r : PutRequest} {eventId : Uuid}
    {createdAt : Timestamp} {db : Db}
    (hwrites : m.Replicates tid path (.write name freshId r eventId createdAt))
    (horder : m.InOrder tid path (.write name freshId r eventId createdAt))
    (hput : PgSecretBackend.put (m.region name).db freshId r = (db, .ok out)) :
    (m.record name ((m.region name).withDb db)
      (secretUpsertEvent name eventId createdAt r)).Ordered tid path := by
  obtain ⟨ht, rfl⟩ := hwrites
  obtain ⟨hlater, hmax, henv, htags⟩ := horder
  obtain ⟨held, hlatest, -⟩ := h.shows name
  refine h.record ⟨some _, hlatest.take fun b hb => ?_, ?_⟩ (.inl ⟨rfl, fun b hb => ?_⟩)
  · exact le_of_lt (hlater b (hlatest.mem hb))
  · have hcurrent := current_put ht hput hmax
    rw [henv, htags] at hcurrent
    exact hcurrent
  · exact ne_of_lt (hlater b hb)

theorem Ordered.apply (hlww : LastWriteWins strategy) (h : m.Ordered tid path)
    (hwrites : m.Replicates tid path (.apply name a))
    (horder : m.InOrder tid path (.apply name a))
    (hres : a.result strategy name (m.region name) = .ok db) :
    (m.record name db a.event).Ordered tid path := by
  obtain ⟨hpath, hother, hmem⟩ := hwrites
  obtain ⟨held, hlatest, hcurrent⟩ := h.shows name
  obtain ⟨htaken, hkept⟩ := result_secret hpath hres
  refine h.record ?_ (.inr ⟨hother, hmem⟩)
  cases haccepts : accepts strategy name tid path (m.region name) a.event with
  | true =>
    have hlater := (h.accepts_iff hlww horder).mp haccepts
    refine ⟨some a.event, hlatest.take fun b hb => ?_, ?_⟩
    · exact le_of_lt (hlater b (hlatest.mem hb))
    · rw [(htaken haccepts).2, h.labels_eq]
      rfl
  | false =>
    have hearlier : ¬ ∀ b ∈ m.seen name, b.stamp < a.event.stamp := fun hall => by
      rw [(h.accepts_iff hlww horder).mpr hall] at haccepts
      cases haccepts
    push Not at hearlier
    obtain ⟨b, hb, hle⟩ := hearlier
    obtain ⟨c, rfl, hbc⟩ := hlatest.le_of_mem hb
    rw [hkept haccepts]
    exact ⟨some c, hlatest.pass (le_trans hle hbc), hcurrent⟩

theorem Ordered.step (hlww : LastWriteWins strategy) (h : m.Ordered tid path) {x : Action}
    (hwrites : m.Replicates tid path x) (horder : m.InOrder tid path x) :
    (m.step strategy x).1.Ordered tid path := by
  cases x with
  | write name freshId r eventId createdAt =>
    rw [Mesh.step]
    split
    · next db out hput => exact h.write hwrites horder hput
    · exact h
  | apply name a =>
    rw [Mesh.step]
    split
    · next db hres => exact h.apply hlww hwrites horder hres
    · exact h

/-- Regions that have seen the same writes show the same ciphertext, environment
and tags, after any interleaving of writes and applications in order. -/
theorem regions_converge (hlww : LastWriteWins strategy) (m₀ : Mesh)
    (hnew : ∀ name, (m₀.region name).secrets.get? (tid, path) = none)
    (hunseen : ∀ name, m₀.seen name = []) (xs : List Action)
    (hwrites : Along (step strategy) (fun m x => m.Replicates tid path x) m₀ xs)
    (horder : Along (step strategy) (fun m x => m.InOrder tid path x) m₀ xs)
    (name name' : String)
    (hsame : ∀ e, e ∈ (run (step strategy) m₀ xs).seen name ↔
      e ∈ (run (step strategy) m₀ xs).seen name') :
    ((run (step strategy) m₀ xs).region name).db.current tid path =
      ((run (step strategy) m₀ xs).region name').db.current tid path := by
  have hempty : m₀.Ordered tid path := by
    refine ⟨fun n => ⟨none, ?_, ?_⟩, fun n e he => ?_, fun n e he => ?_⟩
    · rw [hunseen]
      exact Latest.nil
    · rw [Db.current, RegionDb.db, hnew]
      rfl
    · rw [hunseen] at he
      cases he
    · rw [hunseen] at he
      cases he
  have h : (run (step strategy) m₀ xs).Ordered tid path :=
    Along.invariant (Ordered tid path)
      (fun m x h hx => h.step hlww hx.1 hx.2) hempty (hwrites.and horder)
  obtain ⟨held, hlatest, hcurrent⟩ := h.shows name
  obtain ⟨held', hlatest', hcurrent'⟩ := h.shows name'
  -- events with one stamp come from one region, which recorded both
  have hinj : ∀ e ∈ (run (step strategy) m₀ xs).seen name,
      ∀ f ∈ (run (step strategy) m₀ xs).seen name, e.stamp = f.stamp → e = f := by
    intro e he f hf heq
    have hregion : f.sourceRegion = e.sourceRegion := (congrArg (fun x => (ofLex x).2) heq).symm
    exact h.distinct e.sourceRegion e (h.recorded name e he) f
      (hregion ▸ h.recorded name f hf) rfl hregion heq
  rw [hcurrent, hcurrent', hlatest.eq_of_same hlatest' hsame hinj]

def acme : Mesh := ⟨fun _ => Key.acmeRegion, fun _ => []⟩

theorem regions_converge_after_exchange :
    let xs : List Action :=
      [.write "eu" .nil (writeRequest 1 "a" ∅) .nil 1,
        .apply "us" { now := 3, event := writeEvent "eu" 1 "a" },
        .write "us" .nil (writeRequest 5 "b" ∅) .nil 5,
        .apply "eu" { now := 6, event := writeEvent "us" 5 "b" }]
    ((run (step "lww") acme xs).region "eu").db.current .nil "p" =
      ((run (step "lww") acme xs).region "us").db.current .nil "p" := by
  intro xs
  have heu : (run (step "lww") acme xs).seen "eu" =
      [writeEvent "eu" 1 "a", writeEvent "us" 5 "b"] := rfl
  have hus : (run (step "lww") acme xs).seen "us" =
      [writeEvent "eu" 1 "a", writeEvent "us" 5 "b"] := rfl
  have hlater : (writeEvent "eu" 1 "a").stamp < (writeEvent "us" 5 "b").stamp :=
    Prod.Lex.toLex_lt_toLex.mpr (.inl (by decide))
  refine regions_converge ⟨by decide, by decide⟩ acme (fun _ => rfl) (fun _ => rfl) xs
    ⟨⟨Uuid.parseStr_toString _, rfl⟩, ⟨writesPath_writeEvent _ _ _, by decide, List.mem_cons_self⟩,
      ⟨Uuid.parseStr_toString _, rfl⟩,
      ⟨writesPath_writeEvent _ _ _, by decide, List.mem_cons_of_mem _ List.mem_cons_self⟩, trivial⟩
    ⟨⟨fun b hb => absurd hb List.not_mem_nil, by decide, rfl, rfl⟩, fun s h => ?_,
      ⟨fun b hb => ?_, by decide, rfl, rfl⟩, fun s h => ?_, trivial⟩
    "eu" "us" (fun e => by rw [heu, hus])
  · cases h
  · rw [List.mem_singleton.mp hb]
    exact hlater
  · have hrow : s.updatedAt = 1 := by
      cases h
      rfl
    refine iff_of_true (.inl ?_) fun b hb => ?_
    · rw [hrow]
      decide
    · rw [List.mem_singleton.mp hb]
      exact hlater

/-- The peer's row does not get the labels of the write, and of two writes that
wait it takes the first. -/
theorem regions_differ :
    let labelled := run (step "lww") acme
      [.write "eu" .nil (writeRequest 1 "a" (AList.singleton "environment" "PROD")) .nil 1,
        .apply "us" { now := 3, event := writeEvent "eu" 1 "a" }]
    let waiting := run (step "lww") acme
      [.write "eu" .nil (writeRequest 1 "a" ∅) .nil 1,
        .write "eu" .nil (writeRequest 2 "b" ∅) .nil 2,
        .apply "us" { now := 10, event := writeEvent "eu" 1 "a" },
        .apply "us" { now := 11, event := writeEvent "eu" 2 "b" }]
    (labelled.region "eu").db.current .nil "p" = some (some "a", .prod, []) ∧
      (labelled.region "us").db.current .nil "p" = some (some "a", .int, []) ∧
      (waiting.region "eu").db.current .nil "p" = some (some "b", .int, []) ∧
      (waiting.region "us").db.current .nil "p" = some (some "a", .int, []) := by
  exact ⟨rfl, rfl, rfl, rfl⟩

end Mesh

end WslVault.ReplicationAgent
