import WslVault.ReplicationAgent.Source
import WslVault.ReplicationAgent.Verify.Secrets

/-!
# Deletions and the peers

A region records an event for a write and for nothing else. A peer that has taken every
event of a path serves the data of the last write recorded for it (`Follows`).
-/

namespace WslVault.ReplicationAgent

open Core Base Storage SecretEngine

instance (tid : Uuid) (path : String) (e : ReplicationEvent) : Decidable (WritesPath tid path e) :=
  decidable_of_iff (e.eventType = .secretUpsert ∧
      (e.payload.texts.lookup "tenant_id").bind Uuid.ofPg = some tid ∧
      e.payload.texts.lookup "path" = some path)
    ⟨fun ⟨htype, htenant, hpath⟩ => ⟨htype, htenant, hpath⟩, fun h => ⟨h.type, h.tenant, h.path⟩⟩

def lastWrite (tid : Uuid) (path : String) (events : List ReplicationEvent) :
    Option ReplicationEvent :=
  (events.filter fun e => WritesPath tid path e).getLast?

theorem lastWrite_concat (tid : Uuid) (path : String) (events : List ReplicationEvent)
    (e : ReplicationEvent) : lastWrite tid path (events ++ [e]) =
      if WritesPath tid path e then some e else lastWrite tid path events := by
  rw [lastWrite, List.filter_append]
  split
  · next h => simp [h]
  · next h => simp [h, lastWrite]

/-- The outbox is told of puts alone. -/
theorem Source.outbox_run (region : String) (s : Source)
    (hs : ∀ e ∈ s.outbox, e.eventType = .secretUpsert) (calls : List SecretCall) :
    ∀ e ∈ (run (Source.step region) s calls).outbox, e.eventType = .secretUpsert := by
  refine run_invariant (Source.step region)
    (fun s => ∀ e ∈ s.outbox, e.eventType = .secretUpsert) (fun s call hs => ?_) hs calls
  cases call with
  | put freshId r recorded =>
    simp only [Source.step]
    split
    · exact hs
    · intro e he
      rcases List.mem_append.mp he with he | he
      · exact hs e he
      · obtain ⟨stamp, -, rfl⟩ := Option.map_eq_some_iff.mp (Option.mem_toList.mp he)
        rfl
  | softDelete now tenantId path versions => exact hs
  | destroy now tenantId path versions => exact hs
  | initiateRotation now freshId tenantId path ciphertext dekId by_ webhookUrl timeoutSecs =>
    exact hs
  | confirmRotation now tenantId rotationId by_ => exact hs
  | rollback now tenantId path target by_ => exact hs

/-! ## The peer -/

def Newest (db : Db) (tid : Uuid) (path : String) (v : VersionRow) : Prop :=
  ∃ sid, db.idAt tid path = some sid ∧ v ∈ db.rowsOf sid ∧ v.live = true ∧
    ∀ w ∈ db.rowsOf sid, w.version ≤ v.version

theorem get_of_newest {db : Db} (h : db.lifecycle.Inv) {tenantId : String} {tid : Uuid}
    (ht : Uuid.parseStr tenantId = some tid) {path : String} {v : VersionRow}
    (hv : Newest db tid path v) :
    PgSecretBackend.get db tenantId path none = .ok (entryOfRow v) := by
  obtain ⟨sid, hid, hmem, hlive, hmax⟩ := hv
  obtain ⟨s, hs, hkey, rfl⟩ := Db.idAt_eq_some.mp hid
  obtain ⟨hv, hvid⟩ := Db.mem_rowsOf.mp hmem
  exact PgSecretBackend.get_none_of_newest ht hs hkey h hv hvid hlive
    fun w hw hwid _ => hmax w (Db.mem_rowsOf.mpr ⟨hw, hwid⟩)

/-- The tables after a replicated write was taken, up to the columns that say
where it came from. -/
structure Took (now : Timestamp) (freshId : Uuid) (p : UpsertParams) (r r' : RegionDb) : Prop where
  wrote : ∃ db out, r.db.upsertSecret now freshId p = .ok (db, out) ∧
    r'.db.lifecycle = db.lifecycle ∧ (∀ t path, r'.db.idAt t path = db.idAt t path) ∧
    ∀ sid, r'.db.rowsOf sid = db.rowsOf sid

variable {now : Timestamp} {freshId : Uuid} {p : UpsertParams} {r r' : RegionDb}

theorem took_of_acceptSecret {e : ReplicationEvent} (h : r.acceptSecret now freshId e p = .ok r') :
    Took now freshId p r r' := by
  obtain ⟨db, out, hup, rfl⟩ := RegionDb.acceptSecret_eq_ok h
  refine ⟨db, out, hup, ?_, fun t path => ?_, fun _ => rfl⟩
  · have hpointers : (db.secrets.update (fun s => s.pathKey == (p.tenantId, p.path))
        (fun s => (RegionDb.setOrigin e s).touch now)
        (RegionDb.pathKey_setOrigin now e)).rows.map (·.pointer) =
        db.secrets.rows.map (·.pointer) :=
      Table.map_rows_update _ fun _ _ _ => rfl
    exact congrArg (fun pointers => (⟨pointers, db.lifecycle.numbers,
      db.lifecycle.rotations⟩ : Lifecycle)) hpointers
  · exact Db.idAt_update db (f := fun s : SecretRow => (RegionDb.setOrigin e s).touch now)
      (RegionDb.pathKey_setOrigin now e) (fun _ => rfl) t path

/-- The peer serves the data of the last write it has applied of the path. -/
structure Follows (tid : Uuid) (path : String) (s : Replica) : Prop where
  inv : s.db.db.lifecycle.Inv
  absent : lastWrite tid path s.applied = none → s.db.db.idAt tid path = none
  serves : ∀ e, lastWrite tid path s.applied = some e →
    ∃ v, Newest s.db.db tid path v ∧ e.ciphertext = some v.ciphertext ∧ e.dekId = some v.dekId

section Peer

variable {strategy localRegion : String} {tid : Uuid} {path : String}

section

variable (h : Took now freshId p r r') (hinv : r.db.lifecycle.Inv)

include h hinv

theorem Took.inv :
    r'.db.lifecycle.Inv := by
  obtain ⟨db, out, hup, hlifecycle, -, -⟩ := h.wrote
  rw [hlifecycle]
  exact Db.inv_upsert hinv hup

theorem Took.newest (hmax : 0 < p.maxVersions) :
    ∃ v, Newest r'.db p.tenantId p.path v ∧ v.ciphertext = p.ciphertext ∧ v.dekId = p.dekId := by
  obtain ⟨db, ⟨sid, n⟩, hup, -, hid, hrows⟩ := h.wrote
  obtain ⟨hmem, hnewest⟩ := Db.newest_upsertSecret hinv hup hmax
  refine ⟨p.newVersion now sid n, ⟨sid, ?_, ?_, rfl, ?_⟩, rfl, rfl⟩
  · rw [hid, (Db.upsertSecret_rows hup).1, if_pos rfl]
  · rw [hrows]
    exact hmem
  · rw [hrows]
    exact hnewest

theorem Took.other
    (hne : (tid, path) ≠ (p.tenantId, p.path)) : r'.db.idAt tid path = r.db.idAt tid path ∧
      ∀ v, Newest r.db tid path v → Newest r'.db tid path v := by
  obtain ⟨db, ⟨sid, n⟩, hup, -, hid, hrows⟩ := h.wrote
  have hinv' := Db.inv_upsert hinv hup
  have hidAt : db.idAt tid path = r.db.idAt tid path := by
    rw [(Db.upsertSecret_rows hup).1, if_neg hne]
  refine ⟨(hid tid path).trans hidAt, ?_⟩
  rintro v ⟨sid', hsid', hmem, hlive, hmax⟩
  -- the two paths have different secrets after the write
  have hother : sid' ≠ sid := by
    rintro rfl
    have hwritten : db.idAt p.tenantId p.path = some sid' := by
      rw [(Db.upsertSecret_rows hup).1, if_pos rfl]
    exact hne (Db.path_eq_of_idAt hinv' (hidAt.trans hsid') hwritten)
  have hsame : r'.db.rowsOf sid' = r.db.rowsOf sid' := by
    rw [hrows, (Db.upsertSecret_rows hup).2, if_neg hother]
  exact ⟨sid', (hid tid path).trans (hidAt.trans hsid'), hsame ▸ hmem, hlive, hsame ▸ hmax⟩

end

theorem follows_step {s : Replica} {a : Application} (hs : Follows tid path s)
    (htype : a.event.eventType = .secretUpsert)
    (hok : (a.result strategy localRegion s.db).isOk = true)
    (haccepts : WritesPath tid path a.event →
      accepts strategy localRegion tid path s.db a.event = true) :
    Follows tid path (s.step strategy localRegion a).1 := by
  obtain ⟨db, hres, hstep⟩ := Replica.step_of_isOk hok
  obtain ⟨tid', path', ciphertext, dekId, hwrites, hcipher, hdek, hcase⟩ := result_upsert htype hres
  rw [hstep]
  by_cases hpath : WritesPath tid path a.event
  · obtain ⟨rfl, rfl⟩ := Prod.mk.inj (hpath.unique hwrites)
    rcases hcase with ⟨hrefused, -⟩ | ⟨-, hok⟩
    · rw [haccepts hpath] at hrefused
      cases hrefused
    · have htook := took_of_acceptSecret hok
      have hmax : 0 < (RegionDb.replicatedWrite tid path ciphertext dekId).maxVersions :=
        (by decide : (0 : Int) < 10)
      obtain ⟨v, hv, hvc, hvd⟩ := htook.newest hs.inv hmax
      refine ⟨htook.inv hs.inv, fun hnone => ?_, fun e he => ?_⟩
      · rw [lastWrite_concat, if_pos hpath] at hnone
        cases hnone
      · rw [lastWrite_concat, if_pos hpath] at he
        cases he
        exact ⟨v, hv, hcipher.trans (congrArg some hvc.symm), hdek.trans (congrArg some hvd.symm)⟩
  · have hne : (tid, path) ≠ (tid', path') := by
      rintro heq
      obtain ⟨rfl, rfl⟩ := Prod.mk.inj heq
      exact hpath hwrites
    have hlast : lastWrite tid path (s.applied ++ [a.event]) = lastWrite tid path s.applied := by
      rw [lastWrite_concat, if_neg hpath]
    rcases hcase with ⟨-, rfl⟩ | ⟨-, hok⟩
    · exact ⟨hs.inv, fun h => hs.absent (hlast ▸ h), fun e he => hs.serves e (hlast ▸ he)⟩
    · have htook := took_of_acceptSecret hok
      obtain ⟨hidAt, hnewest⟩ := htook.other hs.inv hne
      refine ⟨htook.inv hs.inv, fun h => hidAt.trans (hs.absent (hlast ▸ h)), fun e he => ?_⟩
      obtain ⟨v, hv, hdata⟩ := hs.serves e (hlast ▸ he)
      exact ⟨v, hnewest v hv, hdata⟩

end Peer

/-- The region's own tables hold the data in a version of the path that is
neither deleted nor destroyed. -/
def LiveData (db : Db) (tid : Uuid) (path ciphertext dekId : String) : Prop :=
  ∃ v ∈ db.rowsAt tid path, v.live = true ∧ v.ciphertext = ciphertext ∧ v.dekId = dekId

/-- A peer without the path applies the outbox of a run of calls in order, and
takes every event of the path. What it then serves is live at the source exactly
if the data of the last write recorded for the path is. -/
theorem deletions_replicate_iff (strategy localRegion sourceRegion : String) (tenants : List Uuid)
    (calls : List SecretCall) (tenantId path : String) (tid : Uuid)
    (ht : Uuid.parseStr tenantId = some tid) (r : RegionDb) (hinv : r.db.lifecycle.Inv)
    (hnew : r.db.idAt tid path = none) (as : List Application)
    (hevents : as.map (·.event) =
      (run (Source.step sourceRegion) ⟨.empty tenants, []⟩ calls).outbox)
    (hok : Along (Replica.step strategy localRegion)
      (fun s a => (a.result strategy localRegion s.db).isOk = true ∧ (WritesPath tid path a.event →
          accepts strategy localRegion tid path s.db a.event = true)) ⟨r, []⟩ as) :
    (∀ entry, PgSecretBackend.get (run (Replica.step strategy localRegion) ⟨r, []⟩ as).db.db
        tenantId path none = .ok entry →
      LiveData (run (Source.step sourceRegion) ⟨.empty tenants, []⟩ calls).db tid path
        entry.ciphertext entry.dekId) ↔
    (∀ e ciphertext dekId, lastWrite tid path
        (run (Source.step sourceRegion) ⟨.empty tenants, []⟩ calls).outbox = some e →
      e.ciphertext = some ciphertext → e.dekId = some dekId →
      LiveData (run (Source.step sourceRegion) ⟨.empty tenants, []⟩ calls).db tid path
        ciphertext dekId) := by
  have htypes : ∀ a ∈ as, a.event.eventType = .secretUpsert := by
    intro a ha
    refine Source.outbox_run sourceRegion ⟨.empty tenants, []⟩
      (fun e he => absurd he List.not_mem_nil) calls a.event ?_
    rw [← hevents]
    exact List.mem_map_of_mem ha
  have hfollows : Follows tid path (run (Replica.step strategy localRegion) ⟨r, []⟩ as) :=
    (hok.and_forall htypes).invariant (Follows tid path)
      (fun s a hs h => follows_step hs h.2 h.1.1 h.1.2)
      ⟨hinv, fun _ => hnew, fun e he => by cases he⟩
  have happlied : (run (Replica.step strategy localRegion) ⟨r, []⟩ as).applied =
      (run (Source.step sourceRegion) ⟨.empty tenants, []⟩ calls).outbox := by
    rw [Replica.applied_run (hok.imp fun s a h => h.1), List.nil_append, hevents]
  rw [← happlied]
  constructor
  · intro h e ciphertext dekId hlast hcipher hdek
    obtain ⟨v, hv, hvc, hvd⟩ := hfollows.serves e hlast
    have hget := h _ (get_of_newest hfollows.inv ht hv)
    rw [hcipher] at hvc
    rw [hdek] at hvd
    rw [Option.some.inj hvc, Option.some.inj hvd]
    exact hget
  · intro h entry hget
    cases hlast : lastWrite tid path
        (run (Replica.step strategy localRegion) ⟨r, []⟩ as).applied with
    | none =>
      have hno := Db.idAt_eq_none.mp (hfollows.absent hlast)
      rw [PgSecretBackend.get_of_absent ht hno] at hget
      cases hget
    | some e =>
      obtain ⟨v, hv, hvc, hvd⟩ := hfollows.serves e hlast
      rw [get_of_newest hfollows.inv ht hv] at hget
      cases hget
      exact h e v.ciphertext v.dekId hlast hvc hvd

def twoWrites (later : SecretCall) : List SecretCall :=
  [.put .max (writeRequest 1 "a" ∅) (some (.nil, 1)),
    .put .max (writeRequest 5 "b" ∅) (some (.nil, 5)), later]

def sourceAfter (calls : List SecretCall) : Source :=
  run (Source.step "eu") ⟨.empty [.nil], []⟩ calls

def applyInTurn : List Application :=
  [{ now := 3, event := writeEvent "eu" 1 "a" }, { now := 6, event := writeEvent "eu" 5 "b" }]

theorem deletions_replicate_of_older : ∃ entry, PgSecretBackend.get
        (run (Replica.step "lww" "us") ⟨Key.acmeRegion, []⟩ applyInTurn).db.db
        Uuid.nil.toString "p" none = .ok entry ∧
      LiveData (sourceAfter (twoWrites (.softDelete 7 Uuid.nil.toString "p" [1]))).db .nil "p"
        entry.ciphertext entry.dekId := by
  have hevent : lastWrite .nil "p"
      (sourceAfter (twoWrites (.softDelete 7 Uuid.nil.toString "p" [1]))).outbox =
      some (writeEvent "eu" 5 "b") := rfl
  refine ⟨_, rfl, (deletions_replicate_iff "lww" "us" "eu" [.nil]
    (twoWrites (.softDelete 7 Uuid.nil.toString "p" [1])) Uuid.nil.toString "p" .nil
    (by decide +kernel) Key.acmeRegion Lifecycle.inv_empty rfl applyInTurn rfl
    ⟨⟨rfl, fun _ => rfl⟩, ⟨rfl, fun _ => rfl⟩, trivial⟩).mpr ?_ _ rfl⟩
  intro e ciphertext dekId hlast hcipher hdek
  cases hlast.symm.trans hevent
  cases hcipher
  cases hdek
  exact ⟨_, List.mem_cons_of_mem _ List.mem_cons_self, rfl, rfl, rfl⟩

/-- A deletion or destruction of the version written last does not reach the
peer, which has nothing more to apply: the source has no version to give, the
peer gives the data that is gone. -/
theorem deletions_stay_at_source :
    let deleted := sourceAfter (twoWrites (.softDelete 7 Uuid.nil.toString "p" [1, 2]))
    let destroyed := sourceAfter (twoWrites (.destroy 7 Uuid.nil.toString "p" []))
    let peer := run (Replica.step "lww" "us") ⟨Key.acmeRegion, []⟩ applyInTurn
    deleted.outbox = applyInTurn.map (·.event) ∧ destroyed.outbox = applyInTurn.map (·.event) ∧
      deleted.db.get Uuid.nil.toString "p" none = .error (.secretNotFound "p" none) ∧
      destroyed.db.get Uuid.nil.toString "p" none = .error (.secretNotFound "p" none) ∧
      (peer.db.db.rowsAt .nil "p").map (fun v => (v.version, v.ciphertext, v.live)) =
        [(1, "a", true), (2, "b", true)] ∧
      (PgSecretBackend.get peer.db.db Uuid.nil.toString "p" none).map (·.ciphertext) =
        .ok "b" := by
  exact ⟨rfl, rfl, rfl, rfl, rfl, rfl⟩

end WslVault.ReplicationAgent
