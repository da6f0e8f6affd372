import WslVault.AuditService.Append

/-!
# The audit chain does not fork

A writer that has read the tip of a tenant's chain holds the tenant's lock until it has
committed, so the tip is still there then (`Ready`).
-/

namespace WslVault.AuditService

open Core Base Storage Storage.AuditStore

def records (rows : List AuditRow) (tenantId : Uuid) : List AuditRow :=
  rows.filter (isChained tenantId)

/-- The rows are numbered from 1 on, and each has the signature of the one before. -/
def Links (es : List AuditRow) : Prop :=
  Chain.Linked num AuditRow.signature AuditRow.prevHash 0 (some "") es

structure Chained (rows : List AuditRow) : Prop where
  linked : ∀ tenantId, Links (records rows tenantId)
  signed : ∀ tenantId, ∀ row ∈ records rows tenantId, row.signature.isSome = true

structure IsTip (rows : List AuditRow) (tenantId : Uuid) (seq : Int) (prevHash : String) :
    Prop where
  seq : seq = (records rows tenantId).length + 1
  prevHash : some prevHash = Chain.tip AuditRow.signature (some "") (records rows tenantId)

variable {rows : List AuditRow} {tenantId : Uuid}

theorem chained_nil : Chained [] where
  linked := fun _ => trivial
  signed := by simp [records]

theorem ordered_eq (h : Links (records rows tenantId)) :
    ordered rows tenantId = records rows tenantId :=
  h.pairwise.insertionSort_eq

theorem isTip_auditChainTip (h : Chained rows) (tenantId : Uuid) :
    IsTip rows tenantId (((auditChainTip rows tenantId).getD (0, "")).1 + 1)
      ((auditChainTip rows tenantId).getD (0, "")).2 := by
  rw [auditChainTip, ordered_eq (h.linked tenantId)]
  cases hlast : (records rows tenantId).getLast? with
  | none =>
    rw [List.getLast?_eq_none_iff] at hlast
    exact ⟨by simp [hlast], by simp [hlast, Chain.tip]⟩
  | some row =>
    have hnum := (h.linked tenantId).num_last hlast
    have hsigned := h.signed tenantId row (List.mem_of_getLast? hlast)
    obtain ⟨signature, hsignature⟩ := Option.isSome_iff_exists.mp hsigned
    constructor
    · simp only [Option.map_some, Option.getD_some]
      omega
    · simp only [Chain.tip, hlast, Option.map_some, Option.getD_some, hsignature]

variable {row : AuditRow}

theorem records_concat_of_ne (h : row.tenantId ≠ tenantId) :
    records (rows ++ [row]) tenantId = records rows tenantId := by
  simp [records, isChained, h]

theorem records_concat (h : row.seq.isSome = true) :
    records (rows ++ [row]) row.tenantId = records rows row.tenantId ++ [row] := by
  simp [records, isChained, h]

variable {seq : Int} {prevHash : String}

theorem IsTip.concat (h : IsTip rows tenantId seq prevHash) (hne : row.tenantId ≠ tenantId) :
    IsTip (rows ++ [row]) tenantId seq prevHash := by
  constructor
  · rw [records_concat_of_ne hne]
    exact h.seq
  · rw [records_concat_of_ne hne]
    exact h.prevHash

structure Fits (rows : List AuditRow) (row : AuditRow) (seq : Int) (prevHash : String) : Prop where
  place : IsTip rows row.tenantId seq prevHash
  seq : row.seq = some seq
  prevHash : row.prevHash = some prevHash
  signed : row.signature.isSome = true

/-- What an append has read, or inserted, goes on from the tip. -/
def Ready (rows : List AuditRow) : Append × Phase → Prop
  | (_, .start) | (_, .begun _) | (_, .locked _) => True
  | (_, .linked tenantId seq prevHash) => IsTip rows tenantId seq prevHash
  | (_, .inserted row) => ∃ seq prevHash, Fits rows row seq prevHash

def Apart (hashtext : String → Int) (x y : Append × Phase) : Prop :=
  ∀ s t, x.2.lock = some s → y.2.lock = some t → hashtext s.toString ≠ hashtext t.toString

theorem Chained.concat (h : Chained rows)
    (hrow : Fits rows row seq prevHash) : Chained (rows ++ [row]) := by
  have hsome : row.seq.isSome = true := by rw [hrow.seq]; rfl
  constructor
  · intro t
    by_cases ht : row.tenantId = t
    · subst ht
      rw [records_concat hsome]
      refine Chain.linked_concat.mpr ⟨h.linked _, ?_, ?_⟩
      · rw [num, hrow.seq, Option.getD_some, hrow.place.seq]
        omega
      · rw [hrow.prevHash, hrow.place.prevHash]
    · rw [records_concat_of_ne ht]
      exact h.linked t
  · intro t r hr
    by_cases ht : row.tenantId = t
    · subst ht
      rw [records_concat hsome, List.mem_append, List.mem_singleton] at hr
      rcases hr with hr | rfl
      · exact h.signed _ r hr
      · exact hrow.signed
    · rw [records_concat_of_ne ht] at hr
      exact h.signed t r hr

variable {hashtext : String → Int}

/-- A commit leaves the other writers' places as they are: they hold other locks. -/
theorem Ready.concat {x y : Append × Phase}
    (hlock : x.2.lock = some row.tenantId) (hapart : Apart hashtext x y) (hy : Ready rows y) :
    Ready (rows ++ [row]) y := by
  have hother : ∀ t, y.2.lock = some t → row.tenantId ≠ t := by
    intro t ht heq
    exact hapart row.tenantId t hlock ht (by rw [heq])
  obtain ⟨a, phase⟩ := y
  cases phase with
  | start => trivial
  | begun t => trivial
  | locked t => trivial
  | linked t seq prevHash => exact IsTip.concat hy (hother t rfl)
  | inserted r =>
    obtain ⟨seq, prevHash, hfits⟩ := hy
    exact ⟨seq, prevHash, { hfits with place := hfits.place.concat (hother r.tenantId rfl) }⟩

/-! ## One statement -/

structure Inserts (pg : PgTypes) (tenantId : Uuid) (event : StoredAuditEvent)
    (signature : String) (seq : Int) (prevHash : String) (row : AuditRow) : Prop where
  noNul : [event.principalId, event.action, event.resource, event.outcome, event.outcomeDetail,
    event.clientIp].any hasNul = false
  details : jsonb pg event.details = some row.details
  clientIp : castInet pg (clientIpOrNull event.clientIp) = some row.clientIp
  tenantId : row.tenantId = tenantId
  texts : row.id = event.id ∧ row.principalId = event.principalId ∧ row.action = event.action ∧
    row.resource = event.resource ∧ row.outcome = event.outcome ∧
    row.outcomeDetail = some event.outcomeDetail
  timestamp : row.timestamp = toTimestamptz event.timestamp
  signature : row.signature = some signature
  seq : row.seq = some seq
  prevHash : row.prevHash = some prevHash

section

variable {pg : PgTypes} {event : StoredAuditEvent} {signature : String}
  (h : chainedRow pg tenantId event signature seq prevHash = some row)
include h

theorem chainedRow_eq_some : Inserts pg tenantId event signature seq prevHash row := by
  unfold chainedRow at h
  split at h
  · cases h
  · next hnul =>
    obtain ⟨details, hdetails, h⟩ := Option.bind_eq_some_iff.mp h
    obtain ⟨clientIp, hip, h⟩ := Option.bind_eq_some_iff.mp h
    cases h
    exact ⟨Bool.not_eq_true _ ▸ hnul, hdetails, hip, rfl, ⟨rfl, rfl, rfl, rfl, rfl, rfl⟩,
      rfl, rfl, rfl, rfl⟩

theorem fits_chainedRow (hplace : IsTip rows tenantId seq prevHash) :
    row.tenantId = tenantId ∧ Fits rows row seq prevHash := by
  have hrow := chainedRow_eq_some h
  have htenant := hrow.tenantId
  subst htenant
  exact ⟨rfl, hplace, hrow.seq, hrow.prevHash, by rw [hrow.signature]; rfl⟩

end

section Statement

variable (pg : PgTypes) (hashtext : String → Int) (rows) (others : List (Append × Phase))
  (a : Append)

inductive Goes : Phase → Phase → Prop where
  | begin {tenantId : Uuid} (h : Uuid.parseStr a.event.tenantId = some tenantId) :
    Goes .start (.begun tenantId)
  | lock {tenantId : Uuid} (h : isLocked hashtext others tenantId = false) :
    Goes (.begun tenantId) (.locked tenantId)
  | readTip {tenantId : Uuid} : Goes (.locked tenantId)
      (.linked tenantId (((auditChainTip rows tenantId).getD (0, "")).1 + 1)
        ((auditChainTip rows tenantId).getD (0, "")).2)
  | insert {tenantId : Uuid} {seq : Int} {prevHash : String} {row : AuditRow}
      (h : chainedRow pg tenantId a.event (a.sign seq prevHash) seq prevHash = some row) :
    Goes (.linked tenantId seq prevHash) (.inserted row)

/-- All that a statement can do: only a commit writes, the row that was inserted, and only a
commit succeeds. -/
inductive Turns :
    Phase → Progress (List AuditRow) Phase (Except VaultError (Int × String)) → Prop where
  | waits {phase} : Turns phase .wait
  | goes {phase next} (h : Goes rows pg hashtext others a phase next) : Turns phase (.goOn next)
  | fails {phase e} : Turns phase (.finish rows (.error e))
  | commits {row : AuditRow} {reply} : Turns (.inserted row) (.finish (rows ++ [row]) reply)

variable {pg hashtext rows others a} {fate : Fate} {phase next : Phase}

theorem turns_of_advance
    {result : Progress (List AuditRow) Phase (Except VaultError (Int × String))}
    (h : advance pg hashtext rows others fate a phase = result) :
    Turns rows pg hashtext others a phase result := by
  subst h
  cases phase with
  | start =>
    simp only [advance, begin]
    split
    · exact .fails
    · next tenantId ht =>
      split
      · exact .fails
      · exact .goes (.begin ht)
  | begun t =>
    simp only [advance, lockChain]
    split
    · exact .fails
    · split
      · exact .waits
      · next hfree => exact .goes (.lock (Bool.not_eq_true _ ▸ hfree))
  | locked t =>
    simp only [advance, readTip]
    split
    · exact .fails
    · exact .goes .readTip
  | linked t seq prevHash =>
    simp only [advance, insertRow]
    split
    · next row _ hrow => exact .goes (.insert hrow)
    · exact .fails
    · exact .fails
  | inserted row =>
    simp only [advance, commit]
    split
    · split
      · exact .commits
      · exact .fails
    · exact .commits

theorem Goes.ready (h : Goes rows pg hashtext others a phase next) (hrows : Chained rows)
    (hready : Ready rows (a, phase)) : Ready rows (a, next) := by
  cases h with
  | begin _ => trivial
  | lock _ => trivial
  | readTip => exact isTip_auditChainTip hrows _
  | insert hrow => exact ⟨_, _, (fits_chainedRow hrow hready).2⟩

theorem Goes.takes (h : Goes rows pg hashtext others a phase next) :
    next.lock = none ∨ next.lock = phase.lock ∨
      ∃ t, next.lock = some t ∧ isLocked hashtext others t = false := by
  cases h with
  | begin _ => exact .inl rfl
  | lock hfree => exact .inr (.inr ⟨_, rfl, hfree⟩)
  | readTip => exact .inr (.inl rfl)
  | insert hrow => exact .inr (.inl (congrArg some (chainedRow_eq_some hrow).tenantId))

end Statement

theorem apart_of_isLocked {others : List (Append × Phase)} {t : Uuid}
    {x y : Append × Phase} (hx : x.2.lock = some t) (hfree : isLocked hashtext others t = false)
    (hy : y ∈ others) : Apart hashtext x y ∧ Apart hashtext y x := by
  have hne : ∀ holder, y.2.lock = some holder → hashtext holder.toString ≠ hashtext t.toString := by
    intro holder hholder
    have hone := List.any_eq_false.mp hfree y hy
    simpa [hholder] using hone
  constructor
  · intro s u hs hu
    cases hx.symm.trans hs
    exact (hne u hu).symm
  · intro s u hs hu
    cases hx.symm.trans hu
    exact hne s hs

abbrev Sound (hashtext : String → Int) : AppendSessions → Prop :=
  Sessions.Valid Chained Ready (Apart hashtext)

/-- No two appends hold the lock of one tenant, so each links to the last row. -/
theorem sound_step (pg : PgTypes) (hashtext : String → Int) (s : AppendSessions) (e : Event)
    (h : Sound hashtext s) : Sound hashtext (step pg hashtext s e).1 := by
  have hunlocked : ∀ (a : Append) (phase : Phase) (y : Append × Phase), phase.lock = none →
      Apart hashtext (a, phase) y ∧ Apart hashtext y (a, phase) := by
    intro a phase y hnone
    constructor
    · intro s t hs
      cases hnone.symm.trans hs
    · intro s t _ ht
      cases hnone.symm.trans ht
  rw [step, Sessions.step]
  refine Tasks.valid_step .start _ h ?_ ?_ ?_ ?_
  · exact fun _ => ⟨h.db, fun x hx => hx⟩
  · exact fun i a _ _ => ⟨trivial, fun y _ => hunlocked a .start y rfl⟩
  · intro i fate a phase rows' next _ hi hadvance _
    obtain ⟨rfl, hgoOn⟩ := Sessions.turn_eq_goOn.mp hadvance
    obtain _ | hgoes := turns_of_advance hgoOn
    refine ⟨h.db, hgoes.ready h.db (h.session i _ hi), fun y hy => ⟨h.others hy, ?_⟩⟩
    rcases hgoes.takes with hnone | hsame | ⟨t, ht, hfree⟩
    · exact hunlocked a next y hnone
    · obtain ⟨hxy, hyx⟩ := h.pair_others hi hy
      constructor
      · exact fun s t hs ht => hxy s t (hsame.symm.trans hs) ht
      · exact fun s t hs ht => hyx s t hs (hsame.symm.trans ht)
    · exact apart_of_isLocked ht hfree hy
  · intro i fate a phase rows' reply _ hi hadvance _
    cases turns_of_advance (Sessions.turn_eq_finish.mp hadvance) with
    | fails => exact ⟨h.db, fun y hy => h.others hy⟩
    | commits =>
      obtain ⟨seq, prevHash, hfits⟩ := h.session i _ hi
      refine ⟨h.db.concat hfits, fun y hy => ?_⟩
      exact (h.others hy).concat rfl (h.pair_others hi hy).1

theorem chained_run (pg : PgTypes) (hashtext : String → Int)
    (h : Chained rows) (events : List Event) :
    Chained (run (step pg hashtext) (Sessions.idle rows) events).db :=
  (run_invariant (step pg hashtext) (Sound hashtext) (sound_step pg hashtext)
    (Sessions.valid_idle h) events).db

/-- Whatever appends are made, in any order and with any failures: a tenant's committed
records are numbered from 1 on, the first has no hash before it, and every other one has the
signature of the one before. -/
theorem chain_never_forks (pg : PgTypes) (hashtext : String → Int) {rows : List AuditRow}
    (h : Chained rows) (events : List Event) (tenantId : Uuid) (k : Nat) (row : AuditRow)
    (hrow : (records (run (step pg hashtext) (Sessions.idle rows) events).db tenantId)[k]? =
      some row) :
    row.seq = some (k + 1 : Int) ∧ (k = 0 → row.prevHash = some "") ∧
      ∀ j prior, k = j + 1 →
        (records (run (step pg hashtext) (Sessions.idle rows) events).db tenantId)[j]? =
          some prior →
        row.prevHash = prior.signature ∧ prior.signature.isSome = true := by
  have hchained := chained_run pg hashtext h events
  obtain ⟨hnum, hfirst, hlater⟩ := (hchained.linked tenantId).place hrow
  have hmem := (List.mem_filter.mp (List.mem_of_getElem? hrow)).2
  obtain ⟨seq, hseq⟩ := Option.isSome_iff_exists.mp (Bool.and_eq_true_iff.mp hmem).2
  refine ⟨?_, hfirst, fun j prior hj hprior => ⟨hlater j prior hj hprior, ?_⟩⟩
  · rw [num, hseq, Option.getD_some] at hnum
    rw [hseq, hnum]
    congr 1
    omega
  · exact hchained.signed tenantId prior (List.mem_of_getElem? hprior)

/-- A database that takes no IPv6 address, and keeps numbers as they are. -/
def plainTypes : PgTypes where
  inet6 := fun _ => none
  number := .float
  inet6_noNul := by
    intro cs text h
    cases h

def acme : Uuid := Uuid.repeated 'a' (.refl true)

def globex : Uuid := Uuid.repeated 'b' (.refl true)

def login (tenantId : Uuid) : Append where
  event :=
    { id := Uuid.nil
      tenantId := tenantId.toString
      principalId := "alice"
      action := "auth.login"
      resource := ""
      outcome := "success"
      outcomeDetail := ""
      details := .null
      clientIp := ""
      signature := ""
      timestamp := 0
      seq := 0
      prevHash := "" }
  sign := fun seq _ => if seq = 1 then "first" else if seq = 2 then "second" else "third"

def logins : List Event :=
  [.arrive 1 (login acme), .arrive 2 (login acme), .arrive 3 (login globex)] ++
    (List.replicate 12 [.resume 1 {}, .resume 2 {}, .resume 3 {}]).flatten

theorem chain_never_forks_logins :
    ∃ row, (records (run (step plainTypes fun _ => 0) (Sessions.idle []) logins).db acme)[1]? =
      some row ∧ row.seq = some 2 ∧ row.prevHash = some "first" := by
  set_option maxRecDepth 2000 in
  have h := chain_never_forks plainTypes (fun _ => 0) chained_nil logins acme 1 _ rfl
  exact ⟨_, rfl, h.1, (h.2.2 0 _ rfl rfl).1⟩

end WslVault.AuditService
