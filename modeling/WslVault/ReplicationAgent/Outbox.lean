import WslVault.Base.Feed
import WslVault.Base.Run
import WslVault.ReplicationAgent.Applier

/-!
# The outbox and its consumers

A region serves the events of `system.replication_events` to its peers
(`services/replication-agent/src/producer.rs`), which poll for them and apply what they get
(`services/replication-agent/src/consumer.rs`). A peer keeps in `system.region_sequences`
a number of events, which the producer takes for an offset into all the rows of the outbox.
The events of equal `created_at` come in any order, that of `tie`.
-/

namespace WslVault.ReplicationAgent

open Core Base Storage

structure EventsQuery where
  sourceRegion : Option String
  (afterSeq limit : Option Int)

inductive QueryError where
  | negativeLimit
  | negativeOffset
  | database
  deriving DecidableEq, Repr

variable (tie : ReplicationEvent → Nat)

/-- The query of the handler: what other regions than the requesting one have
recorded after the row at the offset, or since the epoch if there is no row. -/
def selectEvents (outbox : List ReplicationEvent)
    (requestingRegion : String) (afterSeq limit : Int) :
    Except QueryError (List ReplicationEvent) :=
  if limit < 0 then .error .negativeLimit
  else if afterSeq < 0 then .error .negativeOffset
  else .ok (Feed.batch ReplicationEvent.createdAt tie 0 (·.sourceRegion != requestingRegion)
    limit.toNat outbox afterSeq.toNat)

/-- A query that fails is answered with no events, like a request that names no
region. -/
def getEventsHandler (queryFails : Bool)
    (outbox : List ReplicationEvent) (params : EventsQuery) : List ReplicationEvent :=
  let limit := min (params.limit.getD 100) 1000
  let afterSeq := params.afterSeq.getD 0
  match params.sourceRegion with
  | none => []
  | some requestingRegion =>
    let rows := if queryFails then .error .database
      else selectEvents tie outbox requestingRegion afterSeq limit
    rows.toOption.getD []

structure Replica where
  db : RegionDb
  applied : List ReplicationEvent

/-- An event whose application fails leaves the region as it was. -/
def Replica.step (strategy localRegion : String) (s : Replica) (a : Application) :
    Replica × Except ApplyError Unit :=
  match a.result strategy localRegion s.db with
  | .ok db => (⟨db, s.applied ++ [a.event]⟩, .ok ())
  | .error e => (s, .error e)

structure Config where
  localRegion : String
  batchSize : Nat
  conflictStrategy : String

/-- The consuming region; `sequences` has the rows of `system.region_sequences`
by region. -/
structure Consumer where
  replica : Replica
  sequences : String → Option Int

inductive PollError where
  | database
  | request
  deriving DecidableEq, Repr

def eventsLastSeq (events : List ReplicationEvent) (base : Int) : Option Int :=
  if events.isEmpty then none else some (base + events.length)

def applications (draws : Nat → Draw) (events : List ReplicationEvent) : List Application :=
  events.mapIdx fun i e => { draws i with event := e }

namespace Consumer

def getLastSequence (c : Consumer) (regionId : String) : Int := (c.sequences regionId).getD 0

def updateLastSequence (c : Consumer) (regionId : String) (sequence : Int) : Consumer :=
  { c with sequences := Function.update c.sequences regionId (some sequence) }

/-- Every event of the batch is tried, whether or not those before it failed. -/
def applyEvents (config : Config) (draws : Nat → Draw) (c : Consumer)
    (events : List ReplicationEvent) : Consumer :=
  { c with
    replica := run (Replica.step config.conflictStrategy config.localRegion) c.replica
      (applications draws events) }

/-- `serve` is the answer of the peer; `readFails` and `updateFails` are the
failures of the two statements on `system.region_sequences`. -/
def fetchAndApplyEvents (config : Config) (regionId : String)
    (serve : EventsQuery → Except PollError (List ReplicationEvent)) (draws : Nat → Draw)
    (readFails updateFails : Bool) (c : Consumer) : Consumer × Except PollError Nat :=
  if readFails then (c, .error .database)
  else
    let lastSeq := c.getLastSequence regionId
    match serve ⟨some config.localRegion, some lastSeq, some config.batchSize⟩ with
    | .error e => (c, .error e)
    | .ok events =>
      let c' := c.applyEvents config draws events
      match eventsLastSeq events lastSeq with
      | none => (c', .ok events.length)
      | some seq =>
        if updateFails then (c', .error .database)
        else (c'.updateLastSequence regionId seq, .ok events.length)

end Consumer

/-- The outbox of a region and the peer that polls it, with all the events the
peer was ever given. -/
structure Link where
  outbox : List ReplicationEvent
  consumer : Consumer
  delivered : List ReplicationEvent

structure Faults where
  readFails : Bool := false
  requestFails : Bool := false
  queryFails : Bool := false
  updateFails : Bool := false

inductive LinkEvent where
  | record (e : ReplicationEvent)
  | poll (tie : ReplicationEvent → Nat) (draws : Nat → Draw) (faults : Faults)

namespace Link

def serve (l : Link) (tie : ReplicationEvent → Nat) (faults : Faults) (q : EventsQuery) :
    Except PollError (List ReplicationEvent) :=
  if faults.requestFails then .error .request
  else .ok (getEventsHandler tie faults.queryFails l.outbox q)

def answer (config : Config) (regionId : String) (l : Link) (tie : ReplicationEvent → Nat)
    (faults : Faults) : Option (List ReplicationEvent) :=
  if faults.readFails then none
  else (l.serve tie faults ⟨some config.localRegion,
    some (l.consumer.getLastSequence regionId), some config.batchSize⟩).toOption

/-- `regionId` is the producer's name at the peer. A poll is answered with the
events it brought. -/
def step (config : Config) (regionId : String) (l : Link) :
    LinkEvent → Link × Option (List ReplicationEvent)
  | .record e => ({ l with outbox := l.outbox ++ [e] }, none)
  | .poll tie draws faults =>
    ({ l with
        consumer := (l.consumer.fetchAndApplyEvents config regionId (l.serve tie faults) draws
          faults.readFails faults.updateFails).1
        delivered := l.delivered ++ (l.answer config regionId tie faults).getD [] },
      l.answer config regionId tie faults)

end Link

end WslVault.ReplicationAgent
