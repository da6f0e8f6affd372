import Mathlib.Data.List.AList
import WslVault.Base.Run

/-!
# Leader election

`LeaderElector` of `crates/wslvault-cluster/src/leader.rs`: the electors of one service
compete for one advisory lock of PostgreSQL, each on a connection of its own. The lock
belongs to a session of the server, and the flag that `is_leader` reads is set from the
answer of the last round. A step is a stretch of one elector's loop between two waits, or
something the server does by itself. The table of cluster nodes is left out.
-/

namespace WslVault.Cluster

abbrev Session := Nat

structure Elector where
  lockConn : Option Session
  isLeader : Bool
  /-- What the server sent for the query under way: an error, or whether the lock was
  given. -/
  answer : Option (Except Unit Bool)

/-- How a lock query fails on a session that is alive. -/
inductive Fault where
  | notRun
  | answerLost

inductive Event where
  | start (i : Nat)
  /-- The process ends; the server learns of it later. -/
  | stop (i : Nat)
  /-- The connection is one from the pool, or a new one. -/
  | acquire (i : Nat) (conn : Option Session)
  | query (i : Nat) (fault : Option Fault)
  | receive (i : Nat)
  /-- The server ends a session. -/
  | lose (s : Session)

structure Election where
  /-- The session that has the lock. -/
  holder : Option Session
  alive : List Session
  /-- The electors that are running. -/
  electors : AList (fun _ : Nat => Elector)

namespace Election

variable (c : Election)

def setElector (i : Nat) (e : Elector) : Election :=
  { c with electors := c.electors.insert i e }

def Kept (s : Session) : Prop := ∃ x ∈ c.electors.entries, x.2.lockConn = some s

instance (c : Election) (s : Session) : Decidable (c.Kept s) :=
  inferInstanceAs (Decidable (∃ _ ∈ _, _))

def acquire (i : Nat) (e : Elector) : Option Session → Election
  | none => c.setElector i { e with isLeader := false }
  | some s =>
    if c.Kept s then c
    else { c with alive := c.alive.insert s }.setElector i { e with lockConn := some s }

/-- `pg_try_advisory_lock`: the lock is given to a session if it is free or the session
has it. -/
def tryLock (s : Session) : Election × Bool :=
  if c.holder = none ∨ c.holder = some s then ({ c with holder := some s }, true) else (c, false)

/-- `try_acquire_lock`, up to the answer that the server sends. -/
def query (c : Election) (s : Session) (fault : Option Fault) : Election × Except Unit Bool :=
  if s ∉ c.alive then (c, .error ())
  else
    match fault with
    | some .notRun => (c, .error ())
    | some .answerLost => ((c.tryLock s).1, .error ())
    | none => ((c.tryLock s).1, .ok (c.tryLock s).2)

def Elector.receive (e : Elector) : Except Unit Bool → Elector
  | .ok leads => { e with isLeader := leads, answer := none }
  | .error _ => { lockConn := none, isLeader := false, answer := none }

def step : Event → Election
  | .start i =>
    if i ∈ c.electors then c
    else c.setElector i { lockConn := none, isLeader := false, answer := none }
  | .stop i => { c with electors := c.electors.erase i }
  | .acquire i conn =>
    match c.electors.lookup i with
    | some e => if e.lockConn = none then c.acquire i e conn else c
    | none => c
  | .query i fault =>
    match c.electors.lookup i with
    | some e =>
      match e.lockConn, e.answer with
      | some s, none => (c.query s fault).1.setElector i
        { e with answer := some (c.query s fault).2 }
      | _, _ => c
    | none => c
  | .receive i =>
    match c.electors.lookup i with
    | some e =>
      match e.answer with
      | some answer => c.setElector i (Elector.receive e answer)
      | none => c
    | none => c
  | .lose s => { c with holder := c.holder.filter (· ≠ s), alive := c.alive.erase s }

def after (events : List Event) : Election :=
  Base.run (fun c e => (step c e, ())) { holder := none, alive := [], electors := ∅ } events

end Election

end WslVault.Cluster
