import WslVault.Base.Run
import WslVault.Core.Uuid
import WslVault.PolicyEngine.Evaluator

/-!
# The policy service

The policy stores (`store.rs`, `pg_store.rs`), the HTTP and gRPC handlers and the background
compilation task of `services/policy-engine/src`, as one state machine. A step is a call of
the store, or one critical section on the compiled snapshot. Handlers between two such steps
are in flight under an id; the compilation task is between its read of all policies and its
swap while it holds the snapshot it built.

Requests enter after authentication. A database call either succeeds or fails without
effect, as the event that makes it says (`dbOk`).
-/

namespace WslVault.PolicyEngine

open Core

/-- The two implementations of `PolicyStoreBackend`. -/
inductive Store where
  | memory (policies : AList (fun _ : PolicyKey => PolicyDocument))
  | postgres (rows : AList (fun _ : Uuid × String => PolicyDocument))

namespace Store

variable (store : Store) (dbOk : Bool)

def putPolicy (tenantId : String) (document : PolicyDocument) : Store :=
  match store with
  | memory policies => memory (policies.insert ⟨tenantId, document.name⟩ document)
  | postgres rows =>
    match Uuid.parseStr tenantId with
    | none => postgres rows
    | some tenant => if dbOk then postgres (rows.insert (tenant, document.name) document)
      else postgres rows

def getPolicy (tenantId name : String) : Option PolicyDocument :=
  match store with
  | memory policies => policies.lookup ⟨tenantId, name⟩
  | postgres rows =>
    match Uuid.parseStr tenantId with
    | none => none
    | some tenant => if dbOk then rows.lookup (tenant, name) else none

/-- The removed document. PostgreSQL never returns it. -/
def deletePolicy (tenantId name : String) : Store × Option PolicyDocument :=
  match store with
  | memory policies =>
    (memory (policies.erase ⟨tenantId, name⟩), policies.lookup ⟨tenantId, name⟩)
  | postgres rows =>
    match Uuid.parseStr tenantId with
    | none => (postgres rows, none)
    | some tenant =>
      if dbOk then (postgres (rows.erase (tenant, name)), none) else (postgres rows, none)

/-- Every policy with its tenant; PostgreSQL prints the tenant's UUID. -/
def getAll : List (String × PolicyDocument) :=
  match store with
  | memory policies => policies.entries.map fun e => (e.1.tenantId, e.2)
  | postgres rows => if dbOk then rows.entries.map fun e => (e.1.1.toString, e.2) else []

end Store

/-- The snapshot the compilation task builds from all policies. -/
def compile (docs : List (String × PolicyDocument)) : CompiledPolicies :=
  docs.foldl (fun compiled d => compiled.upsert d.1 d.2.name d.2.rules) ∅

/-! ## The running service -/

inductive Api where
  | http
  | grpc
  deriving DecidableEq, Repr

inductive Handler where
  /-- The store is written, the snapshot not yet. -/
  | putting (tenantId : String) (document : PolicyDocument)
  /-- The gRPC existence check passed. -/
  | deleting (tenantId name : String)
  /-- The store no longer has the policy, the snapshot may. -/
  | evicting (tenantId name : String)
  deriving DecidableEq

structure Service where
  store : Store
  compiled : CompiledPolicies
  /-- The snapshot the compilation task has built and not yet swapped in. -/
  building : Option CompiledPolicies
  inFlight : AList (fun _ : Nat => Handler)

def Service.start (store : Store) (dbOk : Bool) : Service where
  store := store
  compiled := compile (store.getAll dbOk)
  building := none
  inFlight := ∅

inductive Event where
  | put (id : Nat) (api : Api) (tenantId : String) (document : PolicyDocument) (dbOk : Bool)
  | delete (id : Nat) (api : Api) (tenantId name : String) (dbOk : Bool)
  | advance (id : Nat) (dbOk : Bool)
  | compileRead (dbOk : Bool)
  | compileSwap
  | authorize (api : Api) (tenantId : String) (policies : List String) (action resource : String)

inductive Reply where
  /-- The handler is in flight. -/
  | pending
  | stored
  | deleted
  | notFound (message : String)
  | invalidArgument (message : String)
  | decided (decision : PolicyDecision)
  /-- A step of the compilation task. -/
  | background
  /-- No handler or task is there to take the step. -/
  | idle
  deriving DecidableEq

/-- The request checks of the gRPC handlers, in order: what is empty and what
it is called. -/
def requireNonEmpty : List (String × String) → Option String
  | [] => none
  | (what, value) :: rest =>
    if value = "" then some s!"{what} must not be empty" else requireNonEmpty rest

namespace Service

variable (s : Service) (id : Nat)

def put (api : Api) (tenantId : String) (document : PolicyDocument)
    (dbOk : Bool) : Service × Reply :=
  match if api = .grpc then
      requireNonEmpty [("tenant_id", tenantId), ("policy name", document.name)] else none with
  | some message => (s, .invalidArgument message)
  | none =>
    ({ s with
        store := s.store.putPolicy dbOk tenantId document
        inFlight := s.inFlight.insert id (.putting tenantId document) }, .pending)

/-- Over HTTP a delete counts when the store returns the removed document. -/
def deleteHttp (tenantId name : String) (dbOk : Bool) : Service × Reply :=
  match s.store.deletePolicy dbOk tenantId name with
  | (store, some _) =>
    ({ s with store := store, inFlight := s.inFlight.insert id (.evicting tenantId name) },
      .pending)
  | (store, none) => ({ s with store := store }, .notFound "policy not found")

/-- Over gRPC a delete counts when a read before it finds the policy. -/
def deleteGrpc (tenantId name : String) (dbOk : Bool) : Service × Reply :=
  match requireNonEmpty [("tenant_id", tenantId), ("policy name", name)] with
  | some message => (s, .invalidArgument message)
  | none =>
    match s.store.getPolicy dbOk tenantId name with
    | none => (s, .notFound s!"policy '{name}' not found for tenant '{tenantId}'")
    | some _ => ({ s with inFlight := s.inFlight.insert id (.deleting tenantId name) }, .pending)

def advance (dbOk : Bool) : Service × Reply :=
  match s.inFlight.lookup id with
  | none => (s, .idle)
  | some (.putting tenantId document) =>
    ({ s with
        compiled := s.compiled.upsert tenantId document.name document.rules
        inFlight := s.inFlight.erase id }, .stored)
  | some (.deleting tenantId name) =>
    ({ s with
        store := (s.store.deletePolicy dbOk tenantId name).1
        inFlight := s.inFlight.insert id (.evicting tenantId name) }, .pending)
  | some (.evicting tenantId name) =>
    ({ s with
        compiled := s.compiled.remove tenantId name
        inFlight := s.inFlight.erase id }, .deleted)

def authorize (api : Api) (tenantId : String) (policies : List String)
    (action resource : String) : Reply :=
  match if api = .grpc then
      requireNonEmpty [("tenant_id", tenantId), ("action", action), ("resource", resource)]
    else none with
  | some message => .invalidArgument message
  | none => .decided (evaluate s.compiled tenantId policies action resource)

/-- One step. A new request takes an id that is not in use, and the
compilation task reads only after its last swap. -/
def step : Event → Service × Reply
  | .put id api tenantId document dbOk =>
    if (s.inFlight.lookup id).isSome then (s, .idle) else s.put id api tenantId document dbOk
  | .delete id api tenantId name dbOk =>
    if (s.inFlight.lookup id).isSome then (s, .idle)
    else
      match api with
      | .http => s.deleteHttp id tenantId name dbOk
      | .grpc => s.deleteGrpc id tenantId name dbOk
  | .advance id dbOk => s.advance id dbOk
  | .compileRead dbOk =>
    match s.building with
    | some _ => (s, .idle)
    | none => ({ s with building := some (compile (s.store.getAll dbOk)) }, .background)
  | .compileSwap =>
    match s.building with
    | none => (s, .idle)
    | some snapshot => ({ s with compiled := snapshot, building := none }, .background)
  | .authorize api tenantId policies action resource =>
    (s, s.authorize api tenantId policies action resource)

end Service

end WslVault.PolicyEngine
