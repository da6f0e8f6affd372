import WslVault.Storage.SecretLifecycle

/-!
# Conflict resolution

The strategies of `services/replication-agent/src/conflict.rs` by which a region
decides between a peer's write and its own copy of a secret. Region names are
compared as texts; the bytes of UTF-8 and the code points of a text are in the
same order.
-/

namespace WslVault.ReplicationAgent

open Core Storage

inductive Resolution where
  | acceptRemote
  | keepLocal
  | manualReview
  deriving DecidableEq, Repr

structure ConflictContext where
  localUpdatedAt : Option Timestamp
  remoteUpdatedAt : Timestamp
  (localVectorClock remoteVectorClock : VectorClock)
  (localRegion remoteRegion : String)
  deriving DecidableEq

variable (ctx : ConflictContext)

/-- The tiebreak of both automatic strategies: the greater name wins. -/
def tiebreak : Resolution :=
  if ctx.remoteRegion > ctx.localRegion then .acceptRemote else .keepLocal

def resolveLww : Resolution :=
  match ctx.localUpdatedAt with
  | none => .acceptRemote
  | some localTs =>
    if ctx.remoteUpdatedAt > localTs then .acceptRemote
    else if ctx.remoteUpdatedAt < localTs then .keepLocal
    else tiebreak ctx

/-- The first clock is at least the second in each of its own entries, and
greater in one. A missing entry of the second reads as 0. -/
def dominates (clock other : VectorClock) : Bool :=
  (clock.all fun (region, seq) => seq ≥ (other.lookup region).getD 0) &&
    clock.any fun (region, seq) => seq > (other.lookup region).getD 0

def resolveVectorClock : Resolution :=
  if dominates ctx.remoteVectorClock ctx.localVectorClock then .acceptRemote
  else if dominates ctx.localVectorClock ctx.remoteVectorClock then .keepLocal
  else tiebreak ctx

def resolve (strategy : String) (ctx : ConflictContext) : Resolution :=
  match strategy with
  | "vector_clock" => resolveVectorClock ctx
  | "manual" => .manualReview
  | _ => resolveLww ctx

/-- Last-write-wins accepts a later write, and at equal times that of the
greater region. -/
theorem resolveLww_eq_acceptRemote {ctx : ConflictContext} {localTs : Timestamp}
    (h : ctx.localUpdatedAt = some localTs) : resolveLww ctx = .acceptRemote ↔
      localTs < ctx.remoteUpdatedAt ∨
        (localTs = ctx.remoteUpdatedAt ∧ ctx.localRegion < ctx.remoteRegion) := by
  simp only [resolveLww, h, tiebreak, gt_iff_lt]
  split
  · next hlt => simp [hlt]
  · next hle =>
    split
    · next hlt =>
      have hne : localTs ≠ ctx.remoteUpdatedAt := Int.ne_of_gt hlt
      simp [hle, hne]
    · next hge =>
      have heq : localTs = ctx.remoteUpdatedAt :=
        Int.le_antisymm (Int.not_lt.mp hge) (Int.not_lt.mp hle)
      simp [heq]

end WslVault.ReplicationAgent
