import WslVault.IdentityService.Redemption
import WslVault.IdentityService.Verify.Invitations

/-!
# One key for an invitation

The key is made from a read that nothing protects. What was read stays right, as the tenant
and the policies of an invitation are fixed by the request that draws the token (`Grant`).
That a token is redeemed once rests on the lock of the redeeming `UPDATE`: from there to the
commit the invitation is unused in what is committed, and nobody else can use or delete it.
-/

namespace WslVault.IdentityService.Invitations

open Core Base Storage InvitationStore

variable {state : InvitationState} {digest : String → String} {hashKey : String → List UInt8}
  {doomed : InvitationRow → Bool}

/-! ## What a statement can do -/

section Statements

variable (digest : String → String) (hashKey : String → List UInt8) (db : Database)
  (others : List (Request × Phase))

inductive Moves : Request → Phase → Phase → Prop where
  | creating {identity tenantId req draw tenantUuid tenant}
      (h : invitedTenant tenantId req = .ok tenantUuid) :
      Moves (.create identity tenantId req draw) .start
        (.creating tenantUuid tenant)
  | previewing {token invitation} :
      Moves (.preview token) .start (.previewing invitation)
  | found {token secret keyId pending}
      (h : findByToken digest db.invitations token = some pending) :
      Moves (.accept token secret keyId) .start (.found pending)
  | live {token secret keyId pending tenant} :
      Moves (.accept token secret keyId) (.found pending)
        (.live pending tenant)
  | opened {token secret keyId pending tenant} (draw : Draw) :
      Moves (.accept token secret keyId) (.live pending tenant)
        (.opened ⟨tokenHash digest token, tenant,
          (mintInvited hashKey draw pending).1, (mintInvited hashKey draw pending).2, draw.now⟩)
  | inserted {token secret keyId r stored} (h : ApiKeyStore.storedRow r.key = .ok stored)
      (hfree : ∀ k ∈ db.keys, ¬ k.Clash stored) (hothers : clashes others stored = false) :
      Moves (.accept token secret keyId) (.opened r)
        (.inserted { r with key := stored })
  | missed {token secret keyId r} :
      Moves (.accept token secret keyId) (.inserted r) (.missed r)
  | claimed {token secret keyId r claimed}
      (h : claim db.invitations r.hash r.since r.key.id = some claimed)
      (hothers : isLocked others claimed.2 = false) :
      Moves (.accept token secret keyId) (.inserted r) (.claimed r)

/-- The redemption that a reply is the end of. -/
def Response.redeemed? : Response → Option AcceptResponse
  | .accepted response | .lost _ response => some response
  | _ => none

/-- The statements that end their request, with what they leave. -/
inductive Ends : Request → Phase → Database → Response → Prop where
  | same {request phase reply} (h : reply.redeemed? = none) : Ends request phase db reply
  | created {identity tenantId req draw tenantUuid tenant invitations' invitation token response}
      (now : Timestamp)
      (h : recordInvitation digest draw now db.tenants db.invitations identity tenantUuid req =
        .ok (invitations', invitation, token)) :
      Ends (.create identity tenantId req draw) (.creating tenantUuid tenant)
        { db with invitations := invitations' } (.created response)
  | redeemed {token secret keyId r keys' invitations' invitation reply}
      (hkeys : db.keys.insert? r.key = some keys')
      (hclaim : claim db.invitations r.hash r.since r.key.id =
        some (invitations', invitation))
      (hreply : reply.redeemed? = some (acceptResponse r.rawKey r.tenant invitation)) :
      Ends (.accept token secret keyId) (.claimed r)
        { db with keys := keys', invitations := invitations' } reply
  | deleted {request phase reply} (doomed : InvitationRow → Bool)
      (hfree : ∀ i ∈ db.invitations, doomed i = true → isLocked others i = false)
      (h : reply.redeemed? = none) :
      Ends request phase { db with invitations := db.invitations.delete doomed } reply
  | tenants {tenants} :
      Ends (.setTenants tenants) .start { db with tenants := tenants } .done

def Does (request : Request) (phase : Phase) : Statement → Prop
  | .wait => True
  | .goOn next => Moves digest hashKey db others request phase next
  | .finish db' reply => Ends digest db others request phase db' reply

end Statements

section Inversion

variable {db db' : Database} {others : List (Request × Phase)} {m : Moment} {request : Request}
  {phase next : Phase} {reply : Response}

theorem does_refuse (e : ErrorResponse) :
    Does digest hashKey db others request phase (refuse db e) :=
  Ends.same rfl

section

variable (token : String) (secret : Bytes) (keyId : Uuid)

include token secret keyId

end

end Inversion

/-- What an invitation confers, by the digest of its token. -/
structure Grant where
  hash : String
  tenantId : Uuid
  policies : List String
  deriving DecidableEq

def grantOfRow (i : InvitationRow) : Grant := ⟨i.tokenHash, i.tenantId, i.policies⟩

def grantOf (digest : String → String) : Request → Option Grant
  | .create _ tenantId req draw => do
    let raw ← draw.token
    let tenantUuid ← (invitedTenant tenantId req).toOption
    return ⟨tokenHash digest (generateToken raw), tenantUuid, invitedPolicies req⟩
  | _ => none

/-- The invitations that are there, and those that requests are to make. -/
def grants (digest : String → String) (db : Database) (requests : List Request) : List Grant :=
  db.invitations.rows.map grantOfRow ++ requests.filterMap (grantOf digest)

def Fresh (digest : String → String) (db : Database) (requests : List Request) : Prop :=
  ((grants digest db requests).map Grant.hash).Nodup

/-- The redemption that took effect, if a request was one. -/
def redemption? : Request × Response → Option (String × AcceptResponse)
  | (.accept token _ _, reply) => reply.redeemed?.map (token, ·)
  | _ => none

def redemptions (replies : List (Request × Response)) : List (String × AcceptResponse) :=
  replies.filterMap redemption?

/-- The key was committed, and its caller told that the invitation is not valid. -/
def isLost : Request × Response → Bool
  | (.accept .., .lost ..) => true
  | _ => false

/-- The redemptions whose callers got the key. -/
def accepted (replies : List (Request × Response)) : List (String × AcceptResponse) :=
  redemptions (replies.filter (!isLost ·))

/-- The key that a redemption left is one that its invitation confers. -/
structure MintedFor (digest : String → String) (hashKey : String → List UInt8)
    (promised : List Grant) (answer : String × AcceptResponse) (row : ApiKeyRow) : Prop where
  key : row.keyHash = hashKey answer.2.apiKey
  granted : ⟨tokenHash digest answer.1, row.tenantId, row.policies⟩ ∈ promised
  plain : row.isSuperuser = false

/-! ## The invariant -/

structure Terms where
  digest : String → String
  hashKey : String → List UInt8
  promised : List Grant

/-- What a run has come to. -/
structure Ledger extends Terms where
  initial : Database
  answered : List (String × AcceptResponse)

structure Settled (l : Ledger) (db : Database) : Prop where
  keys : ∃ minted, db.keys.rows = l.initial.keys.rows ++ minted ∧
    List.Forall₂ (MintedFor l.digest l.hashKey l.promised) l.answered minted
  once : (l.answered.map fun a => tokenHash l.digest a.1).Nodup
  rows : ∀ i ∈ db.invitations, grantOfRow i ∈ l.promised
  unique : (db.invitations.rows.map InvitationRow.tokenHash).Nodup
  spent : ∀ a ∈ l.answered, ∀ i ∈ db.invitations,
    i.tokenHash = tokenHash l.digest a.1 → i.usedAt.isSome = true

structure Read (l : Terms) (token : String) (pending : InvitationRow) : Prop where
  hash : pending.tokenHash = tokenHash l.digest token
  granted : grantOfRow pending ∈ l.promised

structure Bound (l : Terms) (token : String) (r : Redemption) : Prop where
  hash : r.hash = tokenHash l.digest token
  key : r.key.keyHash = l.hashKey r.rawKey
  granted : ⟨r.hash, r.key.tenantId, r.key.policies⟩ ∈ l.promised
  plain : r.key.isSuperuser = false

/-- The invitation of a redemption is still to be claimed. -/
def Held (db : Database) (r : Redemption) : Prop :=
  ∃ i ∈ db.invitations, claimable r.hash r.since i = true

/-- An invitation that no row and no redemption is about yet. -/
structure Unissued (l : Ledger) (db : Database) (hash : String) : Prop where
  rows : ∀ i ∈ db.invitations, i.tokenHash ≠ hash
  answers : ∀ a ∈ l.answered, tokenHash l.digest a.1 ≠ hash

def Stands (l : Terms) : Request → Phase → Prop
  | .create _ tenantId req _, .creating tenantUuid _ => invitedTenant tenantId req = .ok tenantUuid
  | .accept token _ _, .found pending | .accept token _ _, .live pending _ => Read l token pending
  | .accept token _ _, .opened r | .accept token _ _, .inserted r | .accept token _ _, .missed r
  | .accept token _ _, .claimed r => Bound l token r
  | _, _ => True

structure InOrder (l : Ledger) (db : Database) (x : Request × Phase) : Prop where
  stands : Stands l.toTerms x.1 x.2
  held : ∀ r, x.2 = .claimed r → Held db r
  unissued : ∀ g, grantOf l.digest x.1 = some g → g ∈ l.promised ∧ Unissued l db g.hash
  free : ∀ key, x.2.uncommitted = some key → ∀ k ∈ db.keys, ¬ k.Clash key

structure Apart (digest : String → String) (x y : Request × Phase) : Prop where
  keys : ∀ k l, x.2.uncommitted = some k → y.2.uncommitted = some l → ¬ k.Clash l
  locks : ∀ hash, x.2.locked = some hash → y.2.locked ≠ some hash
  grants : ∀ g g', grantOf digest x.1 = some g → grantOf digest y.1 = some g' → g.hash ≠ g'.hash

theorem Apart.symm {x y : Request × Phase} (h : Apart digest x y) : Apart digest y x where
  keys := fun k l hk hl hclash => h.keys l k hl hk hclash.symm
  locks := fun hash hy hx => h.locks hash hx hy
  grants := fun g g' hg hg' heq => h.grants g' g hg' hg heq.symm

variable {l : Ledger} {db db' : Database} {promised : List Grant} {others : List (Request × Phase)}
  {request : Request} {phase next : Phase} {reply : Response} {x y : Request × Phase}

theorem Settled.mono (h : Settled l db) (hsub : l.promised ⊆ promised) :
    Settled { l with promised := promised } db := by
  obtain ⟨minted, hrows, hminted⟩ := h.keys
  exact ⟨⟨minted, hrows, hminted.imp fun _ _ hm => ⟨hm.key, hsub hm.granted, hm.plain⟩⟩, h.once,
    fun i hi => hsub (h.rows i hi), h.unique, h.spent⟩

theorem InOrder.mono (h : InOrder l db x) (hsub : l.promised ⊆ promised) :
    InOrder { l with promised := promised } db x where
  stands := by
    have hstands := h.stands
    unfold Stands at hstands ⊢
    split at hstands
    · exact hstands
    iterate 2 exact ⟨hstands.hash, hsub hstands.granted⟩
    iterate 4 exact ⟨hstands.hash, hstands.key, hsub hstands.granted, hstands.plain⟩
    · trivial
  held := h.held
  unissued := fun g hg => (h.unissued g hg).imp (hsub ·) fun hu => ⟨hu.rows, hu.answers⟩
  free := h.free

theorem Settled.known (h : Settled l db) {a : String × AcceptResponse} (ha : a ∈ l.answered) :
    tokenHash l.digest a.1 ∈ l.promised.map Grant.hash := by
  obtain ⟨minted, -, hminted⟩ := h.keys
  have hknown := (List.forall₂_and_left (p := fun a => tokenHash l.digest a.1 ∈
    l.promised.map Grant.hash) l.answered minted).mp (hminted.imp fun _ _ hrow =>
      ⟨List.mem_map.mpr ⟨_, hrow.granted, rfl⟩, hrow⟩)
  exact hknown.1 a ha

section Arrive

variable (hfresh : ∀ g, grantOf l.digest request = some g → g.hash ∉ l.promised.map Grant.hash)

include hfresh

end Arrive

variable {r : Redemption} {invitations' : InvitationTable} {invitation i : InvitationRow}

section

variable (hdb : Settled l db) (hx : InOrder l db (request, phase))
  (h : Moves l.digest l.hashKey db others request phase next)

include hdb hx h

end

variable {token : String}

structure Redeems (db : Database) (r : Redemption) (db' : Database) : Prop where
  keys : db'.keys.rows = db.keys.rows ++ [r.key]
  invitations : db'.invitations = db.invitations.update (claimable r.hash r.since)
      (InvitationRow.use r.since r.key.id) (InvitationRow.id_use r.since r.key.id)

theorem Redeems.mem (h : Redeems db r db') (hi : i ∈ db'.invitations) :
    ∃ old ∈ db.invitations, grantOfRow i = grantOfRow old ∧
      (old.usedAt.isSome = true → i.usedAt.isSome = true) ∧
      (claimable r.hash r.since old = true → i.usedAt.isSome = true) := by
  rw [h.invitations] at hi
  obtain ⟨old, hold, rfl⟩ := (Table.mem_update _).mp hi
  refine ⟨old, hold, ?_⟩
  split
  · exact ⟨rfl, fun _ => rfl, fun _ => rfl⟩
  · next hno => exact ⟨rfl, id, fun hclaimable => absurd hclaimable hno⟩

variable {response : AcceptResponse} (served : List (Event × Option (Request × Response)))

def Ledger.answer (l : Ledger) (x : Request × Response) : Ledger :=
  { l with answered := l.answered ++ (redemption? x).toList }

def replies : List (Request × Response) := served.filterMap Prod.snd

def requests : List Request := Sessions.arrivals (served.map Prod.fst)

def Orderly (l : Ledger) (s : Sessions Database Request Phase) : Prop :=
  Sessions.Valid (Settled l) (InOrder l) (Apart l.digest) s

variable {initial : Database}

/-- What the handler of a redemption leaves, and its reply. -/
def redeemed (db : Database) :
    Except ErrorResponse (ApiKeyTable × InvitationTable × AcceptResponse) → Database × Response
  | .error e => (db, .refused e)
  | .ok (keys, invitations, response) =>
    ({ db with keys := keys, invitations := invitations }, .accepted response)

/-- A redemption that nobody comes between does, statement by statement, what the handler does
at once. -/
theorem accept_alone (state : InvitationState) (digest : String → String)
    (hashKey : String → List UInt8) (db : Database) (token : String) (draw : Draw) :
    Tasks.alone (Sessions.turns (advance state digest hashKey))
        (.accept token draw.secret draw.id) (List.replicate 6 ⟨draw.now, false, false⟩) db .start =
      some (redeemed db
        (acceptInvitation digest hashKey draw db.tenants db.keys db.invitations token)) := by
  simp only [acceptInvitation, List.replicate, Tasks.alone, Sessions.turns, advance,
    startAccept, readInvitation, Bool.false_eq_true, if_false]
  cases findRedeemable digest draw.now db.invitations token with
  | error e => rfl
  | ok pending =>
  dsimp only [bind, Except.bind, Progress.turn, findTenant, readTenant]
  simp only [Bool.false_eq_true, if_false]
  cases loadLiveTenant db.tenants pending.tenantId with
  | error e => rfl
  | ok tenant =>
  dsimp only [Progress.turn, begin]
  generalize mintInvited hashKey draw pending = minted
  simp only [Bool.false_eq_true, if_false, insertKey, InvitationStore.redeem]
  cases hinsert : ApiKeyStore.insert db.tenants db.keys minted.2 with
  | error e => cases ApiKeyStore.storedRow minted.2 <;> rfl
  | ok keys =>
  obtain ⟨stored, hstored, hfree, hrows, -⟩ := ApiKeyStore.insert_eq_ok.mp hinsert
  have hkeys : db.keys.insert? stored = some keys :=
    Table.insert?_eq_some.mpr ⟨fun k hk hid => hfree k hk (.inl hid), hrows⟩
  have hid : stored.id = minted.2.id := by
    obtain ⟨_, _, _, rfl⟩ := ApiKeyStore.storedRow_eq_ok hstored
    rfl
  simp only [hstored, clashes, List.any_nil, Bool.false_eq_true, if_false, claimInvitation, hid]
  cases hclaim : InvitationStore.claim db.invitations (InvitationStore.tokenHash digest token)
      draw.now minted.2.id with
  | none => rfl
  | some claimed =>
  simp only [isLocked, List.any_nil, Bool.false_eq_true, if_false, commit, hkeys, hid, hclaim]
  rfl

end WslVault.IdentityService.Invitations
