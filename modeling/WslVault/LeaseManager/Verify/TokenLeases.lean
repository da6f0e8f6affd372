import WslVault.IdentityService.Verify.Revocation
import WslVault.LeaseManager.Verify.Leases

/-!
# Leases of tokens

The lease manager tells the identity service when a lease is revoked over HTTP or expires in
a sweep, and hands over the lease's end as the time until which the token counts as revoked.
A revocation over gRPC tells nobody, and the lease's end may come before the token's. Where
neither happens (`Lasting`), the list holds the token until its expiry (`Holds`) from the
moment its lease has ended. The first end that is recorded for a token stays, so this is
asked of every lease of the token.
-/

namespace WslVault.LeaseManager

open Core Base Storage
open IdentityService (Moment RevocationList Tokens isRevoked)

variable {r : LeaseRecord}

namespace LeaseRecord

def tokenHash (r : LeaseRecord) : Option String := r.tokenRevocation.map (·.1)

theorem tokenHash_congr {r' : LeaseRecord} (htype : r'.targetType = r.targetType)
    (hdata : r'.targetData = r.targetData) : r'.tokenHash = r.tokenHash := by
  unfold tokenHash tokenRevocation
  rw [htype, hdata]
  split
  · rfl
  · split
    · rfl
    · rfl

theorem tokenRevocation_of_tokenHash {hash : String} (h : r.tokenHash = some hash) :
    ∃ principalId, r.tokenRevocation = some (hash, principalId, r.expiresAt / 1000000) := by
  obtain ⟨⟨_, principalId, expiresAt⟩, hrevocation, rfl⟩ := Option.map_eq_some_iff.mp h
  refine ⟨principalId, ?_⟩
  rw [hrevocation]
  unfold tokenRevocation at hrevocation
  split at hrevocation
  · cases hrevocation
  · split at hrevocation
    · cases hrevocation
      rfl
    · cases hrevocation

end LeaseRecord

variable {m : Moment}

section List

variable (hash : String) (exp : Int)

def Holds : RevocationList → Prop
  | .database rows => ∃ row ∈ rows, row.tokenHash = hash ∧ seconds exp ≤ row.expiresAt
  | .memory hashes => hash ∈ hashes

/-- No end before the token's expiry is recorded for it. -/
def Untouched : RevocationList → Prop
  | .database rows => ∀ row ∈ rows, row.tokenHash = hash → seconds exp ≤ row.expiresAt
  | .memory _ => True

def Durable : RevocationList → Prop
  | .database _ => True
  | .memory _ => False

/-- The lease's end, in whole seconds, is not before the token's. -/
def Covers (r : LeaseRecord) : Prop :=
  0 < r.expiresAt / 1000000 ∧ exp ≤ r.expiresAt / 1000000

variable {hash exp} {list : RevocationList}

theorem Holds.isRevoked {tokens : Tokens} {token : String}
    (h : Holds (tokens.digest token) exp list) {now : Timestamp} (hnow : now < seconds exp) :
    isRevoked tokens list ⟨now, none⟩ token = true := by
  cases list with
  | database rows =>
    obtain ⟨row, hrow, hhash, hend⟩ := h
    exact IdentityService.isRevoked_database.mpr ⟨row, hrow, hhash, hnow.trans_le hend⟩
  | memory hashes => exact List.contains_iff_mem.mpr h

theorem revokeByHash_eq_ok {rows rows' : RevokedTokens} {fault : Option String} {now : Timestamp}
    {tokenHash tenantId principalId : String} {expiresAt : Int}
    (h : RevocationStore.revokeByHash rows fault now tokenHash tenantId principalId expiresAt =
      .ok rows') :
    rows' = RevocationStore.insert rows
      ⟨tokenHash, tenantId, principalId, seconds expiresAt, now⟩ := by
  unfold RevocationStore.revokeByHash at h
  split at h
  · cases h
  · exact IdentityService.record_eq_ok h

theorem mem_insert {rows : RevokedTokens} {new row : RevokedToken} :
    row ∈ RevocationStore.insert rows new ↔
      row ∈ rows ∨ row = new ∧ rows.get? new.tokenHash = none := by
  have hget := IdentityService.get?_insert rows new row.tokenHash
  constructor
  · intro h
    rw [Table.get?_eq_some.mpr ⟨h, rfl⟩] at hget
    cases hold : rows.get? row.tokenHash with
    | some old =>
      rw [hold, Option.some_or] at hget
      cases hget
      exact .inl (Table.get?_eq_some.mp hold).1
    | none =>
      rw [hold, Option.none_or] at hget
      split at hget
      · next hhash =>
        cases hget
        exact .inr ⟨rfl, hold⟩
      · cases hget
  · rintro (h | ⟨rfl, hnone⟩)
    · rw [Table.get?_eq_some.mpr ⟨h, rfl⟩, Option.some_or] at hget
      exact (Table.get?_eq_some.mp hget).1
    · rw [hnone, Option.none_or, if_pos rfl] at hget
      exact (Table.get?_eq_some.mp hget).1

theorem Holds.reap (h : Holds hash exp list)
    (hnow : m.now < seconds exp) : Holds hash exp (IdentityService.reap list m) := by
  unfold IdentityService.reap
  split
  · obtain ⟨row, hrow, hhash, hend⟩ := h
    have hkept : ¬ row.expiresAt < m.now := not_lt.mpr (hnow.le.trans hend)
    exact ⟨row, Table.mem_delete.mpr ⟨hrow, decide_eq_false hkept⟩, hhash, hend⟩
  · exact h

theorem Untouched.reap (h : Untouched hash exp list) :
    Untouched hash exp (IdentityService.reap list m) := by
  unfold IdentityService.reap
  split
  · exact fun row hrow => h row (Table.mem_delete.mp hrow).1
  · exact h

end List

/-! ## Telling the identity service -/

variable {configured : Bool}

namespace LeaseSystem

variable {hash : String} {exp : Int} {fault : Option String} {sys sys' : LeaseSystem}
  {r : LeaseRecord}

theorem revokeToken_eq_ok_of_token {principalId : String} {expiresAt : Int}
    (htoken : r.tokenRevocation = some (hash, principalId, expiresAt))
    (h : sys.revokeToken true fault r = .ok sys') : (∃ hashes, sys.revocations = .memory hashes ∧
      sys' = { sys with revocations := .memory (hashes.insert hash) }) ∨
    ∃ rows new, sys.revocations = .database rows ∧ new.tokenHash = hash ∧ new.expiresAt =
        seconds (if 0 < expiresAt then expiresAt else Jwt.unix sys.clock + 3600) ∧
      sys' = { sys with revocations := .database (RevocationStore.insert rows new) } := by
  simp only [revokeToken, htoken, IdentityService.revokeTokenByHash] at h
  cases hlist : sys.revocations with
  | memory hashes =>
    refine .inl ⟨hashes, rfl, ?_⟩
    simp only [hlist] at h
    split at h
    · next hcall =>
      split at hcall
      · cases hcall
      · cases hcall
        cases h
        rfl
    · cases h
  | database rows =>
    simp only [hlist] at h
    split at h
    · next hcall =>
      split at hcall
      · cases hcall
      · obtain ⟨rows', hrows, rfl⟩ := map_eq_ok.mp hcall
        have hrow := revokeByHash_eq_ok (mapError_eq_ok hrows)
        subst hrow
        cases h
        exact .inr ⟨rows, _, rfl, rfl, rfl, rfl⟩
    · cases h

theorem told_keeps (h : sys.revokeToken true fault r = .ok sys')
    (hcovers : r.tokenHash = some hash → Durable sys.revocations → Covers exp r)
    (huntouched : Untouched hash exp sys.revocations) : Untouched hash exp sys'.revocations ∧
      (Holds hash exp sys.revocations ∨ r.tokenHash = some hash →
        Holds hash exp sys'.revocations) := by
  cases htoken : r.tokenRevocation with
  | none =>
    have hhash : r.tokenHash = none := by rw [LeaseRecord.tokenHash, htoken, Option.map_none]
    simp only [revokeToken, htoken] at h
    cases h
    refine ⟨huntouched, ?_⟩
    rintro (hholds | hsome)
    · exact hholds
    · rw [hhash] at hsome
      cases hsome
  | some revocation =>
    obtain ⟨hash', principalId, expiresAt⟩ := revocation
    have hhash : r.tokenHash = some hash' := by rw [LeaseRecord.tokenHash, htoken, Option.map_some]
    rcases revokeToken_eq_ok_of_token htoken h with ⟨hashes, hlist, rfl⟩ |
      ⟨rows, new, hlist, rfl, hnew, rfl⟩
    · refine ⟨trivial, ?_⟩
      rw [hlist, hhash]
      rintro (hholds | hsome)
      · exact List.mem_insert_of_mem hholds
      · cases hsome
        exact List.mem_insert_self
    · rw [hlist] at huntouched
      -- the row for this token has an end that covers it
      have hend : new.tokenHash = hash → seconds exp ≤ new.expiresAt := by
        rintro rfl
        obtain ⟨_, hfull⟩ := LeaseRecord.tokenRevocation_of_tokenHash hhash
        rw [htoken] at hfull
        cases hfull
        obtain ⟨hpos, hle⟩ := hcovers hhash (by rw [hlist]; trivial)
        rw [hnew, if_pos hpos]
        exact seconds_mono hle
      refine ⟨fun row hrow hsame => ?_, ?_⟩
      · rcases mem_insert.mp hrow with hold | ⟨rfl, -⟩
        · exact huntouched row hold hsame
        · exact hend hsame
      rw [hlist]
      rintro (⟨row, hrow, hsame, hle⟩ | hsome)
      · exact ⟨row, mem_insert.mpr (.inl hrow), hsame, hle⟩
      · cases hhash.symm.trans hsome
        cases hget : rows.get? new.tokenHash with
        | none => exact ⟨new, mem_insert.mpr (.inr ⟨rfl, hget⟩), rfl, hend rfl⟩
        | some row =>
          obtain ⟨hrow, hsame⟩ := Table.get?_eq_some.mp hget
          exact ⟨row, mem_insert.mpr (.inl hrow), hsame, huntouched row hrow hsame⟩

theorem durable_revokeToken (h : sys.revokeToken configured fault r = .ok sys') :
    Durable sys'.revocations ↔ Durable sys.revocations := by
  unfold revokeToken at h
  split at h
  · split at h
    · next hcall =>
      cases h
      unfold IdentityService.revokeTokenByHash at hcall
      split at hcall
      · cases hcall
      · dsimp only at hcall
        split at hcall
        · next hlist =>
          obtain ⟨rows', -, rfl⟩ := map_eq_ok.mp hcall
          rw [hlist]
          exact Iff.rfl
        · next hlist =>
          cases hcall
          rw [hlist]
          exact Iff.rfl
    · cases h
  · cases h
    exact Iff.rfl

end LeaseSystem

/-! ## Turns -/

namespace Phase

def handed : Phase → List LeaseRecord
  | ending record => [record]
  | sweeping due => due
  | marking _ due => due
  | _ => []

def ends : Phase → Option Uuid
  | told id => some id
  | marking record _ => some record.id
  | _ => none

end Phase

namespace LeaseSystem

variable {x : Request × Phase}

section Turn

variable (hash : String) (exp : Int)

/-- The token has expired, or the list has it until it does. -/
def Settled (sys : LeaseSystem) : Prop := seconds exp ≤ sys.clock ∨ Holds hash exp sys.revocations

/-- What is asked of a turn, for the token to end with its lease: time does not run back,
a new lease has an id of its own, a lease of the token is not revoked over gRPC unless the
token is settled, and with the list in the database, a lease of the token that is not
revoked covers the token. -/
structure LastingTurn (sys : LeaseSystem) (now : Timestamp) (request : Request) : Prop where
  clock : sys.clock ≤ now
  fresh : ∀ req id, request = .create req id → sys.leases.lease id = none
  grpc : ∀ leaseId id l, request = .revoke leaseId → Uuid.parseStr leaseId = some id →
    sys.leases.lease id = some l → l.tokenHash = some hash →
    seconds exp ≤ now ∨ Holds hash exp sys.revocations
  covers : Durable sys.revocations → ∀ id l, sys.leases.lease id = some l →
    l.tokenHash = some hash → l.state ≠ .revoked → Covers exp l

/-- The token is settled once one of its leases has ended. -/
structure Orderly (sys : LeaseSystem) : Prop where
  untouched : Untouched hash exp sys.revocations
  ended : ∀ id l, sys.leases.lease id = some l → l.tokenHash = some hash → l.state ≠ .active →
    Settled hash exp sys

/-- What a session has in hand: records of leases that are there, with ends that cover the
token, and a lease that may end since the token is settled. -/
structure Carries (sys : LeaseSystem) (x : Request × Phase) : Prop where
  known : ∀ r ∈ x.2.handed, ∃ l, sys.leases.lease r.id = some l ∧ l.tokenHash = r.tokenHash
  covers : ∀ r ∈ x.2.handed, r.tokenHash = some hash → Durable sys.revocations → Covers exp r
  settled : ∀ id ∈ x.2.ends, ∃ l, sys.leases.lease id = some l ∧
    (l.tokenHash = some hash → Settled hash exp sys)

variable {hash exp} {fault : Option String} {sys sys' : LeaseSystem} {request : Request}
  {phase : Phase} {next : Option Phase}

/-- The list is left alone, or told of a record that the session has in hand, or reaped. -/
theorem Does.revocations (hdoes : Does configured fault sys request phase sys' next) :
    sys'.revocations = sys.revocations ∨
    (∃ r ∈ phase.handed, sys.revokeToken configured fault r = .ok sys') ∨
    sys'.revocations = IdentityService.reap sys.revocations ⟨sys.clock, fault⟩ := by
  cases hdoes with
  | tell htell => exact .inr (.inl ⟨_, List.mem_singleton_self _, htell⟩)
  | tellDue htell => exact .inr (.inl ⟨_, List.mem_cons_self, htell⟩)
  | reap => exact .inr (.inr rfl)
  | _ => exact .inl rfl

theorem durable_reap {list : RevocationList} :
    Durable (IdentityService.reap list m) ↔ Durable list := by
  unfold IdentityService.reap
  split <;> exact Iff.rfl

theorem Does.durable (hdoes : Does configured fault sys request phase sys' next) :
    Durable sys'.revocations ↔ Durable sys.revocations := by
  rcases hdoes.revocations with hsame | ⟨r, -, htell⟩ | hreap
  · rw [hsame]
  · exact durable_revokeToken htell
  · rw [hreap]
    exact durable_reap

theorem Carries.list (h : sys.Carries hash exp (request, phase))
    (huntouched : Untouched hash exp sys.revocations)
    (hdoes : Does true fault sys request phase sys' next) :
    Untouched hash exp sys'.revocations ∧ (sys.Settled hash exp → sys'.Settled hash exp) := by
  have hclock : sys'.clock = sys.clock := hdoes.clock
  unfold Settled
  rw [hclock]
  rcases hdoes.revocations with hsame | ⟨r, hr, htell⟩ | hreap
  · rw [hsame]
    exact ⟨huntouched, fun h => h⟩
  · obtain ⟨huntouched', hholds⟩ := told_keeps htell (h.covers r hr) huntouched
    exact ⟨huntouched', Or.imp_right fun h => hholds (.inl h)⟩
  · rw [hreap]
    refine ⟨huntouched.reap, ?_⟩
    rintro (hpast | hholds)
    · exact .inl hpast
    · rcases le_or_gt (seconds exp) sys.clock with hpast | hahead
      · exact .inl hpast
      · exact .inr (hholds.reap hahead)

theorem carries_of_none (hhanded : phase.handed = []) (hends : phase.ends = none) :
    sys.Carries hash exp (request, phase) where
  known := by simp [hhanded]
  covers := by simp [hhanded]
  settled := by simp [hends]

theorem carries_of_plain (h : phase.Plain) : sys.Carries hash exp (request, phase) := by
  cases phase with
  | start | permitted | renewing | renewed => exact carries_of_none rfl rfl
  | ending | told | listing | sweeping | marking => exact h.elim

theorem settled_of_tell (htell : sys.revokeToken true fault r = .ok sys')
    (hcovers : r.tokenHash = some hash → Durable sys.revocations → Covers exp r)
    (huntouched : Untouched hash exp sys.revocations)
    (hknown : ∃ l, sys.leases.lease r.id = some l ∧ l.tokenHash = r.tokenHash) :
    ∃ l, sys'.leases.lease r.id = some l ∧ (l.tokenHash = some hash → sys'.Settled hash exp) := by
  obtain ⟨l, hl, hsame⟩ := hknown
  have hholds := (told_keeps htell hcovers huntouched).2
  obtain ⟨revocations, rfl⟩ := revokeToken_eq_ok htell
  exact ⟨l, hl, fun htoken => .inr (hholds (.inr (hsame.symm.trans htoken)))⟩

section

variable (h : sys.Carries hash exp (request, phase)) (hsys : sys.Orderly hash exp)
  (hturn : sys.LastingTurn hash exp sys.clock request)

include h hsys hturn

theorem Carries.orderly
    (hdoes : Does true fault sys request phase sys' next) : sys'.Orderly hash exp := by
  obtain ⟨huntouched, hsettled⟩ := h.list hsys.untouched hdoes
  refine ⟨huntouched, fun id l hl hhash hstate => hsettled ?_⟩
  -- the record was there before, or the turn has put it there
  have hold : sys.leases.lease id = some l → sys.Settled hash exp :=
    fun hl => hsys.ended id l hl hhash hstate
  have hreplaced : ∀ {j : Uuid} {leases : Backend} {k k' : LeaseRecord},
      sys.leases.Replaces leases j k k' → leases.lease id = some l →
      (k' = l → k.tokenHash = some hash → sys.Settled hash exp) →
      k'.tokenHash = k.tokenHash → sys.Settled hash exp := by
    intro j leases k k' hreplace hafter hend hsame
    by_cases hid : id = j
    · subst hid
      cases hreplace.self.symm.trans hafter
      exact hend rfl (hsame.symm.trans hhash)
    · exact hold ((hreplace.of_ne hid).symm.trans hafter)
  cases hdoes with
  | nothing | load | loadOther | begin | list | skip | reap => exact hold hl
  | create hactive _ hafter =>
    rw [hafter] at hl
    split at hl
    · cases hl
      exact absurd hactive hstate
    · exact hold hl
  | renew _ hactive _ hreplace =>
    refine hreplaced hreplace hl (fun hsame _ => ?_) (LeaseRecord.tokenHash_congr rfl rfl)
    subst hsame
    exact absurd hactive hstate
  | revoke hid hreplace =>
    exact hreplaced hreplace hl (fun _ htoken => hturn.grpc _ _ _ rfl hid hreplace.found htoken)
      (LeaseRecord.tokenHash_congr rfl rfl)
  | tell htell | tellDue htell =>
    obtain ⟨revocations, rfl⟩ := revokeToken_eq_ok htell
    exact hold hl
  | revokeTold hreplace | mark _ hreplace =>
    refine hreplaced hreplace hl (fun _ htoken => ?_) (LeaseRecord.tokenHash_congr rfl rfl)
    obtain ⟨k, hk, hend⟩ := h.settled _ rfl
    cases hk.symm.trans hreplace.found
    exact hend htoken
  | markNone hsame => exact hold ((hsame id).symm.trans hl)

theorem Carries.does (hdoes : Does true fault sys request phase sys' next)
    (hx : sys.Carries hash exp x) : sys'.Carries hash exp x where
  known := by
    intro r hr
    obtain ⟨l, hl, hsame⟩ := hx.known r hr
    obtain ⟨l', hl', hfollows⟩ := hdoes.follows hturn.fresh hl
    rw [← hsame, ← LeaseRecord.tokenHash_congr hfollows.targetType hfollows.targetData]
    exact ⟨l', hl', rfl⟩
  covers := fun r hr htoken hdurable => hx.covers r hr htoken (hdoes.durable.mp hdurable)
  settled := by
    intro id hid
    obtain ⟨l, hl, hsettled⟩ := hx.settled id hid
    obtain ⟨l', hl', hfollows⟩ := hdoes.follows hturn.fresh hl
    refine ⟨l', hl', fun htoken => ?_⟩
    rw [LeaseRecord.tokenHash_congr hfollows.targetType hfollows.targetData] at htoken
    exact (h.list hsys.untouched hdoes).2 (hsettled htoken)

theorem Carries.goOn {p : Phase}
    (hdoes : Does true fault sys request phase sys' (some p)) :
    sys'.Carries hash exp (request, p) := by
  have hkeep := h.does hsys hturn hdoes h
  cases hdoes with
  | nothing hnext | renew _ _ _ _ hnext => exact carries_of_plain (hnext p rfl).1
  | @load _ _ r hread hstate =>
    refine ⟨fun r' hr' => ?_, fun r' hr' htoken hdurable => ?_, by simp [Phase.ends]⟩
    · cases List.mem_singleton.mp hr'
      exact ⟨r, hread, rfl⟩
    · cases List.mem_singleton.mp hr'
      exact hturn.covers hdurable r.id r hread htoken hstate
  | @loadOther _ _ r hread htoken =>
    refine ⟨by simp [Phase.handed], by simp [Phase.handed], fun id hid => ?_⟩
    cases hid
    refine ⟨r, hread, fun hsome => ?_⟩
    rw [LeaseRecord.tokenHash, htoken] at hsome
    cases hsome
  | @tell _ _ r _ htell =>
    refine ⟨by simp [Phase.handed], by simp [Phase.handed], fun id hid => ?_⟩
    cases hid
    have hr : r ∈ (Phase.ending r).handed := List.mem_singleton_self r
    exact settled_of_tell htell (h.covers r hr) hsys.untouched (h.known r hr)
  | begin => exact carries_of_none rfl rfl
  | list hdue =>
    refine ⟨fun r hr => ⟨r, (hdue r hr).1, rfl⟩, fun r hr htoken hdurable => ?_,
      by simp [Phase.ends]⟩
    obtain ⟨hread, hactive, -⟩ := hdue r hr
    refine hturn.covers hdurable r.id r hread htoken ?_
    rw [hactive]
    rintro ⟨⟩
  | @skip r due _ hphase =>
    rcases hphase with rfl | rfl
    · exact ⟨fun r' hr' => h.known r' (List.mem_cons_of_mem r hr'),
        fun r' hr' => h.covers r' (List.mem_cons_of_mem r hr'), by simp [Phase.ends]⟩
    · exact ⟨h.known, h.covers, by simp [Phase.ends]⟩
  | @tellDue r due _ htell =>
    have hr : r ∈ (Phase.sweeping (r :: due)).handed := List.mem_cons_self
    refine ⟨fun r' hr' => hkeep.known r' (List.mem_cons_of_mem r hr'),
      fun r' hr' => hkeep.covers r' (List.mem_cons_of_mem r hr'), fun id hid => ?_⟩
    cases hid
    exact settled_of_tell htell (h.covers r hr) hsys.untouched (h.known r hr)
  | mark | markNone => exact ⟨hkeep.known, hkeep.covers, by simp [Phase.ends]⟩

end

end Turn

/-! ## Runs -/

section Step

variable {hash : String} {exp : Int} {s : LeaseSessions} {e : LeaseEvent}

def Lasting (hash : String) (exp : Int) (s : LeaseSessions) : LeaseEvent → Prop
  | .resume i m => ∀ request phase, s.current.lookup i = some (request, phase) →
    s.db.LastingTurn hash exp m.now request
  | _ => True

variable {sys : LeaseSystem} {now : Timestamp}

theorem LastingTurn.tick {request : Request} (h : sys.LastingTurn hash exp now request) :
    { sys with clock := now }.LastingTurn hash exp now request :=
  ⟨le_rfl, h.fresh, h.grpc, h.covers⟩

theorem Settled.tick (h : sys.Settled hash exp)
    (hnow : sys.clock ≤ now) : { sys with clock := now }.Settled hash exp :=
  h.imp_left fun hpast => hpast.trans hnow

theorem Orderly.tick (h : sys.Orderly hash exp)
    (hnow : sys.clock ≤ now) : { sys with clock := now }.Orderly hash exp :=
  ⟨h.untouched, fun id l hl htoken hstate => (h.ended id l hl htoken hstate).tick hnow⟩

theorem Carries.tick (h : sys.Carries hash exp x) (hnow : sys.clock ≤ now) :
    { sys with clock := now }.Carries hash exp x where
  known := h.known
  covers := h.covers
  settled := by
    intro id hid
    obtain ⟨l, hl, hsettled⟩ := h.settled id hid
    exact ⟨l, hl, fun htoken => (hsettled htoken).tick hnow⟩

/-- A token stays settled once one of its leases has ended. -/
theorem lasting_step (h : Sessions.Valid (Orderly hash exp) (Carries hash exp) (fun _ _ => True) s)
    (hlasting : Lasting hash exp s e) :
    Sessions.Valid (Orderly hash exp) (Carries hash exp) (fun _ _ => True) (step true s e).1 := by
  refine Tasks.valid_step .start (advance true) h ?_ ?_ ?_ ?_
  · exact fun _ => ⟨h.db, fun _ hx => hx⟩
  · intro i request _ _
    exact ⟨carries_of_plain trivial, fun _ _ => ⟨trivial, trivial⟩⟩
  · rintro i m request phase db next rfl hi hadvance -
    have hturn := hlasting request phase hi
    have hdoes := does_of_goOn hadvance
    have hown := (h.session i _ hi).tick hturn.clock
    have hsys := h.db.tick hturn.clock
    refine ⟨hown.orderly hsys hturn.tick hdoes, hown.goOn hsys hturn.tick hdoes, fun y hy => ?_⟩
    exact ⟨hown.does hsys hturn.tick hdoes ((h.others hy).tick hturn.clock), trivial, trivial⟩
  · rintro i m request phase db reply rfl hi hadvance -
    have hturn := hlasting request phase hi
    have hdoes := does_of_finish hadvance
    have hown := (h.session i _ hi).tick hturn.clock
    have hsys := h.db.tick hturn.clock
    refine ⟨hown.orderly hsys hturn.tick hdoes, fun y hy => ?_⟩
    exact hown.does hsys hturn.tick hdoes ((h.others hy).tick hturn.clock)

end Step

/-- In every run with these turns, from a system in which the token is settled if one of
its leases has ended: when a lease of the token has been revoked or expired, the identity
service reports the token as revoked at every later time before it expires. -/
theorem token_ends_with_lease (tokens : Tokens) (token : String) (exp : Int) (sys : LeaseSystem)
    (hsys : sys.Orderly (tokens.digest token) exp) (events : List LeaseEvent)
    (h : Along (step true) (Lasting (tokens.digest token) exp) (Sessions.idle sys) events)
    (id : Uuid) (l : LeaseRecord)
    (hl : (run (step true) (Sessions.idle sys) events).db.leases.lease id = some l)
    (htoken : l.tokenHash = some (tokens.digest token)) (hended : l.state ≠ .active)
    (t : Timestamp) (hlater : (run (step true) (Sessions.idle sys) events).db.clock ≤ t)
    (hlive : t < seconds exp) :
    isRevoked tokens (run (step true) (Sessions.idle sys) events).db.revocations ⟨t, none⟩ token =
      true := by
  have hvalid := h.invariant
    (Sessions.Valid (Orderly (tokens.digest token) exp) (Carries (tokens.digest token) exp)
      fun _ _ => True)
    (fun s e hs hlasting => lasting_step hs hlasting) (Sessions.valid_idle hsys)
  rcases hvalid.db.ended id l hl htoken hended with hpast | hholds
  · exact absurd (hpast.trans hlater) (not_le.mpr hlive)
  · exact hholds.isRevoked hlive

def someDigest : String := String.ofList (List.replicate 64 'a')

def someTokens : Tokens := ⟨fun _ => someDigest, fun _ => none⟩

def freshSystem : LeaseSystem := ⟨.database [.nil] .empty, .database .empty, 0⟩

def leaseToken : List LeaseEvent :=
  [.arrive 0 (.create (tokenLeaseRequest someTokens.digest Uuid.nil.toString "alice" "jwt" 3600)
      .nil),
    .resume 0 ⟨seconds 1000, none⟩]

def revokeOverHttp : List LeaseEvent :=
  [.arrive 1 (.revokeHttp Uuid.nil.toString Uuid.nil.toString), .resume 1 ⟨seconds 1001, none⟩,
    .resume 1 ⟨seconds 1001, none⟩, .resume 1 ⟨seconds 1001, none⟩]

def revokeOverGrpc : List LeaseEvent :=
  [.arrive 1 (.revoke Uuid.nil.toString), .resume 1 ⟨seconds 1001, none⟩]

def renewAndSweep : List LeaseEvent :=
  [.arrive 1 (.renew Uuid.nil.toString 5), .resume 1 ⟨seconds 1001, none⟩,
    .resume 1 ⟨seconds 1001, none⟩, .resume 1 ⟨seconds 1001, none⟩,
    .arrive 2 .sweep, .resume 2 ⟨seconds 1007, none⟩, .resume 2 ⟨seconds 1007, none⟩,
    .resume 2 ⟨seconds 1007, none⟩, .resume 2 ⟨seconds 1007, none⟩]

theorem token_ends_with_lease_over_http : isRevoked someTokens
      (run (step true) (Sessions.idle freshSystem) (leaseToken ++ revokeOverHttp)).db.revocations
      ⟨seconds 4599, none⟩ "jwt" = true := by
  refine token_ends_with_lease someTokens "jwt" 4600 freshSystem ?_ _ ?_ .nil _ rfl (by decide)
    (by decide) _ (by decide) (by decide)
  · exact ⟨fun row hrow => absurd hrow (Table.not_mem_empty row), fun id l hl => by cases hl⟩
  -- the one lease there is covers the token
  have hcovers : ∀ {sys : LeaseSystem} {rows : LeaseTable} {row : Lease} {id : Uuid}
      {l : LeaseRecord}, sys.leases = .database [.nil] rows → rows.rows = [row] →
      row.expiresAt = seconds 4600 → sys.leases.lease id = some l → Covers 4600 l := by
    intro sys rows row id l hleases hrows hend hl
    rw [hleases, Backend.lease_database] at hl
    obtain ⟨row', hrow', rfl⟩ := Option.map_eq_some_iff.mp hl
    have hmem : row' ∈ rows.rows := (Table.get?_eq_some.mp hrow').1
    rw [hrows] at hmem
    cases List.mem_singleton.mp hmem
    unfold Covers
    rw [show (LeaseRecord.ofCoreLease row).expiresAt = seconds 4600 from hend]
    decide
  refine ⟨trivial, ?_, trivial, ?_, ?_, ?_, trivial⟩
  · rintro request phase ⟨⟩
    refine ⟨by decide, ?_, by rintro _ _ _ ⟨⟩, ?_⟩
    · rintro req id ⟨⟩
      rfl
    · intro _ id l hl
      cases hl
  all_goals
    rintro request phase ⟨⟩
    exact ⟨by decide, by rintro _ _ ⟨⟩, by rintro _ _ _ ⟨⟩,
      fun _ id l hl _ _ => hcovers rfl rfl rfl hl⟩

/-- A lease that is revoked over gRPC leaves its token as it was. And a lease that a
renewal has cut short, once swept, leaves a row that has ended already. -/
theorem token_outlives_lease :
    (((run (step true) (Sessions.idle freshSystem) (leaseToken ++ revokeOverGrpc)).db.leases.lease
        .nil).map (·.state) = some .revoked ∧
      isRevoked someTokens
        (run (step true) (Sessions.idle freshSystem) (leaseToken ++ revokeOverGrpc)).db.revocations
        ⟨seconds 1002, none⟩ "jwt" = false) ∧
    ((run (step true) (Sessions.idle freshSystem) (leaseToken ++ renewAndSweep)).db.leases.lease
        .nil).map (·.state) = some .expired ∧
      isRevoked someTokens
        (run (step true) (Sessions.idle freshSystem) (leaseToken ++ renewAndSweep)).db.revocations
        ⟨seconds 1007, none⟩ "jwt" = false := by
  decide +kernel

end LeaseSystem

end WslVault.LeaseManager
