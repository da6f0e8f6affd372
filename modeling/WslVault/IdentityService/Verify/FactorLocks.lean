import WslVault.IdentityService.Verify.Login

/-!
# Factors that a transaction holds

Two transactions never hold locks that conflict (`Apart`), and a commit changes no row that
is not locked by its own transaction. So the factor that a transaction has matched can still
be used when it commits (`Holding`).
-/

namespace WslVault.IdentityService.Login

open Core Base Storage LoginSystem

/-! ## Locks -/

variable {x y : Request × Phase} {others : List (Request × Phase)} {a b : Lock}

theorem Lock.conflicts_comm (a b : Lock) : a.conflicts b = b.conflicts a := by
  have hany : ∀ l l' : List String, l.any l'.contains = l'.any l.contains := by
    intro l l'
    rw [Bool.eq_iff_iff]
    simp only [List.any_eq_true, List.contains_iff_mem]
    exact ⟨fun ⟨h, hl, hl'⟩ => ⟨h, hl', hl⟩, fun ⟨h, hl, hl'⟩ => ⟨h, hl', hl⟩⟩
  cases a <;> cases b <;> simp only [conflicts, Bool.beq_comm, hany]

def Apart (x y : Request × Phase) : Prop :=
  ∀ a ∈ x.2.locks, ∀ b ∈ y.2.locks, a.conflicts b = false

theorem Apart.symm (h : Apart x y) : Apart y x :=
  fun a ha b hb => (Lock.conflicts_comm a b).trans (h b hb a ha)

theorem apart_of_nil (h : x.2.locks = []) : Apart x y :=
  fun _ ha => absurd (h ▸ ha) List.not_mem_nil

theorem conflicts_of_blocked (h : blocked others a = false) (hy : y ∈ others) :
    ∀ b ∈ y.2.locks, a.conflicts b = false := by
  intro b hb
  have hany : y.2.locks.any a.conflicts = false :=
    Bool.not_eq_true _ ▸ List.any_eq_false.mp h y hy
  exact Bool.not_eq_true _ ▸ List.any_eq_false.mp hany b hb

/-! ## Factors -/

variable {mfa mfa' : MfaTables} {k : Uuid} {factor : Factor} {n : Int}
  {codeHashes : List String}

theorem stepFresh_iff : MfaStore.stepFresh mfa k n = true ↔
    ∃ e, MfaStore.find mfa k = some e ∧ e.lastUsedStep < n := by
  simp only [MfaStore.stepFresh, List.any_eq_true, MfaStore.isFresh, Bool.and_eq_true, beq_iff_eq,
    decide_eq_true_eq, MfaStore.find, Table.get?_eq_some, and_assoc]
  rfl

theorem codeUnused_iff : MfaStore.codeUnused mfa k codeHashes = true ↔
    ∃ hash ∈ codeHashes, ∃ c, mfa.codes.get? (k, hash) = some c ∧ c.usedAt = none := by
  simp only [MfaStore.codeUnused, List.any_eq_true, MfaStore.isUnused, Bool.and_eq_true, beq_iff_eq,
    List.contains_iff_mem, Option.isNone_iff_eq_none, Table.get?_eq_some]
  constructor
  · rintro ⟨c, hc, ⟨rfl, hhash⟩, hunused⟩
    exact ⟨c.codeHash, hhash, c, ⟨hc, rfl⟩, hunused⟩
  · rintro ⟨hash, hhash, c, ⟨hc, hkey⟩, hunused⟩
    cases hkey
    exact ⟨c, hc, ⟨rfl, hhash⟩, hunused⟩

/-- What a transaction finds of the factor that it matches. -/
def Factor.Usable (mfa : MfaTables) (k : Uuid) : Factor → Prop
  | totp step => MfaStore.stepFresh mfa k step = true
  | recovery codeHashes => MfaStore.codeUnused mfa k codeHashes = true

/-- A code shows a factor: it is the code of a step under the secret, or the recovery code of
one of the hashes. -/
def Service.Shows (svc : Service) (secret code : String) (now : Timestamp) : Factor → Prop
  | .totp step => Mfa.verifyCode svc.hotp secret code (Jwt.unix now) = some step
  | .recovery codeHashes => codeHashes = Mfa.recoveryCodeHashCandidates svc.sha256 code

/-- The rows that a lock is on are the same. -/
def Lock.Kept (mfa mfa' : MfaTables) : Lock → Prop
  | totp k => MfaStore.find mfa' k = MfaStore.find mfa k
  | codes k codeHashes => ∀ hash ∈ codeHashes, mfa'.codes.get? (k, hash) = mfa.codes.get? (k, hash)
  | allCodes k => ∀ hash, mfa'.codes.get? (k, hash) = mfa.codes.get? (k, hash)

theorem Lock.kept_refl (mfa : MfaTables) (a : Lock) : a.Kept mfa mfa := by
  cases a with
  | totp k => rfl
  | codes k codeHashes => exact fun _ _ => rfl
  | allCodes k => exact fun _ => rfl

theorem Lock.Kept.trans {mfa'' : MfaTables} (h : a.Kept mfa mfa') (h' : a.Kept mfa' mfa'') :
    a.Kept mfa mfa'' := by
  cases a with
  | totp k => exact Eq.trans h' h
  | codes k codeHashes => exact fun hash hhash => (h' hash hhash).trans (h hash hhash)
  | allCodes k => exact fun hash => (h' hash).trans (h hash)

theorem Factor.Usable.kept (h : factor.Usable mfa k) (hkept : (factor.lock k).Kept mfa mfa') :
    factor.Usable mfa' k := by
  cases factor with
  | totp step =>
    obtain ⟨e, he, hlt⟩ := stepFresh_iff.mp h
    exact stepFresh_iff.mpr ⟨e, Eq.trans hkept he, hlt⟩
  | recovery codeHashes =>
    obtain ⟨hash, hhash, c, hc, hunused⟩ := codeUnused_iff.mp h
    exact codeUnused_iff.mpr ⟨hash, hhash, c, (hkept hash hhash).trans hc, hunused⟩

/-! ## What a commit changes -/

/-- An update of the enrolment of one key. -/
theorem kept_totp {p : TotpEnrolment → Bool} {f : TotpEnrolment → TotpEnrolment}
    {hf : ∀ e, (f e).apiKeyId = e.apiKeyId} (hp : ∀ e, p e = true → e.apiKeyId = k)
    (hfree : (Lock.totp k).conflicts b = false) :
    b.Kept mfa { mfa with totp := mfa.totp.update p f hf } := by
  cases b with
  | totp k' =>
    have hne : k ≠ k' := by simpa [Lock.conflicts] using hfree
    rw [Lock.Kept, MfaStore.find, Table.get?_update]
    cases hget : mfa.totp.get? k' with
    | none => exact hget.symm
    | some e =>
      have hp' : ¬ p e = true := fun h => hne ((hp e h).symm.trans (Table.get?_eq_some.mp hget).2)
      rw [Option.map_some, if_neg hp', MfaStore.find, hget]
  | codes k' codeHashes => exact fun _ _ => rfl
  | allCodes k' => exact fun _ => rfl

theorem kept_spend {now : Timestamp} (hfree : (factor.lock k).conflicts b = false) :
    b.Kept mfa (spend mfa now k factor) := by
  cases factor with
  | totp step =>
    refine kept_totp (fun e h => ?_) hfree
    simp only [MfaStore.isFresh, Bool.and_eq_true, beq_iff_eq] at h
    exact h.1
  | recovery codeHashes =>
    have hrow : ∀ k' hash, (k = k' → hash ∉ codeHashes) →
        (spend mfa now k (.recovery codeHashes)).codes.get? (k', hash) =
          mfa.codes.get? (k', hash) := by
      intro k' hash hno
      rw [spend, MfaStore.consumeRecoveryCode, Table.get?_update]
      cases hget : mfa.codes.get? (k', hash) with
      | none => rfl
      | some c =>
        cases (Table.get?_eq_some.mp hget).2
        rw [Option.map_some, if_neg]
        simp only [MfaStore.isUnused, Bool.and_eq_true, beq_iff_eq, List.contains_iff_mem]
        exact fun h => hno h.1.1.symm h.1.2
    cases b with
    | totp k' => rfl
    | codes k' codeHashes' =>
      refine fun hash hhash => hrow k' hash fun hk hmem => ?_
      simp only [Factor.lock, Lock.conflicts, hk, beq_self_eq_true, Bool.true_and,
        List.any_eq_false, List.contains_iff_mem] at hfree
      exact hfree hash hmem hhash
    | allCodes k' =>
      refine fun hash => hrow k' hash fun hk => ?_
      simp [Factor.lock, Lock.conflicts, hk] at hfree

theorem get?_insertCodes {codes codes' : Table RecoveryCode fun c => (c.apiKeyId, c.codeHash)}
    {tenantId k' : Uuid} {hashes : List String} {hash : String} (hne : k ≠ k')
    (h : MfaStore.insertCodes codes k tenantId hashes = some codes') :
    codes'.get? (k', hash) = codes.get? (k', hash) := by
  induction hashes generalizing codes with
  | nil =>
    cases h
    rfl
  | cons first hashes ih =>
    unfold MfaStore.insertCodes at h
    split at h
    · cases h
    · next hinsert =>
      rw [ih h, Table.get?_insert? hinsert, if_neg fun hkey => hne (congrArg Prod.fst hkey)]

theorem kept_recode {svc : Service} {result : ApiKeyValidationResult} {codes : List String}
    (h : recode svc mfa result codes = some mfa')
    (hfree : (Lock.allCodes result.keyId).conflicts b = false) : b.Kept mfa mfa' := by
  obtain ⟨tenantId, -, h⟩ := Option.bind_eq_some_iff.mp h
  obtain ⟨codes', hcodes, rfl⟩ := Option.map_eq_some_iff.mp h
  have hrow k' hash (hne : result.keyId ≠ k') :
      codes'.get? (k', hash) = mfa.codes.get? (k', hash) := by
    rw [get?_insertCodes hne hcodes]
    refine Option.ext fun c => ?_
    simp only [Table.get?_eq_some, Table.mem_delete]
    constructor
    · rintro ⟨⟨hc, -⟩, hkey⟩
      exact ⟨hc, hkey⟩
    · rintro ⟨hc, hkey⟩
      cases hkey
      exact ⟨⟨hc, by simpa using hne.symm⟩, rfl⟩
  cases b with
  | totp k' => rfl
  | codes k' codeHashes =>
    exact fun hash _ => hrow k' hash (by simpa [Lock.conflicts] using hfree)
  | allCodes k' => exact fun hash => hrow k' hash (by simpa [Lock.conflicts] using hfree)

theorem kept_pendingTables {result : ApiKeyValidationResult} {wrapped : String}
    (h : pendingTables mfa result wrapped = some mfa')
    (hfree : (Lock.totp result.keyId).conflicts b = false) : b.Kept mfa mfa' := by
  obtain ⟨tenantId, -, h⟩ := Option.bind_eq_some_iff.mp h
  unfold MfaStore.upsertPending at h
  split at h
  · obtain ⟨totp, hinsert, rfl⟩ := Option.map_eq_some_iff.mp h
    cases b with
    | totp k' =>
      have hne : result.keyId ≠ k' := by simpa [Lock.conflicts] using hfree
      rw [Lock.Kept, MfaStore.find, MfaStore.find, Table.get?_insert? hinsert, if_neg hne]
    | codes k' codeHashes => exact fun _ _ => rfl
    | allCodes k' => exact fun _ => rfl
  · split at h
    · cases h
    · cases h
      exact kept_totp (fun e h => by simpa using h) hfree

section Turn

variable {svc : Service} {sys sys' : LoginSystem} {m : Moment} {request : Request}
  {phase next : Phase} {reply : Response}

theorem LoginSystem.Goes.kept (h : Goes svc sys others m request phase sys' next)
    (hfree : ∀ a ∈ phase.locks, a.conflicts b = false) : b.Kept sys.mfa sys'.mfa := by
  cases h with
  | accept => exact kept_spend (hfree _ List.mem_cons_self)
  | _ => exact b.kept_refl _

theorem LoginSystem.Ends.kept (h : Ends svc sys m request phase sys' reply)
    (hfree : ∀ a ∈ phase.locks, a.conflicts b = false) : b.Kept sys.mfa sys'.mfa := by
  cases h with
  | spent => exact kept_spend (hfree _ List.mem_cons_self)
  | confirmed => exact kept_totp (fun e h => by simpa using h) (hfree _ List.mem_cons_self)
  | reissued hcodes _ =>
    exact (kept_spend (hfree _ List.mem_cons_self)).trans
      (kept_recode hcodes (hfree _ (List.mem_cons_of_mem _ List.mem_cons_self)))
  | enrolled hpending hcodes _ =>
    exact (kept_pendingTables hpending (hfree _ List.mem_cons_self)).trans
      (kept_recode hcodes (hfree _ (List.mem_cons_of_mem _ List.mem_cons_self)))
  | _ => exact b.kept_refl _

/-! ## Transactions that hold a factor -/

theorem prove_eq_matched {secret code : String}
    (h : sys.prove svc others m k secret code = .matched factor) :
    svc.Shows secret code m.now factor ∧ factor.Usable sys.mfa k ∧
      blocked others (factor.lock k) = false := by
  unfold prove at h
  split at h
  · next hcode =>
    split at h
    · next hfresh =>
      split at h
      · cases h
      · next hfree =>
        cases h
        exact ⟨hcode, hfresh, Bool.not_eq_true _ ▸ hfree⟩
    · cases h
  · dsimp only at h
    split at h
    · next hunused =>
      split at h
      · cases h
      · next hfree =>
        cases h
        exact ⟨rfl, hunused, Bool.not_eq_true _ ▸ hfree⟩
    · cases h

/-- The factor of its key that a transaction has matched. -/
def Phase.spends : Phase → Option (Uuid × Factor)
  | consumed pending factor => some (pending.apiKeyId, factor)
  | reproved result factor => some (result.keyId, factor)
  | replaced result factor _ => some (result.keyId, factor)
  | _ => none

theorem Phase.lock_of_spends (h : phase.spends = some (k, factor)) :
    factor.lock k ∈ phase.locks := by
  cases phase with
  | consumed | reproved | replaced =>
    cases h
    exact List.mem_cons_self
  | _ => cases h

def Holding (sys : LoginSystem) (x : Request × Phase) : Prop :=
  ∀ k factor, x.2.spends = some (k, factor) → factor.Usable sys.mfa k

theorem Holding.kept (h : Holding sys x)
    (hkept : ∀ a ∈ x.2.locks, a.Kept sys.mfa sys'.mfa) : Holding sys' x :=
  fun k factor hspends => (h k factor hspends).kept (hkept _ (Phase.lock_of_spends hspends))

theorem LoginSystem.Goes.holding (h : Goes svc sys others m request phase sys' next)
    (hx : Holding sys (request, phase)) : Holding sys' (request, next) := by
  intro k factor hspends
  cases h with
  | consume hproof | reproved hproof =>
    cases hspends
    exact (prove_eq_matched hproof).2.1
  | replaced => exact hx k factor hspends
  | _ => cases hspends

theorem LoginSystem.Goes.apart (h : Goes svc sys others m request phase sys' next)
    (hapart : Apart (request, phase) y) (hy : y ∈ others) : Apart (request, next) y := by
  intro a ha
  cases h with
  | consume hproof | reproved hproof =>
    cases List.mem_singleton.mp ha
    exact conflicts_of_blocked (prove_eq_matched hproof).2.2 hy
  | confirmed _ hfree | upserted hfree =>
    cases List.mem_singleton.mp ha
    exact conflicts_of_blocked hfree hy
  | replaced hfree | recoded hfree =>
    rcases List.mem_cons.mp ha with rfl | ha
    · exact hapart _ List.mem_cons_self
    · cases List.mem_singleton.mp ha
      exact conflicts_of_blocked hfree hy
  | _ => exact absurd ha List.not_mem_nil

end Turn

/-! ## Runs -/

def Locked (s : LoginSessions) : Prop :=
  Sessions.Valid (fun _ => True) Holding Apart s

theorem Apart.kept {sys sys' : LoginSystem} (h : Apart x y)
    (hkept : ∀ b : Lock, (∀ a ∈ x.2.locks, a.conflicts b = false) → b.Kept sys.mfa sys'.mfa) :
    ∀ b ∈ y.2.locks, b.Kept sys.mfa sys'.mfa :=
  fun b hb => hkept b fun a ha => h a ha b hb

/-- No two requests hold conflicting row locks. -/
theorem locked_step {svc : Service} {s : LoginSessions} (h : Locked s)
    (e : Event) : Locked (step svc s e).1 := by
  unfold Locked
  generalize note svc s e = o, (step svc s e).1 = s', step_noted svc s e = hnoted
  cases hnoted with
  | same => exact h
  | dropped i => exact h.finish i trivial fun y hy => h.others hy
  | @arrived i request hi =>
    have hstart : Holding s.db (request, .start) := by
      rintro k factor ⟨⟩
    refine Sessions.Valid.set h i hstart fun y _ => ?_
    exact ⟨apart_of_nil rfl, (apart_of_nil rfl).symm⟩
  | went hi hgoes =>
    refine Tasks.valid_goOn h _ trivial (hgoes.holding (h.session _ _ hi)) ?_ fun y hy => ?_
    · exact fun y hy => (h.others hy).kept ((h.pair_others hi hy).1.kept fun b => hgoes.kept)
    · have hapart := hgoes.apart (h.pair_others hi hy).1 hy
      exact ⟨hapart, hapart.symm⟩
  | ended hi hends =>
    refine h.finish _ trivial fun y hy => ?_
    exact (h.others hy).kept ((h.pair_others hi hy).1.kept fun b => hends.kept)

theorem locked_idle (sys : LoginSystem) : Locked (.idle sys) :=
  Sessions.valid_idle trivial

end WslVault.IdentityService.Login
