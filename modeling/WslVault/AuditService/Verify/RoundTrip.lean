import WslVault.AuditService.PgStore
import WslVault.AuditService.Verify.Chain
import WslVault.Core.Verify.Unseal

/-!
# Which audit records verify when they are read back

The signature is over a record as the service has it, and is checked over the record as the
table gives it back. `Stable` lists what has to hold for the two to agree.
-/

namespace WslVault.AuditService

open Core Base Storage Storage.AuditStore PgAuditBackend AuditSigner

theorem hexValue_hexDigit : ∀ n < 16, hexValue (Seal.hexDigit n) = some n := by
  decide

theorem hexDecode_hexEncode (bytes : Bytes) :
    hexDecode (Seal.hexEncode bytes) = some bytes := by
  rw [hexDecode, Seal.hexEncode, String.toList_ofList]
  induction bytes with
  | nil => rfl
  | cons b bytes ih =>
    have hb := b.toNat_lt
    have hvalue : 16 * (b.toNat / 16) + b.toNat % 16 = b.toNat := by omega
    simp only [List.flatMap_cons, List.cons_append, List.nil_append, hexBytes, ih,
      hexValue_hexDigit _ (show b.toNat / 16 < 16 by omega),
      hexValue_hexDigit _ (show b.toNat % 16 < 16 by omega), Option.bind_eq_bind,
      Option.bind_some, hvalue, UInt8.ofNat_toNat]

theorem append_nul_inj {a b r s : String} (ha : Char.ofNat 0 ∉ a.toList)
    (hb : Char.ofNat 0 ∉ b.toList) :
    a ++ nul ++ r = b ++ nul ++ s ↔ a = b ∧ r = s :=
  Text.append_sep_inj (by rw [List.count_eq_zero.mpr ha, List.count_eq_zero.mpr hb])

theorem nul_notMem_uuid (u : Uuid) : Char.ofNat 0 ∉ u.toString.toList := by
  intro h
  rcases Uuid.mem_toString h with h | h
  · exact absurd h (by decide)
  · exact absurd h (by decide)

/-- A text that is read as a UUID and goes on as a printed one is the printed one: the other
spellings are shorter, or have another first character. -/
theorem append_nul_inj_uuid {a r s : String} {t u : Uuid} (ht : Uuid.parseStr a = some t) :
    a ++ nul ++ r = u.toString ++ nul ++ s ↔ a = u.toString ∧ r = s := by
  have hnul := nul_notMem_uuid u
  refine ⟨fun h => ?_, fun h => by rw [h.1, h.2]⟩
  suffices heq : a = u.toString by
    rw [heq, append_nul_inj hnul hnul] at h
    exact ⟨heq, h.2⟩
  have hchars : a.toList ++ Char.ofNat 0 :: r.toList =
      u.toString.toList ++ Char.ofNat 0 :: s.toList := by
    simpa [nul] using congrArg String.toList h
  have hlength : u.toString.toList.length = 36 := by
    rw [Uuid.toString, String.toList_ofList, u.hyphenated_length]
  -- a first character of the text is one of the printed form
  have hfirst : ∀ c, a.toList.head? = some c → c = '-' ∨ isHexDigit c = true := by
    intro c hc
    have hhead := congrArg List.head? hchars
    rw [List.head?_append_of_ne_nil _ (List.ne_nil_of_length_eq_add_one hlength),
      List.head?_append_of_ne_nil _ (List.ne_nil_of_mem (List.mem_of_mem_head? hc)), hc] at hhead
    exact Uuid.mem_toString (List.mem_of_mem_head? hhead.symm)
  simp only [Uuid.parseStr] at ht
  split at ht
  · next hshort =>
    have hat := congrArg (·[32]?) hchars
    simp only [List.getElem?_append_right (Nat.le_of_eq hshort), hshort, Nat.sub_self,
      List.getElem?_cons_zero, List.getElem?_append_left (show 32 < _ by rw [hlength]; omega)]
      at hat
    exact absurd (List.mem_of_getElem? hat.symm) hnul
  · split at ht
    · next hsame =>
      exact String.toList_inj.mp (List.append_inj_left hchars (by rw [hsame, hlength]))
    · split at ht
      · next hbrace => exact absurd (hfirst _ hbrace.2.1) (by decide)
      · split at ht
        · next hurn =>
          have hhead : a.toList.head? = some 'u' := by
            rw [← List.take_append_drop 9 a.toList, hurn.2]
            rfl
          exact absurd (hfirst _ hhead) (by decide)
        · cases ht

theorem nul_notMem_toString (n : Nat) : Char.ofNat 0 ∉ (toString n).toList :=
  fun h => absurd (Text.isDigit_of_mem_toString h) (by decide)

theorem nul_notMem_int (n : Int) : Char.ofNat 0 ∉ (toString n).toList := by
  cases n with
  | ofNat n => exact nul_notMem_toString n
  | negSucc n =>
    change Char.ofNat 0 ∉ ("-" ++ toString (n + 1)).toList
    simpa using nul_notMem_toString (n + 1)

theorem parseV4_ne_v6 (cs text : List Char) : Inet.parseV4 cs ≠ some (.v6 text) := by
  intro h
  obtain ⟨⟨address, bits⟩, -, h⟩ := Option.bind_eq_some_iff.mp h
  obtain ⟨octets, -, h⟩ := Option.bind_eq_some_iff.mp h
  unfold Inet.ofOctets at h
  split at h
  · cases h
  · split at h <;> cases h
  · split at h <;> cases h
  · split at h <;> cases h
  · cases h
  · cases h

variable {pg : PgTypes} {text prevHash : String} {rows : List AuditRow}

theorem nul_notMem_text {ip : Inet}
    (h : Inet.ofText pg text = some ip) : Char.ofNat 0 ∉ ip.text.toList := by
  cases ip with
  | v4 a b c d bits =>
    have hdot : Char.ofNat 0 ∉ ".".toList := by decide
    have hslash : Char.ofNat 0 ∉ "/".toList := by decide
    simp only [Inet.text, String.toList_append, List.mem_append, not_or]
    simp only [nul_notMem_toString, hdot, hslash, not_false_eq_true, and_self]
  | v6 text' =>
    unfold Inet.ofText at h
    split at h
    · obtain ⟨text'', htext, heq⟩ := Option.map_eq_some_iff.mp h
      cases heq
      rw [Inet.text, String.toList_ofList]
      exact pg.inet6_noNul _ _ htext
    · exact absurd h (parseV4_ne_v6 _ _)

def inetText (ip : Option Inet) : String := (ip.map Inet.text).getD ""

theorem nul_notMem_inetText {text : Option String} {ip : Option Inet}
    (h : castInet pg text = some ip) : Char.ofNat 0 ∉ (inetText ip).toList := by
  cases text with
  | none =>
    cases h
    decide
  | some text =>
    obtain ⟨ip', hip, rfl⟩ := Option.map_eq_some_iff.mp h
    exact nul_notMem_text hip

structure MadeBy (pg : PgTypes) (a : Append) (row : AuditRow) : Prop where
  tenant : Uuid.parseStr a.event.tenantId = some row.tenantId
  row : ∃ seq prevHash,
    chainedRow pg row.tenantId a.event (a.sign seq prevHash) seq prevHash = some row

def Own (pg : PgTypes) : Append × Phase → Prop
  | (_, .start) => True
  | (a, .begun tenantId) => Uuid.parseStr a.event.tenantId = some tenantId
  | (a, .locked tenantId) => Uuid.parseStr a.event.tenantId = some tenantId
  | (a, .linked tenantId _ _) => Uuid.parseStr a.event.tenantId = some tenantId
  | (a, .inserted row) => MadeBy pg a row

theorem Goes.own {hashtext : String → Int}
    {others : List (Append × Phase)} {a : Append} {phase next : Phase}
    (h : Goes rows pg hashtext others a phase next) (hown : Own pg (a, phase)) :
    Own pg (a, next) := by
  cases h with
  | begin ht => exact ht
  | lock _ => exact hown
  | readTip => exact hown
  | insert hrow =>
    have htenant := (chainedRow_eq_some hrow).tenantId
    subst htenant
    exact ⟨hown, _, _, hrow⟩

/-- An append that was answered with a place has its row in the table. -/
def Kept (pg : PgTypes) (s : AppendSessions)
    (reply : Option (Append × Except VaultError (Int × String))) : Prop :=
  ∀ a place, reply = some (a, .ok place) → ∃ row ∈ s.db, MadeBy pg a row

section Runs

variable {pg : PgTypes} {hashtext : String → Int}

abbrev AllOwn (pg : PgTypes) : AppendSessions → Prop :=
  Sessions.Valid (fun _ => True) (fun _ => Own pg) fun _ _ => True

variable (s : AppendSessions) (e : Event)

theorem allOwn_step (h : AllOwn pg s) : AllOwn pg (step pg hashtext s e).1 := by
  rw [step, Sessions.step]
  refine Tasks.valid_step .start _ h ?_ ?_ ?_ ?_
  · exact fun _ => ⟨trivial, fun x hx => hx⟩
  · exact fun i a _ _ => ⟨trivial, fun y _ => ⟨trivial, trivial⟩⟩
  · intro i fate a phase rows' next _ hi hadvance _
    obtain ⟨-, hadvance⟩ := Sessions.turn_eq_goOn.mp hadvance
    obtain _ | hgoes := turns_of_advance hadvance
    refine ⟨trivial, hgoes.own (h.session i _ hi), fun y hy => ?_⟩
    exact ⟨h.others hy, trivial, trivial⟩
  · exact fun i fate a phase rows' reply _ hi hadvance _ => ⟨trivial, fun y hy => h.others hy⟩

theorem rows_subset_step : s.db ⊆ (step pg hashtext s e).1.db := by
  rw [step, Sessions.step]
  rcases Tasks.step_happens .start (Sessions.turns (advance pg hashtext)) s e with
    ⟨-, -, hstep | ⟨i, hstep⟩⟩ |
    ⟨i, a, -, -, -, hstep⟩ | ⟨i, fate, a, phase, rows', next, -, -, -, hadvance, hstep⟩ |
    ⟨i, fate, a, phase, rows', reply, -, -, -, hadvance, hstep⟩
  all_goals rw [hstep]
  · exact List.Subset.refl _
  · exact List.Subset.refl _
  · exact List.Subset.refl _
  · obtain ⟨rfl, -⟩ := Sessions.turn_eq_goOn.mp hadvance
    exact List.Subset.refl _
  · cases turns_of_advance (Sessions.turn_eq_finish.mp hadvance) with
    | fails => exact List.Subset.refl _
    | commits => exact List.subset_append_left _ _

theorem kept_step (h : AllOwn pg s) :
    Kept pg (step pg hashtext s e).1 (step pg hashtext s e).2 := by
  intro a place hreply
  rw [step, Sessions.step] at hreply ⊢
  rcases Tasks.step_happens .start (Sessions.turns (advance pg hashtext)) s e with
    ⟨-, hnone, -⟩ | ⟨i, b, -, -, -, hstep⟩ |
    ⟨i, fate, b, phase, rows', next, -, -, -, -, hstep⟩ |
    ⟨i, fate, b, phase, rows', reply, -, -, hi, hadvance, hstep⟩
  · cases hnone.symm.trans hreply
  all_goals
    rw [hstep] at hreply ⊢
    cases hreply
  obtain _ | _ | _ | ⟨row⟩ := turns_of_advance (Sessions.turn_eq_finish.mp hadvance)
  exact ⟨_, List.mem_append_right _ (List.mem_singleton_self _), h.session i _ hi⟩

/-- The row of an append that was answered is in the table at the end. -/
theorem kept_run {events : List Event}
    {x : Event × Option (Append × Except VaultError (Int × String))}
    (hx : x ∈ trace (step pg hashtext) (Sessions.idle rows) events) :
    Kept pg (run (step pg hashtext) (Sessions.idle rows) events) x.2 := by
  refine Along.trace_settled (AllOwn pg) (fun s _ reply => Kept pg s reply)
    (fun s e hs _ => ⟨allOwn_step s e hs, kept_step s e hs⟩) ?_ (Sessions.valid_idle trivial)
    (along_of_forall (p := fun _ => True) _ fun _ _ => trivial) x hx
  intro s e _ reply _ hkept a place hreply
  obtain ⟨row, hrow, hmade⟩ := hkept a place hreply
  exact ⟨row, rows_subset_step s e hrow, hmade⟩

end Runs

section Message

variable {signer : AuditSigner} (r : AuditRecord)

/-- The fields of a record that its column leaves as they are, on both sides. -/
structure SameTexts (r r' : AuditRecord) : Prop where
  id : r.id = r'.id
  principalId : r.principalId = r'.principalId
  action : r.action = r'.action
  resource : r.resource = r'.resource
  outcome : r.outcome = r'.outcome
  outcomeDetail : r.outcomeDetail = r'.outcomeDetail

/-- Two records that differ by tenant, address, time and details at most, with no delimiter
in the address, are signed as one text exactly if they have the same there. -/
theorem message_inj {r r' : AuditRecord} {t u : Uuid} {seq : Int}
    (hsame : SameTexts r r') (ht : Uuid.parseStr r.tenantId = some t)
    (hu : r'.tenantId = u.toString) (hip : Char.ofNat 0 ∉ r.clientIp.toList)
    (hip' : Char.ofNat 0 ∉ r'.clientIp.toList) :
    signer.buildCanonicalMessageChained r seq prevHash =
        signer.buildCanonicalMessageChained r' seq prevHash ↔
      r.tenantId = r'.tenantId ∧ r.clientIp = r'.clientIp ∧
        signer.texts.rfc3339 r.timestamp = signer.texts.rfc3339 r'.timestamp ∧
        signer.texts.compact r.details = signer.texts.compact r'.details := by
  simp only [buildCanonicalMessageChained, String.intercalate_cons_cons,
    String.intercalate_singleton, hsame.id, hsame.principalId, hsame.action, hsame.resource,
    hsame.outcome, hsame.outcomeDetail, hu]
  rw [String.append_right_inj, append_nul_inj_uuid ht]
  simp only [String.append_right_inj]
  rw [append_nul_inj hip hip', append_nul_inj (signer.texts.rfc3339_noNul _)
    (signer.texts.rfc3339_noNul _)]
  simp only [String.append_assoc, String.append_left_inj]

def AuditRecord.texts : List String :=
  [r.tenantId, r.principalId, r.action, r.resource, r.outcome, r.outcomeDetail, r.clientIp]

def AuditRecord.delimiters : List Nat :=
  r.texts.map fun text => text.toList.count (Char.ofNat 0)

def AuditRecord.signed : Uuid × List String × Nanos × Json :=
  (r.id, r.texts, r.timestamp, r.details)

/-- Times and details of two records are told from their texts, and the texts of the details
have no delimiter. -/
structure Texts.TellsApart (texts : Texts) (r r' : AuditRecord) : Prop where
  timestamp : texts.rfc3339 r.timestamp = texts.rfc3339 r'.timestamp → r.timestamp = r'.timestamp
  details : texts.compact r.details = texts.compact r'.details → r.details = r'.details
  noNul : Char.ofNat 0 ∉ (texts.compact r.details).toList
  noNul' : Char.ofNat 0 ∉ (texts.compact r'.details).toList

/-- Equal messages have equal signed fields exactly if the delimiter occurs equally often in
corresponding texts. -/
theorem canonical_message_unambiguous_iff (signer : AuditSigner) (r r' : AuditRecord)
    (htexts : signer.texts.TellsApart r r') (seq seq' : Int) (prevHash prevHash' : String) :
    signer.buildCanonicalMessageChained r seq prevHash =
          signer.buildCanonicalMessageChained r' seq' prevHash' ∧ r.delimiters = r'.delimiters ↔
      r.signed = r'.signed ∧ seq = seq' ∧ prevHash = prevHash' := by
  simp only [AuditSigner.buildCanonicalMessageChained, String.intercalate_cons_cons,
    String.intercalate_singleton, AuditRecord.delimiters, AuditRecord.signed, AuditRecord.texts,
    List.map_cons, List.map_nil, List.cons.injEq, and_true, Prod.mk.injEq]
  constructor
  · rintro ⟨hmessage, htenant, hprincipal, haction, hresource, houtcome, hdetail, hip⟩
    have hsep {a b s t : String}
        (hcount : a.toList.count (Char.ofNat 0) = b.toList.count (Char.ofNat 0)) :
        a ++ AuditSigner.nul ++ s = b ++ AuditSigner.nul ++ t ↔ a = b ∧ s = t :=
      Text.append_sep_inj hcount
    -- field by field, from the left
    rw [append_nul_inj (nul_notMem_uuid _) (nul_notMem_uuid _), hsep htenant, hsep hprincipal,
      hsep haction, hsep hresource, hsep houtcome, hsep hdetail, hsep hip,
      append_nul_inj (signer.texts.rfc3339_noNul _) (signer.texts.rfc3339_noNul _),
      append_nul_inj htexts.noNul htexts.noNul',
      append_nul_inj (nul_notMem_int seq) (nul_notMem_int seq')] at hmessage
    obtain ⟨hid, h₁, h₂, h₃, h₄, h₅, h₆, h₇, htime, hdetails, hseq, hprev⟩ := hmessage
    exact ⟨⟨Uuid.toString_inj.mp hid, ⟨h₁, h₂, h₃, h₄, h₅, h₆, h₇⟩, htexts.timestamp htime,
      htexts.details hdetails⟩, Text.toString_int_injective hseq, hprev⟩
  · rintro ⟨hsigned, rfl, rfl⟩
    simp [hsigned]

end Message

/-! ## Verification -/

/-- No two tenants have one key, and no two texts or keys give one signature. -/
structure Hmac.Ideal (hmac : Hmac) (master : Bytes) : Prop where
  deriveKey : Function.Injective (hmac.deriveKey master)
  sign : ∀ {k m k' m'}, hmac.sign k m = hmac.sign k' m' → k = k' ∧ m = m'

/-- The storage leaves a record as it was signed, for a query that spells the tenant so. -/
structure Stable (pg : PgTypes) (texts : Texts) (record : AuditRecord) (text : String) : Prop where
  /-- The tenant's id is spelled as the database prints it. -/
  tenantId : ∃ tenantId : Uuid, record.tenantId = tenantId.toString
  /-- The query spells it so too. -/
  asked : text = record.tenantId
  /-- The address is empty, or it is the text of an `INET`. -/
  clientIp : ∃ ip, castInet pg (clientIpOrNull record.clientIp) = some ip ∧
    inetText ip = record.clientIp
  /-- Nothing finer than a microsecond shows in the time. -/
  timestamp : texts.rfc3339 (ofTimestamptz (toTimestamptz record.timestamp)) =
    texts.rfc3339 record.timestamp
  details : ∃ details, jsonb pg record.details = some details ∧
    texts.compact details = texts.compact record.details

section Verified

variable {pg : PgTypes} {signer : AuditSigner} {record : AuditRecord} {row : AuditRow}
  {table : List AuditRow}

theorem keyFor_injective (h : signer.hmac.Ideal signer.master) :
    Function.Injective signer.keyFor := by
  intro a b heq
  have htexts := asBytes_injective (h.deriveKey heq)
  rwa [String.append_right_inj] at htexts

variable {r r' : AuditRecord} {key key' : Bytes} {seq : Int} (hseq : r'.seq = seq)
  (hprev : r'.prevHash = prevHash)

include hseq hprev

theorem verifySignature_of_eq (hmessage : signer.buildCanonicalMessageChained r seq prevHash =
      signer.buildCanonicalMessageChained r' seq prevHash) :
    signer.verifySignature r' key (signer.signEventChained r key seq prevHash) = true := by
  subst hseq hprev
  simp [verifySignature, signEventChained, hexDecode_hexEncode, buildCanonicalMessage, hmessage]

theorem eq_of_verifySignature (h : signer.hmac.Ideal signer.master)
    (hverified :
      signer.verifySignature r' key' (signer.signEventChained r key seq prevHash) = true) :
    key = key' ∧ signer.buildCanonicalMessageChained r seq prevHash =
      signer.buildCanonicalMessageChained r' seq prevHash := by
  subst hseq hprev
  simp only [verifySignature, signEventChained, hexDecode_hexEncode, beq_iff_eq,
    buildCanonicalMessage] at hverified
  obtain ⟨hkey, hmessage⟩ := h.sign hverified
  exact ⟨hkey.symm, asBytes_injective hmessage.symm⟩

omit hseq hprev

def returned (signer : AuditSigner) (text : String) (row : AuditRow) : AuditRecord :=
  PgAuditBackend.checked signer (signer.keyFor text) (storedToRecord (ofRow row))

/-- What is stable verifies; with an ideal MAC, nothing else does. -/
theorem verified_iff_stable (hmade : MadeBy pg (insertRecord signer record) row) (text : String) :
    (Stable pg signer.texts record text → (returned signer text row).verified = some true) ∧
      (signer.hmac.Ideal signer.master → (returned signer text row).verified = some true →
        Stable pg signer.texts record text) := by
  obtain ⟨htenant, seq, prevHash, hrow⟩ := hmade
  have hrow := chainedRow_eq_some hrow
  obtain ⟨hid, hprincipal, haction, hresource, houtcome, hdetail⟩ := hrow.texts
  have hnul : Char.ofNat 0 ∉ record.clientIp.toList := by
    have hall := List.any_eq_false.mp hrow.noNul record.clientIp (by
      simp [insertRecord, recordToStored])
    simpa [hasNul] using hall
  have hsame : SameTexts record (storedToRecord (ofRow row)) :=
    ⟨hid.symm, hprincipal.symm, haction.symm, hresource.symm, houtcome.symm, by
      simp [storedToRecord, ofRow, hdetail, insertRecord, recordToStored]⟩
  have hsignature : (storedToRecord (ofRow row)).signature =
      signer.signEventChained record (signer.keyFor record.tenantId) seq prevHash := by
    simp [storedToRecord, ofRow, hrow.signature, insertRecord]
  have hseq : (storedToRecord (ofRow row)).seq = seq := by
    simp [storedToRecord, ofRow, hrow.seq]
  have hprev : (storedToRecord (ofRow row)).prevHash = prevHash := by
    simp [storedToRecord, ofRow, hrow.prevHash]
  have htime : (storedToRecord (ofRow row)).timestamp =
      ofTimestamptz (toTimestamptz record.timestamp) := congrArg ofTimestamptz hrow.timestamp
  have hmessage : signer.buildCanonicalMessageChained record seq prevHash =
      signer.buildCanonicalMessageChained (storedToRecord (ofRow row)) seq prevHash ↔ _ :=
    message_inj hsame htenant rfl hnul (nul_notMem_inetText hrow.clientIp)
  rw [htime] at hmessage
  rw [returned, checked, Option.some.injEq, hsignature]
  constructor
  · intro hstable
    obtain ⟨tenantId, htext⟩ := hstable.tenantId
    obtain ⟨ip, hip, hiptext⟩ := hstable.clientIp
    obtain ⟨details, hdetails, hcompact⟩ := hstable.details
    rw [hstable.asked]
    refine verifySignature_of_eq hseq hprev (hmessage.mpr ⟨?_, ?_, hstable.timestamp.symm, ?_⟩)
    · have hparsed : some tenantId = some row.tenantId := by
        rw [← Uuid.parseStr_toString tenantId, ← htext]
        exact htenant
      rw [htext, Option.some.inj hparsed]
      rfl
    · cases hip.symm.trans hrow.clientIp
      exact hiptext.symm
    · cases hdetails.symm.trans hrow.details
      exact hcompact.symm
  · intro h hverified
    obtain ⟨hkey, hsigned⟩ := eq_of_verifySignature hseq hprev h hverified
    obtain ⟨htext, hip, htime, hdetails⟩ := hmessage.mp hsigned
    exact ⟨⟨row.tenantId, htext⟩, (keyFor_injective h hkey).symm,
      ⟨row.clientIp, hrow.clientIp, hip.symm⟩, htime.symm,
      ⟨row.details, hrow.details, hdetails.symm⟩⟩

theorem queryEvents_eq_ok {tenantId : Uuid}
    (h : Uuid.parseStr text = some tenantId) (query : PgAuditBackend.Query) :
    ∃ total, PgAuditBackend.queryEvents signer table text query none =
      .ok ((query.page table tenantId).map (returned signer text), total) := by
  simp only [PgAuditBackend.queryEvents, queried, h, AuditStore.queryEvents,
    List.map_map]
  exact ⟨_, rfl⟩

theorem mem_page_all (hrow : row ∈ table) {limit : Nat}
    (hall : table.length ≤ limit) (hlimit : limit < 2 ^ 31) :
    row ∈ PgAuditBackend.Query.page { limit := limit } table row.tenantId := by
  have hfilter : (table.filter (EventFilter.admits ⟨row.tenantId, none, none, none, none⟩)).length
      ≤ limit := (List.length_filter_le _ _).trans hall
  rw [PgAuditBackend.Query.page, AuditStore.page, Nat.zero_min, List.drop_zero,
    List.take_of_length_le]
  · rw [List.mem_insertionSort, List.mem_filter]
    exact ⟨hrow, by simp [EventFilter.admits]⟩
  · rw [List.length_insertionSort]
    dsimp only
    omega

/-- A record that was accepted has a row, and as long as that row is in the table, every
query whose page has it returns the record as verified if the record was stable, and, with
an ideal MAC, only then. -/
theorem verified_after_storage_iff {hashtext : String → Int} {rows : List AuditRow}
    {events : List Event} {e : Event} {place : Int × String}
    (haccepted : (e, some (PgAuditBackend.insertRecord signer record, .ok place)) ∈
      trace (step pg hashtext) (Sessions.idle rows) events) :
    ∃ row ∈ (run (step pg hashtext) (Sessions.idle rows) events).db,
      row.id = record.id ∧ Uuid.parseStr record.tenantId = some row.tenantId ∧
      ∀ table, row ∈ table → (∀ limit, table.length ≤ limit → limit < 2 ^ 31 →
          row ∈ PgAuditBackend.Query.page { limit := limit } table row.tenantId) ∧
        ∀ text query, Uuid.parseStr text = some row.tenantId →
          row ∈ PgAuditBackend.Query.page query table row.tenantId →
          ∃ records total, PgAuditBackend.queryEvents signer table text query none =
            .ok (records, total) ∧
          ∃ r ∈ records, r.id = record.id ∧
            (Stable pg signer.texts record text → r.verified = some true) ∧
            (signer.hmac.Ideal signer.master → r.verified = some true →
              Stable pg signer.texts record text) := by
  obtain ⟨row, hrow, hmade⟩ := kept_run haccepted _ place rfl
  obtain ⟨seq, prevHash, hmaking⟩ := hmade.row
  have hid : row.id = record.id := (chainedRow_eq_some hmaking).texts.1
  refine ⟨row, hrow, hid, hmade.tenant, fun table htable =>
    ⟨fun limit => mem_page_all htable, fun text query htext hpage => ?_⟩⟩
  obtain ⟨total, hquery⟩ := queryEvents_eq_ok htext query
  refine ⟨_, total, hquery, returned signer text row, List.mem_map_of_mem hpage, hid, ?_⟩
  exact verified_iff_stable hmade text

end Verified

/-! ## A signer to evaluate with -/

/-- The key is the tenant's text itself, and a signature the key and the message. -/
def plainHmac : Hmac where
  deriveKey := fun _ info => info
  sign := fun key message => List.replicate key.length 1 ++ 0 :: (key ++ message)

theorem plainHmac_ideal (master : Bytes) : plainHmac.Ideal master where
  deriveKey := fun a b h => h
  sign := by
    intro k m k' m' h
    have hlength : k.length = k'.length := by
      have hones := congrArg (fun bytes : Bytes => (bytes.takeWhile (· == 1)).length) h
      simpa [plainHmac, List.takeWhile_append] using hones
    obtain ⟨-, hrest⟩ := List.append_inj h (by simp [hlength])
    exact List.append_inj (List.cons.inj hrest).2 hlength

def plainText : Json → String
  | .string text => text
  | _ => ""

def plainSigner : AuditSigner where
  hmac := plainHmac
  texts :=
    { rfc3339 := fun t => toString t.natAbs
      compact := plainText
      rfc3339_noNul := fun t => nul_notMem_toString t.natAbs }
  master := []

def loginRecord (tenantId clientIp : String) (timestamp : Nanos) : AuditRecord where
  id := Uuid.nil
  tenantId := tenantId
  principalId := "alice"
  action := "auth.login"
  resource := "session"
  outcome := "success"
  outcomeDetail := "second factor"
  details := .string "totp"
  clientIp := clientIp
  signature := ""
  timestamp := timestamp
  seq := 0
  prevHash := ""
  verified := none

theorem canonical_message_tells_tenants :
    plainSigner.buildCanonicalMessageChained (loginRecord "acme" "" 0) 1 "" ≠
      plainSigner.buildCanonicalMessageChained (loginRecord "globex" "" 0) 1 "" := by
  intro h
  have hsame := (canonical_message_unambiguous_iff plainSigner (loginRecord "acme" "" 0)
    (loginRecord "globex" "" 0) ⟨fun _ => rfl, fun _ => rfl, by decide, by decide⟩ 1 1 "" "").mp
    ⟨h, by decide⟩
  exact absurd (congrArg (fun x => x.2.1) hsame.1) (by decide)

/-- The delimiter in one field is taken for the one after it. -/
theorem canonical_message_collides :
    let record (action resource : String) : AuditRecord :=
      { loginRecord "acme" "" 0 with action := action, resource := resource }
    plainSigner.buildCanonicalMessageChained (record "a\x00b" "c") 1 "" =
        plainSigner.buildCanonicalMessageChained (record "a" "b\x00c") 1 "" ∧
      (record "a\x00b" "c").action ≠ (record "a" "b\x00c").action := by
  refine ⟨?_, ?_⟩ <;> decide +kernel

def recorded (record : AuditRecord) : List Event :=
  .arrive 1 (PgAuditBackend.insertRecord plainSigner record) :: List.replicate 5 (.resume 1 {})

theorem recorded_accepts {record : AuditRecord} {tenantId : Uuid} {row : AuditRow}
    (htenant : Uuid.parseStr record.tenantId = some tenantId)
    (hrow : chainedRow plainTypes tenantId (insertRecord plainSigner record).event
      ((insertRecord plainSigner record).sign 1 "") 1 "" = some row) :
    (.resume 1 {}, some (insertRecord plainSigner record,
      .ok (row.seq.getD 0, row.prevHash.getD ""))) ∈
        trace (step plainTypes fun _ => 0) (Sessions.idle []) (recorded record) := by
  have htip : auditChainTip [] tenantId = none := rfl
  have hlookup (x : Append × Phase) :
      (AList.singleton 1 x : AList fun _ : Nat => Append × Phase).lookup 1 = some x := rfl
  have hothers (rows : List AuditRow) (x : Append × Phase) :
      Sessions.others ⟨rows, AList.singleton 1 x⟩ 1 = [] := rfl
  have hparse : Uuid.parseStr (insertRecord plainSigner record).event.tenantId = some tenantId :=
    htenant
  simp [recorded, List.replicate, trace, step, Sessions.step, Tasks.step, Sessions.turns,
    Progress.turn, Sessions.idle, hlookup, hothers, advance, begin, hparse, lockChain, isLocked,
    readTip, htip, insertRow, hrow, commit]

/-- The record was accepted, and the table with its row answers a query for the tenant with
this verdict on it. -/
def ReadsAs (record : AuditRecord) (text : String) (verdict : Bool) : Prop :=
  ∃ row ∈ (run (step plainTypes fun _ => 0) (Sessions.idle []) (recorded record)).db,
    ∃ records total, PgAuditBackend.queryEvents plainSigner [row] text { limit := 1 } none =
      .ok (records, total) ∧ ∃ r ∈ records, r.id = record.id ∧ r.verified = some verdict

theorem readsAs_false {record : AuditRecord} {row : AuditRow}
    (htenant : Uuid.parseStr record.tenantId = some acme)
    (hrow : chainedRow plainTypes acme (insertRecord plainSigner record).event
      ((insertRecord plainSigner record).sign 1 "") 1 "" = some row)
    (hunstable : ¬ Stable plainTypes plainSigner.texts record acme.toString) :
    ReadsAs record acme.toString false := by
  obtain ⟨row, hrow, hmade⟩ := kept_run (recorded_accepts htenant hrow) _ _ rfl
  obtain ⟨seq, prevHash, hmaking⟩ := hmade.row
  obtain ⟨total, hquery⟩ := queryEvents_eq_ok
    ((Uuid.parseStr_toString acme).trans (htenant.symm.trans hmade.tenant)) { limit := 1 }
  refine ⟨row, hrow, _, total, hquery, returned plainSigner acme.toString row,
    List.mem_map_of_mem ?_, (chainedRow_eq_some hmaking).texts.1, ?_⟩
  · exact mem_page_all (List.mem_singleton_self row) (Nat.le_refl 1) (by omega)
  · have hverdict := mt ((verified_iff_stable hmade acme.toString).2 (plainHmac_ideal [])) hunstable
    rw [returned, checked, Option.some.injEq, Bool.not_eq_true] at hverdict
    exact congrArg some hverdict

/-- An address, a tenant in upper case, a time with nanoseconds: each is accepted and stored,
and the record does not verify when it is read. -/
theorem stored_unverified : ReadsAs (loginRecord acme.toString "10.0.0.1" 0) acme.toString false ∧
    ReadsAs (loginRecord "AAAAAAAA-AAAA-AAAA-AAAA-AAAAAAAAAAAA" "" 0) acme.toString false ∧
    ReadsAs (loginRecord acme.toString "" 1234567) acme.toString false := by
  have hacme := Uuid.parseStr_toString acme
  refine ⟨readsAs_false hacme rfl fun h => ?_, readsAs_false (by decide +kernel) rfl fun h => ?_,
    readsAs_false hacme rfl fun h => ?_⟩
  · obtain ⟨ip, hip, htext⟩ := h.clientIp
    cases hip
    exact absurd htext (by decide)
  · exact absurd h.asked (by decide)
  · exact absurd h.timestamp (by decide)

theorem verified_after_storage_login :
    ReadsAs (loginRecord acme.toString "10.0.0.1/32" 1700000000123456000) acme.toString true := by
  have hacme : Uuid.parseStr (loginRecord acme.toString "10.0.0.1/32"
      1700000000123456000).tenantId = some acme := Uuid.parseStr_toString acme
  obtain ⟨row, hrow, hid, htenant, hread⟩ := verified_after_storage_iff (recorded_accepts hacme rfl)
  obtain ⟨hall, hverified⟩ := hread [row] (List.mem_singleton_self row)
  obtain ⟨records, total, hquery, r, hr, hrid, hstable, -⟩ := hverified acme.toString
    { limit := 1 } htenant (hall 1 (Nat.le_refl 1) (by omega))
  refine ⟨row, hrow, records, total, hquery, r, hr, hrid, hstable ?_⟩
  exact ⟨⟨acme, rfl⟩, rfl, ⟨some (.v4 10 0 0 1 32), rfl, rfl⟩, rfl, ⟨.string "totp", rfl, rfl⟩⟩

end WslVault.AuditService
