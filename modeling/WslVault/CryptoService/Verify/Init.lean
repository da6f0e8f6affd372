import WslVault.Core.Verify.WrongShares
import WslVault.CryptoService.Init

/-!
# Memory and database after an initialisation

Shares are returned only after their material went into the table. But a process publishes
its material before it is stored, and neither a failed call nor a lost race takes it back.
-/

namespace WslVault.CryptoService.Sys

open Base Core Storage Storage.SealStore

variable {p : Primitives}

def Generated (p : Primitives) (result : InitResult) (m : SealMaterial) : Prop :=
  ∃ shares threshold drawn, Seal.generate p shares threshold drawn = .ok (result, m) ∧
    threshold ≠ 0 ∧ threshold ≤ shares

variable {result : InitResult} {m : SealMaterial}

theorem Generated.exists_rowOf (h : Generated p result m) : ∃ row, rowOf m = .ok row := by
  obtain ⟨shares, threshold, drawn, hgenerate, hpos, hle⟩ := h
  simp only [Seal.generate, bind_eq_ok, pure_eq_ok] at hgenerate
  obtain ⟨_, -, _, -, _, -, _, -, hout⟩ := hgenerate
  cases hout
  exact SealStore.exists_rowOf hpos hle

def Phase.Reached (p : Primitives) : Phase → Prop
  | .checked _ req => req.secretThreshold ≠ 0 ∧ req.secretThreshold ≤ req.secretShares
  | .published _ result m => Generated p result m
  | .idle | .unsaved _ _ => True

namespace Cluster

section Set

variable (c : Cluster) (call replica : Nat) (phase : Phase) (inner : SealInner)

@[simp] theorem calls_setCall :
    (c.setCall call phase).calls = Function.update c.calls call phase := rfl

@[simp] theorem seals_setCall : (c.setCall call phase).seals = c.seals := rfl

@[simp] theorem config_setCall : (c.setCall call phase).config = c.config := rfl

@[simp] theorem calls_setSeal : (c.setSeal replica inner).calls = c.calls := rfl

@[simp] theorem seals_setSeal :
    (c.setSeal replica inner).seals = Function.update c.seals replica inner := rfl

@[simp] theorem config_setSeal : (c.setSeal replica inner).config = c.config := rfl

end Set

/-! ## What a step does -/

inductive Moves (p : Primitives) (c : Cluster) : Event → Cluster → Option InitReply → Prop where
  | stay (event : Event) {reply}
      (hreply : ∀ r ∈ reply, ∃ message, r.body = .errors message) : Moves p c event c reply
  | check {call replica} (body : Option InitRequest) {req}
      (hcall : c.calls call = .idle) (hreached : (Phase.checked replica req).Reached p) :
      Moves p c (.request call replica body) (c.setCall call (.checked replica req)) none
  | abandon {call replica req} (drawn : Seal.InitDraw)
      (hcall : c.calls call = .checked replica req) (e : VaultError) :
      Moves p c (.publish call drawn) (c.setCall call .idle) (some (.rejected e))
  | publish {call replica req} (drawn : Seal.InitDraw) {result m}
      (hcall : c.calls call = .checked replica req) (hgenerated : Generated p result m) :
      Moves p c (.publish call drawn) ((c.setSeal replica (Seal.load (c.seals replica) m)).setCall
          call (.published replica result m)) none
  | save {call replica delivery result m phase reply}
      (hcall : c.calls call = .published replica result m)
      (hphase : phase = .idle ∨ ∃ e, phase = .unsaved replica e)
      (hreply : ∀ r ∈ reply, r = .issued result ∧ (saveInitial c.config m delivery).2 = .ok ()) :
      Moves p c (.save call delivery)
        ({ c with config := (saveInitial c.config m delivery).1 }.setCall call phase) reply
  | respond {call replica e} (hcall : c.calls call = .unsaved replica e) : Moves p c (.respond call)
        ((c.setSeal replica (Seal.sealVault (c.seals replica))).setCall call .idle)
        (some (.notStored e))
  | reseal (event : Event) (replica : Nat) {inner}
      (hmaterial : inner.material = (c.seals replica).material) :
      Moves p c event (c.setSeal replica inner) none

theorem material_unsealShare (shareB64 : String) (inner : SealInner) :
    (perform (Seal.unsealShare p shareB64) inner).1.material = inner.material := by
  cases hm : inner.material with
  | none =>
    have hout : Leaves (Seal.unsealShare p shareB64) inner fun s => s = inner := by
      simp only [Seal.unsealShare, outcome_bind, outcome_get, hm]
      exact .throw rfl
    rw [hout.left, hm]
  | some m =>
    rw [(Seal.unsealShare_outcome p shareB64 hm).left, Seal.afterShare]
    split
    · exact hm
    · split
      · exact hm
      · split
        · exact hm
        · exact hm

variable {call : Nat}

theorem request_moves (c : Cluster) (hidle : c.calls call = .idle) (replica : Nat)
    (body : Option InitRequest) :
    Moves p c (.request call replica body) (c.request call replica body).1
      (c.request call replica body).2 := by
  unfold request
  dsimp only
  split
  · split
    · refine .stay _ fun r hr => ?_
      cases hr
      exact ⟨_, rfl⟩
    · next hcheck =>
      obtain ⟨hpos, hle, -⟩ := Seal.checkInit_eq_ok hcheck
      exact .check body hidle ⟨hpos, hle⟩
  · refine .stay _ fun r hr => ?_
    cases hr
    exact ⟨_, rfl⟩

variable {replica : Nat}

theorem publish_moves (c : Cluster) {req : InitRequest}
    (hcall : c.calls call = .checked replica req) (hreached : (c.calls call).Reached p)
    (drawn : Seal.InitDraw) : Moves p c (.publish call drawn) (c.publish p call replica req drawn).1
      (c.publish p call replica req drawn).2 := by
  rw [hcall] at hreached
  unfold publish
  split
  · next e _ => exact .abandon drawn hcall e
  · next result m hgenerate =>
    exact .publish drawn hcall ⟨_, _, drawn, hgenerate, hreached.1, hreached.2⟩

theorem save_moves (c : Cluster)
    (hcall : c.calls call = .published replica result m) (delivery : Delivery) :
    Moves p c (.save call delivery) (c.save call replica result m delivery).1
      (c.save call replica result m delivery).2 := by
  unfold save
  cases hsave : saveInitial c.config m delivery with
  | mk config answer =>
    have hconfig : config = (saveInitial c.config m delivery).1 := by rw [hsave]
    subst hconfig
    cases answer with
    | error e => exact .save hcall (.inr ⟨e, rfl⟩) fun r hr => by cases hr
    | ok =>
      refine .save hcall (.inl rfl) fun r hr => ?_
      cases hr
      exact ⟨rfl, by rw [hsave]⟩

theorem step_moves (c : Cluster) (hreached : ∀ call, (c.calls call).Reached p) (event : Event) :
    Moves p c event (step p c event).1 (step p c event).2 := by
  have hstay : Moves p c event c none := .stay event fun r hr => by cases hr
  cases event with
  | request call replica body =>
    unfold step
    dsimp only
    split
    · next hidle => exact c.request_moves hidle replica body
    · exact hstay
  | publish call drawn =>
    unfold step
    dsimp only
    split
    · next hcall => exact c.publish_moves hcall (hreached call) drawn
    · exact hstay
  | save call delivery =>
    unfold step
    dsimp only
    split
    · next hcall => exact c.save_moves hcall delivery
    · exact hstay
  | respond call =>
    unfold step
    dsimp only
    split
    · next hcall => exact .respond hcall
    · exact hstay
  | unsealShare replica shareB64 => exact .reseal _ replica (material_unsealShare shareB64 _)
  | sealVault replica => exact .reseal _ replica rfl

section Step

variable {c c' : Cluster} {event : Event} {reply : Option InitReply}

theorem Moves.reached (h : Moves p c event c' reply) (hc : ∀ call, (c.calls call).Reached p) :
    ∀ call, (c'.calls call).Reached p := by
  have hset : ∀ (d : Cluster) (call : Nat) (phase : Phase), d.calls = c.calls →
      phase.Reached p → ∀ call', ((d.setCall call phase).calls call').Reached p := by
    intro d call phase hd hphase call'
    rw [calls_setCall, hd]
    by_cases heq : call' = call
    · rw [heq, Function.update_self]
      exact hphase
    · rw [Function.update_of_ne heq]
      exact hc call'
  cases h with
  | stay => exact hc
  | check body hcall hreached => exact hset c _ _ rfl hreached
  | abandon => exact hset c _ _ rfl trivial
  | publish drawn hcall hgenerated => exact hset _ _ _ rfl hgenerated
  | save hcall hphase =>
    refine hset _ _ _ rfl ?_
    rcases hphase with rfl | ⟨e, rfl⟩
    · trivial
    · trivial
  | respond => exact hset _ _ _ rfl trivial
  | reseal => exact hc

theorem Moves.config_kept (h : Moves p c event c' reply) {row : SealRow}
    (hrow : c.config = some row) : c'.config = some row := by
  cases h with
  | stay | check | abandon | publish | respond | reseal => exact hrow
  | save hcall hphase =>
    change (saveInitial c.config _ _).1 = some row
    rw [hrow]
    exact (saveInitial_of_stored row _ _).1

def Opens (p : Primitives) (c : Cluster) (response : InitResponse) : Prop :=
  ∃ row result, c.config = some row ∧ Generated p result (materialOf row) ∧
    response = ⟨result.shares, result.threshold, initWarning⟩

theorem Moves.opens (h : Moves p c event c' reply) (hc : ∀ call, (c.calls call).Reached p)
    {r : InitReply} (hr : reply = some r) {response : InitResponse}
    (hresponse : r.body = .keys response) : Opens p c' response := by
  subst hr
  cases h with
  | stay _ hreply =>
    obtain ⟨message, hmessage⟩ := hreply r rfl
    rw [hmessage] at hresponse
    cases hresponse
  | abandon | respond => cases hresponse
  | @save call replica delivery result m phase _ hcall hphase hreply =>
    obtain ⟨rfl, hok⟩ := hreply r rfl
    cases hresponse
    obtain ⟨row, hrow, hsaved⟩ := saveInitial_eq_ok hok
    refine ⟨row, result, hsaved, ?_, rfl⟩
    have hgenerated := hc call
    rw [hcall] at hgenerated
    rw [materialOf_rowOf hrow]
    exact hgenerated

def Agrees (c : Cluster) (replica : Nat) : Prop :=
  ∀ m, (c.seals replica).material = some m → ∃ row, c.config = some row ∧ materialOf row = m

/-- The material is stored, or a call of this process is about to store it. -/
def Tracked (c : Cluster) (replica : Nat) (m : SealMaterial) : Prop :=
  (∃ row, c.config = some row ∧ materialOf row = m) ∨
    ∃ call result, c.calls call = .published replica result m

def Stores (replica : Nat) (c : Cluster) (event : Event) : Prop :=
  ∀ call delivery result m, event = .save call delivery →
    c.calls call = .published replica result m →
    c.config = none ∧ ∀ reason, delivery ≠ .refused reason

theorem Tracked.of_calls (h : c.Tracked replica m)
    (hconfig : ∀ row, c.config = some row → c'.config = some row)
    (hcalls : ∀ call result, c.calls call = .published replica result m →
      c'.Tracked replica m) : c'.Tracked replica m := by
  rcases h with ⟨row, hrow, hm⟩ | ⟨call, result, hcall⟩
  · exact .inl ⟨row, hconfig row hrow, hm⟩
  · exact hcalls call result hcall

theorem tracked_setCall {d : Cluster} {phase : Phase} (hd : d.calls = c.calls)
    (hcall : ∀ replica result m, c.calls call ≠ .published replica result m) {call' : Nat}
    (h : c.calls call' = .published replica result m) :
    (d.setCall call phase).Tracked replica m := by
  refine .inr ⟨call', result, ?_⟩
  have hne : call' ≠ call := by
    rintro rfl
    exact hcall _ _ _ h
  rw [calls_setCall, Function.update_of_ne hne, hd, h]

theorem Moves.tracked (h : Moves p c event c' reply) (hc : ∀ call, (c.calls call).Reached p)
    (hstores : Stores replica c event)
    (htracked : ∀ m, (c.seals replica).material = some m → c.Tracked replica m) :
    ∀ m, (c'.seals replica).material = some m → c'.Tracked replica m := by
  intro m hm
  have hconfig : ∀ row, c.config = some row → c'.config = some row :=
    fun row hrow => h.config_kept hrow
  cases h with
  | stay => exact htracked m hm
  | check body hcall =>
    exact (htracked m hm).of_calls hconfig fun call' result h =>
      tracked_setCall rfl (by simp [hcall]) h
  | abandon drawn hcall e =>
    exact (htracked m hm).of_calls hconfig fun call' result h =>
      tracked_setCall rfl (by simp [hcall]) h
  | @publish call replica' req drawn result m' hcall hgenerated =>
    by_cases heq : replica = replica'
    · subst heq
      simp only [seals_setCall, seals_setSeal, Function.update_self, Seal.load,
        Option.some.injEq] at hm
      subst hm
      exact .inr ⟨call, result, by simp⟩
    · simp only [seals_setCall, seals_setSeal, Function.update_of_ne heq] at hm
      exact (htracked m hm).of_calls hconfig fun call' result' h =>
        tracked_setCall rfl (by simp [hcall]) h
  | @save call replica' delivery result m' phase _ hcall hphase hreply =>
    refine (htracked m hm).of_calls hconfig fun call' result' h => ?_
    by_cases heq : call' = call
    · -- its own material goes in
      subst heq
      obtain ⟨hnone, hdelivery⟩ := hstores call' delivery result' m rfl h
      rw [hcall] at h
      cases h
      have hgenerated := hc call'
      rw [hcall] at hgenerated
      obtain ⟨row, hrow⟩ := Generated.exists_rowOf hgenerated
      refine .inl ⟨row, ?_, materialOf_rowOf hrow⟩
      rw [config_setCall]
      rw [hnone]
      exact saveInitial_of_empty hrow hdelivery
    · exact .inr ⟨call', result', by rw [calls_setCall, Function.update_of_ne heq]; exact h⟩
  | @respond call replica' e hcall =>
    have hbefore : (c.seals replica).material = some m := by
      by_cases heq : replica = replica'
      · subst heq
        simpa [Seal.sealVault] using hm
      · simpa [Function.update_of_ne heq] using hm
    exact (htracked m hbefore).of_calls hconfig fun call' result h =>
      tracked_setCall rfl (by simp [hcall]) h
  | @reseal _ replica' inner hmaterial =>
    have hbefore : (c.seals replica).material = some m := by
      by_cases heq : replica = replica'
      · subst heq
        simpa [← hmaterial] using hm
      · simpa [Function.update_of_ne heq] using hm
    exact htracked m hbefore

end Step

/-! ## Runs -/

theorem reached_of_idle {c : Cluster} (h : ∀ call, c.calls call = .idle) :
    ∀ call, (c.calls call).Reached p := by
  intro call
  rw [h call]
  trivial

theorem trace_opens {start : Cluster} (hidle : ∀ call, start.calls call = .idle)
    (events : List Event) {event : Event} {reply : InitReply}
    (htrace : (event, some reply) ∈ trace (step p) start events) {response : InitResponse}
    (hresponse : reply.body = .keys response) : Opens p (run (step p) start events) response := by
  have hall : Along (step p) (fun _ _ => True) start events :=
    along_of_forall (step p) fun _ _ => trivial
  refine hall.trace_settled (fun c => ∀ call, (c.calls call).Reached p)
    (fun c _ reply => ∀ r response, reply = some r → r.body = .keys response → Opens p c response)
    ?_ ?_ (reached_of_idle hidle) (event, some reply) htrace reply response rfl hresponse
  · intro c event hc _
    have hmoves := c.step_moves hc event
    exact ⟨hmoves.reached hc, fun r response hr hresponse => hmoves.opens hc hr hresponse⟩
  · intro c event _ reply hc hopens r response hr hresponse
    obtain ⟨row, result, hrow, hgenerated, hkeys⟩ := hopens r response hr hresponse
    exact ⟨row, result, (c.step_moves hc event).config_kept hrow, hgenerated, hkeys⟩

/-- The material of a replica is stored or about to be. -/
theorem run_tracked {start : Cluster} (hidle : ∀ call, start.calls call = .idle)
    (hagrees : start.Agrees replica) {events : List Event}
    (hstores : Along (step p) (Stores replica) start events)
    (hm : ((run (step p) start events).seals replica).material = some m) :
    (run (step p) start events).Tracked replica m := by
  have hinv := hstores.invariant
    (fun c => (∀ call, (c.calls call).Reached p) ∧
      ∀ m, (c.seals replica).material = some m → c.Tracked replica m)
    (fun c event hc hgood => by
      have hmoves := c.step_moves hc.1 event
      exact ⟨hmoves.reached hc.1, hmoves.tracked hc.1 hgood hc.2⟩)
    ⟨reached_of_idle hidle, fun m hm => .inl (hagrees m hm)⟩
  exact hinv.2 m hm

end Cluster

/-- However the requests of several processes are interleaved and whichever calls
on the database fail, shares that were returned give the root key of the stored
material. A process whose material, whenever it stores it, finds an empty table
and is not refused has none in memory but the stored, once nothing waits to be
stored. -/
theorem init_agrees_with_database (p : Primitives) (x : p.sharks.Coordinates)
    (hrecovers : p.sharks.Recovers x) (hfree : Seal.CollisionFree p)
    (htotal : ∀ k, ∃ check, Seal.checkValue p k = .ok check) (start : Cluster)
    (hidle : ∀ call, start.calls call = .idle) (hagrees : ∀ replica, start.Agrees replica)
    (events : List Event) :
    (∀ event reply response, (event, some reply) ∈ trace (Cluster.step p) start events →
      reply.body = .keys response →
      ∃ row root, (run (Cluster.step p) start events).config = some row ∧
        ∀ genuine ⊆ response.keysBase64, genuine.Nodup →
          genuine.length = response.secretThreshold.toNat →
          Seal.rootKey (run (Seal.step p (materialOf row)) (Seal.load Seal.new (materialOf row))
            (genuine.map .unsealShare)) = .ok root) ∧
    ∀ replica, Along (Cluster.step p) (Cluster.Stores replica) start events → (∀ call result m,
        (run (Cluster.step p) start events).calls call ≠ .published replica result m) →
      (run (Cluster.step p) start events).Agrees replica := by
  constructor
  · intro event reply response htrace hresponse
    obtain ⟨row, result, hrow, ⟨shares, threshold, drawn, hgenerate, hpos, -⟩, rfl⟩ :=
      Cluster.trace_opens hidle events htrace hresponse
    obtain ⟨root, unsealKey, hroot, -, -, hthreshold, -⟩ := Seal.generate_eq_ok hgenerate
    refine ⟨row, root, hrow, fun genuine hgenuine hdistinct hlength => ?_⟩
    have hopen := Seal.shares_open hrecovers hfree htotal hgenerate hpos hgenuine hdistinct
      (hlength.trans (congrArg UInt8.toNat hthreshold))
    rw [Seal.rootKey, hopen, hroot]
  · intro replica hstores hsettled m hm
    rcases Cluster.run_tracked hidle (hagrees replica) hstores hm with h | ⟨call, result, hcall⟩
    · exact h
    · exact absurd hcall (hsettled call result m)

def freshCluster : Cluster where
  connected := fun _ => true
  config := none
  seals := fun _ => Seal.new
  calls := fun _ => .idle

/-- One process is initialised, and the answer of the database is lost, while
another refuses a request. -/
def lostAnswer : List Event :=
  [.request 0 0 none, .request 1 1 (some ⟨2, 3⟩), .publish 0 Seal.sampleDraw,
    .save 0 (.lost "connection closed"), .respond 0]

theorem init_agrees_after_lost_answer :
    (run (Cluster.step .indexed) freshCluster lostAnswer).config ≠ none ∧
      (run (Cluster.step .indexed) freshCluster lostAnswer).Agrees 0 := by
  refine ⟨by decide +kernel, ?_⟩
  refine (init_agrees_with_database .indexed Seal.coordinates Seal.recovers_indexed
    Seal.collisionFree_indexed (fun k => ⟨_, rfl⟩) freshCluster (fun _ => rfl)
    (fun replica m hm => by cases hm) lostAnswer).2 0 ?_ ?_
  · refine ⟨?_, ?_, ?_, ?_, ?_, trivial⟩
    all_goals
      rintro call delivery result m hevent hcall
      cases hevent
    exact ⟨rfl, fun reason h => by cases h⟩
  · intro call result m hcall
    cases call with
    | zero => cases hcall
    | succ call => cases hcall

/-- Two processes are asked to initialise at the same time. The one that comes
second keeps the material that was refused. -/
theorem lost_race_keeps_material :
    let c := run (Cluster.step .indexed) freshCluster
      [.request 0 0 none, .request 1 1 none, .publish 0 Seal.sampleDraw,
        .publish 1 { Seal.sampleDraw with unsealKey := some (.repeated 32 4) },
        .save 0 .answered, .save 1 .answered, .respond 1]
    ∃ row m, c.config = some row ∧ (c.seals 1).material = some m ∧ m ≠ materialOf row := by
  refine ⟨_, _, rfl, rfl, ?_⟩
  decide +kernel

end WslVault.CryptoService.Sys
