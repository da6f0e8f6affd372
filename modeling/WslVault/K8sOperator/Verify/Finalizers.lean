import WslVault.Base.Run
import WslVault.K8sOperator.PolicyController

/-!
# Policies and their resources

The operator writes a policy for a resource that has its finalizer, and takes the finalizer
away once the policy is deleted, by the address that the resource has then. The tenant of the
address is the one of the token.
-/

namespace WslVault.K8sOperator.World

open Base

variable {ctx : PolicyOperatorContext} {tenantOf : Option String → Option String}
  {tenantAt : String × String → String} {w : World} {key : String × String}
  {old new : Option VaultPolicy} {address : Address}

def Guards (ctx : PolicyOperatorContext) (tenantId : String) (address : Address)
    (resource : Option VaultPolicy) : Prop :=
  ∃ vp ∈ resource, vp.spec.address ctx tenantId = address ∧ policyFinalizer ∈ vp.finalizers

def Guarded (ctx : PolicyOperatorContext) (tenantAt : String × String → String) (w : World)
    (address : Address) : Prop :=
  ∃ key, Guards ctx (tenantAt key) address (w.resources key)

def AllGuarded (ctx : PolicyOperatorContext) (tenantAt : String × String → String) (w : World) :
    Prop :=
  ∀ address, w.engine address ≠ none → w.Guarded ctx tenantAt address

theorem Guarded.setResource (h : w.Guarded ctx tenantAt address) (hold : w.resources key = old)
    (hkeep : Guards ctx (tenantAt key) address old → Guards ctx (tenantAt key) address new) :
    (w.setResource key new).Guarded ctx tenantAt address := by
  obtain ⟨k, hguards⟩ := h
  by_cases hkey : k = key
  · subst hkey
    exact ⟨k, by simpa [World.setResource] using hkeep (hold ▸ hguards)⟩
  · exact ⟨k, by simpa [World.setResource, hkey] using hguards⟩

theorem guards_settle {vp : VaultPolicy} {tenantId : String}
    (haddress : vp.spec.address ctx tenantId = address)
    (hfinalizer : policyFinalizer ∈ vp.finalizers) : Guards ctx tenantId address vp.settle := by
  rw [VaultPolicy.settle, if_neg fun h => List.ne_nil_of_mem hfinalizer h.2]
  exact ⟨vp, rfl, haddress, hfinalizer⟩

theorem finalizer_of_upsert {kube : KubeApi} {vp : VaultPolicy} {rules : List PolicyRuleDto}
    {request : HttpRequest} (h : K8sOperator.reconcile ctx kube vp = .upsertPolicy rules request) :
    policyFinalizer ∈ vp.finalizers ∧ request = policyRequest ctx kube vp := by
  unfold K8sOperator.reconcile at h
  split at h
  · cases h
  · split at h
    · cases h
    · next hfinalizer =>
      split at h
      · cases h
      · cases h
        exact ⟨not_not.mp hfinalizer, rfl⟩

theorem request_of_delete {kube : KubeApi} {vp : VaultPolicy} {request : HttpRequest}
    (h : K8sOperator.reconcile ctx kube vp = .deletePolicy request) :
    request = policyRequest ctx kube vp := by
  unfold K8sOperator.reconcile at h
  split at h
  · cases h
    rfl
  · split at h
    · cases h
    · split at h <;> cases h

/-- A request changes nothing, or it writes the policy of the resource in the tenant of its
token. -/
theorem request_cases {r : Reconciliation} {vp : VaultPolicy} {request : HttpRequest}
    {rules : Option (List PolicyRuleDto)} :
    w.request ctx tenantOf r vp request rules = (w, .refused) ∨
      ∃ tenantId answer, tenantOf request.bearer = some tenantId ∧
        w.request ctx tenantOf r vp request rules =
          (w.setPolicy (vp.spec.address ctx tenantId) rules, answer) := by
  unfold World.request
  cases tenantOf request.bearer with
  | none => exact .inl rfl
  | some tenantId =>
    cases r.engine with
    | refused => exact .inl rfl
    | done => exact .inr ⟨tenantId, _, rfl, rfl⟩
    | answerLost => exact .inr ⟨tenantId, _, rfl, rfl⟩

/-- An edit leaves a resource its endpoint and policy name, and the finalizer of the operator;
a token that is used for it is of its tenant. -/
def KeepsAddress (ctx : PolicyOperatorContext) (tenantOf : Option String → Option String)
    (tenantAt : String × String → String) (w : World) : Event → Prop
  | .edit key spec finalizers => ∀ vp ∈ w.resources key,
      spec.address ctx (tenantAt key) = vp.spec.address ctx (tenantAt key) ∧
        (policyFinalizer ∈ vp.finalizers → policyFinalizer ∈ finalizers)
  | .reconcile r => ∀ vp ∈ w.resources r.key, ∀ tenantId,
      tenantOf (policyRequest ctx r.kube vp).bearer = some tenantId → tenantId = tenantAt r.key
  | _ => True

theorem AllGuarded.reconcile (h : w.AllGuarded ctx tenantAt) (r : Reconciliation)
    {vp : VaultPolicy} (hvp : w.resources r.key = some vp)
    (htenant : w.KeepsAddress ctx tenantOf tenantAt (.reconcile r)) :
    (w.reconcile ctx tenantOf r vp).AllGuarded ctx tenantAt := by
  unfold World.reconcile
  split
  · split
    · refine fun address hpolicy => (h address hpolicy).setResource hvp ?_
      rintro ⟨_, ⟨⟩, haddress, hfinalizer⟩
      exact ⟨_, rfl, haddress, List.mem_append_left _ hfinalizer⟩
    · exact h
  · exact h
  · next rules request hplan =>
    obtain ⟨hfinalizer, rfl⟩ := finalizer_of_upsert hplan
    rcases request_cases with hrequest | ⟨tenantId, answer, htoken, hrequest⟩
    · rw [hrequest]
      exact h
    · rw [hrequest]
      intro address hpolicy
      by_cases heq : vp.spec.address ctx tenantId = address
      · exact ⟨r.key, vp, hvp, htenant vp hvp _ htoken ▸ heq, hfinalizer⟩
      · exact h address (by simpa [setPolicy, Ne.symm heq] using hpolicy)
  · next request hplan =>
    obtain rfl := request_of_delete hplan
    rcases request_cases with hrequest | ⟨tenantId, answer, htoken, hrequest⟩
    · rw [hrequest]
      exact h
    · have hgone : ∀ address,
          (w.setPolicy (vp.spec.address ctx tenantId) none).engine address ≠ none →
          vp.spec.address ctx (tenantAt r.key) ≠ address ∧ w.Guarded ctx tenantAt address := by
        intro address hpolicy
        have hne : address ≠ vp.spec.address ctx tenantId := by
          rintro rfl
          simp [setPolicy] at hpolicy
        exact ⟨htenant vp hvp _ htoken ▸ hne.symm,
          h address (by simpa [setPolicy, hne] using hpolicy)⟩
      rw [hrequest]
      dsimp only
      split
      · intro address hpolicy
        obtain ⟨hne, hguarded⟩ := hgone address hpolicy
        refine Guarded.setResource (w := w.setPolicy _ none) hguarded hvp ?_
        rintro ⟨_, ⟨⟩, haddress, -⟩
        exact absurd haddress hne
      · exact fun address hpolicy => (hgone address hpolicy).2

theorem AllGuarded.step (h : w.AllGuarded ctx tenantAt) (e : Event)
    (he : w.KeepsAddress ctx tenantOf tenantAt e) :
    (w.step ctx tenantOf e).1.AllGuarded ctx tenantAt := by
  unfold World.step
  split
  · next hnew =>
    refine fun address hpolicy => (h address hpolicy).setResource hnew ?_
    rintro ⟨_, ⟨⟩, -⟩
  · next key spec finalizers vp hvp =>
    refine fun address hpolicy => (h address hpolicy).setResource hvp ?_
    rintro ⟨_, ⟨⟩, haddress, hfinalizer⟩
    exact guards_settle ((he vp hvp).1.trans haddress) ((he vp hvp).2 hfinalizer)
  · next key vp hvp =>
    refine fun address hpolicy => (h address hpolicy).setResource hvp ?_
    rintro ⟨_, ⟨⟩, haddress, hfinalizer⟩
    exact guards_settle haddress hfinalizer
  · next r vp hvp => exact h.reconcile r hvp he
  · exact h

end WslVault.K8sOperator.World
