import WslVault.PolicyEngine.Verify.Glob

/-!
# Deny wins

The two nested loops of `evaluate` see the rules of the named policies as one list,
`namedRules`.
-/

namespace WslVault.PolicyEngine

def PolicyRule.hits (rule : PolicyRule) (resource : String) (cap : Capability) : Bool :=
  rule.pathMatched resource && decide (cap ∈ rule.capabilities)

variable {rule : PolicyRule} {resource : String}

theorem PolicyRule.hits_iff {cap : Capability} :
    rule.hits resource cap = true ↔
      (∃ pattern ∈ rule.paths, Matches pattern resource) ∧ cap ∈ rule.capabilities := by
  simp [hits, pathMatched, globMatch_iff]

def rulesOf (compiled : CompiledPolicies) (tenantId name : String) : List PolicyRule :=
  (compiled.lookup ⟨tenantId, name⟩).getD []

def namedRules (compiled : CompiledPolicies) (tenantId : String) (policies : List String) :
    List PolicyRule :=
  policies.flatMap (rulesOf compiled tenantId)

variable {compiled : CompiledPolicies} {tenantId : String} {policies : List String}
  {keep : String → Bool} {i : Nat} {added : PolicyRule}

theorem mem_namedRules : rule ∈ namedRules compiled tenantId policies ↔
      ∃ name ∈ policies, rule ∈ rulesOf compiled tenantId name :=
  List.mem_flatMap

section Scan

variable {required : Capability} {resource : String}

/-- The loop over one policy ends normally when no rule denies, with the grants
of its rules added. -/
theorem scanRules_ok_iff {policyName : String} {rules : List PolicyRule} {anyAllow b : Bool} :
    scanRules required resource policyName rules anyAllow = .ok b ↔
      rules.any (·.hits resource .deny) = false ∧
      b = (anyAllow || rules.any (·.hits resource required)) := by
  induction rules generalizing anyAllow with
  | nil => simp [scanRules, eq_comm]
  | cons rule rules ih =>
    unfold scanRules
    by_cases hmatch : rule.pathMatched resource = true
    · by_cases hdeny : .deny ∈ rule.capabilities
      · simp [hmatch, hdeny, PolicyRule.hits]
      · by_cases hreq : required ∈ rule.capabilities <;>
          simp [hmatch, hdeny, hreq, PolicyRule.hits, ih]
    · simp [hmatch, PolicyRule.hits, ih]

theorem scanPolicies_ok_iff {anyAllow b : Bool} :
    scanPolicies compiled tenantId required resource policies anyAllow = .ok b ↔
      (namedRules compiled tenantId policies).any (·.hits resource .deny) = false ∧
      b = (anyAllow || (namedRules compiled tenantId policies).any (·.hits resource required)) := by
  induction policies generalizing anyAllow with
  | nil => simp [scanPolicies, namedRules, eq_comm]
  | cons name policies ih =>
    have hcons : namedRules compiled tenantId (name :: policies) =
        rulesOf compiled tenantId name ++ namedRules compiled tenantId policies := rfl
    unfold scanPolicies
    rw [hcons, List.any_append, List.any_append, Bool.or_eq_false_iff]
    cases hk : compiled.lookup ⟨tenantId, name⟩ with
    | none =>
      have hnone : rulesOf compiled tenantId name = [] := by simp [rulesOf, hk]
      simp [hnone, ih]
    | some rules =>
      have hsome : rulesOf compiled tenantId name = rules := by simp [rulesOf, hk]
      rw [hsome]
      cases hscan : scanRules required resource name rules anyAllow with
      | error reason =>
        have hdeny : rules.any (·.hits resource .deny) ≠ false := by
          intro hnone
          have := scanRules_ok_iff.mpr ⟨hnone, rfl⟩ |>.symm.trans hscan
          cases this
        simp [hscan, hdeny]
      | ok grant =>
        obtain ⟨hdeny, rfl⟩ := scanRules_ok_iff.mp hscan
        simp only [hscan, ih, hdeny, true_and, Bool.or_assoc]

theorem scanPolicies_filter
    (h : ∀ name ∈ policies, keep name = false → compiled.lookup ⟨tenantId, name⟩ = none)
    (anyAllow : Bool) :
    scanPolicies compiled tenantId required resource (policies.filter keep) anyAllow =
      scanPolicies compiled tenantId required resource policies anyAllow := by
  induction policies generalizing anyAllow with
  | nil => rfl
  | cons name policies ih =>
    have ih := ih fun n hn => h n (List.mem_cons_of_mem name hn)
    by_cases hkeep : keep name = true
    · rw [List.filter_cons_of_pos hkeep]
      simp only [scanPolicies, ih]
    · rw [List.filter_cons_of_neg hkeep, ih]
      have hnone := h name List.mem_cons_self (by simpa using hkeep)
      simp only [scanPolicies, hnone]

end Scan

/-- A request is allowed exactly when its action is known, a named rule grants
the capability and no named rule denies. -/
theorem evaluate_eq_allow_iff (compiled : CompiledPolicies) (tenantId : String)
    (policies : List String) (action resource : String) :
    evaluate compiled tenantId policies action resource = .allow ↔
      ∃ cap, Capability.fromAction action = some cap ∧
        (∃ rule ∈ namedRules compiled tenantId policies, rule.hits resource cap = true) ∧
        ¬ ∃ rule ∈ namedRules compiled tenantId policies, rule.hits resource .deny = true := by
  unfold evaluate
  cases hcap : Capability.fromAction action with
  | none => simp
  | some cap =>
    have hallow : (∃ rule ∈ namedRules compiled tenantId policies, rule.hits resource cap = true) ∧
        (¬ ∃ rule ∈ namedRules compiled tenantId policies, rule.hits resource .deny = true) ↔
        scanPolicies compiled tenantId cap resource policies false = .ok true := by
      rw [scanPolicies_ok_iff, Bool.false_or, eq_comm (a := true), List.any_eq_true,
        ← Bool.not_eq_true, List.any_eq_true]
      exact and_comm
    simp only [Option.some.injEq, exists_eq_left', hallow]
    cases scanPolicies compiled tenantId cap resource policies false with
    | error reason => simp
    | ok b => cases b <;> simp

/-! ## Order, repetition and added rules -/

/-- The policy with one more rule, at any position; a policy the tenant did
not have starts empty. -/
def CompiledPolicies.addRule (compiled : CompiledPolicies) (tenantId name : String) (i : Nat)
    (rule : PolicyRule) : CompiledPolicies :=
  compiled.upsert tenantId name ((rulesOf compiled tenantId name).insertIdx i rule)

theorem rulesOf_upsert (compiled : CompiledPolicies) (t name t' name' : String)
    (rules : List PolicyRule) : rulesOf (compiled.upsert t name rules) t' name' =
      if (⟨t', name'⟩ : PolicyKey) = ⟨t, name⟩ then rules else rulesOf compiled t' name' := by
  unfold rulesOf CompiledPolicies.upsert
  split
  · next h => rw [h, AList.lookup_insert, Option.getD_some]
  · next h => rw [AList.lookup_insert_ne h]

theorem mem_namedRules_addRule {t name : String}
    (h : rule ∈ namedRules (compiled.addRule t name i added) tenantId policies) :
    rule ∈ namedRules compiled tenantId policies ∨ rule = added := by
  obtain ⟨name', hname', hrule⟩ := mem_namedRules.mp h
  rw [CompiledPolicies.addRule, rulesOf_upsert] at hrule
  split at hrule
  · next hkey =>
    cases hkey
    rcases List.eq_or_mem_of_mem_insertIdx hrule with heq | hmem
    · exact .inr heq
    · exact .inl (mem_namedRules.mpr ⟨_, hname', hmem⟩)
  · exact .inl (mem_namedRules.mpr ⟨name', hname', hrule⟩)

theorem namedRules_subset_addRule (compiled : CompiledPolicies) (t name tenantId : String) (i : Nat)
    (added : PolicyRule) (policies : List String) : namedRules compiled tenantId policies ⊆
      namedRules (compiled.addRule t name i added) tenantId policies := by
  intro rule h
  obtain ⟨name', hname', hrule⟩ := mem_namedRules.mp h
  refine mem_namedRules.mpr ⟨name', hname', ?_⟩
  rw [CompiledPolicies.addRule, rulesOf_upsert]
  split
  · next hkey =>
    cases hkey
    exact List.subset_insertIdx _ _ _ hrule
  · exact hrule

/-- An added rule that denies cannot turn a denial into an allow, even when it
also grants: where it matches, it denies. -/
theorem evaluate_addRule_deny {t name : String}
    (hdeny : .deny ∈ added.capabilities) {action : String}
    (h : evaluate (compiled.addRule t name i added) tenantId policies action resource = .allow) :
    evaluate compiled tenantId policies action resource = .allow := by
  rw [evaluate_eq_allow_iff] at h ⊢
  obtain ⟨cap, hcap, ⟨rule, hrule, hhit⟩, hno⟩ := h
  refine ⟨cap, hcap, ⟨rule, ?_, hhit⟩, ?_⟩
  · rcases mem_namedRules_addRule hrule with hold | rfl
    · exact hold
    · exact absurd ⟨rule, hrule, PolicyRule.hits_iff.mpr
        ⟨(PolicyRule.hits_iff.mp hhit).1, hdeny⟩⟩ hno
  · rintro ⟨rule', hrule', hhit'⟩
    exact hno ⟨rule', namedRules_subset_addRule _ _ _ _ _ _ _ hrule', hhit'⟩

/-- A named policy has a rule with the capability and a pattern for the resource. -/
def Grants (compiled : CompiledPolicies) (tenantId : String) (policies : List String)
    (resource : String) (cap : Capability) : Prop :=
  ∃ name ∈ policies, ∃ rules, compiled.lookup ⟨tenantId, name⟩ = some rules ∧
    ∃ rule ∈ rules, (∃ pattern ∈ rule.paths, Matches pattern resource) ∧ cap ∈ rule.capabilities

theorem grants_iff {cap : Capability} :
    Grants compiled tenantId policies resource cap ↔
      ∃ rule ∈ namedRules compiled tenantId policies, rule.hits resource cap = true := by
  constructor
  · rintro ⟨name, hname, rules, hk, rule, hrule, hhit⟩
    have hrules : rulesOf compiled tenantId name = rules := by simp [rulesOf, hk]
    exact ⟨rule, mem_namedRules.mpr ⟨name, hname, hrules ▸ hrule⟩, PolicyRule.hits_iff.mpr hhit⟩
  · rintro ⟨rule, hrule, hhit⟩
    obtain ⟨name, hname, hrule⟩ := mem_namedRules.mp hrule
    cases hk : compiled.lookup ⟨tenantId, name⟩ with
    | none => simp [rulesOf, hk] at hrule
    | some rules =>
      have hrules : rulesOf compiled tenantId name = rules := by simp [rulesOf, hk]
      exact ⟨name, hname, rules, hk, rule, hrules ▸ hrule, PolicyRule.hits_iff.mp hhit⟩

/-- The exact condition for an allow. -/
theorem evaluate_eq_allow_iff_grants (compiled : CompiledPolicies) (tenantId : String)
    (policies : List String) (action resource : String) :
    evaluate compiled tenantId policies action resource = .allow ↔
      ∃ cap, Capability.fromAction action = some cap ∧
        Grants compiled tenantId policies resource cap ∧
        ¬ Grants compiled tenantId policies resource .deny := by
  simp only [evaluate_eq_allow_iff, grants_iff]

/-- Deny wins: the exact condition for an allow, that neither the order nor
the repetition of names and rules changes it, and that an added rule which
denies only ever takes an allow away. -/
theorem evaluate_denyWins (compiled : CompiledPolicies) (tenantId : String)
    (policies : List String) (action resource : String) :
    (evaluate compiled tenantId policies action resource = .allow ↔
      ∃ cap, Capability.fromAction action = some cap ∧
        Grants compiled tenantId policies resource cap ∧
        ¬ Grants compiled tenantId policies resource .deny) ∧
    (∀ (compiled' : CompiledPolicies) (policies' : List String),
      (∀ name, name ∈ policies' ↔ name ∈ policies) →
      (∀ name rule, rule ∈ rulesOf compiled' tenantId name ↔
        rule ∈ rulesOf compiled tenantId name) →
      (evaluate compiled' tenantId policies' action resource = .allow ↔
        evaluate compiled tenantId policies action resource = .allow)) ∧
    (∀ (t name : String) (i : Nat) (added : PolicyRule), .deny ∈ added.capabilities →
      evaluate compiled tenantId policies action resource ≠ .allow →
      evaluate (compiled.addRule t name i added) tenantId policies action resource ≠ .allow) := by
  refine ⟨evaluate_eq_allow_iff_grants .., fun compiled' policies' hnames hrules => ?_,
    fun t name i added hdeny hno hallow => hno (evaluate_addRule_deny hdeny hallow)⟩
  have hsame (rule : PolicyRule) : rule ∈ namedRules compiled' tenantId policies' ↔
      rule ∈ namedRules compiled tenantId policies := by
    simp only [mem_namedRules, hnames, hrules]
  simp only [evaluate_eq_allow_iff, hsame]

theorem evaluate_denyWins_repeated :
    let compiled := CompiledPolicies.upsert ∅ "t" "p" [⟨["secret/**"], {.read}⟩]
    evaluate compiled "t" ["p", "p"] "secret:read" "secret/db/key" = .allow ∧
    evaluate (compiled.addRule "t" "p" 0 ⟨["secret/*"], {.deny}⟩) "t" ["p"] "write" "secret/db" ≠
      .allow := by
  intro compiled
  constructor
  · exact ((evaluate_denyWins compiled "t" ["p"] "secret:read" "secret/db/key").2.1 compiled
      ["p", "p"] (by simp) fun _ _ => Iff.rfl).mpr (by decide +kernel)
  · exact (evaluate_denyWins compiled "t" ["p"] "write" "secret/db").2.2 "t" "p" 0 _ (by decide)
      (by decide +kernel)

end WslVault.PolicyEngine
