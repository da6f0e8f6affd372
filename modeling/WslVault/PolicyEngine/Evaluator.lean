import WslVault.PolicyEngine.Model

/-!
# Evaluating a request

`evaluate` and the glob matcher of `services/policy-engine/src/evaluator.rs`. Patterns and
paths are cut at `/`; `*` stands for any characters of a segment and a whole segment `**`
for any number of segments.
-/

namespace WslVault.PolicyEngine

/-- The character loop of `segment_match`. At a `*` every suffix of what is
left of the segment is tried against the rest of the pattern, by a fresh call
of `segment_match`, which accepts everything for the pattern `*`. -/
def segmentLoop : List Char → List Char → Bool
  | [], segment => segment.isEmpty
  | p :: rest, segment =>
    if p = '*' then
      segment.tails.any fun suffix => decide (rest = ['*']) || segmentLoop rest suffix
    else
      match segment with
      | [] => false
      | s :: segment => s == p && segmentLoop rest segment

def segmentMatch (pattern segment : List Char) : Bool :=
  decide (pattern = ['*']) || segmentLoop pattern segment

/-- The text before the first `/`, and the text after it, empty if there is
no `/`. -/
def cutSegment : List Char → List Char × List Char
  | [] => ([], [])
  | c :: cs => if c = '/' then ([], cs) else (c :: (cutSegment cs).1, (cutSegment cs).2)

/-- What the `**` loop tries after the whole path: the text after each `/` in
turn, and last the empty text. -/
def afterSlashes : List Char → List (List Char)
  | [] => [[]]
  | c :: cs => if c = '/' then cs :: afterSlashes cs else afterSlashes cs

theorem cutSegment_length_le (s : List Char) : (cutSegment s).2.length ≤ s.length := by
  induction s with
  | nil => exact Nat.le_refl _
  | cons c cs ih =>
    unfold cutSegment
    split
    · exact Nat.le_succ _
    · exact Nat.le_succ_of_le ih

theorem cutSegment_length_lt {s : List Char} (hs : s ≠ []) :
    (cutSegment s).2.length < s.length := by
  cases s with
  | nil => exact absurd rfl hs
  | cons c cs =>
    unfold cutSegment
    split
    · exact Nat.lt_succ_self _
    · exact Nat.lt_succ_of_le (cutSegment_length_le cs)

def globMatchRecursive (pattern path : List Char) : Bool :=
  if _hp : pattern = [] then path.isEmpty
  else if pattern.take 3 = ['*', '*', '/'] ∨ pattern = ['*', '*'] then
    globMatchRecursive (pattern.drop 3) path ||
      (afterSlashes path).any (globMatchRecursive (pattern.drop 3))
  else if !segmentMatch (cutSegment pattern).1 (cutSegment path).1 then false
  else if (cutSegment pattern).2.isEmpty then (cutSegment path).2.isEmpty
  else globMatchRecursive (cutSegment pattern).2 (cutSegment path).2
  termination_by pattern.length
  decreasing_by
  · have := List.length_pos_iff.mpr _hp
    simp only [List.length_drop]
    omega
  · have := List.length_pos_iff.mpr _hp
    simp only [List.length_drop]
    omega
  · exact cutSegment_length_lt _hp

def globMatch (pattern path : String) : Bool :=
  globMatchRecursive pattern.toList path.toList

def PolicyRule.pathMatched (rule : PolicyRule) (resource : String) : Bool :=
  rule.paths.any (globMatch · resource)

/-- The loop over the rules of one policy. An explicit deny leaves it at once
with its reason; `anyAllow` remembers a grant. -/
def scanRules (required : Capability) (resource policyName : String) :
    List PolicyRule → Bool → Except String Bool
  | [], anyAllow => .ok anyAllow
  | rule :: rules, anyAllow =>
    if !rule.pathMatched resource then scanRules required resource policyName rules anyAllow
    else if .deny ∈ rule.capabilities then
      .error s!"explicit deny in policy '{policyName}' for resource '{resource}'"
    else if required ∈ rule.capabilities then
      scanRules required resource policyName rules true
    else scanRules required resource policyName rules anyAllow

/-- The loop over the policy names; a name the tenant has no policy of is
skipped. -/
def scanPolicies (compiled : CompiledPolicies) (tenantId : String) (required : Capability)
    (resource : String) : List String → Bool → Except String Bool
  | [], anyAllow => .ok anyAllow
  | policyName :: policies, anyAllow =>
    match compiled.lookup ⟨tenantId, policyName⟩ with
    | none => scanPolicies compiled tenantId required resource policies anyAllow
    | some rules =>
      match scanRules required resource policyName rules anyAllow with
      | .error reason => .error reason
      | .ok anyAllow => scanPolicies compiled tenantId required resource policies anyAllow

def evaluate (compiled : CompiledPolicies) (tenantId : String) (policies : List String)
    (action resource : String) : PolicyDecision :=
  match Capability.fromAction action with
  | none => .deny s!"unknown action: {action}"
  | some required =>
    match scanPolicies compiled tenantId required resource policies false with
    | .error reason => .deny reason
    | .ok true => .allow
    | .ok false => .deny s!"no policy grants '{action}' on resource '{resource}'"

end WslVault.PolicyEngine
