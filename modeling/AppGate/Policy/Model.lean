import Mathlib.Data.Int.Notation
import Mathlib.Data.List.Basic
import Mathlib.Tactic.Common

/-!
# The two policy engines

`Gateway` is the data plane's engine (`gateway/src/policy.rs`), `ControlPlane` the control plane's
(`control-plane/internal/policy/policy.go`). Each keeps its own policy type.

* `Gateway.evaluate`, `Gateway.matchesSubject`: first match over a policy list;
* `ControlPlane.Policy.evaluate`: one policy, by loops with `break`;
* `ControlPlane.PolicySpec.validate`: what the control plane requires of a spec.
-/

set_option autoImplicit false

namespace AppGate

/-! ## The gateway -/

namespace Gateway

/-- `SubjectSelector`. -/
structure SubjectSelector where
  roles : Option (List String)
  users : Option (List String)
  deriving DecidableEq, Repr

/-- `RateLimits`. -/
structure RateLimits where
  requestsPerMinute : UInt32
  deriving DecidableEq, Repr

/-- `LoggingConfig`. -/
structure LoggingConfig where
  metadataOnly : Bool
  deriving DecidableEq, Repr

/-- `PolicySpec`. -/
structure PolicySpec where
  subjects : SubjectSelector
  providers : List String
  models : List String
  limits : RateLimits
  logging : LoggingConfig
  deriving DecidableEq, Repr

/-- `Policy`. -/
structure Policy where
  id : String
  name : String
  spec : PolicySpec
  deriving DecidableEq, Repr

/-- `EvaluationResult`. -/
structure EvaluationResult where
  allowed : Bool
  policyId : Option String
  reason : String
  deriving DecidableEq, Repr

/-- `PolicyEngine::matches_subject`. -/
def matchesSubject (policy : Policy) (identityId : String) (roles : List String) : Bool :=
  let byRole := match policy.spec.subjects.roles with
    | some policyRoles => roles.any fun role => policyRoles.contains role
    | none => false
  let byUser := match policy.spec.subjects.users with
    | some policyUsers => policyUsers.contains identityId
    | none => false
  if byRole then true else if byUser then true else false

/-- The loop of `PolicyEngine::evaluate` over the loaded policies. -/
def evaluateLoop (identityId : String) (roles : List String) (provider model : String) :
    List Policy → EvaluationResult
  | [] => ⟨false, none, "No matching policy found"⟩
  | policy :: policies =>
    if !matchesSubject policy identityId roles then
      evaluateLoop identityId roles provider model policies
    else if !policy.spec.providers.isEmpty && !policy.spec.providers.contains provider then
      evaluateLoop identityId roles provider model policies
    else if !policy.spec.models.isEmpty && !policy.spec.models.contains model then
      evaluateLoop identityId roles provider model policies
    else ⟨true, some policy.id, "Access granted by policy"⟩

/-- `PolicyEngine::evaluate` on the loaded policies. -/
def evaluate (policies : List Policy) (identityId : String) (roles : List String)
    (provider model : String) : EvaluationResult :=
  if policies.isEmpty then ⟨false, none, "No policies configured - fail closed"⟩
  else evaluateLoop identityId roles provider model policies

end Gateway

/-! ## The control plane -/

namespace ControlPlane

/-- `SubjectSelector`; a `nil` slice is the empty list. -/
structure SubjectSelector where
  roles : List String
  users : List String
  groups : List String
  deriving DecidableEq, Repr

/-- `RateLimits`. -/
structure RateLimits where
  requestsPerMinute : ℤ
  tokensPerMinute : ℤ
  concurrentLimit : ℤ
  deriving DecidableEq, Repr

/-- `LoggingConfig`. -/
structure LoggingConfig where
  metadataOnly : Bool
  logPrompts : Bool
  logResponses : Bool
  retentionDays : ℤ
  deriving DecidableEq, Repr

/-- `PolicySpec`. -/
structure PolicySpec where
  name : String
  subjects : SubjectSelector
  providers : List String
  models : List String
  limits : RateLimits
  logging : LoggingConfig
  deriving DecidableEq, Repr

/-- `Policy`, without its version, author and timestamps. -/
structure Policy where
  id : String
  name : String
  spec : PolicySpec
  deriving DecidableEq, Repr

/-- `PolicyEvaluationResult`; the zero value of a field is the empty string. -/
structure PolicyEvaluationResult where
  allowed : Bool
  policyId : String := ""
  policyName : String := ""
  reason : String := ""
  deriving DecidableEq, Repr

/-- `PolicySpec.Validate`. -/
def PolicySpec.validate (s : PolicySpec) : Except String Unit :=
  if s.name = "" then .error "policy must have a name"
  else if s.subjects.roles.length = 0 ∧ s.subjects.users.length = 0 ∧
      s.subjects.groups.length = 0 then
    .error "policy must have at least one subject selector"
  else if s.providers.length = 0 then .error "policy must specify at least one provider"
  else if s.models.length = 0 then .error "policy must specify at least one model"
  else if s.limits.requestsPerMinute ≤ 0 then .error "requests_per_minute must be positive"
  else .ok ()

/-- `for _, y := range ys { if x == y { found = true; break } }`. -/
def rangeFind (x : String) : List String → Bool → Bool
  | [], found => found
  | y :: ys, found => if x = y then true else rangeFind x ys found

/-- The loop of `Policy.Evaluate` over the caller's roles; it has no `break` of its own. -/
def rangeRoles (policyRoles : List String) : List String → Bool → Bool
  | [], subjectMatch => subjectMatch
  | role :: roles, subjectMatch =>
    rangeRoles policyRoles roles (rangeFind role policyRoles subjectMatch)

/-- The value of `subjectMatch` in `Policy.Evaluate` after both loops; users are searched only when
no role matched. -/
def Policy.subjectMatch (p : Policy) (identityId : String) (roles : List String) : Bool :=
  let subjectMatch := rangeRoles p.spec.subjects.roles roles false
  if !subjectMatch then rangeFind identityId p.spec.subjects.users subjectMatch else subjectMatch

/-- `Policy.Evaluate`. -/
def Policy.evaluate (p : Policy) (identityId : String) (roles : List String)
    (provider model : String) : PolicyEvaluationResult :=
  if !p.subjectMatch identityId roles then { allowed := false, reason := "subject not matched" }
  else if !rangeFind provider p.spec.providers false then
    { allowed := false, reason := "provider not allowed" }
  else if !rangeFind model p.spec.models false then
    { allowed := false, reason := "model not allowed" }
  else { allowed := true, policyId := p.id, policyName := p.name, reason := "allowed by policy" }

end ControlPlane

end AppGate
