import AppGate.Policy.Model

/-!
# The two policy engines agree

`Permits` is what both engines are for: a subject, a provider and a model that match.

* `ControlPlane.evaluate_iff`: a control-plane policy allows exactly what it permits;
* `Gateway.evaluate_eq`: the gateway answers with the first policy that grants the request;
* **`engines_agree`**: on validated policies the gateway answers as the control plane does.
-/

set_option autoImplicit false

namespace AppGate

/-- A policy with these selectors permits the request. -/
def Permits (policyRoles policyUsers providers models : List String) (identityId : String)
    (roles : List String) (provider model : String) : Prop :=
  ((∃ role ∈ roles, role ∈ policyRoles) ∨ identityId ∈ policyUsers) ∧ provider ∈ providers ∧
    model ∈ models

/-! ## The control plane -/

namespace ControlPlane

@[simp] theorem rangeFind_iff (x : String) (ys : List String) (found : Bool) :
    rangeFind x ys found = true ↔ x ∈ ys ∨ found = true := by
  induction ys with
  | nil => simp [rangeFind]
  | cons y ys ih =>
      by_cases h : x = y
      · simp [rangeFind, h]
      · simp [rangeFind, h, ih]

@[simp] theorem rangeRoles_iff (policyRoles roles : List String) (found : Bool) :
    rangeRoles policyRoles roles found = true ↔
      (∃ role ∈ roles, role ∈ policyRoles) ∨ found = true := by
  induction roles generalizing found with
  | nil => simp [rangeRoles]
  | cons role roles ih =>
      rw [rangeRoles, ih, rangeFind_iff, List.exists_mem_cons_iff, ← or_assoc,
        or_comm (a := ∃ role ∈ roles, role ∈ policyRoles)]

theorem subjectMatch_iff (p : Policy) (identityId : String) (roles : List String) :
    p.subjectMatch identityId roles = true ↔
      (∃ role ∈ roles, role ∈ p.spec.subjects.roles) ∨ identityId ∈ p.spec.subjects.users := by
  unfold Policy.subjectMatch
  by_cases h : ∃ role ∈ roles, role ∈ p.spec.subjects.roles
  · have hr := (rangeRoles_iff p.spec.subjects.roles roles false).mpr (.inl h)
    simp [hr, h]
  · have hr : rangeRoles p.spec.subjects.roles roles false = false := by
      rw [Bool.eq_false_iff, ne_eq, rangeRoles_iff]
      simp [h]
    simp [hr, h]

/-- **A control-plane policy allows exactly what it permits.** -/
theorem evaluate_iff (p : Policy) (identityId : String) (roles : List String)
    (provider model : String) :
    (p.evaluate identityId roles provider model).allowed = true ↔
      Permits p.spec.subjects.roles p.spec.subjects.users p.spec.providers p.spec.models
        identityId roles provider model := by
  have hprov := rangeFind_iff provider p.spec.providers false
  have hmodel := rangeFind_iff model p.spec.models false
  unfold Permits Policy.evaluate
  rw [← subjectMatch_iff, ← or_false (provider ∈ _), ← Bool.false_eq_true, ← hprov,
    ← or_false (model ∈ _), ← Bool.false_eq_true, ← hmodel]
  split_ifs with hs hp hm
  · simp_all
  · simp_all
  · simp_all
  · simp_all

theorem validate_lists {s : PolicySpec} (h : s.validate = .ok ()) :
    s.providers ≠ [] ∧ s.models ≠ [] := by
  unfold PolicySpec.validate at h
  split_ifs at h with _ _ hp hm _
  exact ⟨fun e => hp (by rw [e]; rfl), fun e => hm (by rw [e]; rfl)⟩

end ControlPlane

/-! ## The gateway -/

namespace Gateway

/-- The policy passes the three tests of the loop of `evaluate`. -/
def grants (policy : Policy) (identityId : String) (roles : List String)
    (provider model : String) : Bool :=
  matchesSubject policy identityId roles &&
    (policy.spec.providers.isEmpty || policy.spec.providers.contains provider) &&
    (policy.spec.models.isEmpty || policy.spec.models.contains model)

theorem matchesSubject_iff (policy : Policy) (identityId : String) (roles : List String) :
    matchesSubject policy identityId roles = true ↔
      (∃ role ∈ roles, role ∈ policy.spec.subjects.roles.getD []) ∨
        identityId ∈ policy.spec.subjects.users.getD [] := by
  unfold matchesSubject
  cases policy.spec.subjects.roles <;> cases policy.spec.subjects.users <;> simp

theorem evaluateLoop_cons (p : Policy) (ps : List Policy) (identityId : String)
    (roles : List String) (provider model : String) :
    evaluateLoop identityId roles provider model (p :: ps) =
      if grants p identityId roles provider model then ⟨true, some p.id, "Access granted by policy"⟩
      else evaluateLoop identityId roles provider model ps := by
  rw [evaluateLoop, ← Bool.not_or, ← Bool.not_or, grants]
  generalize matchesSubject p identityId roles = subject
  generalize (p.spec.providers.isEmpty || p.spec.providers.contains provider) = byProvider
  generalize (p.spec.models.isEmpty || p.spec.models.contains model) = byModel
  cases subject <;> cases byProvider <;> cases byModel <;> rfl

theorem evaluateLoop_eq (policies : List Policy) (identityId : String) (roles : List String)
    (provider model : String) :
    evaluateLoop identityId roles provider model policies =
      match policies.find? fun p => grants p identityId roles provider model with
      | some p => ⟨true, some p.id, "Access granted by policy"⟩
      | none => ⟨false, none, "No matching policy found"⟩ := by
  induction policies with
  | nil => rfl
  | cons p ps ih =>
      rw [evaluateLoop_cons, List.find?_cons]
      cases grants p identityId roles provider model with
      | true => rfl
      | false => exact ih

/-- **The gateway answers with the first policy that grants the request.** -/
theorem evaluate_eq (policies : List Policy) (identityId : String) (roles : List String)
    (provider model : String) :
    (evaluate policies identityId roles provider model).allowed =
        (policies.find? fun p => grants p identityId roles provider model).isSome ∧
      (evaluate policies identityId roles provider model).policyId =
        (policies.find? fun p => grants p identityId roles provider model).map Policy.id := by
  unfold evaluate
  split_ifs with h
  · rw [List.isEmpty_iff.mp h]
    exact ⟨rfl, rfl⟩
  · rw [evaluateLoop_eq]
    cases policies.find? fun p => grants p identityId roles provider model <;> exact ⟨rfl, rfl⟩

end Gateway

/-! ## Agreement -/

/-- What the gateway reads for a list that the control plane encodes with `omitempty`. -/
def omitempty (l : List String) : Option (List String) := if l = [] then none else some l

@[simp] theorem omitempty_getD (l : List String) : (omitempty l).getD [] = l := by
  unfold omitempty
  split_ifs with h
  · exact h.symm
  · rfl

/-- `q` is the gateway's copy of the control-plane policy `p`. -/
structure Copy (p : ControlPlane.Policy) (q : Gateway.Policy) : Prop where
  id : q.id = p.id
  roles : q.spec.subjects.roles = omitempty p.spec.subjects.roles
  users : q.spec.subjects.users = omitempty p.spec.subjects.users
  providers : q.spec.providers = p.spec.providers
  models : q.spec.models = p.spec.models

/-- A copy of a validated policy grants exactly what the policy allows. -/
theorem grants_eq_allowed {p : ControlPlane.Policy} {q : Gateway.Policy} (h : Copy p q)
    (hv : p.spec.validate = .ok ()) (identityId : String) (roles : List String)
    (provider model : String) :
    Gateway.grants q identityId roles provider model =
      (p.evaluate identityId roles provider model).allowed := by
  obtain ⟨hp, hm⟩ := ControlPlane.validate_lists hv
  have hpe : p.spec.providers.isEmpty = false := by simpa using hp
  have hme : p.spec.models.isEmpty = false := by simpa using hm
  rw [Bool.eq_iff_iff, ControlPlane.evaluate_iff]
  unfold Gateway.grants Permits
  rw [Bool.and_eq_true, Bool.and_eq_true, Gateway.matchesSubject_iff, h.roles, h.users, h.providers,
    h.models, hpe, hme, omitempty_getD, omitempty_getD, and_assoc]
  simp

theorem find?_copies {ps : List ControlPlane.Policy} {qs : List Gateway.Policy}
    (h : List.Forall₂ Copy ps qs) (hv : ∀ p ∈ ps, p.spec.validate = .ok ()) (identityId : String)
    (roles : List String) (provider model : String) :
    (qs.find? fun q => Gateway.grants q identityId roles provider model).map Gateway.Policy.id =
      (ps.find? fun p => (p.evaluate identityId roles provider model).allowed).map
        ControlPlane.Policy.id := by
  induction h with
  | nil => rfl
  | @cons p q ps qs hpq _ ih =>
      rw [List.find?_cons, List.find?_cons,
        grants_eq_allowed hpq (hv p List.mem_cons_self) identityId roles provider model]
      cases (p.evaluate identityId roles provider model).allowed with
      | true => simp [hpq.id]
      | false => exact ih fun p' hp' => hv p' (List.mem_cons_of_mem _ hp')

/-- **The engines agree.** On validated policies the gateway allows a request exactly when some
control-plane policy does, with the id of the first that does, and with no id otherwise. -/
theorem engines_agree (ps : List ControlPlane.Policy) (qs : List Gateway.Policy)
    (hv : ∀ p ∈ ps, p.spec.validate = .ok ()) (hc : List.Forall₂ Copy ps qs) (identityId : String)
    (roles : List String) (provider model : String) :
    ((Gateway.evaluate qs identityId roles provider model).allowed = true ↔
      ∃ p ∈ ps, (p.evaluate identityId roles provider model).allowed = true) ∧
    ((Gateway.evaluate qs identityId roles provider model).allowed = true →
      ∃ p, ps.find? (fun p => (p.evaluate identityId roles provider model).allowed) = some p ∧
        (Gateway.evaluate qs identityId roles provider model).policyId = some p.id) ∧
    ((Gateway.evaluate qs identityId roles provider model).allowed = false →
      (Gateway.evaluate qs identityId roles provider model).policyId = none) := by
  obtain ⟨ha, hid⟩ := Gateway.evaluate_eq qs identityId roles provider model
  have hfind := find?_copies hc hv identityId roles provider model
  rw [hfind] at hid
  rw [ha, hid, ← Option.isSome_map (f := Gateway.Policy.id), hfind]
  cases he : ps.find? fun p => (p.evaluate identityId roles provider model).allowed with
  | none =>
      rw [List.find?_eq_none] at he
      refine ⟨⟨fun h => by simp at h, ?_⟩, fun h => by simp at h, fun _ => rfl⟩
      rintro ⟨p, hp, hpa⟩
      exact absurd hpa (he p hp)
  | some p =>
      have hp := List.find?_some he
      refine ⟨⟨fun _ => ⟨p, List.mem_of_find?_eq_some he, hp⟩, fun _ => rfl⟩,
        fun _ => ⟨p, rfl, rfl⟩, fun h => by simp at h⟩

/-- One validated policy with a role selector, and a caller who has the role. -/
theorem engines_agree_engineering :
    (Gateway.evaluate
      [⟨"test-1", "Engineering LLM Access", ⟨some ["engineering"], none⟩, ["openai"], ["gpt-4"],
        ⟨60⟩, ⟨true⟩⟩] "user-1" ["engineering"] "openai" "gpt-4").policyId = some "test-1" ∧
    ∃ p ∈ [(⟨"test-1", "Engineering LLM Access", ⟨"llm", ⟨["engineering"], [], []⟩, ["openai"],
        ["gpt-4"], ⟨60, 0, 0⟩, ⟨true, false, false, 30⟩⟩⟩ : ControlPlane.Policy)],
      (p.evaluate "user-1" ["engineering"] "openai" "gpt-4").allowed = true :=
  ⟨by decide, (engines_agree _
    [⟨"test-1", "Engineering LLM Access", ⟨⟨some ["engineering"], none⟩, ["openai"], ["gpt-4"],
      ⟨60⟩, ⟨true⟩⟩⟩] (by decide) (.cons ⟨rfl, rfl, rfl, rfl, rfl⟩ .nil) "user-1" ["engineering"]
      "openai" "gpt-4").1.mp (by decide)⟩

end AppGate
