import AppGate.Policy.Agree

/-!
# Restricting a policy

An empty list of providers or models lets every provider or model through, so taking entries out of
a policy restricts it as long as no such list becomes empty.

* `Restricts`, `grants_of_restricts`, **`allowed_of_restricts`**: a list of restricted policies
  allows no more;
* `Policy.delete`, `Policy.lifts`: one entry taken out, and when that lifts a restriction;
* **`deletion_keeps_denial`**, `deletion_lifts`.
-/

set_option autoImplicit false

namespace AppGate.Gateway

/-! ## Restrictions -/

/-- `q` has no subject, provider or model that `p` does not have, and where it takes any, so does
`p`. -/
structure Restricts (q p : Policy) : Prop where
  roles : q.spec.subjects.roles.getD [] ⊆ p.spec.subjects.roles.getD []
  users : q.spec.subjects.users.getD [] ⊆ p.spec.subjects.users.getD []
  providers : q.spec.providers ⊆ p.spec.providers
  anyProvider : q.spec.providers = [] → p.spec.providers = []
  models : q.spec.models ⊆ p.spec.models
  anyModel : q.spec.models = [] → p.spec.models = []

theorem Restricts.refl (p : Policy) : Restricts p p where
  roles _ h := h
  users _ h := h
  providers _ h := h
  anyProvider h := h
  models _ h := h
  anyModel h := h

variable {identityId provider model : String} {roles : List String}

theorem grants_of_restricts {q p : Policy} (h : Restricts q p)
    (hg : grants q identityId roles provider model = true) :
    grants p identityId roles provider model = true := by
  simp only [grants, Bool.and_eq_true, Bool.or_eq_true, List.isEmpty_iff, List.contains_iff_mem,
    matchesSubject_iff] at hg ⊢
  obtain ⟨⟨hsubject, hprovider⟩, hmodel⟩ := hg
  refine ⟨⟨?_, ?_⟩, ?_⟩
  · rcases hsubject with ⟨role, hr, hmem⟩ | huser
    · exact .inl ⟨role, hr, h.roles hmem⟩
    · exact .inr (h.users huser)
  · exact hprovider.imp h.anyProvider fun hmem => h.providers hmem
  · exact hmodel.imp h.anyModel fun hmem => h.models hmem

theorem allowed_iff (policies : List Policy) :
    (evaluate policies identityId roles provider model).allowed = true ↔
      ∃ p ∈ policies, grants p identityId roles provider model = true := by
  rw [(evaluate_eq policies identityId roles provider model).1, List.find?_isSome]

/-- **Restricted policies allow no more.** -/
theorem allowed_of_restricts {qs ps : List Policy} (h : ∀ q ∈ qs, ∃ p ∈ ps, Restricts q p)
    (ha : (evaluate qs identityId roles provider model).allowed = true) :
    (evaluate ps identityId roles provider model).allowed = true := by
  obtain ⟨q, hq, hg⟩ := (allowed_iff qs).mp ha
  obtain ⟨p, hp, hr⟩ := h q hq
  exact (allowed_iff ps).mpr ⟨p, hp, grants_of_restricts hr hg⟩

/-! ## Taking one entry out -/

/-- The lists of a policy that name who may use what. -/
inductive ListField where
  | roles
  | users
  | providers
  | models
  deriving DecidableEq, Repr

/-- The policy without the `i`-th entry of one of its lists. -/
def Policy.delete (field : ListField) (i : ℕ) (p : Policy) : Policy :=
  match field with
  | .roles => { p with spec.subjects.roles := p.spec.subjects.roles.map (·.eraseIdx i) }
  | .users => { p with spec.subjects.users := p.spec.subjects.users.map (·.eraseIdx i) }
  | .providers => { p with spec.providers := p.spec.providers.eraseIdx i }
  | .models => { p with spec.models := p.spec.models.eraseIdx i }

/-- The list has one entry, and is no restriction without it. -/
def Policy.lifts (field : ListField) (p : Policy) : Bool :=
  match field with
  | .roles | .users => false
  | .providers => p.spec.providers.length = 1
  | .models => p.spec.models.length = 1

theorem eq_nil_of_eraseIdx {α : Type} {l : List α} {i : ℕ} (hl : l.length ≠ 1)
    (h : l.eraseIdx i = []) : l = [] := by
  have hlen := congrArg List.length h
  rw [List.length_eraseIdx] at hlen
  apply List.eq_nil_of_length_eq_zero
  split_ifs at hlen
  · simp only [List.length_nil] at hlen
    omega
  · exact hlen

theorem getD_eraseIdx_subset (l : Option (List String)) (i : ℕ) :
    (l.map (·.eraseIdx i)).getD [] ⊆ l.getD [] := by
  cases l with
  | none => exact List.Subset.refl _
  | some l => exact (List.eraseIdx_sublist l i).subset

theorem restricts_delete {field : ListField} {p : Policy} (h : p.lifts field = false) (i : ℕ) :
    Restricts (p.delete field i) p := by
  cases field with
  | roles => exact { Restricts.refl p with roles := getD_eraseIdx_subset _ i }
  | users => exact { Restricts.refl p with users := getD_eraseIdx_subset _ i }
  | providers =>
      have hl : p.spec.providers.length ≠ 1 := of_decide_eq_false h
      exact { Restricts.refl p with
        providers := (List.eraseIdx_sublist _ i).subset
        anyProvider := eq_nil_of_eraseIdx hl }
  | models =>
      have hl : p.spec.models.length ≠ 1 := of_decide_eq_false h
      exact { Restricts.refl p with
        models := (List.eraseIdx_sublist _ i).subset
        anyModel := eq_nil_of_eraseIdx hl }

/-- **Taking an entry out never widens access**, unless it is the only provider or model of its
policy: a request that was denied is still denied. -/
theorem deletion_keeps_denial (policies : List Policy) (identityId : String) (roles : List String)
    (provider model : String) (j : ℕ) (field : ListField) (i : ℕ)
    (hlifts : ∀ p, policies[j]? = some p → p.lifts field = false)
    (hdenied : (evaluate policies identityId roles provider model).allowed = false) :
    (evaluate (policies.modify j (Policy.delete field i)) identityId roles provider model).allowed =
      false := by
  rw [← Bool.not_eq_true] at hdenied ⊢
  refine fun ha => hdenied (allowed_of_restricts ?_ ha)
  intro q hq
  obtain ⟨k, hk⟩ := List.getElem?_of_mem hq
  rw [List.getElem?_modify] at hk
  obtain ⟨p, hp, hpq⟩ := Option.map_eq_some_iff.mp hk
  refine ⟨p, List.mem_of_getElem? hp, ?_⟩
  split_ifs at hpq with hjk
  · rw [← hpq]
    exact restricts_delete (hlifts p (hjk ▸ hp)) i
  · rw [← hpq]
    exact Restricts.refl p

/-- Engineering may use one provider. -/
def oneProvider : Policy :=
  ⟨"test-1", "Engineering LLM Access", ⟨some ["engineering"], none⟩, ["openai"], ["gpt-4", "gpt-5"],
    ⟨60⟩, ⟨true⟩⟩

/-- One of two models taken out. -/
theorem deletion_keeps_denial_model :
    (evaluate ([oneProvider].modify 0 (Policy.delete .models 1)) "user-1" ["engineering"]
      "anthropic" "gpt-4").allowed = false :=
  deletion_keeps_denial [oneProvider] "user-1" ["engineering"] "anthropic" "gpt-4" 0 .models 1
    (by decide) (by decide)

/-- The only provider taken out: every provider is allowed. -/
theorem deletion_lifts :
    ¬ ((evaluate [oneProvider] "user-1" ["engineering"] "anthropic" "gpt-4").allowed = false →
      (evaluate ([oneProvider].modify 0 (Policy.delete .providers 0)) "user-1" ["engineering"]
        "anthropic" "gpt-4").allowed = false) := by
  decide

end AppGate.Gateway
