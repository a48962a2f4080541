import Mathlib.Data.List.Infix
import AppGate.Policy.Wire

/-!
# Policy refresh

`PolicyEngine::start_policy_refresh` in `gateway/src/policy.rs` fetches the policies again and
again. The list and the health flag are two cells, which different outcomes of a fetch write.

* `Response`, `installed`, `refresh`, `run`: the loop, one fetch after another;
* `policies_run`: the list is always the last one that was decoded;
* `refresh_ok`, `Silent`, `reports_snoc`: what each outcome does to the list and the flag;
* `Reports`, `Noticed`, **`reports_iff`**: the outcome sequences after which the flag is right.
-/

set_option autoImplicit false

namespace AppGate.Gateway

/-- A response to the fetch: its status, and its body or the error of reading it. -/
structure Response where
  status : ℕ
  body : Except String (List Char)
  deriving Repr

/-- What `client.get(&url).send().await` returns. -/
abbrev Outcome := Except String Response

/-- `StatusCode::is_success`. -/
def Response.isSuccess (r : Response) : Bool := 200 ≤ r.status && r.status < 300

/-- `resp.json::<Vec<Policy>>().await`. -/
def Response.json (r : Response) : Except String (List Policy) := r.body.bind decodePolicies

/-- `PolicyEngine`, without the URL and the client it fetches with. -/
structure PolicyEngine where
  policies : List Policy
  healthy : Bool
  deriving DecidableEq, Repr

namespace PolicyEngine

/-- `PolicyEngine::new`, before the first fetch. -/
def new : PolicyEngine := ⟨[], true⟩

/-- `PolicyEngine::is_healthy`. -/
def isHealthy (e : PolicyEngine) : Bool := e.healthy

/-- One turn of the loop. -/
def refresh (e : PolicyEngine) : Outcome → PolicyEngine
  | .ok resp =>
    if resp.isSuccess then
      match resp.json with
      | .ok fetched => { e with policies := fetched, healthy := true }
      | .error _ => e
    else e
  | .error _ => { e with healthy := false }

/-- A new engine after some turns of the loop. -/
def run (outcomes : List Outcome) : PolicyEngine := outcomes.foldl refresh new

end PolicyEngine

/-- The list an outcome installs: a success status with a decodable body. -/
def installed : Outcome → Option (List Policy)
  | .ok resp => if resp.isSuccess then resp.json.toOption else none
  | .error _ => none

/-- A non-success status, or a body that cannot be decoded. -/
def Silent (o : Outcome) : Prop := installed o = none ∧ ∃ resp, o = .ok resp

/-! ## The list -/

namespace PolicyEngine

@[simp] theorem run_snoc (outcomes : List Outcome) (o : Outcome) :
    run (outcomes ++ [o]) = (run outcomes).refresh o := by
  simp [run]

/-- A response installs its list and sets the flag, or changes nothing. -/
theorem refresh_ok (e : PolicyEngine) (resp : Response) :
    e.refresh (.ok resp) = match installed (.ok resp) with
      | some fetched => ⟨fetched, true⟩
      | none => e := by
  unfold refresh installed
  dsimp only
  split_ifs
  · cases resp.json <;> rfl
  · rfl

theorem policies_refresh (e : PolicyEngine) (o : Outcome) :
    (e.refresh o).policies = (installed o).getD e.policies := by
  cases o with
  | error err => rfl
  | ok resp =>
      rw [refresh_ok]
      cases installed (.ok resp) <;> rfl

/-- **The list is the last one that was decoded.** -/
theorem policies_run (outcomes : List Outcome) :
    (run outcomes).policies = (outcomes.filterMap installed).getLast?.getD [] := by
  induction outcomes using List.reverseRecOn with
  | nil => rfl
  | append_singleton os o ih =>
      rw [run_snoc, policies_refresh, ih, List.filterMap_append]
      cases h : installed o with
      | none => simp [h]
      | some ps => simp [h]

/-! ## The flag -/

theorem healthy_of_installed (e : PolicyEngine) {o : Outcome} {ps : List Policy}
    (h : installed o = some ps) : (e.refresh o).healthy = true := by
  cases o with
  | error err => cases h
  | ok resp => rw [refresh_ok, h]

theorem refresh_of_silent (e : PolicyEngine) {o : Outcome} (h : Silent o) : e.refresh o = e := by
  obtain ⟨hnone, resp, rfl⟩ := h
  rw [refresh_ok, hnone]

theorem silent_or_error {o : Outcome} (h : installed o = none) :
    Silent o ∨ ∃ err, o = .error err := by
  cases o with
  | error err => exact .inr ⟨err, rfl⟩
  | ok resp => exact .inl ⟨h, resp, rfl⟩

/-- The latest outcome, if there was one, installed a list. -/
def Fresh (outcomes : List Outcome) : Prop := ∀ o, outcomes.getLast? = some o → (installed o).isSome

theorem fresh_snoc (outcomes : List Outcome) (o : Outcome) :
    Fresh (outcomes ++ [o]) ↔ (installed o).isSome := by
  simp [Fresh]

/-- After these outcomes the list is the last one decoded, and the flag says whether the latest
outcome installed it. -/
def Reports (outcomes : List Outcome) : Prop :=
  (run outcomes).policies = (outcomes.filterMap installed).getLast?.getD [] ∧
    ((run outcomes).isHealthy = true ↔ Fresh outcomes)

/-- No silent outcome comes first or right after one that installed a list. -/
def Noticed (outcomes : List Outcome) : Prop :=
  ∀ p o, p ++ [o] <+: outcomes → Silent o → ¬ Fresh p

theorem reports_iff_fresh (outcomes : List Outcome) :
    Reports outcomes ↔ ((run outcomes).isHealthy = true ↔ Fresh outcomes) :=
  and_iff_right (policies_run outcomes)

/-- **One more outcome**, when the flag was right before it. -/
theorem reports_snoc {p : List Outcome} (h : Reports p) (o : Outcome) :
    Reports (p ++ [o]) ↔ (Silent o → ¬ Fresh p) := by
  rw [reports_iff_fresh] at h ⊢
  rw [fresh_snoc, run_snoc]
  cases ho : installed o with
  | some ps =>
      have hnot : ¬ Silent o := fun hs => by
        rw [hs.1] at ho
        cases ho
      simp [isHealthy, healthy_of_installed _ ho, hnot]
  | none =>
      rcases silent_or_error ho with hs | ⟨err, rfl⟩
      · rw [refresh_of_silent _ hs, h]
        simp [hs]
      · have hnot : ¬ Silent (.error err) := fun ⟨_, _, hr⟩ => nomatch hr
        simp [isHealthy, refresh, hnot]

/-- **Policy refresh reports staleness** after every outcome of a sequence exactly when no failure
is silent: a non-success status or an undecodable body leaves the flag as it is, so it must not come
first or right after a list was installed. The list itself is always the last one decoded. -/
theorem reports_iff (outcomes : List Outcome) :
    (∀ p, p <+: outcomes → Reports p) ↔ Noticed outcomes := by
  constructor
  · intro h p o hpo
    exact (reports_snoc (h p ((List.prefix_append p [o]).trans hpo)) o).mp (h _ hpo)
  · intro h p
    induction p using List.reverseRecOn with
    | nil =>
        intro _
        refine (reports_iff_fresh []).mpr ⟨fun _ o ho => ?_, fun _ => rfl⟩
        cases ho
    | append_singleton p o ih =>
        intro hpo
        exact (reports_snoc (ih ((List.prefix_append p [o]).trans hpo)) o).mpr (h p o hpo)

/-- A first fetch that the control plane answers with an error status leaves the engine healthy
without a list. -/
theorem not_reports_unavailable : ¬ Reports [.ok ⟨503, .ok []⟩] := by
  rintro ⟨-, h⟩
  have hfresh := h.mp rfl _ rfl
  revert hfresh
  decide

end PolicyEngine

end AppGate.Gateway
