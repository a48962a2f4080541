import Mathlib.Data.List.Basic
import Mathlib.Data.List.Induction
import Mathlib.Tactic.Common

/-!
# Machines with labelled steps

A machine has one initial state and a partial step function; a label that is not enabled has no
successor. Runs are lists of labels, so they can be evaluated.

* `exec`, `Reach`: the state after a run, and the states some run ends in.
* `Meets`: every step of a run satisfies a condition on its label and the state before it.
* **`inv_exec`**, **`inv_reach`**: what one step preserves, a whole run preserves.
* **`inv_trace`**: the same for what relates the state to the labels so far.
* **`countP_add_le`**: a variant bounds how often some steps are taken.
-/

set_option autoImplicit false

namespace Lts

/-- A machine: an initial state and the step taken on a label, if it is enabled. -/
structure Machine (σ α : Type) where
  init : σ
  step : σ → α → Option σ

variable {σ α : Type} (M : Machine σ α)

namespace Machine

/-- The state after a run, if every label of it is enabled. -/
def exec : σ → List α → Option σ
  | s, [] => some s
  | s, a :: as => (M.step s a).bind fun t => exec t as

/-- The states a run from the initial state ends in. -/
def Reach (s : σ) : Prop := ∃ as, M.exec M.init as = some s

/-- Every step of the run from `s` meets `G`. -/
def Meets (G : σ → α → Prop) : σ → List α → Prop
  | _, [] => True
  | s, a :: as => G s a ∧ ∀ t, M.step s a = some t → Meets G t as

/-- The states a run all of whose steps meet `G` ends in. -/
def ReachVia (G : σ → α → Prop) (s : σ) : Prop :=
  ∃ as, M.Meets G M.init as ∧ M.exec M.init as = some s

/-- Whether a run meets a decidable condition is found by running it. -/
def decidableMeets (G : σ → α → Prop) [∀ s a, Decidable (G s a)] :
    ∀ s as, Decidable (M.Meets G s as)
  | _, [] => isTrue trivial
  | s, a :: as =>
    match h : M.step s a with
    | none => decidable_of_iff (G s a) (by simp [Meets, h])
    | some t =>
      have := decidableMeets G t as
      decidable_of_iff (G s a ∧ M.Meets G t as) (by simp [Meets, h])

instance (G : σ → α → Prop) [∀ s a, Decidable (G s a)] (s : σ) (as : List α) :
    Decidable (M.Meets G s as) := decidableMeets M G s as

variable {M}

theorem exec_cons {s t : σ} {a : α} {as : List α} (h : M.exec s (a :: as) = some t) :
    ∃ u, M.step s a = some u ∧ M.exec u as = some t :=
  Option.bind_eq_some_iff.mp h

theorem exec_append (s : σ) (as bs : List α) :
    M.exec s (as ++ bs) = (M.exec s as).bind fun t => M.exec t bs := by
  induction as generalizing s with
  | nil => rfl
  | cons a as ih =>
      simp only [List.cons_append, exec]
      cases M.step s a with
      | none => rfl
      | some t => exact ih t

theorem Reach.step {s t : σ} {a : α} (hs : M.Reach s) (h : M.step s a = some t) : M.Reach t := by
  obtain ⟨as, has⟩ := hs
  refine ⟨as ++ [a], ?_⟩
  rw [exec_append, has]
  simp [exec, h]

/-- **Invariants along conditional runs.** A predicate kept by every step that meets `G` holds
after every run whose steps meet `G`. -/
theorem inv_exec {G : σ → α → Prop} {I : σ → Prop}
    (hstep : ∀ s a t, I s → G s a → M.step s a = some t → I t) {s t : σ} {as : List α} (hs : I s)
    (hG : M.Meets G s as) (h : M.exec s as = some t) : I t := by
  induction as generalizing s with
  | nil => cases h; exact hs
  | cons a as ih =>
      obtain ⟨u, hu, hut⟩ := exec_cons h
      exact ih (hstep s a u hs hG.1 hu) (hG.2 u hu) hut

theorem inv_reachVia {G : σ → α → Prop} {I : σ → Prop} (hinit : I M.init)
    (hstep : ∀ s a t, I s → G s a → M.step s a = some t → I t) {s : σ} (hs : M.ReachVia G s) :
    I s := by
  obtain ⟨as, hG, has⟩ := hs
  exact inv_exec hstep hinit hG has

theorem meets_true (s : σ) (as : List α) : M.Meets (fun _ _ => True) s as := by
  induction as generalizing s with
  | nil => trivial
  | cons a as ih => exact ⟨trivial, fun t _ => ih t⟩

theorem meets_of_forall_mem {p : α → Prop} (s : σ) {as : List α} (h : ∀ a ∈ as, p a) :
    M.Meets (fun _ a => p a) s as := by
  induction as generalizing s with
  | nil => trivial
  | cons a as ih =>
      exact ⟨h a List.mem_cons_self, fun t _ => ih t fun b hb => h b (List.mem_cons_of_mem a hb)⟩

/-- **Invariants.** A predicate of the initial state kept by every step holds in every reachable
state. -/
theorem inv_reach {I : σ → Prop} (hinit : I M.init)
    (hstep : ∀ s a t, I s → M.step s a = some t → I t) {s : σ} (hs : M.Reach s) : I s := by
  obtain ⟨as, has⟩ := hs
  exact inv_exec (fun s a t h _ => hstep s a t h) hinit (meets_true _ as) has

theorem exec_append_singleton {s t : σ} {a : α} {as : List α}
    (h : M.exec s (as ++ [a]) = some t) : ∃ u, M.exec s as = some u ∧ M.step u a = some t := by
  rw [exec_append] at h
  obtain ⟨u, hu, ht⟩ := Option.bind_eq_some_iff.mp h
  obtain ⟨v, hv, hvt⟩ := exec_cons ht
  cases hvt
  exact ⟨u, hu, hv⟩

/-- **Invariants with the labels so far.** What relates the initial state to no labels, and is kept
when a step adds its label, relates the state after a run to the run. -/
theorem inv_trace {I : List α → σ → Prop} (hinit : I [] M.init)
    (hstep : ∀ as s a t, I as s → M.step s a = some t → I (as ++ [a]) t) {as : List α} {s : σ}
    (h : M.exec M.init as = some s) : I as s := by
  induction as using List.reverseRecOn generalizing s with
  | nil =>
      cases h
      exact hinit
  | append_singleton as a ih =>
      obtain ⟨u, hu, hs⟩ := exec_append_singleton h
      exact hstep as u a s (ih hu) hs

/-- **Variants.** If no step raises `μ` while an invariant holds, and a step of the kind `p` lowers
it, then a run takes at most as many steps of this kind as `μ` falls by. -/
theorem countP_add_le {I : σ → Prop} {μ : σ → ℕ} {p : α → Bool}
    (hinv : ∀ s a t, I s → M.step s a = some t → I t)
    (hμ : ∀ s a t, I s → M.step s a = some t → (if p a then 1 else 0) + μ t ≤ μ s) {s t : σ}
    {as : List α} (hs : I s) (h : M.exec s as = some t) : as.countP p + μ t ≤ μ s := by
  induction as generalizing s with
  | nil =>
      cases h
      simp
  | cons a as ih =>
      obtain ⟨u, hu, hut⟩ := exec_cons h
      have hstep := hμ s a u hs hu
      have hrest := ih (hinv s a u hs hu) hut
      rw [List.countP_cons]
      omega

end Machine

end Lts
