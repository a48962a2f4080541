import Mathlib.Data.List.Basic
import Mathlib.Data.Nat.Basic
import Mathlib.Logic.Function.Basic
import Mathlib.Tactic.Common

/-!
# Services that answer one request at a time

A transducer takes its state and an input to an output and the next state.

* `run`, `final`: the inputs of a run with their outputs, and the state after it;
* `keyed`: the same service once for every key;
* **`filter_run_keyed`**: what a keyed service answers on one key is what the single service answers
  to the inputs of that key;
* **`forall_run`**: invariants of services whose inputs come at non-decreasing times.
-/

set_option autoImplicit false

/-- A service with state `σ`, inputs `ι` and outputs `ο`. -/
abbrev Transducer (σ ι ο : Type) := σ → ι → ο × σ

namespace Transducer

variable {σ ι ο κ : Type}

/-- The inputs in order, each with its output. -/
def run (f : Transducer σ ι ο) : σ → List ι → List (ι × ο)
  | _, [] => []
  | s, i :: is => (i, (f s i).1) :: run f (f s i).2 is

/-- The state after a run. -/
def final (f : Transducer σ ι ο) : σ → List ι → σ
  | s, [] => s
  | s, i :: is => final f (f s i).2 is

theorem run_append (f : Transducer σ ι ο) (s : σ) (is js : List ι) :
    run f s (is ++ js) = run f s is ++ run f (final f s is) js := by
  induction is generalizing s with
  | nil => rfl
  | cons i is ih => exact congrArg _ (ih _)

theorem run_map_fst (f : Transducer σ ι ο) (s : σ) (is : List ι) :
    (run f s is).map Prod.fst = is := by
  induction is generalizing s with
  | nil => rfl
  | cons i is ih => exact congrArg (i :: ·) (ih _)

theorem exists_mem_run {f : Transducer σ ι ο} {s : σ} {is : List ι} {i : ι} :
    (∃ o, (i, o) ∈ run f s is) ↔ i ∈ is := by
  conv_rhs => rw [← run_map_fst f s is]
  simp

/-- Services with the same states and matching outputs have matching runs. -/
theorem run_map_congr {ο' γ : Type} {f : Transducer σ ι ο} {g : Transducer σ ι ο'} {a : ο → γ}
    {b : ο' → γ} {is : List ι}
    (h : ∀ i ∈ is, ∀ s, (f s i).2 = (g s i).2 ∧ a (f s i).1 = b (g s i).1) (s : σ) :
    (run f s is).map (Prod.map id a) = (run g s is).map (Prod.map id b) := by
  induction is generalizing s with
  | nil => rfl
  | cons i is ih =>
      obtain ⟨hs, ho⟩ := h i List.mem_cons_self s
      simp only [run, List.map_cons, Prod.map_apply, id_eq, ho, hs]
      rw [ih fun j hj => h j (List.mem_cons_of_mem _ hj)]

/-- One copy of the service for every key. -/
def keyed [DecidableEq κ] (key : ι → κ) (f : Transducer σ ι ο) : Transducer (κ → σ) ι ο :=
  fun db i => ((f (db (key i)) i).1, Function.update db (key i) (f (db (key i)) i).2)

/-- **Keys do not interfere.** -/
theorem filter_run_keyed [DecidableEq κ] (key : ι → κ) (f : Transducer σ ι ο) (db : κ → σ)
    (is : List ι) (k : κ) :
    (run (keyed key f) db is).filter (fun p => key p.1 = k) =
      run f (db k) (is.filter fun i => key i = k) := by
  induction is generalizing db with
  | nil => rfl
  | cons i is ih =>
      simp only [run]
      by_cases h : key i = k
      · rw [List.filter_cons_of_pos (by simpa using h), List.filter_cons_of_pos (by simpa using h),
          ih]
        subst h
        simp [run, keyed]
      · rw [List.filter_cons_of_neg (by simpa using h), List.filter_cons_of_neg (by simpa using h),
          ih]
        simp [keyed, Function.update_of_ne (Ne.symm h)]

/-- **Invariants over time.** `I n` is kept from one input to the next, where `n` is the time of the
last input, and every output satisfies `P`. -/
theorem forall_run {f : Transducer σ ι ο} (time : ι → ℕ) {I : ℕ → σ → Prop} {G : ι → Prop}
    {P : ι → ο → Prop}
    (hstep : ∀ n s i, I n s → n ≤ time i → G i → P i (f s i).1 ∧ I (time i) (f s i).2)
    {n : ℕ} {s : σ} {is : List ι} (hI : I n s) (hn : ∀ i ∈ is, n ≤ time i)
    (hsorted : is.Pairwise fun i j => time i ≤ time j) (hG : ∀ i ∈ is, G i) :
    ∀ p ∈ run f s is, P p.1 p.2 := by
  induction is generalizing n s with
  | nil => exact fun p hp => absurd hp List.not_mem_nil
  | cons i is ih =>
      obtain ⟨hP, hI'⟩ := hstep n s i hI (hn i List.mem_cons_self) (hG i List.mem_cons_self)
      obtain ⟨hle, hrest⟩ := List.pairwise_cons.mp hsorted
      intro p hp
      rcases List.mem_cons.mp hp with rfl | hp
      · exact hP
      · exact ih hI' hle hrest (fun j hj => hG j (List.mem_cons_of_mem _ hj)) p hp

end Transducer
