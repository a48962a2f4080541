import AppGate.Lib.Fallible
import Mathlib.Data.List.Basic

/-!
# Operations that are executed again

Operations on a state, each of which is executed or refused. Where an operation that was executed
has no effect the next time, several parties can execute one list of blocks of operations at the
same time, each from its beginning: together they do what one of them does alone.

* `execAll`: a block of operations, executed as a whole or not at all;
* `Idempotent`: what is executed has no effect again, also after other operations;
* `Done`, `Idempotent.done_mono`, **`Idempotent.done_of_execAll`**: operations that have no effect;
* `Upto`: the state after some of the blocks;
* **`Idempotent.execAll_of_lt`**, `Upto.next`: a block before the last one executed and the next
  one.
-/

set_option autoImplicit false

namespace Replay

open Fallible

variable {σ α ε : Type} (exec : σ → α → Except ε σ)

def execAll (s : σ) (as : List α) : Except ε σ := as.foldlM exec s

/-- An operation that was executed is executed again without effect, and one that has no effect has
none after another operation. -/
structure Idempotent : Prop where
  again : ∀ {s t : σ} {a : α}, exec s a = .ok t → exec t a = .ok t
  stays : ∀ {s t : σ} {a b : α}, exec s a = .ok s → exec s b = .ok t → exec t a = .ok t

/-- Each of the operations is executed without effect. -/
def Done (s : σ) (as : List α) : Prop := ∀ a ∈ as, exec s a = .ok s

/-- The state after the first `n` blocks. -/
def Upto (s : σ) (blocks : List (List α)) (n : ℕ) (t : σ) : Prop :=
  execAll exec s (blocks.take n).flatten = .ok t

variable {exec}

/-! ## Blocks -/

theorem execAll_cons (s : σ) (a : α) (as : List α) :
    execAll exec s (a :: as) = exec s a >>= fun t => execAll exec t as :=
  List.foldlM_cons

theorem execAll_append (s : σ) (as bs : List α) :
    execAll exec s (as ++ bs) = execAll exec s as >>= fun t => execAll exec t bs :=
  List.foldlM_append

/-- What each operation keeps, a block keeps. -/
theorem inv_execAll {P : σ → Prop} {as : List α}
    (hstep : ∀ s t, ∀ a ∈ as, P s → exec s a = .ok t → P t) {s t : σ} (hs : P s)
    (h : execAll exec s as = .ok t) : P t := by
  induction as generalizing s with
  | nil =>
      cases h
      exact hs
  | cons a as ih =>
      rw [execAll_cons] at h
      obtain ⟨u, hu, ht⟩ := bind_eq_ok.mp h
      exact ih (fun s t b hb => hstep s t b (List.mem_cons_of_mem _ hb))
        (hstep s u a List.mem_cons_self hs hu) ht

theorem Done.execAll {s : σ} {as : List α} (h : Done exec s as) : execAll exec s as = .ok s := by
  induction as with
  | nil => rfl
  | cons a as ih =>
      rw [execAll_cons, h a List.mem_cons_self, ok_bind]
      exact ih fun b hb => h b (List.mem_cons_of_mem _ hb)

/-! ## Idempotent operations -/

/-- Operations without effect stay so. -/
theorem Idempotent.done_mono (h : Idempotent exec) {s t : σ} {as bs : List α}
    (hd : Done exec s as) (ht : execAll exec s bs = .ok t) : Done exec t as :=
  inv_execAll (P := fun s => Done exec s as)
    (fun _ _ _ _ hs hst a ha => h.stays (hs a ha) hst) hd ht

/-- **A block that was executed** has no effect any more. -/
theorem Idempotent.done_of_execAll (h : Idempotent exec) {s t : σ} {as : List α}
    (ht : execAll exec s as = .ok t) : Done exec t as := by
  induction as generalizing s with
  | nil => exact fun a ha => absurd ha List.not_mem_nil
  | cons a as ih =>
      rw [execAll_cons] at ht
      obtain ⟨u, hu, hut⟩ := bind_eq_ok.mp ht
      have hfirst : Done exec u [a] := fun b hb => by
        rw [List.mem_singleton.mp hb]
        exact h.again hu
      intro b hb
      rcases List.mem_cons.mp hb with hb | hb
      · exact h.done_mono hfirst hut b (List.mem_singleton.mpr hb)
      · exact ih hut b hb

/-! ## Lists of blocks -/

theorem upto_zero (s : σ) (blocks : List (List α)) : Upto exec s blocks 0 s := rfl

/-- The next block takes the state one further. -/
theorem Upto.next {s t u : σ} {blocks : List (List α)} {n : ℕ} {block : List α}
    (h : Upto exec s blocks n t) (hb : blocks[n]? = some block)
    (hu : execAll exec t block = .ok u) : Upto exec s blocks (n + 1) u := by
  unfold Upto at h ⊢
  rw [List.take_add_one, hb, List.flatten_append, Option.toList_some, List.flatten_singleton,
    execAll_append, h, ok_bind, hu]

/-- **A block that is behind** has no effect. -/
theorem Idempotent.execAll_of_lt (h : Idempotent exec) {s t : σ} {blocks : List (List α)} {i n : ℕ}
    {block : List α} (hn : Upto exec s blocks n t) (hi : i < n) (hb : blocks[i]? = some block) :
    execAll exec t block = .ok t := by
  have hmem : block ∈ blocks.take n :=
    List.mem_of_getElem? (by rw [List.getElem?_take, if_pos hi, hb])
  exact Done.execAll fun a ha =>
    h.done_of_execAll hn a (List.mem_flatten.mpr ⟨block, hmem, ha⟩)

end Replay
