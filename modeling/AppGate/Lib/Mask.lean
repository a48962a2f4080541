import Mathlib.Data.List.Forall2
import AppGate.Lib.Strings

/-!
# Masked texts

Replacing texts by a marker, one after the other, is followed on a list as long as the text: each
element is kept, or starts or continues a place that was replaced.

* `Cell`, `render`, `Marker`: a masked text and what it shows;
* `cover`, `Covered`: one replacement, as a function and by its cases;
* `Foreign`, **`Covered.render_eq`**: it shows what `strings.Replace` makes of what was shown, for
  texts that do not meet the marker;
* **`Covered.absent`**, `infix_cells_of_render`: afterwards the text is not shown;
* `coverAll`, **`render_coverAll`**, **`not_infix_render_coverAll`**: several replacements.
-/

set_option autoImplicit false

namespace Mask

inductive Mark where
  | kept
  | start
  | inside
  deriving DecidableEq, Repr

structure Cell (α : Type) where
  val : α
  mark : Mark
  deriving DecidableEq, Repr

/-- What replaced places are shown as. -/
structure Marker (α : Type) where
  opening : α
  body : List α
  closing : α

variable {α : Type}

def Marker.text (m : Marker α) : List α := m.opening :: (m.body ++ [m.closing])

/-- A text of which everything is kept. -/
def cells (s : List α) : List (Cell α) := s.map (⟨·, .kept⟩)

/-- A replaced place. -/
def chunk : List α → List (Cell α)
  | [] => []
  | c :: s => ⟨c, .start⟩ :: s.map (⟨·, .inside⟩)

/-- The text under the mask. -/
def plain (X : List (Cell α)) : List α := X.map Cell.val

/-- The text that is shown. -/
def render (m : Marker α) : List (Cell α) → List α
  | [] => []
  | ⟨c, .kept⟩ :: X => c :: render m X
  | ⟨_, .start⟩ :: X => m.text ++ render m X
  | ⟨_, .inside⟩ :: X => render m X

/-- Behind the next `k` cells, the kept occurrences of `u` are replaced. -/
def coverFrom [DecidableEq α] (u : List α) : ℕ → List (Cell α) → List (Cell α)
  | _, [] => []
  | k + 1, x :: X => ⟨x.val, .inside⟩ :: coverFrom u k X
  | 0, x :: X =>
      if cells u <+: x :: X then ⟨x.val, .start⟩ :: coverFrom u (u.length - 1) X
      else x :: coverFrom u 0 X

/-- The kept occurrences of `u` are replaced, the leftmost first. -/
def cover [DecidableEq α] (u : List α) (X : List (Cell α)) : List (Cell α) := coverFrom u 0 X

/-- One replacement, by its cases. -/
inductive Covered (u : List α) : List (Cell α) → List (Cell α) → Prop where
  | nil : Covered u [] []
  | hit {X Y : List (Cell α)} : Covered u X Y → Covered u (cells u ++ X) (chunk u ++ Y)
  | miss {x : Cell α} {X Y : List (Cell α)} :
      ¬ cells u <+: x :: X → Covered u X Y → Covered u (x :: X) (x :: Y)

/-- A place that was replaced is only continued where it began: what follows a kept cell, or the
beginning where `p` is `false`, is not inside. -/
def Follows : Bool → List (Cell α) → Prop
  | _, [] => True
  | _, ⟨_, .kept⟩ :: X => Follows false X
  | _, ⟨_, .start⟩ :: X => Follows true X
  | p, ⟨_, .inside⟩ :: X => p = true ∧ Follows true X

section

variable {u : List α} {X Y : List (Cell α)} {m : Marker α} {p : Bool}

@[simp] theorem plain_cells (s : List α) : plain (cells s) = s := by
  simp [plain, cells, Function.comp_def]

@[simp] theorem plain_chunk (s : List α) : plain (chunk s) = s := by
  cases s with
  | nil => rfl
  | cons c s => simp [plain, chunk, Function.comp_def]

@[simp] theorem plain_append : plain (X ++ Y) = plain X ++ plain Y := List.map_append

@[simp] theorem length_chunk (s : List α) : (chunk s).length = s.length := by
  cases s <;> simp [chunk]

@[simp] theorem render_cells_append (s : List α) : render m (cells s ++ X) = s ++ render m X := by
  induction s with
  | nil => rfl
  | cons c s ih => exact congrArg (c :: ·) ih

theorem render_append : render m (X ++ Y) = render m X ++ render m Y := by
  induction X with
  | nil => rfl
  | cons x X ih =>
      obtain ⟨c, mark⟩ := x
      cases mark with
      | kept => exact congrArg (c :: ·) ih
      | start => simp only [List.cons_append, render, ih, List.append_assoc]
      | inside => exact ih

theorem render_inside (s : List α) : render m (s.map (⟨·, .inside⟩)) = [] := by
  induction s with
  | nil => rfl
  | cons c s ih => exact ih

theorem render_chunk_append (hu : u ≠ []) : render m (chunk u ++ X) = m.text ++ render m X := by
  obtain ⟨c, s, rfl⟩ := List.exists_cons_of_ne_nil hu
  simp only [chunk, List.cons_append, render, render_append, render_inside, List.nil_append]

/-! ## One replacement -/

theorem coverFrom_skip [DecidableEq α] (s : List α) :
    coverFrom u s.length (cells s ++ X) = s.map (⟨·, .inside⟩) ++ coverFrom u 0 X := by
  induction s with
  | nil => rfl
  | cons c s ih => exact congrArg (⟨c, .inside⟩ :: ·) ih

theorem cover_append [DecidableEq α] (hu : u ≠ []) :
    cover u (cells u ++ X) = chunk u ++ cover u X := by
  obtain ⟨c, s, rfl⟩ := List.exists_cons_of_ne_nil hu
  have hpre : cells (c :: s) <+: ⟨c, .kept⟩ :: (cells s ++ X) := List.prefix_append _ X
  show coverFrom (c :: s) 0 (⟨c, .kept⟩ :: (cells s ++ X)) = _
  rw [coverFrom, if_pos hpre, List.length_cons, Nat.add_sub_cancel, coverFrom_skip]
  rfl

theorem cover_cons_of_absent [DecidableEq α] {x : Cell α} (h : ¬ cells u <+: x :: X) :
    cover u (x :: X) = x :: cover u X := if_neg h

/-- **The cases of a replacement.** -/
theorem covered_cover [DecidableEq α] (hu : u ≠ []) (X : List (Cell α)) :
    Covered u X (cover u X) := by
  induction hn : X.length using Nat.strong_induction_on generalizing X with
  | h n ih =>
      subst hn
      cases X with
      | nil => exact .nil
      | cons x X =>
          by_cases hpre : cells u <+: x :: X
          · obtain ⟨Z, hZ⟩ := hpre
            have hlt : Z.length < (x :: X).length := by
              have hpos : 0 < u.length := List.length_pos_iff.mpr hu
              rw [← hZ, List.length_append, cells, List.length_map]
              omega
            rw [← hZ, cover_append hu]
            exact .hit (ih _ hlt Z rfl)
          · rw [cover_cons_of_absent hpre]
            exact .miss hpre (ih _ (Nat.lt_succ_self _) X rfl)

theorem Covered.eq_cover [DecidableEq α] (hu : u ≠ []) (h : Covered u X Y) : Y = cover u X := by
  induction h with
  | nil => rfl
  | hit _ ih => rw [cover_append hu, ih]
  | miss hpre _ ih => rw [cover_cons_of_absent hpre, ih]

theorem Covered.plain_eq (h : Covered u X Y) : plain Y = plain X := by
  induction h with
  | nil => rfl
  | hit _ ih => rw [plain_append, plain_append, plain_chunk, plain_cells, ih]
  | miss _ _ ih => exact congrArg (_ :: ·) ih

/-- What is masked stays as it is. -/
def Refines (X Y : List (Cell α)) : Prop :=
  List.Forall₂ (fun x y => y.val = x.val ∧ (x.mark ≠ .kept → y = x)) X Y

theorem Refines.refl (X : List (Cell α)) : Refines X X :=
  List.forall₂_same.mpr fun _ _ => ⟨rfl, fun _ => rfl⟩

theorem Refines.trans {Z : List (Cell α)} (h : Refines X Y) (h' : Refines Y Z) : Refines X Z := by
  induction h generalizing Z with
  | nil => exact h'
  | cons hxy _ ih =>
      cases h' with
      | cons hyz h' =>
          refine .cons ⟨hyz.1.trans hxy.1, fun hx => ?_⟩ (ih h')
          have hy := hxy.2 hx
          exact (hyz.2 (hy ▸ hx)).trans hy

theorem Covered.refines (h : Covered u X Y) : Refines X Y := by
  have hkept : ∀ {s t : List α} (mk : α → Cell α), (∀ c, (mk c).val = c) → s = t →
      Refines (cells s) (t.map mk) := by
    rintro s _ mk hmk rfl
    induction s with
    | nil => exact .nil
    | cons c s ih => exact .cons ⟨hmk c, fun h => absurd rfl h⟩ ih
  induction h with
  | nil => exact .nil
  | hit _ ih =>
      refine List.rel_append ?_ ih
      cases u with
      | nil => exact .nil
      | cons c s =>
          exact .cons ⟨rfl, fun h => absurd rfl h⟩ (hkept (⟨·, .inside⟩) (fun _ => rfl) rfl)
  | miss _ _ ih => exact .cons ⟨rfl, fun _ => rfl⟩ ih

theorem Refines.prefix_mono (h : Refines X Y) (hu : cells u <+: Y) : cells u <+: X := by
  induction h generalizing u with
  | nil => exact hu
  | @cons x y X Y hxy _ ih =>
      cases u with
      | nil => exact List.nil_prefix
      | cons c u =>
          obtain ⟨rfl, hu'⟩ := List.cons_prefix_cons.mp hu
          obtain ⟨d, mark⟩ := x
          have hx : (⟨c, .kept⟩ : Cell α) = ⟨d, mark⟩ := by
            by_cases hm : mark = .kept
            · rw [hm, show d = c from hxy.1.symm]
            · exact hxy.2 hm
          exact List.cons_prefix_cons.mpr ⟨hx, ih hu'⟩

theorem Refines.infix_mono (h : Refines X Y) (hu : cells u <:+: Y) : cells u <:+: X := by
  induction h with
  | nil => exact hu
  | cons hxy hXY ih =>
      rcases List.infix_cons_iff.mp hu with hu | hu
      · exact (Refines.prefix_mono (.cons hxy hXY) hu).isInfix
      · exact (ih hu).trans (List.suffix_cons _ _).isInfix

/-- A kept occurrence does not begin at a masked cell. -/
theorem infix_of_infix_cons {x : Cell α} (hu : u ≠ []) (hx : x.mark ≠ .kept)
    (h : cells u <:+: x :: X) : cells u <:+: X := by
  rcases List.infix_cons_iff.mp h with h | h
  · obtain ⟨c, s, rfl⟩ := List.exists_cons_of_ne_nil hu
    obtain ⟨rfl, -⟩ := List.cons_prefix_cons.mp h
    exact absurd rfl hx
  · exact h

theorem infix_of_infix_masked {Z : List (Cell α)} (hu : u ≠ []) (hZ : ∀ x ∈ Z, x.mark ≠ .kept)
    (h : cells u <:+: Z ++ X) : cells u <:+: X := by
  induction Z with
  | nil => exact h
  | cons x Z ih =>
      refine ih (fun y hy => hZ y (List.mem_cons_of_mem _ hy)) ?_
      exact infix_of_infix_cons hu (hZ x List.mem_cons_self) h

theorem mark_of_mem_chunk {x : Cell α} (h : x ∈ chunk u) : x.mark ≠ .kept := by
  cases u with
  | nil => cases h
  | cons c s =>
      rcases List.mem_cons.mp h with rfl | h
      · exact Mark.noConfusion
      · obtain ⟨d, -, rfl⟩ := List.mem_map.mp h
        exact Mark.noConfusion

/-- **No occurrence is kept.** -/
theorem Covered.absent (hu : u ≠ []) (h : Covered u X Y) : ¬ cells u <:+: Y := by
  induction h with
  | nil =>
      intro h
      have hnil : u = [] := by simpa [cells] using h
      exact hu hnil
  | hit _ ih => exact fun h => ih (infix_of_infix_masked hu (fun _ => mark_of_mem_chunk) h)
  | miss hpre hXY ih =>
      intro h
      rcases List.infix_cons_iff.mp h with h | h
      · exact hpre ((Covered.miss hpre hXY).refines.prefix_mono h)
      · exact ih h

/-! ## What is shown -/

theorem Follows.mono (h : Follows false X) : Follows p X := by
  cases X with
  | nil => trivial
  | cons x X =>
      obtain ⟨c, mark⟩ := x
      cases mark with
      | kept => exact h
      | start => exact h
      | inside => exact absurd h.1 Bool.false_ne_true

theorem follows_cells (s : List α) : Follows p (cells s) := by
  induction s generalizing p with
  | nil => trivial
  | cons c s ih => exact ih

theorem follows_cells_append (s : List α) (h : Follows false X) : Follows p (cells s ++ X) := by
  induction s generalizing p with
  | nil => exact h.mono
  | cons c s ih => exact ih

theorem follows_of_cells_append (hu : u ≠ []) (h : Follows p (cells u ++ X)) : Follows false X := by
  induction u generalizing p with
  | nil => exact absurd rfl hu
  | cons c s ih =>
      cases s with
      | nil => exact h
      | cons d s => exact ih (p := false) (List.cons_ne_nil d s) h

theorem follows_inside_append (s : List α) (h : Follows true X) :
    Follows true (s.map (⟨·, .inside⟩) ++ X) := by
  induction s with
  | nil => exact h
  | cons c s ih => exact ⟨rfl, ih⟩

theorem Covered.follows (hu : u ≠ []) (h : Covered u X Y) (hX : Follows p X) : Follows p Y := by
  induction h generalizing p with
  | nil => trivial
  | hit _ ih =>
      have hY := ih (follows_of_cells_append hu hX)
      obtain ⟨c, s, rfl⟩ := List.exists_cons_of_ne_nil hu
      exact follows_inside_append s hY.mono
  | @miss x _ _ _ _ ih =>
      obtain ⟨c, mark⟩ := x
      cases mark with
      | kept => exact ih hX
      | start => exact ih hX
      | inside => exact ⟨hX.1, ih hX.2⟩

/-- A text that does not meet the marker. -/
structure Foreign (m : Marker α) (u : List α) : Prop where
  ne_nil : u ≠ []
  opening : m.opening ∉ u
  closing : m.closing ∉ u
  body : ¬ u <:+: m.body

theorem Foreign.absent (h : Foreign m u) : ¬ u <:+: m.opening :: m.body := by
  intro hi
  rcases Strings.infix_of_infix_append_cons (t := []) h.opening hi with hi | hi
  · exact h.ne_nil (List.infix_nil.mp hi)
  · exact h.body hi

theorem Marker.text_append (m : Marker α) (s : List α) :
    m.text ++ s = (m.opening :: m.body) ++ m.closing :: s := by
  simp [Marker.text]

theorem prefix_cells_of_render (hu : m.opening ∉ u) (hX : Follows false X)
    (h : u <+: render m X) : cells u <+: X := by
  induction u generalizing X with
  | nil => exact List.nil_prefix
  | cons c u ih =>
      cases X with
      | nil => simp [render] at h
      | cons x X =>
          obtain ⟨d, mark⟩ := x
          cases mark with
          | kept =>
              obtain ⟨rfl, h'⟩ := List.cons_prefix_cons.mp h
              refine List.cons_prefix_cons.mpr ⟨rfl, ih (fun hm => hu ?_) hX h'⟩
              exact List.mem_cons_of_mem _ hm
          | start =>
              obtain ⟨rfl, -⟩ := List.cons_prefix_cons.mp h
              exact absurd List.mem_cons_self hu
          | inside => exact absurd hX.1 Bool.false_ne_true

/-- A text that is shown is kept somewhere. -/
theorem infix_cells_of_render (hu : Foreign m u) (hX : Follows p X) (h : u <:+: render m X) :
    cells u <:+: X := by
  induction X generalizing p with
  | nil => exact absurd (List.infix_nil.mp h) hu.ne_nil
  | cons x X ih =>
      have hlater : ∀ {q}, Follows q X → u <:+: render m X → cells u <:+: x :: X :=
        fun hq hi => (ih hq hi).trans (List.suffix_cons x X).isInfix
      obtain ⟨c, mark⟩ := x
      cases mark with
      | kept =>
          rcases List.infix_cons_iff.mp h with h | h
          · exact (prefix_cells_of_render hu.opening (X := ⟨c, .kept⟩ :: X) hX h).isInfix
          · exact hlater hX h
      | start =>
          rw [render, m.text_append] at h
          rcases Strings.infix_of_infix_append_cons hu.closing h with h | h
          · exact absurd h hu.absent
          · exact hlater hX h
      | inside => exact hlater hX.2 h

/-- **One replacement shows what `strings.Replace` makes of what was shown.** -/
theorem Covered.render_eq [DecidableEq α] (hu : Foreign m u) (h : Covered u X Y)
    (hX : Follows p X) :
    render m Y = Strings.replaceFrom u m.text 0 (render m X) := by
  induction h generalizing p with
  | nil => rfl
  | hit _ ih =>
      rw [render_chunk_append hu.ne_nil, render_cells_append,
        Strings.replaceFrom_append hu.ne_nil, ih (follows_of_cells_append hu.ne_nil hX)]
  | @miss x X _ hpre _ ih =>
      obtain ⟨c, mark⟩ := x
      cases mark with
      | kept =>
          have hnot : ¬ u <+: c :: render m X := fun h =>
            hpre (prefix_cells_of_render hu.opening (X := ⟨c, .kept⟩ :: X) hX h)
          rw [render, render, Strings.replaceFrom_cons_of_absent hnot, ih hX]
      | start =>
          rw [render, render, m.text_append, m.text_append,
            Strings.replaceFrom_append_of_absent hu.closing hu.ne_nil hu.absent, ih hX]
      | inside => exact ih hX.2

end

/-! ## One replacement after the other -/

section

variable [DecidableEq α] {m : Marker α} {us : List (List α)} {u : List α} {X : List (Cell α)}

def coverAll (us : List (List α)) (X : List (Cell α)) : List (Cell α) :=
  us.foldl (fun X u => cover u X) X

theorem coverAll_cons : coverAll (u :: us) X = coverAll us (cover u X) := rfl

theorem coverAll_append {vs : List (List α)} :
    coverAll (us ++ vs) X = coverAll vs (coverAll us X) := List.foldl_append

theorem refines_coverAll (hus : ∀ u ∈ us, u ≠ []) : Refines X (coverAll us X) := by
  induction us generalizing X with
  | nil => exact Refines.refl X
  | cons u us ih =>
      have hstep := (covered_cover (hus u List.mem_cons_self) X).refines
      exact hstep.trans (ih fun v hv => hus v (List.mem_cons_of_mem _ hv))

theorem follows_coverAll (hus : ∀ u ∈ us, u ≠ []) (hX : Follows false X) :
    Follows false (coverAll us X) := by
  induction us generalizing X with
  | nil => exact hX
  | cons u us ih =>
      have hu := hus u List.mem_cons_self
      exact ih (fun v hv => hus v (List.mem_cons_of_mem _ hv)) ((covered_cover hu X).follows hu hX)

theorem render_coverAll (hus : ∀ u ∈ us, Foreign m u) (hX : Follows false X) :
    render m (coverAll us X) =
      us.foldl (fun s u => Strings.replaceFrom u m.text 0 s) (render m X) := by
  induction us generalizing X with
  | nil => rfl
  | cons u us ih =>
      have hu := hus u List.mem_cons_self
      have hstep := covered_cover hu.ne_nil X
      rw [coverAll_cons, List.foldl_cons, ← hstep.render_eq hu hX]
      exact ih (fun v hv => hus v (List.mem_cons_of_mem _ hv)) (hstep.follows hu.ne_nil hX)

theorem not_infix_coverAll (hus : ∀ u ∈ us, u ≠ []) (hu : u ∈ us) :
    ¬ cells u <:+: coverAll us X := by
  obtain ⟨vs, ws, rfl⟩ := List.append_of_mem hu
  intro h
  rw [coverAll_append, coverAll_cons] at h
  have hlater : Refines (cover u (coverAll vs X)) (coverAll ws (cover u (coverAll vs X))) :=
    refines_coverAll fun w hw => hus w (by simp [hw])
  exact (covered_cover (hus u hu) _).absent (hus u hu) (hlater.infix_mono h)

/-- **None of the texts is shown.** -/
theorem not_infix_render_coverAll {s : List α} (hus : ∀ u ∈ us, Foreign m u) (hu : u ∈ us) :
    ¬ u <:+: render m (coverAll us (cells s)) := by
  have hne : ∀ v ∈ us, v ≠ [] := fun v hv => (hus v hv).ne_nil
  intro h
  have hfollows := follows_coverAll hne (follows_cells (p := false) s)
  exact not_infix_coverAll hne hu (infix_cells_of_render (hus u hu) hfollows h)

end

end Mask
