import Mathlib.Data.List.Pairwise
import AppGate.Lib.Mask

/-!
# The places that replacements hide

* `overlay`, `Beside`, **`coverAll_overlay`**: replacements that hide other places do not see each
  other;
* **`coverAll_perm`**: groups of replacements that hide other places each can be done in any order;
* `Hides`, `Within`, `NoOverlap`, **`hides_coverAll_iff`**: where no two occurrences overlap,
  exactly the occurrences are hidden;
* **`exists_of_render_eq`**, `any_getLast?_render`, `any_head?_render`: what is shown around a text
  that is kept.
-/

set_option autoImplicit false

namespace Mask

variable {α : Type}

/-! ## Replacements side by side -/

/-- `Y` on top of `X`. -/
def overlay (Y X : List (Cell α)) : List (Cell α) :=
  List.zipWith (fun y x => if y.mark = .kept then x else y) Y X

/-- Two masks of one text that hide no common place. -/
def Beside (Y X : List (Cell α)) : Prop :=
  List.Forall₂ (fun y x => y.val = x.val ∧ (y.mark = .kept ∨ x.mark = .kept)) Y X

section

variable {s u : List α} {X Y Z : List (Cell α)}

theorem Beside.symm (h : Beside Y X) : Beside X Y :=
  h.flip.imp fun _ _ hyx => ⟨hyx.1.symm, hyx.2.symm⟩

theorem beside_cells (h : plain X = s) : Beside (cells s) X := by
  subst h
  induction X with
  | nil => exact .nil
  | cons x X ih => exact .cons ⟨rfl, Or.inl rfl⟩ ih

theorem Beside.of_refines (h : Beside Y Z) (hr : Refines X Z) : Beside Y X := by
  induction hr generalizing Y with
  | nil => exact h
  | @cons x z X Z hxz _ ih =>
      cases h with
      | @cons y _ Y _ hyz h =>
          refine .cons ⟨hyz.1.trans hxz.1, ?_⟩ (ih h)
          by_cases hx : x.mark = .kept
          · exact Or.inr hx
          · exact Or.inl (hyz.2.resolve_right (hxz.2 hx ▸ hx))

theorem Beside.refines_overlay (h : Beside Y X) : Refines X (overlay Y X) := by
  induction h with
  | nil => exact .nil
  | @cons y x Y X hyx _ ih =>
      refine .cons ?_ ih
      dsimp only
      split
      case isTrue => exact ⟨rfl, fun _ => rfl⟩
      case isFalse hy => exact ⟨hyx.1, fun hx => absurd (hyx.2.resolve_left hy) hx⟩

theorem overlay_cells_left (h : s.length = X.length) : overlay (cells s) X = X := by
  induction s generalizing X with
  | nil =>
      obtain rfl : X = [] := List.length_eq_zero_iff.mp h.symm
      rfl
  | cons c s ih =>
      cases X with
      | nil => cases h
      | cons x X => exact congrArg (x :: ·) (ih (Nat.succ.inj h))

theorem overlay_cells_right (h : plain Y = s) : overlay Y (cells s) = Y := by
  subst h
  induction Y with
  | nil => rfl
  | cons y Y ih =>
      obtain ⟨c, mark⟩ := y
      have hhead : (if mark = .kept then (⟨c, .kept⟩ : Cell α) else ⟨c, mark⟩) = ⟨c, mark⟩ := by
        split
        case isTrue hm => rw [hm]
        case isFalse => rfl
      show _ :: overlay Y (cells (plain Y)) = _
      rw [ih]
      exact congrArg (· :: Y) hhead

/-- What lies beside a replaced place is kept. -/
theorem Beside.eq_cells (h : Beside Y X) (hX : ∀ x ∈ X, x.mark ≠ .kept) : Y = cells (plain X) := by
  induction h with
  | nil => rfl
  | @cons y x Y X hyx _ ih =>
      obtain ⟨c, mark⟩ := y
      have hkept : mark = .kept := hyx.2.resolve_right (hX x List.mem_cons_self)
      have hval : c = x.val := hyx.1
      subst hkept hval
      exact congrArg (⟨x.val, .kept⟩ :: ·) (ih fun z hz => hX z (List.mem_cons_of_mem _ hz))

theorem overlay_append {Y' X' : List (Cell α)} (h : Y.length = X.length) :
    overlay (Y ++ Y') (X ++ X') = overlay Y X ++ overlay Y' X' := List.zipWith_append h

/-- A replacement does not see what is hidden elsewhere. -/
theorem Covered.overlay (h : Covered u X Z) (hb : Beside Y Z) :
    Covered u (overlay Y X) (overlay Y Z) := by
  induction h generalizing Y with
  | nil =>
      cases hb
      exact .nil
  | @hit X Z _ ih =>
      have h₁ : Beside (Y.take (chunk u).length) (chunk u) := List.forall₂_take_append _ _ _ hb
      have h₂ : Beside (Y.drop (chunk u).length) Z := List.forall₂_drop_append _ _ _ hb
      have hY : Y = cells u ++ Y.drop (chunk u).length := by
        have htake := h₁.eq_cells fun _ => mark_of_mem_chunk
        rw [plain_chunk] at htake
        rw [← htake, List.take_append_drop]
      have hcells : (cells u).length = u.length := List.length_map _
      have hchunk : (cells u).length = (chunk u).length := by rw [hcells, length_chunk]
      rw [hY, overlay_append rfl, overlay_append hchunk, overlay_cells_left hcells.symm,
        overlay_cells_left (length_chunk u).symm]
      exact .hit (ih h₂)
  | @miss x X Z hpre hXZ ih =>
      cases hb with
      | @cons y _ Y _ hyx hb =>
          have hbX : Beside (y :: Y) (x :: X) :=
            .cons hyx (Beside.of_refines hb hXZ.refines)
          exact .miss (fun h => hpre (hbX.refines_overlay.prefix_mono h)) (ih hb)

theorem Beside.overlay_left {W : List (Cell α)} (hY : Beside Y Z) (hX : Beside X Z)
    (h : W = overlay Y X) : Beside W Z := by
  subst h
  induction hY generalizing X with
  | nil =>
      cases hX
      exact .nil
  | @cons y z Y Z hyz _ ih =>
      cases hX with
      | @cons x _ X _ hxz hX =>
          refine .cons ?_ (ih hX)
          dsimp only
          split
          case isTrue => exact hxz
          case isFalse => exact hyz

/-- On one of two masks side by side, the other one can be put first. -/
theorem overlay_right_comm (h : Beside X Z) :
    overlay (overlay Y X) Z = overlay (overlay Y Z) X := by
  induction h generalizing Y with
  | nil => cases Y <;> rfl
  | @cons x z X Z hxz _ ih =>
      cases Y with
      | nil => rfl
      | cons y Y =>
          refine congrArg₂ List.cons ?_ ih
          obtain ⟨c, mark⟩ := x
          obtain ⟨d, mark'⟩ := z
          obtain ⟨rfl, hkept⟩ : c = d ∧ _ := hxz
          dsimp only at hkept ⊢
          rcases hkept with rfl | rfl
          · by_cases hy : y.mark = .kept <;> by_cases hz : mark' = .kept <;> simp [hy, hz]
          · by_cases hy : y.mark = .kept <;> by_cases hx : mark = .kept <;> simp [hy, hx]

variable [DecidableEq α] {us : List (List α)}

/-- **Replacements do not see what is hidden elsewhere.** -/
theorem coverAll_overlay (hus : ∀ u ∈ us, u ≠ []) (hb : Beside Y (coverAll us X)) :
    coverAll us (overlay Y X) = overlay Y (coverAll us X) := by
  induction us generalizing X with
  | nil => rfl
  | cons u us ih =>
      have hu := hus u List.mem_cons_self
      have hus' : ∀ v ∈ us, v ≠ [] := fun v hv => hus v (List.mem_cons_of_mem _ hv)
      have hstep : Beside Y (cover u X) := hb.of_refines (refines_coverAll hus')
      rw [coverAll_cons, coverAll_cons, ← ((covered_cover hu X).overlay hstep).eq_cover hu]
      exact ih hus' hb

theorem plain_coverAll (hus : ∀ u ∈ us, u ≠ []) : plain (coverAll us X) = plain X := by
  induction us generalizing X with
  | nil => rfl
  | cons u us ih =>
      rw [coverAll_cons, ih fun v hv => hus v (List.mem_cons_of_mem _ hv),
        (covered_cover (hus u List.mem_cons_self) X).plain_eq]

/-! ## Groups of replacements -/

variable {vs ws : List (List (List α))}

theorem coverAll_flatten (hne : ∀ v ∈ vs, ∀ u ∈ v, u ≠ []) (hY : plain Y = s)
    (hYv : ∀ v ∈ vs, Beside Y (coverAll v (cells s)))
    (hvs : vs.Pairwise fun v w => Beside (coverAll v (cells s)) (coverAll w (cells s))) :
    coverAll vs.flatten Y = vs.foldl (fun Z v => overlay Z (coverAll v (cells s))) Y := by
  induction vs generalizing Y with
  | nil => rfl
  | cons v vs ih =>
      obtain ⟨hv, hvs⟩ := List.pairwise_cons.mp hvs
      have hnev := hne v List.mem_cons_self
      have hbv := hYv v List.mem_cons_self
      have hstep : coverAll v Y = overlay Y (coverAll v (cells s)) := by
        rw [← coverAll_overlay hnev hbv, overlay_cells_right hY]
      rw [List.flatten_cons, coverAll_append, List.foldl_cons, hstep]
      refine ih (fun w hw => hne w (List.mem_cons_of_mem _ hw)) ?_ (fun w hw => ?_) hvs
      · rw [← hstep, plain_coverAll hnev, hY]
      · exact (hYv w (List.mem_cons_of_mem _ hw)).overlay_left (hv w hw) rfl

/-- **Groups that hide other places each can be replaced in any order.** -/
theorem coverAll_perm (hp : vs.Perm ws) (hne : ∀ v ∈ vs, ∀ u ∈ v, u ≠ [])
    (hvs : vs.Pairwise fun v w => Beside (coverAll v (cells s)) (coverAll w (cells s))) :
    coverAll vs.flatten (cells s) = coverAll ws.flatten (cells s) := by
  have hcells : ∀ v ∈ vs, Beside (cells s) (coverAll v (cells s)) := by
    intro v hv
    exact beside_cells (by rw [plain_coverAll (hne v hv), plain_cells])
  have hsymm : ∀ {v w}, Beside (coverAll v (cells s)) (coverAll w (cells s)) →
      Beside (coverAll w (cells s)) (coverAll v (cells s)) := Beside.symm
  rw [coverAll_flatten hne (plain_cells s) hcells hvs,
    coverAll_flatten (fun w hw => hne w (hp.mem_iff.mpr hw)) (plain_cells s)
      (fun w hw => hcells w (hp.mem_iff.mpr hw)) (hp.pairwise hvs hsymm)]
  refine hp.foldl_eq' (fun v hv w hw Z => ?_) _
  by_cases hvw : v = w
  · rw [hvw]
  · have : Std.Symm fun v w => Beside (coverAll v (cells s)) (coverAll w (cells s)) :=
      ⟨fun _ _ => Beside.symm⟩
    exact overlay_right_comm (hvs.forall hv hw hvw)

end

/-! ## Hidden places -/

/-- The element at `i` is not shown. -/
def Hides (X : List (Cell α)) (i : ℕ) : Prop := ∃ x, X[i]? = some x ∧ x.mark ≠ .kept

/-- `u` occurs in `s` at `a`. -/
def Occurs (s u : List α) (a : ℕ) : Prop := u <+: s.drop a

/-- The element at `i` lies in an occurrence of one of the texts. -/
def Within (us : List (List α)) (s : List α) (i : ℕ) : Prop :=
  ∃ u ∈ us, ∃ a, Occurs s u a ∧ a ≤ i ∧ i < a + u.length

/-- No two occurrences of the texts overlap. -/
def NoOverlap (us : List (List α)) (s : List α) : Prop :=
  ∀ u ∈ us, ∀ v ∈ us, ∀ a b, Occurs s u a → Occurs s v b → a < b + v.length → b < a + u.length →
    a = b ∧ u = v

section

variable {s u : List α} {us : List (List α)} {X Y : List (Cell α)} {i : ℕ}

theorem not_hides_cells : ¬ Hides (cells s) i := by
  rintro ⟨x, hx, hm⟩
  obtain ⟨c, -, rfl⟩ := List.mem_map.mp (List.mem_of_getElem? hx)
  exact hm rfl

theorem Refines.hides (h : Refines X Y) (hX : Hides X i) : Hides Y i := by
  induction h generalizing i with
  | nil => exact hX
  | cons hxy _ ih =>
      cases i with
      | zero =>
          obtain ⟨x, hx, hm⟩ := hX
          obtain rfl := Option.some.inj hx
          exact ⟨_, rfl, by rw [hxy.2 hm]; exact hm⟩
      | succ i => exact ih hX

theorem hides_chunk_append (hi : i < u.length) : Hides (chunk u ++ Y) i := by
  have hlt : i < (chunk u).length := by rwa [length_chunk]
  refine ⟨(chunk u).get ⟨i, hlt⟩, ?_, mark_of_mem_chunk (List.get_mem _ _)⟩
  rw [List.getElem?_append_left hlt]
  simp

/-- The places behind a part of the text. -/
theorem hides_append_add {A : List (Cell α)} (hA : A.length = u.length) :
    Hides (A ++ Y) (u.length + i) ↔ Hides Y i := by
  unfold Hides
  rw [List.getElem?_append_right (by omega), hA, Nat.add_sub_cancel_left]

/-- What a replacement newly hides is an occurrence. -/
theorem Covered.hides (h : Covered u X Y) (hY : Hides Y i) :
    Hides X i ∨ ∃ a, Occurs (plain X) u a ∧ a ≤ i ∧ i < a + u.length ∧
      ∀ j, a ≤ j → j < a + u.length → Hides Y j := by
  induction h generalizing i with
  | nil => exact Or.inl hY
  | @hit X Y _ ih =>
      by_cases hi : i < u.length
      · refine Or.inr ⟨0, ?_, Nat.zero_le _, by omega, fun j _ hj => hides_chunk_append (by omega)⟩
        rw [Occurs, List.drop_zero, plain_append, plain_cells]
        exact List.prefix_append u _
      · obtain ⟨k, rfl⟩ := Nat.exists_eq_add_of_le (Nat.le_of_not_lt hi)
        rcases ih ((hides_append_add (length_chunk u)).mp hY) with hX | ⟨a, ha, hai, hia, hall⟩
        · exact Or.inl ((hides_append_add (List.length_map _)).mpr hX)
        · right
          refine ⟨u.length + a, ?_, by omega, by omega, fun j hj hj' => ?_⟩
          · rw [Occurs, plain_append, plain_cells, ← List.drop_drop, List.drop_left]
            exact ha
          · obtain ⟨l, rfl⟩ := Nat.exists_eq_add_of_le (show u.length ≤ j by omega)
            exact (hides_append_add (length_chunk u)).mpr (hall l (by omega) (by omega))
  | @miss x X Y _ _ ih =>
      cases i with
      | zero => exact Or.inl hY
      | succ i =>
          rcases ih hY with hX | ⟨a, ha, hai, hia, hall⟩
          · exact Or.inl hX
          · refine Or.inr ⟨a + 1, ha, by omega, by omega, fun j hj hj' => ?_⟩
            obtain ⟨l, rfl⟩ := Nat.exists_eq_add_of_le (show 1 ≤ j by omega)
            rw [Nat.add_comm]
            exact hall l (by omega) (by omega)

/-- Only occurrences of the texts are hidden, each as a whole. -/
def Sound (us : List (List α)) (X : List (Cell α)) : Prop :=
  ∀ i, Hides X i → ∃ u ∈ us, ∃ a, Occurs (plain X) u a ∧ a ≤ i ∧ i < a + u.length ∧
    ∀ j, a ≤ j → j < a + u.length → Hides X j

theorem Covered.sound (h : Covered u X Y) (hu : u ∈ us) (hX : Sound us X) : Sound us Y := by
  intro i hi
  rcases h.hides hi with hi | ⟨a, ha, hai, hia, hall⟩
  · obtain ⟨v, hv, a, ha, hai, hia, hall⟩ := hX i hi
    exact ⟨v, hv, a, h.plain_eq ▸ ha, hai, hia, fun j hj hj' => h.refines.hides (hall j hj hj')⟩
  · exact ⟨u, hu, a, h.plain_eq ▸ ha, hai, hia, hall⟩

theorem prefix_cells_of_prefix_plain (h : u <+: plain X)
    (hkept : ∀ j, j < u.length → ¬ Hides X j) : cells u <+: X := by
  induction u generalizing X with
  | nil => exact List.nil_prefix
  | cons c u ih =>
      cases X with
      | nil => simp [plain] at h
      | cons x X =>
          obtain ⟨d, mark⟩ := x
          obtain ⟨rfl, h'⟩ := List.cons_prefix_cons.mp h
          obtain rfl : mark = .kept := by
            by_contra hm
            exact hkept 0 (Nat.zero_lt_succ _) ⟨_, rfl, hm⟩
          exact List.cons_prefix_cons.mpr ⟨rfl, ih h' fun j hj => hkept (j + 1) (by simpa using hj)⟩

/-- An occurrence of which nothing is hidden is kept. -/
theorem prefix_cells_of_occurs {a : ℕ} (h : Occurs (plain X) u a)
    (hkept : ∀ j, a ≤ j → j < a + u.length → ¬ Hides X j) : cells u <+: X.drop a := by
  refine prefix_cells_of_prefix_plain ?_ fun j hj hX => hkept (a + j) (by omega) (by omega) ?_
  · rw [plain, List.map_drop]
    exact h
  · obtain ⟨x, hx, hm⟩ := hX
    exact ⟨x, by rw [← hx, List.getElem?_drop], hm⟩

variable [DecidableEq α]

theorem sound_coverAll {vs : List (List α)} (hvs : ∀ v ∈ vs, v ∈ us) (hne : ∀ u ∈ us, u ≠ [])
    (hX : Sound us X) : Sound us (coverAll vs X) := by
  induction vs generalizing X with
  | nil => exact hX
  | cons v vs ih =>
      have hv := hvs v List.mem_cons_self
      exact ih (fun w hw => hvs w (List.mem_cons_of_mem _ hw))
        ((covered_cover (hne v hv) X).sound hv hX)

/-- **Where no two occurrences overlap, exactly the occurrences are hidden.** -/
theorem hides_coverAll_iff (hne : ∀ u ∈ us, u ≠ []) (hno : NoOverlap us s) :
    Hides (coverAll us (cells s)) i ↔ Within us s i := by
  have hplain : plain (coverAll us (cells s)) = s := by rw [plain_coverAll hne, plain_cells]
  have hsound : Sound us (coverAll us (cells s)) :=
    sound_coverAll (fun _ hv => hv) hne fun i hi => absurd hi not_hides_cells
  rw [Sound, hplain] at hsound
  constructor
  · intro hi
    obtain ⟨u, hu, a, ha, hai, hia, -⟩ := hsound i hi
    exact ⟨u, hu, a, ha, hai, hia⟩
  · rintro ⟨u, hu, a, ha, hai, hia⟩
    -- something of the occurrence is hidden, so all of it
    obtain ⟨j, haj, hja, hj⟩ : ∃ j, a ≤ j ∧ j < a + u.length ∧
        Hides (coverAll us (cells s)) j := by
      by_contra hkept
      push Not at hkept
      refine not_infix_coverAll hne hu (X := cells s) ?_
      have hocc : Occurs (plain (coverAll us (cells s))) u a := by rwa [hplain]
      have hpre := prefix_cells_of_occurs hocc hkept
      exact hpre.isInfix.trans (List.drop_suffix a _).isInfix
    obtain ⟨v, hv, b, hb, hbj, hjb, hall⟩ := hsound j hj
    obtain ⟨rfl, rfl⟩ := hno u hu v hv a b ha hb (by omega) (by omega)
    exact hall i hai hia

end

/-! ## What is shown around a kept text -/

section

variable {m : Marker α} {u x y : List α} {A B X : List (Cell α)} {p : Bool} {q : α → Bool}

/-- A foreign text does not begin in a marker. -/
theorem Foreign.text_isPrefix {s : List α} (hu : Foreign m u) (h : m.text ++ s = x ++ u ++ y) :
    m.text <+: x := by
  have hx : x <+: m.text ++ s := ⟨u ++ y, by rw [h, List.append_assoc]⟩
  rcases List.prefix_or_prefix_of_prefix hx (List.prefix_append m.text s) with hpre | hpre
  · obtain ⟨t, ht⟩ := hpre
    rcases List.eq_nil_or_concat t with rfl | ⟨t, c, rfl⟩
    · rw [← ht, List.append_nil]
    · exfalso
      have hsplit : (x ++ t) ++ [c] = (m.opening :: m.body) ++ [m.closing] := by
        rw [List.append_assoc, ← List.concat_eq_append, ht]
        rfl
      obtain ⟨hxt, hc⟩ := List.append_inj' hsplit rfl
      have hrest : t ++ m.closing :: s = u ++ y := by
        have hall : x ++ (t ++ [c] ++ s) = x ++ (u ++ y) := by
          rw [← List.append_assoc x u y, ← h, ← ht, List.concat_eq_append]
          simp only [List.append_assoc]
        rw [← List.append_cancel_left hall, List.cons.inj hc |>.1, List.append_assoc]
        rfl
      have hut : u <+: t := Strings.prefix_of_prefix_append_cons hu.closing ⟨y, hrest.symm⟩
      exact hu.absent (hut.isInfix.trans ⟨x, [], by rw [List.append_nil, hxt]⟩)
  · exact hpre

/-- **A text that is shown is kept**, with what is shown around it. -/
theorem exists_of_render_eq (hu : Foreign m u) (hX : Follows p X)
    (h : render m X = x ++ u ++ y) :
    ∃ A B, X = A ++ cells u ++ B ∧ render m A = x ∧ render m B = y := by
  induction X generalizing p x with
  | nil =>
      have hnil : x ++ u ++ y = [] := h.symm
      simp [hu.ne_nil] at hnil
  | cons c X ih =>
      obtain ⟨c, mark⟩ := c
      cases mark with
      | kept =>
          cases x with
          | nil =>
              have hpre : u <+: render m (⟨c, .kept⟩ :: X) := ⟨y, by rw [h, List.nil_append]⟩
              obtain ⟨B, hB⟩ := prefix_cells_of_render hu.opening (X := ⟨c, .kept⟩ :: X) hX hpre
              refine ⟨[], B, by rw [List.nil_append, hB], rfl, ?_⟩
              rw [← hB, render_cells_append, List.nil_append] at h
              exact List.append_cancel_left h
          | cons d x =>
              obtain ⟨rfl, h'⟩ := List.cons.inj h
              obtain ⟨A, B, rfl, rfl, hB⟩ := ih (x := x) hX h'
              exact ⟨⟨c, .kept⟩ :: A, B, rfl, rfl, hB⟩
      | start =>
          rw [render] at h
          -- the text begins behind the marker
          obtain ⟨x', rfl⟩ := hu.text_isPrefix h
          rw [List.append_assoc, List.append_assoc] at h
          have h' := List.append_cancel_left h
          rw [← List.append_assoc] at h'
          obtain ⟨A, B, rfl, rfl, hB⟩ := ih hX h'
          exact ⟨⟨c, .start⟩ :: A, B, rfl, rfl, hB⟩
      | inside =>
          obtain ⟨A, B, rfl, rfl, hB⟩ := ih hX.2 h
          exact ⟨⟨c, .inside⟩ :: A, B, rfl, rfl, hB⟩

/-- Where a shown text begins. -/
theorem any_head?_render (hopening : q m.opening = false) (hB : Follows false B) :
    (render m B).head?.any q = B.head?.any fun x => decide (x.mark = .kept) && q x.val := by
  cases B with
  | nil => rfl
  | cons x B =>
      obtain ⟨c, mark⟩ := x
      cases mark with
      | kept => simp [render]
      | start => simp [render, Marker.text, hopening]
      | inside => exact absurd hB.1 Bool.false_ne_true

theorem Follows.left (h : Follows p (A ++ B)) : Follows p A := by
  induction A generalizing p with
  | nil => trivial
  | cons x A ih =>
      obtain ⟨c, mark⟩ := x
      cases mark with
      | kept => exact ih h
      | start => exact ih h
      | inside => exact ⟨h.1, ih h.2⟩

theorem Follows.suffix (h : Follows p (A ++ B)) : ∃ q, Follows q B := by
  induction A generalizing p with
  | nil => exact ⟨p, h⟩
  | cons x A ih =>
      obtain ⟨c, mark⟩ := x
      cases mark with
      | kept => exact ih (p := false) h
      | start => exact ih (p := true) h
      | inside => exact ih (p := true) h.2

theorem Marker.getLast?_text (m : Marker α) : m.text.getLast? = some m.closing := by
  rw [Marker.text, ← List.cons_append, List.getLast?_concat]

/-- A place that reaches the end is shown as the marker there. -/
theorem getLast?_render_of_masked {x : Cell α} (hA : Follows false (A ++ [x]))
    (hx : x.mark ≠ .kept) : (render m (A ++ [x])).getLast? = some m.closing := by
  induction A using List.reverseRecOn generalizing x with
  | nil =>
      obtain ⟨c, mark⟩ := x
      cases mark with
      | kept => exact absurd rfl hx
      | start =>
          rw [List.nil_append, render, render, List.append_nil]
          exact m.getLast?_text
      | inside => exact absurd hA.1 Bool.false_ne_true
  | append_singleton A z ih =>
      obtain ⟨c, mark⟩ := x
      cases mark with
      | kept => exact absurd rfl hx
      | start =>
          rw [render_append, render, render, List.append_nil, List.getLast?_append,
            m.getLast?_text]
          rfl
      | inside =>
          have hz : z.mark ≠ .kept := by
            intro hz
            obtain ⟨d, mark⟩ := z
            obtain rfl : mark = .kept := hz
            rw [List.append_assoc] at hA
            obtain ⟨q, hq⟩ := hA.suffix
            exact absurd hq.1 Bool.false_ne_true
          rw [render_append, render, render, List.append_nil]
          exact ih hA.left hz

theorem any_getLast?_render (hclosing : q m.closing = false) (hA : Follows false A) :
    (render m A).getLast?.any q = A.getLast?.any fun x => decide (x.mark = .kept) && q x.val := by
  induction A using List.reverseRecOn with
  | nil => rfl
  | append_singleton A x =>
      by_cases hx : x.mark = .kept
      · obtain ⟨c, mark⟩ := x
        obtain rfl : mark = .kept := hx
        rw [render_append]
        simp [render]
      · rw [getLast?_render_of_masked hA hx]
        simp [hx, hclosing]

end

end Mask
