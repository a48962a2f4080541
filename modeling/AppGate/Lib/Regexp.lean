import Mathlib.Computability.Language
import Mathlib.Data.List.Infix
import Mathlib.Tactic.Common

/-!
# Regular expressions over bytes, leftmost first

The part of RE2 with byte classes, ASCII word boundaries and greedy repetition of a class. A run
lists the ends of the matches at one place, the preferred one first; a search takes the first match
at the leftmost place and goes on behind it.

* `Cursor`, `Cursor.Reads`: a place in a text and the places behind it;
* `Regexp.run`, `Regexp.lang`, **`mem_run_iff`**: without boundaries, the ends of the matches are
  those of the words of the language;
* `Regexp.word`, **`mem_run_word`**: the same between two word boundaries;
* `Regexp.within`, `Regexp.requires`: checks that every byte of a match, or some byte of it, is of a
  kind;
* `Regexp.findAll`, **`matchesAt_of_mem_findAll`**, **`exists_of_run_ne_nil`**: what is found is a
  match, and no place with a match lies outside the matches found.
-/

set_option autoImplicit false

/-- A place in a text: the bytes before it, the last one first, and those behind it. -/
structure Cursor where
  before : List UInt8
  after : List UInt8
  deriving DecidableEq, Repr

/-- `[0-9A-Za-z_]`. -/
def isWordByte (c : UInt8) : Bool :=
  (48 ≤ c && c ≤ 57) || (65 ≤ c && c ≤ 90) || (97 ≤ c && c ≤ 122) || c == 95

namespace Cursor

/-- `\b`: one of the two neighbours is a word byte and the other is not. -/
def atBoundary (z : Cursor) : Bool :=
  z.before.head?.any isWordByte != z.after.head?.any isWordByte

/-- `z'` is reached from `z` by reading `w`. -/
def Reads (z : Cursor) (w : List UInt8) (z' : Cursor) : Prop :=
  z.after = w ++ z'.after ∧ z'.before = w.reverse ++ z.before

variable {z z' z'' : Cursor} {v w : List UInt8}

theorem reads_nil : z.Reads [] z' ↔ z' = z := by
  cases z
  cases z'
  simp [Reads, and_comm, eq_comm]

theorem Reads.trans (h : z.Reads v z') (h' : z'.Reads w z'') : z.Reads (v ++ w) z'' := by
  refine ⟨?_, ?_⟩
  · rw [h.1, h'.1, List.append_assoc]
  · rw [h'.2, h.2, List.reverse_append, List.append_assoc]

/-- A place in the middle of what is read. -/
theorem Reads.split (h : z.Reads (v ++ w) z'') :
    ∃ z', z.Reads v z' ∧ z'.Reads w z'' := by
  refine ⟨⟨v.reverse ++ z.before, w ++ z''.after⟩, ⟨?_, rfl⟩, rfl, ?_⟩
  · rw [h.1, List.append_assoc]
  · rw [h.2, List.reverse_append, List.append_assoc]

theorem Reads.cons {c : UInt8} {before after : List UInt8}
    (h : Reads ⟨c :: before, after⟩ w z') : Reads ⟨before, c :: after⟩ (c :: w) z' := by
  refine ⟨?_, ?_⟩
  · rw [List.cons_append, ← h.1]
  · rw [h.2, List.reverse_cons, List.append_assoc, List.singleton_append]

theorem Reads.uncons {c d : UInt8} {before after : List UInt8}
    (h : Reads ⟨before, c :: after⟩ (d :: w) z') : Reads ⟨c :: before, after⟩ w z' := by
  obtain ⟨rfl, hafter⟩ := List.cons.inj h.1
  refine ⟨hafter, ?_⟩
  rw [h.2, List.reverse_cons, List.append_assoc, List.singleton_append]

/-- The text read lies between the two places. -/
theorem Reads.take_eq (h : z.Reads w z') :
    z.after.take (z.after.length - z'.after.length) = w := by
  rw [h.1, List.length_append, Nat.add_sub_cancel, List.take_left]

end Cursor

/-! ## Expressions -/

inductive Regexp where
  /-- One byte of a class. -/
  | byte (p : UInt8 → Bool)
  /-- The empty text. -/
  | empty
  /-- `\b`. -/
  | boundary
  | seq (r s : Regexp)
  /-- `r|s`: `r` is preferred. -/
  | alt (r s : Regexp)
  /-- `p*` for a class: more is preferred. -/
  | many (p : UInt8 → Bool)

namespace Regexp

/-- `r?`. -/
def opt (r : Regexp) : Regexp := .alt r .empty

/-- The expressions one after the other. -/
def seqs : List Regexp → Regexp
  | [] => .empty
  | [r] => r
  | r :: rs => .seq r (seqs rs)

/-- `r{n}`. -/
def times (n : ℕ) (r : Regexp) : Regexp := seqs (List.replicate n r)

/-- `p{n,}` for a class. -/
def atLeast (n : ℕ) (p : UInt8 → Bool) : Regexp := .seq (times n (.byte p)) (.many p)

/-- The expressions, the earlier ones preferred. -/
def alts (r : Regexp) (rs : List Regexp) : Regexp := rs.foldl .alt r

/-- `\b r \b`. -/
def word (r : Regexp) : Regexp := .seq .boundary (.seq r .boundary)

/-- The ends of the repetitions of a class, the longest first. -/
def manyFrom (p : UInt8 → Bool) : List UInt8 → List UInt8 → List Cursor
  | before, [] => [⟨before, []⟩]
  | before, c :: cs =>
      if p c then manyFrom p (c :: before) cs ++ [⟨before, c :: cs⟩] else [⟨before, c :: cs⟩]

/-- The ends of the matches at a place, in the order of preference. -/
def run : Regexp → Cursor → List Cursor
  | .byte p, ⟨before, c :: cs⟩ => if p c then [⟨c :: before, cs⟩] else []
  | .byte _, ⟨_, []⟩ => []
  | .empty, z => [z]
  | .boundary, z => if z.atBoundary then [z] else []
  | .seq r s, z => (run r z).flatMap (run s)
  | .alt r s, z => run r z ++ run s z
  | .many p, z => manyFrom p z.before z.after

/-- The words an expression matches where every place counts as a boundary. -/
def lang : Regexp → Language UInt8
  | .byte p => {w | ∃ c, p c = true ∧ w = [c]}
  | .empty => 1
  | .boundary => 1
  | .seq r s => lang r * lang s
  | .alt r s => lang r + lang s
  | .many p => {w | ∀ c ∈ w, p c = true}

/-- No boundary occurs in the expression. -/
def plain : Regexp → Bool
  | .boundary => false
  | .seq r s => plain r && plain s
  | .alt r s => plain r && plain s
  | _ => true

variable {r : Regexp} {z z' : Cursor} {w : List UInt8}

theorem mem_manyFrom {p : UInt8 → Bool} {before after : List UInt8} :
    z' ∈ manyFrom p before after ↔
      ∃ w, (∀ c ∈ w, p c = true) ∧ Cursor.Reads ⟨before, after⟩ w z' := by
  induction after generalizing before with
  | nil =>
      constructor
      · intro h
        rw [manyFrom, List.mem_singleton] at h
        exact ⟨[], by simp, Cursor.reads_nil.mpr h⟩
      · rintro ⟨w, -, hr⟩
        obtain ⟨rfl, -⟩ := List.append_eq_nil_iff.mp hr.1.symm
        rw [manyFrom, List.mem_singleton]
        exact Cursor.reads_nil.mp hr
  | cons c cs ih =>
      rw [manyFrom]
      constructor
      · intro h
        by_cases hp : p c = true
        · rw [if_pos hp, List.mem_append, List.mem_singleton] at h
          rcases h with h | h
          · obtain ⟨w, hw, hr⟩ := ih.mp h
            exact ⟨c :: w, by simpa [hp] using hw, hr.cons⟩
          · exact ⟨[], by simp, Cursor.reads_nil.mpr h⟩
        · rw [if_neg hp, List.mem_singleton] at h
          exact ⟨[], by simp, Cursor.reads_nil.mpr h⟩
      · rintro ⟨w, hw, hr⟩
        cases w with
        | nil =>
            rw [Cursor.reads_nil.mp hr]
            split <;> simp
        | cons d w =>
            obtain ⟨rfl, hcs⟩ := List.cons.inj hr.1
            rw [if_pos (hw c List.mem_cons_self), List.mem_append]
            refine Or.inl (ih.mpr ⟨w, fun e he => hw e (List.mem_cons_of_mem _ he), hcs, ?_⟩)
            rw [hr.2, List.reverse_cons, List.append_assoc, List.singleton_append]

/-- **What is read is a word of the language.** -/
theorem exists_of_mem_run (h : z' ∈ r.run z) : ∃ w ∈ r.lang, z.Reads w z' := by
  induction r generalizing z z' with
  | byte p =>
      obtain ⟨before, _ | ⟨c, cs⟩⟩ := z
      · cases h
      · rw [run] at h
        split at h
        case isTrue hp =>
          rw [List.mem_singleton] at h
          exact ⟨[c], ⟨c, hp, rfl⟩, by rw [h]; exact ⟨rfl, rfl⟩⟩
        case isFalse => cases h
  | empty =>
      exact ⟨[], Language.nil_mem_one, Cursor.reads_nil.mpr (List.mem_singleton.mp h)⟩
  | boundary =>
      rw [run] at h
      split at h
      · exact ⟨[], Language.nil_mem_one, Cursor.reads_nil.mpr (List.mem_singleton.mp h)⟩
      · cases h
  | seq r s ihr ihs =>
      obtain ⟨z₁, h₁, h₂⟩ := List.mem_flatMap.mp h
      obtain ⟨v, hv, hrv⟩ := ihr h₁
      obtain ⟨w, hw, hrw⟩ := ihs h₂
      exact ⟨v ++ w, Language.append_mem_mul hv hw, hrv.trans hrw⟩
  | alt r s ihr ihs =>
      rcases List.mem_append.mp h with h | h
      · obtain ⟨w, hw, hr⟩ := ihr h
        exact ⟨w, Or.inl hw, hr⟩
      · obtain ⟨w, hw, hr⟩ := ihs h
        exact ⟨w, Or.inr hw, hr⟩
  | many p =>
      obtain ⟨w, hw, hr⟩ := mem_manyFrom.mp h
      exact ⟨w, hw, hr⟩

/-- Without boundaries, every word of the language is matched wherever it occurs. -/
theorem mem_run_of_mem_lang (hp : r.plain = true) (hw : w ∈ r.lang) (hr : z.Reads w z') :
    z' ∈ r.run z := by
  induction r generalizing z z' w with
  | byte p =>
      obtain ⟨c, hc, rfl⟩ := hw
      obtain ⟨before, after⟩ := z
      obtain ⟨ha, hb⟩ := hr
      cases z'
      simp only at ha hb
      subst ha hb
      simp [run, hc]
  | empty =>
      obtain rfl : w = [] := (Language.mem_one w).mp hw
      exact List.mem_singleton.mpr (Cursor.reads_nil.mp hr)
  | boundary => cases hp
  | seq r s ihr ihs =>
      rw [plain, Bool.and_eq_true] at hp
      obtain ⟨u, hu, v, hv, rfl⟩ := Language.mem_mul.mp hw
      obtain ⟨z₁, h₁, h₂⟩ := hr.split
      exact List.mem_flatMap.mpr ⟨z₁, ihr hp.1 hu h₁, ihs hp.2 hv h₂⟩
  | alt r s ihr ihs =>
      rw [plain, Bool.and_eq_true] at hp
      rcases hw with hw | hw
      · exact List.mem_append_left _ (ihr hp.1 hw hr)
      · exact List.mem_append_right _ (ihs hp.2 hw hr)
  | many p => exact mem_manyFrom.mpr ⟨w, hw, hr⟩

/-- **The matches of an expression without boundaries are the words of its language.** -/
theorem mem_run_iff (hp : r.plain = true) : z' ∈ r.run z ↔ ∃ w ∈ r.lang, z.Reads w z' :=
  ⟨exists_of_mem_run, fun ⟨_, hw, hr⟩ => mem_run_of_mem_lang hp hw hr⟩

theorem mem_run_boundary : z' ∈ run .boundary z ↔ z' = z ∧ z.atBoundary = true := by
  rw [run]
  split <;> simp_all

/-- **The matches between boundaries.** -/
theorem mem_run_word (hp : r.plain = true) :
    z' ∈ r.word.run z ↔
      z.atBoundary = true ∧ z'.atBoundary = true ∧ ∃ w ∈ r.lang, z.Reads w z' := by
  simp only [word, run, List.mem_flatMap]
  constructor
  · rintro ⟨z₁, h₁, z₂, h₂, h₃⟩
    obtain ⟨rfl, hb⟩ := mem_run_boundary.mp h₁
    obtain ⟨rfl, hb'⟩ := mem_run_boundary.mp h₃
    exact ⟨hb, hb', (mem_run_iff hp).mp h₂⟩
  · rintro ⟨hb, hb', hword⟩
    exact ⟨z, mem_run_boundary.mpr ⟨rfl, hb⟩, z', (mem_run_iff hp).mpr hword,
      mem_run_boundary.mpr ⟨rfl, hb'⟩⟩

theorem lang_word (r : Regexp) : r.word.lang = r.lang := by
  simp [word, lang]

/-! ## Kinds of bytes -/

def allBytes : List UInt8 := (List.range 256).map UInt8.ofNat

theorem mem_allBytes (c : UInt8) : c ∈ allBytes :=
  List.mem_map.mpr ⟨c.toNat, List.mem_range.mpr c.toNat_lt, UInt8.ofNat_toNat⟩

/-- Every byte of the class is of the kind `q`. -/
def subclass (p q : UInt8 → Bool) : Bool := allBytes.all fun c => !p c || q c

theorem of_subclass {p q : UInt8 → Bool} {c : UInt8} (h : subclass p q = true) (hc : p c = true) :
    q c = true := by
  have hall := List.all_eq_true.mp h c (mem_allBytes c)
  simpa [hc] using hall

/-- Every byte of a match is of the kind `q`. -/
def within (q : UInt8 → Bool) : Regexp → Bool
  | .byte p => subclass p q
  | .many p => subclass p q
  | .seq r s => within q r && within q s
  | .alt r s => within q r && within q s
  | _ => true

/-- Some byte of a match is of the kind `q`. -/
def requires (q : UInt8 → Bool) : Regexp → Bool
  | .byte p => subclass p q
  | .seq r s => requires q r || requires q s
  | .alt r s => requires q r && requires q s
  | _ => false

/-- No class has the byte `c`. -/
def avoids (c : UInt8) : Regexp → Bool
  | .byte p => !p c
  | .many p => !p c
  | .seq r s => avoids c r && avoids c s
  | .alt r s => avoids c r && avoids c s
  | _ => true

/-- A kind is checked on the bytes that are not of it. -/
theorem within_of_avoids {q : UInt8 → Bool} (h : ∀ c, q c = false → r.avoids c = true) :
    r.within q = true := by
  induction r with
  | byte p | many p =>
      refine List.all_eq_true.mpr fun c _ => ?_
      cases hq : q c with
      | true => simp
      | false => simpa [avoids] using h c hq
  | empty | boundary => rfl
  | seq r s hr hs | alt r s hr hs =>
      have hand := fun c hq => (Bool.and_eq_true _ _).mp (h c hq)
      exact (Bool.and_eq_true _ _).mpr ⟨hr fun c hq => (hand c hq).1, hs fun c hq => (hand c hq).2⟩

theorem of_within {q : UInt8 → Bool} (h : r.within q = true) (hw : w ∈ r.lang) :
    ∀ c ∈ w, q c = true := by
  induction r generalizing w with
  | byte p =>
      obtain ⟨c, hc, rfl⟩ := hw
      simpa using of_subclass h hc
  | empty | boundary =>
      obtain rfl : w = [] := (Language.mem_one w).mp hw
      simp
  | seq r s ihr ihs =>
      rw [within, Bool.and_eq_true] at h
      obtain ⟨u, hu, v, hv, rfl⟩ := Language.mem_mul.mp hw
      intro c hc
      rcases List.mem_append.mp hc with hc | hc
      · exact ihr h.1 hu c hc
      · exact ihs h.2 hv c hc
  | alt r s ihr ihs =>
      rw [within, Bool.and_eq_true] at h
      rcases hw with hw | hw
      · exact ihr h.1 hw
      · exact ihs h.2 hw
  | many p => exact fun c hc => of_subclass h (hw c hc)

theorem of_requires {q : UInt8 → Bool} (h : r.requires q = true) (hw : w ∈ r.lang) :
    ∃ c ∈ w, q c = true := by
  induction r generalizing w with
  | byte p =>
      obtain ⟨c, hc, rfl⟩ := hw
      exact ⟨c, List.mem_singleton_self c, of_subclass h hc⟩
  | empty | boundary | many => cases h
  | seq r s ihr ihs =>
      rw [requires, Bool.or_eq_true] at h
      obtain ⟨u, hu, v, hv, rfl⟩ := Language.mem_mul.mp hw
      rcases h with h | h
      · obtain ⟨c, hc, hq⟩ := ihr h hu
        exact ⟨c, List.mem_append_left _ hc, hq⟩
      · obtain ⟨c, hc, hq⟩ := ihs h hv
        exact ⟨c, List.mem_append_right _ hc, hq⟩
  | alt r s ihr ihs =>
      rw [requires, Bool.and_eq_true] at h
      rcases hw with hw | hw
      · exact ihr h.1 hw
      · exact ihs h.2 hw

/-! ## Searching -/

/-- The preferred match at a place. -/
def first (r : Regexp) (z : Cursor) : Option (List UInt8) :=
  (r.run z).head?.map fun z' => z.after.take (z.after.length - z'.after.length)

/-- The matches behind the next `k` bytes, for an expression that matches no empty text. -/
def findAllFrom (r : Regexp) : ℕ → List UInt8 → List UInt8 → List (List UInt8)
  | _, _, [] => []
  | k + 1, before, c :: cs => findAllFrom r k (c :: before) cs
  | 0, before, c :: cs =>
      match r.first ⟨before, c :: cs⟩ with
      | none => findAllFrom r 0 (c :: before) cs
      | some w => w :: findAllFrom r (w.length - 1) (c :: before) cs

/-- `FindAllString(text, -1)`, for an expression that matches no empty text. -/
def findAll (r : Regexp) (text : List UInt8) : List (List UInt8) := findAllFrom r 0 [] text

def matchesFrom (r : Regexp) : List UInt8 → List UInt8 → Bool
  | before, [] => !(r.run ⟨before, []⟩).isEmpty
  | before, c :: cs => !(r.run ⟨before, c :: cs⟩).isEmpty || matchesFrom r (c :: before) cs

/-- `MatchString(text)`. -/
def matchString (r : Regexp) (text : List UInt8) : Bool := matchesFrom r [] text

/-- At `z`, the expression can read `w`. -/
def MatchesAt (r : Regexp) (z : Cursor) (w : List UInt8) : Prop := ∃ z' ∈ r.run z, z.Reads w z'

theorem matchesAt_of_first (h : r.first z = some w) : r.MatchesAt z w := by
  obtain ⟨z', hhead, rfl⟩ := Option.map_eq_some_iff.mp h
  have hmem : z' ∈ r.run z := List.mem_of_head? hhead
  obtain ⟨w, -, hr⟩ := exists_of_mem_run hmem
  exact ⟨z', hmem, by rw [hr.take_eq]; exact hr⟩

theorem run_eq_nil_of_first (h : r.first z = none) : r.run z = [] :=
  List.head?_eq_none_iff.mp (Option.map_eq_none_iff.mp h)

theorem MatchesAt.mem_lang (h : r.MatchesAt z w) : w ∈ r.lang := by
  obtain ⟨z', hz', hr⟩ := h
  obtain ⟨v, hv, hrv⟩ := exists_of_mem_run hz'
  rwa [← hr.take_eq, hrv.take_eq]

/-- What is found is read somewhere. -/
theorem matchesAt_of_mem_findAllFrom {k : ℕ} {before after : List UInt8}
    (h : w ∈ findAllFrom r k before after) :
    ∃ v z, Cursor.Reads ⟨before, after⟩ v z ∧ r.MatchesAt z w := by
  induction after generalizing k before with
  | nil => simp [findAllFrom] at h
  | cons c cs ih =>
      have hlater : ∀ {k}, w ∈ findAllFrom r k (c :: before) cs →
          ∃ v z, Cursor.Reads ⟨before, c :: cs⟩ v z ∧ r.MatchesAt z w := by
        intro k h
        obtain ⟨v, z, hr, hm⟩ := ih h
        exact ⟨c :: v, z, hr.cons, hm⟩
      cases k with
      | succ k => exact hlater h
      | zero =>
          rw [findAllFrom] at h
          split at h
          case h_1 => exact hlater h
          case h_2 u hu =>
            rcases List.mem_cons.mp h with rfl | h
            · exact ⟨[], _, Cursor.reads_nil.mpr rfl, matchesAt_of_first hu⟩
            · exact hlater h

/-- An expression that does not match the empty text matches nothing at the end. -/
theorem after_ne_nil_of_run (hnil : [] ∉ r.lang) (hrun : r.run z ≠ []) : z.after ≠ [] := by
  intro hend
  obtain ⟨z', hz'⟩ := List.exists_mem_of_ne_nil _ hrun
  obtain ⟨w, hw, hr⟩ := exists_of_mem_run hz'
  obtain ⟨rfl, -⟩ := List.append_eq_nil_iff.mp (hr.1.symm.trans hend)
  exact hnil hw

theorem exists_of_run_ne_nil_from {k : ℕ} {before after v : List UInt8} (hnil : [] ∉ r.lang)
    (hz : Cursor.Reads ⟨before, after⟩ v z) (hrun : r.run z ≠ []) (hk : k ≤ v.length) :
    ∃ x u y, after = x ++ u ++ y ∧ u ∈ findAllFrom r k before after ∧
      x.length ≤ v.length ∧ v.length < x.length + u.length := by
  induction after generalizing k before v with
  | nil =>
      obtain ⟨-, hend⟩ := List.append_eq_nil_iff.mp hz.1.symm
      exact absurd hend (after_ne_nil_of_run hnil hrun)
  | cons c cs ih =>
      -- the place lies behind the first byte
      have hlater : ∀ {k d v'}, v = d :: v' → k ≤ v'.length →
          ∃ x u y, c :: cs = x ++ u ++ y ∧ u ∈ findAllFrom r k (c :: before) cs ∧
            x.length ≤ v.length ∧ v.length < x.length + u.length := by
        rintro k d v' rfl hk'
        obtain ⟨x, u, y, hxy, hu, h₁, h₂⟩ := ih hz.uncons hk'
        refine ⟨c :: x, u, y, by rw [hxy]; rfl, hu, ?_, ?_⟩
        · simpa using h₁
        · simp only [List.length_cons]
          omega
      cases k with
      | succ k =>
          cases v with
          | nil => simp at hk
          | cons d v' => exact hlater rfl (by simpa using hk)
      | zero =>
          rw [findAllFrom]
          split
          case h_1 hu =>
            cases v with
            | nil =>
                rw [Cursor.reads_nil.mp hz] at hrun
                exact absurd (run_eq_nil_of_first hu) hrun
            | cons d v' => exact hlater rfl (Nat.zero_le _)
          case h_2 u hu =>
            have hm : r.MatchesAt ⟨before, c :: cs⟩ u := matchesAt_of_first hu
            have hne : u ≠ [] := fun h => hnil (h ▸ hm.mem_lang)
            have hpos : 0 < u.length := List.length_pos_iff.mpr hne
            by_cases hlt : v.length < u.length
            · obtain ⟨z', -, hr⟩ := hm
              exact ⟨[], u, z'.after, hr.1, List.mem_cons_self, Nat.zero_le _, by simpa using hlt⟩
            · cases v with
              | nil => exact absurd hpos hlt
              | cons d v' =>
                  have hk' : u.length - 1 ≤ v'.length := by
                    rw [List.length_cons] at hlt
                    omega
                  obtain ⟨x, u', y, hxy, hu', h⟩ := hlater rfl hk'
                  exact ⟨x, u', y, hxy, List.mem_cons_of_mem _ hu', h⟩

variable {text : List UInt8}

/-- **What is found is a match.** -/
theorem matchesAt_of_mem_findAll (h : w ∈ r.findAll text) :
    ∃ v z, Cursor.Reads ⟨[], text⟩ v z ∧ r.MatchesAt z w :=
  matchesAt_of_mem_findAllFrom h

theorem mem_lang_of_mem_findAll (h : w ∈ r.findAll text) : w ∈ r.lang := by
  obtain ⟨v, z, -, hm⟩ := matchesAt_of_mem_findAll h
  exact hm.mem_lang

/-- **A place with a match lies in a match that is found.** -/
theorem exists_of_run_ne_nil {v : List UInt8} (hnil : [] ∉ r.lang)
    (hz : Cursor.Reads ⟨[], text⟩ v z) (hrun : r.run z ≠ []) :
    ∃ x u y, text = x ++ u ++ y ∧ u ∈ r.findAll text ∧
      x.length ≤ v.length ∧ v.length < x.length + u.length :=
  exists_of_run_ne_nil_from hnil hz hrun (Nat.zero_le _)

/-- **Something is found between boundaries** if and only if a word of the language stands there. -/
theorem findAll_word_ne_nil_iff (hp : r.plain = true) (hnil : [] ∉ r.lang) :
    r.word.findAll text ≠ [] ↔
      ∃ x w y, text = x ++ w ++ y ∧ w ∈ r.lang ∧ Cursor.atBoundary ⟨x.reverse, w ++ y⟩ = true ∧
        Cursor.atBoundary ⟨(x ++ w).reverse, y⟩ = true := by
  constructor
  · intro h
    obtain ⟨u, hu⟩ := List.exists_mem_of_ne_nil _ h
    obtain ⟨x, ⟨before, after⟩, hread, ⟨before', y⟩, hrun, -⟩ := matchesAt_of_mem_findAll hu
    obtain ⟨hb, hb', w, hw, hreadw⟩ := (mem_run_word hp).mp hrun
    obtain ⟨htext, hbefore⟩ : text = x ++ after ∧ before = x.reverse ++ [] := hread
    obtain ⟨hafter, hbefore'⟩ : after = w ++ y ∧ before' = w.reverse ++ before := hreadw
    rw [List.append_nil] at hbefore
    subst hbefore hafter hbefore'
    refine ⟨x, w, y, by rw [htext, List.append_assoc], hw, hb, ?_⟩
    rw [List.reverse_append]
    exact hb'
  · rintro ⟨x, w, y, rfl, hw, hb, hb'⟩
    have hread : Cursor.Reads ⟨[], x ++ w ++ y⟩ x ⟨x.reverse, w ++ y⟩ :=
      ⟨List.append_assoc x w y, (List.append_nil _).symm⟩
    have hrun : (⟨(x ++ w).reverse, y⟩ : Cursor) ∈ r.word.run ⟨x.reverse, w ++ y⟩ :=
      (mem_run_word hp).mpr ⟨hb, hb', w, hw, rfl, List.reverse_append⟩
    obtain ⟨-, u, -, -, hu, -⟩ := exists_of_run_ne_nil (r.lang_word ▸ hnil) hread
      (List.ne_nil_of_mem hrun)
    exact List.ne_nil_of_mem hu

end Regexp
