import Mathlib.Data.Set.List
import AppGate.Lib.JsonData

/-!
# Strings with unpaired surrogates

A JSON string may escape one half of a surrogate pair without the other. It is then a sequence of
code points that no `String` holds. Here such a sequence is marked: behind a NUL stands an unpaired
surrogate, as the character that is `0xD7FF` below it, or NUL itself. Every other character stands
for itself.

* `mark`, `marked`, `marked_injective`: the marked form of a string of characters;
* `half`, `markedChars`, `parseMarked`: the parser of all JSON texts, whose strings are marked;
* `Value.marked`: a value with its names and strings marked;
* `Agrees`, **`parseMarked_iff`**: a text is read into a marked value exactly if the strict parser
  reads the value;
* `Spells`: the bytes of any JSON text;
* `nodeAt_marked`, `exists_of_at?_marked`: the paths into a marked value;
* `Value.Unicode`, **`exists_marked_of_unicode`**: the values without unpaired surrogates.
-/

set_option autoImplicit false

namespace Json

/-! ## Marked strings -/

/-- A character, marked if it is NUL. -/
def mark (c : Char) : List Char := if c = '\x00' then ['\x00', '\x00'] else [c]

/-- The marked form of a string of characters. -/
def marked (s : String) : String := String.ofList (s.toList.flatMap mark)

/-- An escape of a surrogate, marked. -/
def half : List Char → Option (List Char × List Char)
  | '\\' :: 'u' :: cs =>
    (code cs).bind fun p =>
      if 0xD800 ≤ p.1 ∧ p.1 < 0xE000 then some (['\x00', Char.ofNat (p.1 - 0xD7FF)], p.2) else none
  | _ => none

/-- One code point of a string: a character, or a surrogate that is not half of a pair. -/
def markedChar (cs : List Char) : Option (List Char × List Char) :=
  match char cs with
  | some (c, rest) => some (mark c, rest)
  | none => half cs

/-- The code points up to the closing quote. -/
def markedChars : ℕ → List Char → Option (List Char × List Char)
  | 0, _ => none
  | _ + 1, [] => none
  | n + 1, c :: cs =>
    if c = '"' then some ([], cs)
    else (markedChar (c :: cs)).bind fun p => (markedChars n p.2).map fun q => (p.1 ++ q.1, q.2)

/-- A text that is one value. -/
def parseMarked (text : List Char) : Option Value := parseBy markedChars text

/-- A pair of surrogates is one character, two high ones are two code points. -/
example : markedChars 9 ['\\', 'u', 'D', '8', '0', '0', '"'] = some (['\x00', '\x01'], []) ∧
    markedChars 9 ['\\', 'u', 'D', '8', '3', 'D', '\\', 'u', 'D', 'E', '0', '0', '"'] =
      some ([Char.ofNat 0x1F600], []) := by
  decide

theorem mark_ne_nil (c : Char) : mark c ≠ [] := by
  unfold mark
  split_ifs <;> exact List.cons_ne_nil _ _

/-- Marked characters are read one by one. -/
theorem mark_append_inj {c d : Char} {xs ys : List Char} (h : mark c ++ xs = mark d ++ ys) :
    c = d ∧ xs = ys := by
  unfold mark at h
  split_ifs at h with hc hd hd
  · obtain ⟨-, h⟩ := List.cons.inj h
    exact ⟨hc.trans hd.symm, (List.cons.inj h).2⟩
  · exact absurd (List.cons.inj h).1.symm hd
  · exact absurd (List.cons.inj h).1 hc
  · exact List.cons.inj h

theorem half_eq_some {cs m rest : List Char} (h : half cs = some (m, rest)) :
    ∃ d, d ≠ '\x00' ∧ m = ['\x00', d] := by
  unfold half at h
  split at h
  next cs =>
    obtain ⟨p, -, h⟩ := Option.bind_eq_some_iff.mp h
    split_ifs at h with hp
    cases h
    refine ⟨_, fun h0 => ?_, rfl⟩
    have hnat := congrArg Char.toNat h0
    rw [Char.ofNat, dif_pos (Or.inl (by omega))] at hnat
    have hzero : p.1 - 0xD7FF = 0 := hnat
    omega
  next => cases h

/-- A marked surrogate is not a marked character. -/
theorem ne_mark_append {d : Char} (hd : d ≠ '\x00') (c : Char) (xs ys : List Char) :
    ['\x00', d] ++ xs ≠ mark c ++ ys := by
  unfold mark
  split_ifs with hc
  · intro h
    exact hd (List.cons.inj (List.cons.inj h).2).1
  · intro h
    exact hc (List.cons.inj h).1.symm

theorem flatMap_mark_injective : Function.Injective fun cs : List Char => cs.flatMap mark := by
  intro xs ys h
  induction xs generalizing ys with
  | nil =>
      cases ys with
      | nil => rfl
      | cons d ys => exact absurd (List.append_eq_nil_iff.mp h.symm).1 (mark_ne_nil d)
  | cons c xs ih =>
      cases ys with
      | nil => exact absurd (List.append_eq_nil_iff.mp h).1 (mark_ne_nil c)
      | cons d ys =>
          obtain ⟨rfl, htail⟩ := mark_append_inj h
          rw [ih htail]

theorem marked_injective : Function.Injective marked := by
  intro s t h
  have hlist := flatMap_mark_injective (String.ofList_injective h)
  rw [← String.ofList_toList (s := s), hlist, String.ofList_toList]

/-- Neither of two parsers reads anything. -/
theorem none_iff_none {α β : Type} (a : α) (b : β) :
    (none : Option α) = some a ↔ (none : Option β) = some b :=
  iff_of_false (Option.some_ne_none a).symm (Option.some_ne_none b).symm

/-- **Strings without unpaired surrogates** are those that the strict parser reads. -/
theorem markedChars_iff {n : ℕ} {cs s rest : List Char} :
    chars n cs = some (s, rest) ↔ markedChars n cs = some (s.flatMap mark, rest) := by
  induction n generalizing cs s with
  | zero => exact none_iff_none _ _
  | succ n ih =>
      cases cs with
      | nil => exact none_iff_none _ _
      | cons c cs =>
          rw [chars, markedChars]
          split_ifs with hquote
          · rw [Option.some.injEq, Option.some.injEq, Prod.mk.injEq, Prod.mk.injEq]
            refine and_congr_left fun _ => ?_
            cases s with
            | nil => exact Iff.rfl
            | cons d s =>
                refine iff_of_false (List.cons_ne_nil d s).symm fun h => ?_
                exact absurd (List.append_eq_nil_iff.mp h.symm).1 (mark_ne_nil d)
          · simp only [Option.bind_eq_some_iff, Option.map_eq_some_iff]
            constructor
            · rintro ⟨⟨d, cs'⟩, hd, ⟨s', r⟩, hs, h⟩
              cases h
              exact ⟨(mark d, cs'), by rw [markedChar, hd], (_, _), ih.mp hs, rfl⟩
            · rintro ⟨⟨m, cs'⟩, hm, ⟨q, r⟩, hq, h⟩
              obtain ⟨happ, rfl⟩ := Prod.mk.inj h
              unfold markedChar at hm
              split at hm
              next d rest' hd =>
                cases hm
                cases s with
                | nil => exact absurd (List.append_eq_nil_iff.mp happ).1 (mark_ne_nil d)
                | cons d' s =>
                    obtain ⟨rfl, rfl⟩ := mark_append_inj happ
                    exact ⟨_, hd, _, ih.mpr hq, rfl⟩
              next =>
                obtain ⟨k, hk, rfl⟩ := half_eq_some hm
                cases s with
                | nil => cases happ
                | cons d' s => exact absurd happ (ne_mark_append hk d' _ _)

/-! ## Marked values -/

/-- The value with its names and strings marked. -/
def Value.marked (v : Value) : Value :=
  v.fold
    { null := .null
      bool := .bool
      number := .number
      string := fun s => .string (Json.marked s)
      array := .array
      object := fun fields => .object (fields.map fun p => (Json.marked p.1, p.2)) }

theorem marked_array (vs : List Value) :
    (Value.array vs).marked = .array (vs.map Value.marked) :=
  fold_array _ vs

/-- A field with its name and value marked. -/
def markField (f : String × Value) : String × Value := (marked f.1, f.2.marked)

theorem marked_object (fields : List (String × Value)) :
    (Value.object fields).marked = .object (fields.map markField) := by
  rw [Value.marked, fold_object]
  exact congrArg Value.object (List.map_map ..)

/-- What a value is that is an array after marking. -/
theorem eq_array_of_marked {v : Value} {ws : List Value} (h : v.marked = .array ws) :
    ∃ vs, v = .array vs ∧ ws = vs.map Value.marked := by
  cases v with
  | array vs =>
      rw [marked_array] at h
      exact ⟨vs, rfl, (Value.array.inj h).symm⟩
  | object fields =>
      rw [marked_object] at h
      cases h
  | _ => cases h

theorem eq_object_of_marked {v : Value} {gs : List (String × Value)}
    (h : v.marked = .object gs) : ∃ fields, v = .object fields ∧ gs = fields.map markField := by
  cases v with
  | object fields =>
      rw [marked_object] at h
      exact ⟨fields, rfl, (Value.object.inj h).symm⟩
  | array vs =>
      rw [marked_array] at h
      cases h
  | _ => cases h

theorem eq_string_of_marked {v : Value} {t : String} (h : v.marked = .string t) :
    ∃ s, v = .string s ∧ t = marked s := by
  cases v with
  | string s => exact ⟨s, rfl, (Value.string.inj h).symm⟩
  | array vs =>
      rw [marked_array] at h
      cases h
  | object fields =>
      rw [marked_object] at h
      cases h
  | _ => cases h

/-- The values without parts and strings. -/
def Value.Bare : Value → Prop
  | .null | .bool _ | .number _ => True
  | _ => False

theorem marked_of_bare {v : Value} (h : v.Bare) : v.marked = v := by
  cases v with
  | null => rfl
  | bool b => rfl
  | number n => rfl
  | _ => exact h.elim

theorem marked_eq_iff_of_bare {v w : Value} (h : w.Bare) : v.marked = w ↔ v = w := by
  constructor
  · rintro rfl
    cases v with
    | array vs =>
        rw [marked_array] at h
        exact h.elim
    | object fields =>
        rw [marked_object] at h
        exact h.elim
    | string s => exact h.elim
    | _ => rfl
  · rintro rfl
    exact marked_of_bare h

/-! ## Two parsers of one text -/

/-- Two parsers that read a text alike, up to a function of what is read. -/
def Agrees {α β : Type} (f : α → β) (p : List Char → Option (α × List Char))
    (q : List Char → Option (β × List Char)) : Prop :=
  ∀ cs a rest, p cs = some (a, rest) ↔ q cs = some (f a, rest)

section Agrees

variable {α β γ δ : Type} {f : α → β} {g : γ → δ} {p : List Char → Option (α × List Char)}
  {q : List Char → Option (β × List Char)}

theorem Agrees.map (h : Agrees f p q) {k : α → γ} {l : β → δ} (hkl : ∀ a, g (k a) = l (f a))
    (hinv : ∀ b c, l b = g c → ∃ a, c = k a ∧ b = f a) (cs : List Char) (c : γ)
    (rest : List Char) :
    ((p cs).map fun x => (k x.1, x.2)) = some (c, rest) ↔
      ((q cs).map fun x => (l x.1, x.2)) = some (g c, rest) := by
  rw [Option.map_eq_some_iff, Option.map_eq_some_iff]
  constructor
  · rintro ⟨⟨a, r⟩, ha, hc⟩
    cases hc
    exact ⟨(f a, r), (h _ _ _).mp ha, by rw [hkl]⟩
  · rintro ⟨⟨b, r⟩, hb, hc⟩
    obtain ⟨hlc, rfl⟩ := Prod.mk.inj hc
    obtain ⟨a, rfl, rfl⟩ := hinv b c hlc
    exact ⟨(a, r), (h _ _ _).mpr hb, rfl⟩

/-- One item in front of others. -/
theorem Agrees.cons (h : Agrees f p q) {ps : List Char → Option (List α × List Char)}
    {qs : List Char → Option (List β × List Char)} (hs : Agrees (List.map f) ps qs)
    (cs : List Char) (as : List α) (rest : List Char) :
    ((p cs).bind fun x => (ps x.2).map fun y => (x.1 :: y.1, y.2)) = some (as, rest) ↔
      ((q cs).bind fun x => (qs x.2).map fun y => (x.1 :: y.1, y.2)) =
        some (as.map f, rest) := by
  simp only [Option.bind_eq_some_iff, Option.map_eq_some_iff]
  constructor
  · rintro ⟨⟨a, r⟩, ha, ⟨as', r'⟩, has, h'⟩
    cases h'
    exact ⟨(f a, r), (h _ _ _).mp ha, (as'.map f, r'), (hs _ _ _).mp has, rfl⟩
  · rintro ⟨⟨b, r⟩, hb, ⟨bs, r'⟩, hbs, h'⟩
    obtain ⟨happ, rfl⟩ := Prod.mk.inj h'
    cases as with
    | nil => cases happ
    | cons a as =>
        obtain ⟨rfl, rfl⟩ := List.cons.inj happ
        exact ⟨(a, r), (h _ _ _).mpr hb, (as, r'), (hs _ _ _).mpr hbs, rfl⟩

theorem agrees_nil (as : List α) (rest cs : List Char) :
    some (([] : List α), cs) = some (as, rest) ↔ some ([], cs) = some (as.map f, rest) := by
  cases as <;> simp

theorem Agrees.readMore (h : Agrees f p q) (close : Char) (n : ℕ) :
    Agrees (List.map f) (readMore close p n) (readMore close q n) := by
  induction n with
  | zero => exact fun _ _ _ => none_iff_none _ _
  | succ n ih =>
      intro cs as rest
      rw [Json.readMore, Json.readMore]
      split
      next => exact none_iff_none _ _
      next c cs' _ =>
        split_ifs
        · exact h.cons ih cs' as rest
        · exact agrees_nil as rest cs'
        · exact Iff.rfl

theorem Agrees.readItems (h : Agrees f p q) (close : Char) (n : ℕ) :
    Agrees (List.map f) (readItems close p n) (readItems close q n) := by
  intro cs as rest
  rw [Json.readItems, Json.readItems]
  split
  next => exact none_iff_none _ _
  next c cs' _ =>
    split_ifs
    · exact agrees_nil as rest cs'
    · exact h.cons (h.readMore close n) _ as rest

end Agrees

/-- The two readers of strings. -/
theorem agrees_chars (n : ℕ) : Agrees (List.flatMap mark) (chars n) (markedChars n) :=
  fun _ _ _ => markedChars_iff

theorem Agrees.readField {p q : List Char → Option (Value × List Char)}
    (h : Agrees Value.marked p q) (n : ℕ) :
    Agrees markField (readFieldBy chars p n) (readFieldBy markedChars q n) := by
  intro cs f rest
  rw [readFieldBy, readFieldBy]
  split
  next cs' _ =>
    rw [Option.bind_eq_some_iff, Option.bind_eq_some_iff]
    constructor
    · rintro ⟨⟨k, r⟩, hk, hf⟩
      refine ⟨(k.flatMap mark, r), (agrees_chars n _ _ _).mp hk, ?_⟩
      dsimp only at hf ⊢
      split at hf
      next cs'' hr =>
        obtain ⟨⟨v, r'⟩, hv, hf⟩ := Option.map_eq_some_iff.mp hf
        cases hf
        rw [(h _ _ _).mp hv]
        simp [markField, marked]
      next => cases hf
    · rintro ⟨⟨k, r⟩, hk, hf⟩
      dsimp only at hf
      split at hf
      next cs'' hr =>
        obtain ⟨⟨w, r'⟩, hw, hf⟩ := Option.map_eq_some_iff.mp hf
        obtain ⟨hname, hval⟩ := Prod.mk.inj (Prod.mk.inj hf).1
        obtain rfl := (Prod.mk.inj hf).2
        obtain rfl : w = f.2.marked := hval
        obtain rfl : k = f.1.toList.flatMap mark := String.ofList_injective hname
        refine ⟨(f.1.toList, r), (agrees_chars n _ _ _).mpr hk, ?_⟩
        simp only [hr, (h _ _ _).mpr hw, Option.map_some, String.ofList_toList]
      next => cases hf
  next => exact none_iff_none _ _

theorem agrees_readName (name : List Char) {v : Value} (hv : v.Bare) :
    Agrees Value.marked (readName name v) (readName name v) := by
  intro cs u rest
  rw [readName]
  split_ifs
  · rw [Option.some.injEq, Option.some.injEq, Prod.mk.injEq, Prod.mk.injEq, eq_comm (a := v),
      eq_comm (a := v), marked_eq_iff_of_bare hv]
  · exact Iff.rfl

theorem agrees_readNumber : Agrees Value.marked readNumber readNumber := by
  intro cs u rest
  rw [readNumber]
  split_ifs
  · rw [Option.some.injEq, Option.some.injEq, Prod.mk.injEq, Prod.mk.injEq, eq_comm (b := u),
      eq_comm (b := u.marked), marked_eq_iff_of_bare (w := .number _) trivial]
  · exact Iff.rfl

theorem agrees_value (n : ℕ) : Agrees Value.marked (value n) (valueBy markedChars n) := by
  induction n with
  | zero => exact fun _ _ _ => none_iff_none _ _
  | succ n ih =>
      intro cs v rest
      rw [value, valueBy, valueBy]
      split
      next => exact none_iff_none _ _
      next c cs' _ =>
        split_ifs
        · refine (agrees_chars n).map (k := fun s => Value.string (String.ofList s))
            (l := fun s => Value.string (String.ofList s)) (fun s => ?_) (fun s u hu => ?_) cs' v rest
          · show Value.string (marked (String.ofList s)) = _
            rw [marked, String.toList_ofList]
          · obtain ⟨t, rfl, ht⟩ := eq_string_of_marked hu.symm
            exact ⟨t.toList, by rw [String.ofList_toList], String.ofList_injective ht⟩
        · refine (ih.readItems ']' n).map marked_array (fun ws u hu => ?_) cs' v rest
          exact eq_array_of_marked hu.symm
        · refine ((ih.readField n).readItems '\x7d' n).map marked_object (fun gs u hu => ?_)
            cs' v rest
          exact eq_object_of_marked hu.symm
        · exact agrees_readName _ (v := .null) trivial cs' v rest
        · exact agrees_readName _ (v := .bool true) trivial cs' v rest
        · exact agrees_readName _ (v := .bool false) trivial cs' v rest
        · exact agrees_readNumber _ v rest

/-- **The two parsers**: a text is read into a marked value if and only if the strict parser reads
the value. -/
theorem parseMarked_iff {text : List Char} {v : Value} :
    parse text = some v ↔ parseMarked text = some v.marked := by
  have hvalue : ∀ rest, value (text.length + 1) text = some (v, rest) ↔
      valueBy markedChars (text.length + 1) text = some (v.marked, rest) :=
    fun rest => agrees_value _ _ _ _
  have hparse : ∀ {str : ℕ → List Char → Option (List Char × List Char)} {w : Value},
      parseBy str text = some w ↔
        ∃ rest, valueBy str (text.length + 1) text = some (w, rest) ∧ skipWs rest = [] := by
    intro str w
    rw [parseBy]
    split
    next u rest hu =>
      rw [Option.ite_none_right_eq_some, hu]
      constructor
      · rintro ⟨hws, h⟩
        cases h
        exact ⟨rest, rfl, hws⟩
      · rintro ⟨rest', h, hws⟩
        cases h
        exact ⟨hws, rfl⟩
    next hu =>
      rw [hu]
      refine iff_of_false (Option.some_ne_none w).symm ?_
      rintro ⟨rest, h, -⟩
      cases h
  rw [parse, parseMarked, hparse, hparse]
  exact exists_congr fun rest => and_congr_left fun _ => hvalue rest

/-- The bytes of a text of the marked value. -/
def Spells (data : List UInt8) (v : Value) : Prop :=
  ∃ text, data = Utf8.encode text ∧ parseMarked text = some v

theorem Spells.unique {data : List UInt8} {v w : Value} (hv : Spells data v)
    (hw : Spells data w) : v = w := by
  obtain ⟨text, rfl, hv⟩ := hv
  obtain ⟨text', htext, hw⟩ := hw
  have heq := congrArg Utf8.runes htext
  rw [Utf8.runes_encode, Utf8.runes_encode] at heq
  subst heq
  rw [hv] at hw
  exact Option.some.inj hw

theorem denotes_iff_spells {data : List UInt8} {v : Value} :
    Denotes data v ↔ Spells data v.marked :=
  exists_congr fun _ => and_congr_right fun _ => parseMarked_iff

/-! ## Paths into a marked value -/

def Step.marked : Step → Step
  | .key name => .key (Json.marked name)
  | .index i => .index i

def Node.marked : Node → Node
  | .string s => .string (Json.marked s)
  | node => node

theorem Step.marked_injective : Function.Injective Step.marked := by
  intro s t h
  cases s <;> cases t
  · rw [Json.marked_injective (Step.key.inj h)]
  · cases h
  · cases h
  · rw [Step.index.inj h]

theorem Node.marked_injective : Function.Injective Node.marked := by
  intro s t h
  cases s with
  | string s =>
      cases t with
      | string t => rw [Json.marked_injective (Node.string.inj h)]
      | _ => cases h
  | _ => cases t <;> first | exact h | cases h

theorem node_marked (v : Value) : v.marked.node = v.node.marked := by
  cases v with
  | array vs => rw [marked_array]; rfl
  | object fields => rw [marked_object]; rfl
  | _ => rfl

theorem lookup_markField (fields : List (String × Value)) (name : String) :
    (fields.map markField).lookup (marked name) = (fields.lookup name).map Value.marked := by
  induction fields with
  | nil => rfl
  | cons f fields ih =>
      rw [List.map_cons, markField, List.lookup_cons, List.lookup_cons, ih]
      by_cases h : name = f.1
      · subst h
        simp
      · simp [beq_false_of_ne h, beq_false_of_ne (marked_injective.ne h)]

theorem child_marked (v : Value) (step : Step) :
    v.marked.child step.marked = (v.child step).map Value.marked := by
  cases v with
  | array vs =>
      rw [marked_array]
      cases step with
      | key name => rfl
      | index i => exact List.getElem?_map
  | object fields =>
      rw [marked_object]
      cases step with
      | key name => exact lookup_markField fields name
      | index i => rfl
  | _ => cases step <;> rfl

theorem exists_of_child_marked {v w : Value} {step : Step} (h : v.marked.child step = some w) :
    ∃ step' u, step = step'.marked ∧ v.child step' = some u ∧ w = u.marked := by
  obtain ⟨step', rfl⟩ : ∃ step', step = Step.marked step' := by
    cases step with
    | index i => exact ⟨.index i, rfl⟩
    | key name =>
        cases v with
        | object fields =>
            rw [marked_object, Value.child, List.lookup_eq_some_iff] at h
            obtain ⟨fs, gs, hsplit, -⟩ := h
            have hmem : (name, w) ∈ fields.map markField := by simp [hsplit]
            obtain ⟨f, -, hf⟩ := List.mem_map.mp hmem
            exact ⟨.key f.1, congrArg Step.key (Prod.mk.inj hf).1.symm⟩
        | array vs =>
            rw [marked_array] at h
            cases h
        | _ => cases h
  rw [child_marked, Option.map_eq_some_iff] at h
  obtain ⟨u, hu, rfl⟩ := h
  exact ⟨step', u, rfl, hu, rfl⟩

theorem at?_marked (v : Value) (path : List Step) :
    v.marked.at? (path.map Step.marked) = (v.at? path).map Value.marked := by
  induction path generalizing v with
  | nil => rfl
  | cons step path ih =>
      rw [List.map_cons, Value.at?, Value.at?, child_marked]
      cases v.child step with
      | none => rfl
      | some u => exact ih u

/-- **The paths into a marked value** are marked. -/
theorem exists_of_at?_marked {v w : Value} {path : List Step} (h : v.marked.at? path = some w) :
    ∃ path' u, path = path'.map Step.marked ∧ v.at? path' = some u ∧ w = u.marked := by
  induction path generalizing v with
  | nil =>
      cases h
      exact ⟨[], v, rfl, rfl, rfl⟩
  | cons step path ih =>
      rw [Value.at?, Option.bind_eq_some_iff] at h
      obtain ⟨x, hx, h⟩ := h
      obtain ⟨step', y, rfl, hy, rfl⟩ := exists_of_child_marked hx
      obtain ⟨path', u, rfl, hu, rfl⟩ := ih h
      exact ⟨step' :: path', u, rfl, by rw [Value.at?, hy, Option.bind_some, hu], rfl⟩

theorem nodeAt_marked (v : Value) (path : List Step) :
    v.marked.nodeAt (path.map Step.marked) = (v.nodeAt path).map Node.marked := by
  rw [Value.nodeAt, Value.nodeAt, at?_marked, Option.map_map, Option.map_map]
  exact congrArg (Option.map · _) (funext node_marked)

theorem exists_of_nodeAt_marked {v : Value} {path : List Step} {node : Node}
    (h : v.marked.nodeAt path = some node) :
    ∃ path' node', path = path'.map Step.marked ∧ v.nodeAt path' = some node' ∧
      node = node'.marked := by
  obtain ⟨w, hw, rfl⟩ := Option.map_eq_some_iff.mp h
  obtain ⟨path', u, rfl, hu, rfl⟩ := exists_of_at?_marked hw
  exact ⟨path', u.node, rfl, by rw [Value.nodeAt, hu, Option.map_some], node_marked u⟩

theorem distinct_marked_iff {v : Value} : v.marked.Distinct ↔ v.Distinct := by
  have hkeys : ∀ fields : List (String × Value),
      (fields.map markField).map Prod.fst = (fields.map Prod.fst).map marked := by
    intro fields
    rw [List.map_map, List.map_map]
    rfl
  constructor
  · intro h path fields hpath
    have hmarked : v.marked.at? (path.map Step.marked) = some (.object (fields.map markField)) := by
      rw [at?_marked, hpath, Option.map_some, marked_object]
    have hnodup := h _ _ hmarked
    rw [hkeys] at hnodup
    exact hnodup.of_map
  · intro h path gs hpath
    obtain ⟨path', u, rfl, hu, hgs⟩ := exists_of_at?_marked hpath
    obtain ⟨fields, rfl, rfl⟩ := eq_object_of_marked hgs.symm
    rw [hkeys]
    exact (h path' fields hu).map marked_injective

theorem integral_of_marked {v : Value} (h : v.marked.Integral) : v.Integral := by
  intro path q hq
  refine h (path.map Step.marked) q ?_
  rw [nodeAt_marked, hq]
  rfl

/-! ## Values without unpaired surrogates -/

/-- The marked form of a string of characters: a code point that is marked is NUL. -/
def IsUnicode (s : String) : Prop := ∃ t, s = marked t

/-- No name and no string in the value has an unpaired surrogate. -/
def Value.Unicode (v : Value) : Prop :=
  ∀ path node, v.nodeAt path = some node →
    (∀ name, .key name ∈ path → IsUnicode name) ∧ ∀ s, node = .string s → IsUnicode s

theorem unicode_marked (v : Value) : v.marked.Unicode := by
  intro path node h
  obtain ⟨path', node', rfl, -, rfl⟩ := exists_of_nodeAt_marked h
  constructor
  · intro name hname
    obtain ⟨step, -, hstep⟩ := List.mem_map.mp hname
    cases step with
    | key t => exact ⟨t, (Step.key.inj hstep).symm⟩
    | index i => cases hstep
  · intro s hs
    cases node' with
    | string t => exact ⟨t, (Node.string.inj hs).symm⟩
    | _ => cases hs

theorem Value.Unicode.child {v u : Value} {step : Step} (h : v.Unicode)
    (hu : v.child step = some u) : u.Unicode := by
  intro path node hpath
  have hnode : v.nodeAt (step :: path) = some node := by rw [nodeAt_cons, hu, Option.bind_some, hpath]
  obtain ⟨hnames, hstring⟩ := h _ _ hnode
  exact ⟨fun name hname => hnames name (List.mem_cons_of_mem _ hname), hstring⟩

theorem Value.Unicode.name {v u : Value} {name : String} (h : v.Unicode)
    (hu : v.child (.key name) = some u) : IsUnicode name := by
  have hnode : v.nodeAt [.key name] = some u.node := by
    rw [nodeAt_cons, hu, Option.bind_some]
    rfl
  exact (h _ _ hnode).1 name List.mem_cons_self

/-- **A value without unpaired surrogates** is the marked form of a value. -/
theorem exists_marked_of_unicode {v : Value} (hd : v.Distinct) (h : v.Unicode) :
    ∃ u : Value, v = u.marked := by
  induction v using Value.induction with
  | null => exact ⟨.null, rfl⟩
  | bool b => exact ⟨.bool b, rfl⟩
  | number n => exact ⟨.number n, rfl⟩
  | string s =>
      obtain ⟨t, rfl⟩ := (h [] _ rfl).2 s rfl
      exact ⟨.string t, rfl⟩
  | array vs ih =>
      have hall : ∀ v ∈ vs, v ∈ Set.range Value.marked := by
        intro v hv
        obtain ⟨i, hi⟩ := List.mem_iff_getElem?.mp hv
        have hchild : (Value.array vs).child (.index i) = some v := hi
        obtain ⟨u, hu⟩ := ih v hv (hd.child hchild) (h.child hchild)
        exact ⟨u, hu.symm⟩
      obtain ⟨us, rfl⟩ : vs ∈ Set.range (List.map Value.marked) := by
        rw [Set.range_list_map]
        exact hall
      exact ⟨.array us, (marked_array us).symm⟩
  | object fields ih =>
      have hall : ∀ f ∈ fields, f ∈ Set.range markField := by
        intro f hf
        have hchild : (Value.object fields).child (.key f.1) = some f.2 :=
          (lookup_eq_some_iff_mem hd.nodup).mpr hf
        obtain ⟨t, ht⟩ := h.name hchild
        obtain ⟨u, hu⟩ := ih f hf (hd.child hchild) (h.child hchild)
        exact ⟨(t, u), Prod.ext ht.symm hu.symm⟩
      obtain ⟨gs, rfl⟩ : fields ∈ Set.range (List.map markField) := by
        rw [Set.range_list_map]
        exact hall
      exact ⟨.object gs, (marked_object gs).symm⟩

end Json
