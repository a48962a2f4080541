import Mathlib.Algebra.Order.Ring.Unbundled.Rat
import Mathlib.Data.List.DropRight
import Mathlib.Data.List.Sort
import Mathlib.Data.Rat.Cast.Defs
import Mathlib.Tactic.FieldSimp
import Mathlib.Tactic.Ring
import AppGate.Lib.Json
import AppGate.Lib.Utf8

/-!
# What a JSON text denotes

A number denotes its value, an object the values of its names, in any order. Two values denote the
same when they have the same nodes at every path.

* `Number.value`, `Number.exponential`: the value of a number, and the notation with an exponent;
* **`value_ofInt`**, **`value_exponential`**: what the two notations of an integer denote;
* `mapFields`, `lastWins`, `sortKeys`, **`lookup_sortKeys`**: the fields of an object as a map;
* `Algebra`, `Value.fold`, `Value.depth`: functions of the parts of a value;
* `Step`, `Value.at?`, `Node`, `Value.nodeAt`: paths into a value;
* `Value.Distinct`, `Value.Integral`: the names and the numbers in a value;
* `Denotes`: the bytes of a text.
-/

set_option autoImplicit false

namespace Json

/-! ## Numbers -/

/-- The value of digits. -/
def natural (cs : List Char) : ℕ := Nat.ofDigitChars 10 cs 0

/-- The factor that an exponent part stands for. -/
def scale : List Char → ℚ
  | [] => 1
  | _ :: '+' :: cs => 10 ^ natural cs
  | _ :: '-' :: cs => (10 ^ natural cs)⁻¹
  | _ :: cs => 10 ^ natural cs

/-- The value of a number without its sign. -/
def magnitude (cs : List Char) : ℚ :=
  match cs.dropWhile Char.isDigit with
  | '.' :: fs =>
    natural (cs.takeWhile Char.isDigit ++ fs.takeWhile Char.isDigit) /
      10 ^ (fs.takeWhile Char.isDigit).length * scale (fs.dropWhile Char.isDigit)
  | es => natural (cs.takeWhile Char.isDigit) * scale es

/-- The value of a number. -/
def Number.value (n : Number) : ℚ :=
  match n.text with
  | '-' :: cs => -magnitude cs
  | cs => magnitude cs

theorem natural_toDigits (n : ℕ) : natural (Nat.toDigits 10 n) = n := Nat.ofDigitChars_ten_toDigits

theorem natural_append_zeros (cs : List Char) (k : ℕ) :
    natural (cs ++ List.replicate k '0') = natural cs * 10 ^ k := by
  rw [natural, Nat.ofDigitChars_append, Nat.ofDigitChars_replicate_zero, Nat.mul_comm]
  rfl

theorem magnitude_toDigits (n : ℕ) : magnitude (Nat.toDigits 10 n) = n := by
  obtain ⟨ht, hd⟩ := takeWhile_digits (toDigits_all n)
  simp [magnitude, ht, hd, natural_toDigits, scale]

/-- A text that starts with a digit has no sign. -/
theorem value_of_head {n : Number} {c : Char} {cs : List Char} (h : n.text = c :: cs)
    (hc : c.isDigit = true) : n.value = magnitude n.text := by
  unfold Number.value
  split
  next ds heq =>
    rw [h] at heq
    cases heq
    exact absurd hc (by decide)
  next => rfl

theorem toDigits_eq_cons (n : ℕ) : ∃ c cs, Nat.toDigits 10 n = c :: cs ∧ c.isDigit = true ∧
    ∀ d ∈ cs, d.isDigit = true := by
  cases h : Nat.toDigits 10 n with
  | nil => exact absurd h Nat.toDigits_ne_nil
  | cons c cs =>
      have hall := toDigits_all n
      rw [h] at hall
      exact ⟨c, cs, rfl, hall c List.mem_cons_self, fun d hd => hall d (List.mem_cons_of_mem c hd)⟩

/-- **An integer denotes itself.** -/
theorem value_ofInt (n : ℤ) : (Number.ofInt n).value = n := by
  cases n with
  | ofNat n =>
      obtain ⟨c, cs, h, hc, -⟩ := toDigits_eq_cons n
      have htext : (Number.ofInt (.ofNat n)).text = c :: cs := h
      rw [value_of_head htext hc]
      exact magnitude_toDigits n
  | negSucc n =>
      show -magnitude (Nat.toDigits 10 (n + 1)) = (Int.negSucc n : ℚ)
      rw [magnitude_toDigits, Int.cast_negSucc]

/-- Digits behind a point, or nothing. -/
def point (fs : List Char) : List Char := if fs = [] then [] else '.' :: fs

/-- The exponent part with a plus sign. -/
def plusExponent (k : ℕ) : List Char := 'e' :: '+' :: Nat.toDigits 10 k

/-- A number with one digit before the point, no zeros at its end, and an exponent. -/
def exponential (n : ℕ) : List Char :=
  match Nat.toDigits 10 n with
  | [] => []
  | d :: ds => d :: (point (ds.rdropWhile (· = '0')) ++ plusExponent ds.length)

theorem exists_exponential (n : ℕ) : ∃ d fs k, exponential n =
      d :: (point fs ++ plusExponent (fs.length + k)) ∧ d.isDigit = true ∧
    (∀ c ∈ fs, c.isDigit = true) ∧ natural (d :: fs) * 10 ^ k = n := by
  obtain ⟨d, ds, hn, hd, hds⟩ := toDigits_eq_cons n
  -- the zeros at the end, which the text leaves out
  have hsplit : ds = ds.rdropWhile (· = '0') ++ ds.rtakeWhile (· = '0') :=
    (List.rdropWhile_append_rtakeWhile ..).symm
  obtain ⟨k, hk⟩ : ∃ k, ds.rtakeWhile (· = '0') = List.replicate k '0' :=
    ⟨_, List.eq_replicate_of_mem fun c hc => by simpa using List.mem_rtakeWhile_imp hc⟩
  rw [hk] at hsplit
  refine ⟨d, ds.rdropWhile (· = '0'), k, ?_, hd, ?_, ?_⟩
  · have hlen := congrArg List.length hsplit
    rw [List.length_append, List.length_replicate] at hlen
    rw [exponential, hn, ← hlen]
  · intro c hc
    apply hds
    rw [hsplit]
    exact List.mem_append_left _ hc
  · rw [← natural_append_zeros, List.cons_append, ← hsplit, ← hn, natural_toDigits]

theorem isExponent_plusExponent (k : ℕ) : isExponent (plusExponent k) = true := by
  have hd : (Nat.toDigits 10 k).all Char.isDigit = true := List.all_eq_true.mpr (toDigits_all k)
  simp [plusExponent, isExponent, hd]

theorem scale_plusExponent (k : ℕ) : scale (plusExponent k) = 10 ^ k := by
  rw [plusExponent, scale, natural_toDigits]

/-- What the digits at the front of a text with an exponent are. -/
theorem takeWhile_exponent {cs : List Char} (h : ∀ c ∈ cs, c.isDigit = true) (k : ℕ) :
    (cs ++ plusExponent k).takeWhile Char.isDigit = cs ∧
      (cs ++ plusExponent k).dropWhile Char.isDigit = plusExponent k := by
  rw [List.takeWhile_append_of_pos h, List.dropWhile_append_of_pos h]
  simp [plusExponent]

theorem takeWhile_point (fs : List Char) (k : ℕ) :
    (point fs ++ plusExponent k).takeWhile Char.isDigit = [] ∧
      (point fs ++ plusExponent k).dropWhile Char.isDigit = point fs ++ plusExponent k := by
  unfold point
  split_ifs <;> simp [plusExponent]

theorem isFraction_point {fs : List Char} (h : ∀ c ∈ fs, c.isDigit = true) (k : ℕ) :
    isFraction (point fs ++ plusExponent k) = true := by
  unfold point
  split_ifs with hfs
  · exact isExponent_plusExponent k
  · obtain ⟨htake, hdrop⟩ := takeWhile_exponent h k
    simp [isFraction, htake, hdrop, hfs, isExponent_plusExponent]

theorem isUnsigned_exponential (n : ℕ) : isUnsigned (exponential n) = true := by
  obtain ⟨d, fs, k, hn, hd, hfs, -⟩ := exists_exponential n
  obtain ⟨htake, hdrop⟩ := takeWhile_point fs (fs.length + k)
  have hnat : isNatural [d] = true := by
    by_cases h0 : d = '0'
    · subst h0
      decide
    · simp [isNatural, hd, h0]
  rw [hn, isUnsigned, List.takeWhile_cons_of_pos hd, List.dropWhile_cons_of_pos hd, htake, hdrop,
    hnat, isFraction_point hfs]
  rfl

theorem isNumber_exponential (n : ℕ) : isNumber (exponential n) = true := by
  obtain ⟨d, fs, k, hn, hd, -⟩ := exists_exponential n
  unfold isNumber
  split
  next cs h =>
    rw [hn] at h
    cases h
    exact absurd hd (by decide)
  next => exact isUnsigned_exponential n

theorem isNumChar_exponential (n : ℕ) : (exponential n).all isNumChar = true := by
  obtain ⟨d, fs, k, hn, hd, hfs, -⟩ := exists_exponential n
  have hdigit {c : Char} (h : c.isDigit = true) : isNumChar c = true := by simp [isNumChar, h]
  have hpoint : (point fs).all isNumChar = true := by
    unfold point
    split_ifs
    · rfl
    · rw [List.all_cons, List.all_eq_true.mpr fun c hc => hdigit (hfs c hc)]
      decide
  rw [hn, List.all_cons, hdigit hd, List.all_append, hpoint, plusExponent, List.all_cons,
    List.all_cons, isNumChar_toDigits]
  decide

theorem magnitude_exponential (n : ℕ) : magnitude (exponential n) = n := by
  obtain ⟨d, fs, k, hn, hd, hfs, hval⟩ := exists_exponential n
  obtain ⟨htake, hdrop⟩ := takeWhile_point fs (fs.length + k)
  rw [hn, magnitude, List.takeWhile_cons_of_pos hd, List.dropWhile_cons_of_pos hd, htake, hdrop,
    ← hval]
  by_cases hnil : fs = []
  · subst hnil
    show (natural [d] : ℚ) * scale (plusExponent (0 + k)) = _
    rw [scale_plusExponent, Nat.zero_add]
    push_cast
    rfl
  · obtain ⟨hfsTake, hfsDrop⟩ := takeWhile_exponent hfs (fs.length + k)
    rw [point, if_neg hnil, List.cons_append]
    simp only [hfsTake, hfsDrop, scale_plusExponent, List.cons_append, List.nil_append]
    push_cast
    rw [pow_add]
    field_simp

/-- An integer, written with an exponent. -/
def Number.exponential : ℤ → Number
  | .ofNat n => ⟨Json.exponential n, isNumber_exponential n, isNumChar_exponential n⟩
  | .negSucc n =>
    ⟨'-' :: Json.exponential (n + 1), isUnsigned_exponential (n + 1), by
      rw [List.all_cons, isNumChar_exponential]
      decide⟩

/-- **An integer written with an exponent denotes itself.** -/
theorem value_exponential (n : ℤ) : (Number.exponential n).value = n := by
  cases n with
  | ofNat n =>
      obtain ⟨d, fs, k, h, hd, -⟩ := exists_exponential n
      have htext : (Number.exponential (.ofNat n)).text = d :: _ := h
      rw [value_of_head htext hd]
      exact magnitude_exponential n
  | negSucc n =>
      show -magnitude (exponential (n + 1)) = (Int.negSucc n : ℚ)
      rw [magnitude_exponential, Int.cast_negSucc]

/-! ## Fields -/

section Fields

variable {α β : Type}

/-- A function of the values of fields, which may depend on the name. -/
def mapFields (f : String → α → β) (fields : List (String × α)) : List (String × β) :=
  fields.map fun p => (p.1, f p.1 p.2)

/-- Of fields with the same name, only the last. -/
def lastWins : List (String × α) → List (String × α)
  | [] => []
  | p :: fields => if p.1 ∈ fields.map Prod.fst then lastWins fields else p :: lastWins fields

/-- Fields in the order of their names. -/
def sortKeys (fields : List (String × α)) : List (String × α) :=
  fields.insertionSort fun p q => p.1 ≤ q.1

@[simp] theorem keys_mapFields (f : String → α → β) (fields : List (String × α)) :
    (mapFields f fields).map Prod.fst = fields.map Prod.fst := by
  simp [mapFields]

@[simp] theorem lookup_mapFields (f : String → α → β) (fields : List (String × α))
    (name : String) : (mapFields f fields).lookup name = (fields.lookup name).map (f name) := by
  induction fields with
  | nil => rfl
  | cons p fields ih =>
      rw [mapFields, List.map_cons, List.lookup_cons, List.lookup_cons, ← mapFields, ih]
      by_cases h : name = p.1
      · subst h
        simp
      · simp [beq_false_of_ne h]

theorem mapFields_mapFields {γ : Type} (f : String → α → β) (g : String → β → γ)
    (fields : List (String × α)) :
    mapFields g (mapFields f fields) = mapFields (fun name a => g name (f name a)) fields := by
  simp [mapFields]

theorem mapFields_eq_self {f : String → α → α} {fields : List (String × α)}
    (h : ∀ p ∈ fields, f p.1 p.2 = p.2) : mapFields f fields = fields := by
  rw [mapFields, List.map_congr_left (g := id) fun p hp => by rw [h p hp]; rfl, List.map_id]

theorem lastWins_of_nodup {fields : List (String × α)} (h : (fields.map Prod.fst).Nodup) :
    lastWins fields = fields := by
  induction fields with
  | nil => rfl
  | cons p fields ih =>
      rw [List.map_cons, List.nodup_cons] at h
      rw [lastWins, if_neg h.1, ih h.2]

theorem lookup_eq_some_iff_mem {fields : List (String × α)} (h : (fields.map Prod.fst).Nodup)
    {name : String} {a : α} : fields.lookup name = some a ↔ (name, a) ∈ fields := by
  induction fields with
  | nil => simp
  | cons p fields ih =>
      obtain ⟨k, b⟩ := p
      rw [List.map_cons, List.nodup_cons] at h
      rw [List.lookup_cons, List.mem_cons, Prod.mk.injEq]
      by_cases hk : name = k
      · subst hk
        have hnot : (name, a) ∉ fields := fun hmem => h.1 (List.mem_map.mpr ⟨_, hmem, rfl⟩)
        simp [hnot, eq_comm]
      · simp [beq_false_of_ne hk, hk, ih h.2]

theorem nodup_keys_sortKeys {fields : List (String × α)} (h : (fields.map Prod.fst).Nodup) :
    ((sortKeys fields).map Prod.fst).Nodup :=
  ((List.perm_insertionSort _ fields).map Prod.fst).nodup_iff.mpr h

/-- The order of fields with distinct names does not matter. -/
theorem lookup_sortKeys {fields : List (String × α)} (h : (fields.map Prod.fst).Nodup)
    (name : String) : (sortKeys fields).lookup name = fields.lookup name := by
  have hperm : (sortKeys fields).Perm fields := List.perm_insertionSort _ _
  have hsorted := nodup_keys_sortKeys h
  ext a
  rw [lookup_eq_some_iff_mem hsorted, lookup_eq_some_iff_mem h, hperm.mem_iff]

end Fields

/-! ## Trees -/

/-- A function of a value, given by what it does with the results for the parts. -/
structure Algebra (β : Type) where
  null : β
  bool : Bool → β
  number : Number → β
  string : String → β
  array : List β → β
  object : List (String × β) → β

section Fold

variable {β : Type} (a : Algebra β)

mutual

def Value.fold : Value → β
  | .null => a.null
  | .bool b => a.bool b
  | .number n => a.number n
  | .string s => a.string s
  | .array vs => a.array (foldAll vs)
  | .object fields => a.object (foldFields fields)

def foldAll : List Value → List β
  | [] => []
  | v :: vs => v.fold :: foldAll vs

def foldFields : List (String × Value) → List (String × β)
  | [] => []
  | (k, v) :: fields => (k, v.fold) :: foldFields fields

end

theorem fold_array (vs : List Value) :
    (Value.array vs).fold a = a.array (vs.map (Value.fold a)) := by
  rw [Value.fold]
  congr 1
  induction vs with
  | nil => rw [foldAll, List.map_nil]
  | cons v vs ih => rw [foldAll, List.map_cons, ih]

theorem fold_object (fields : List (String × Value)) :
    (Value.object fields).fold a = a.object (mapFields (fun _ => Value.fold a) fields) := by
  rw [Value.fold]
  congr 1
  induction fields with
  | nil => rw [foldFields, mapFields, List.map_nil]
  | cons f fields ih => rw [foldFields, mapFields, List.map_cons, ih, mapFields]

end Fold

/-- How deep arrays and objects are nested. -/
def Value.depth (v : Value) : ℕ :=
  v.fold
    { null := 0
      bool := fun _ => 0
      number := fun _ => 0
      string := fun _ => 0
      array := fun ds => ds.foldr max 0 + 1
      object := fun fields => (fields.map Prod.snd).foldr max 0 + 1 }

theorem depth_array_le {vs : List Value} {n : ℕ} (h : ∀ v ∈ vs, v.depth ≤ n) :
    (Value.array vs).depth ≤ n + 1 := by
  have hfold : (vs.map Value.depth).foldr max 0 ≤ n := by
    induction vs with
    | nil => exact Nat.zero_le n
    | cons v vs ih =>
        exact Nat.max_le.mpr
          ⟨h v List.mem_cons_self, ih fun u hu => h u (List.mem_cons_of_mem v hu)⟩
  rw [Value.depth, fold_array]
  exact Nat.succ_le_succ hfold

theorem depth_object_le {fields : List (String × Value)} {n : ℕ} (h : ∀ f ∈ fields, f.2.depth ≤ n) :
    (Value.object fields).depth ≤ n + 1 := by
  have hfold : ((mapFields (fun _ => Value.depth) fields).map Prod.snd).foldr max 0 ≤ n := by
    induction fields with
    | nil => exact Nat.zero_le n
    | cons f fields ih =>
        exact Nat.max_le.mpr
          ⟨h f List.mem_cons_self, ih fun g hg => h g (List.mem_cons_of_mem f hg)⟩
  rw [Value.depth, fold_object]
  exact Nat.succ_le_succ hfold

/-- A step from a value to one of its parts. -/
inductive Step where
  | key (name : String)
  | index (i : ℕ)
  deriving DecidableEq, Repr

def Value.child : Value → Step → Option Value
  | .array vs, .index i => vs[i]?
  | .object fields, .key name => fields.lookup name
  | _, _ => none

/-- The part of a value that a path leads to. -/
def Value.at? : Value → List Step → Option Value
  | v, [] => some v
  | v, step :: path => (v.child step).bind fun u => u.at? path

/-- What passes from a value to its parts holds wherever a path leads. -/
theorem of_at? {P : Value → Prop} (hstep : ∀ v u step, P v → v.child step = some u → P u)
    {v u : Value} {path : List Step} (h : P v) (hu : v.at? path = some u) : P u := by
  induction path generalizing v with
  | nil =>
      cases hu
      exact h
  | cons step path ih =>
      rw [Value.at?] at hu
      cases hw : v.child step with
      | none =>
          rw [hw] at hu
          cases hu
      | some w =>
          rw [hw] at hu
          exact ih (hstep v w step h hw) hu

/-- What a value is, without its parts; a number is its value. -/
inductive Node where
  | null
  | bool (b : Bool)
  | number (q : ℚ)
  | string (s : String)
  | array
  | object
  deriving DecidableEq

def Value.node : Value → Node
  | .null => .null
  | .bool b => .bool b
  | .number n => .number n.value
  | .string s => .string s
  | .array _ => .array
  | .object _ => .object

/-- The node a path leads to. -/
def Value.nodeAt (v : Value) (path : List Step) : Option Node := (v.at? path).map Value.node

theorem nodeAt_cons (v : Value) (step : Step) (path : List Step) :
    v.nodeAt (step :: path) = (v.child step).bind fun u => u.nodeAt path := by
  rw [Value.nodeAt, Value.at?, Option.map_bind]
  rfl

/-- No object in the value has two fields of the same name. -/
def Value.Distinct (v : Value) : Prop :=
  ∀ path fields, v.at? path = some (.object fields) → (fields.map Prod.fst).Nodup

theorem Value.Distinct.nodup {fields : List (String × Value)} (h : (Value.object fields).Distinct) :
    (fields.map Prod.fst).Nodup := h [] fields rfl

theorem Value.Distinct.child {v u : Value} {step : Step} (h : v.Distinct)
    (hu : v.child step = some u) : u.Distinct := by
  intro path fields hpath
  refine h (step :: path) fields ?_
  rw [Value.at?, hu, Option.bind_some, hpath]

theorem distinct_number (n : Number) : (Value.number n).Distinct := by
  intro path fields hpath
  cases path with
  | nil => cases hpath
  | cons step path => cases step <;> cases hpath

theorem distinct_object {fields : List (String × Value)} (hkeys : (fields.map Prod.fst).Nodup)
    (h : ∀ name v, fields.lookup name = some v → v.Distinct) : (Value.object fields).Distinct := by
  intro path gs hpath
  cases path with
  | nil =>
      cases hpath
      exact hkeys
  | cons step path =>
      rw [Value.at?, Option.bind_eq_some_iff] at hpath
      obtain ⟨v, hv, hgs⟩ := hpath
      cases step with
      | key name => exact h name v hv path gs hgs
      | index i => cases hv

/-- Every number in the value is an integer. -/
def Value.Integral (v : Value) : Prop :=
  ∀ path q, v.nodeAt path = some (.number q) → q.den = 1

theorem Value.Integral.child {v u : Value} {step : Step} (h : v.Integral)
    (hu : v.child step = some u) : u.Integral := by
  intro path q hpath
  refine h (step :: path) q ?_
  rw [nodeAt_cons, hu, Option.bind_some, hpath]

/-- The bytes of a text of the value, whose strings are Unicode. -/
def Denotes (data : List UInt8) (v : Value) : Prop :=
  ∃ text, data = Utf8.encode text ∧ parse text = some v

theorem Denotes.unique {data : List UInt8} {v w : Value} (hv : Denotes data v)
    (hw : Denotes data w) : v = w := by
  obtain ⟨text, rfl, hv⟩ := hv
  obtain ⟨text', htext, hw⟩ := hw
  have heq := congrArg Utf8.runes htext
  rw [Utf8.runes_encode, Utf8.runes_encode] at heq
  subst heq
  rw [hv] at hw
  exact Option.some.inj hw

theorem denotes_print (e : Escaper) (v : Value) : Denotes (Utf8.encode (print e v)) v :=
  ⟨print e v, rfl, parse_print e v⟩

end Json
