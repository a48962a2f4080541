import AppGate.Lib.Fallible
import AppGate.Lib.JsonData

/-!
# Structs of `encoding/json`

How `json.Unmarshal` fills a struct. A key of the text names the field with the same name, or else
the first one whose name agrees without letter case; other keys are skipped. A field with several
values is filled with one after the other, and `null` leaves a string as it is.

* `foldName`, `fieldOf`, `valuesOf`: the values of each field;
* `string`, `strings`, `stringMap`, `integer`: the types of fields;
* `structFields`, `field`, `store`: filling a struct;
* **`field_of_nodup`**: a text with each name at most once, written exactly.
-/

set_option autoImplicit false

namespace GoStruct

open Json Fallible

variable {α : Type}

/-! ## Names -/

/-- The smallest letter that agrees with `c` without case, for the letters that some ASCII letter
agrees with. -/
def foldRune (c : Char) : Char :=
  if c.isLower then c.toUpper
  else if c = 'ſ' then 'S'
  else if c = '\u212A' then 'K'
  else c

def foldName (s : String) : List Char := s.toList.map foldRune

/-- `strings.EqualFold` of a string with one of ASCII letters. -/
def equalFold (s t : String) : Bool := foldName s = foldName t

/-- The field that a key names. -/
def fieldOf (names : List String) (key : String) : Option String :=
  if key ∈ names then some key else names.find? fun n => foldName n = foldName key

/-- The values for a field, in their order. -/
def valuesOf (names : List String) (name : String) (fields : List (String × Value)) : List Value :=
  (fields.filter fun f => fieldOf names f.1 = some name).map Prod.snd

example : fieldOf ["iss", "sub"] "ſUB" = some "sub" := by decide

/-! ## Types of fields -/

/-- How a value is stored over the one that is there. -/
abbrev Item (α : Type) := α → Value → Except String α

def string : Item String
  | _, .string s => .ok s
  | old, .null => .ok old
  | _, _ => .error "cannot unmarshal into Go value of type string"

/-- The elements of a slice from values, over those that its array holds. -/
def fill : List String → List Value → Except String (List String)
  | _, [] => .ok []
  | old, v :: vs => do
    let s ← string (old.headD "") v
    return s :: (← fill old.tail vs)

/-- A slice, and what its array holds behind it. The array is written in place. -/
def strings : Item (List String × List String)
  | (old, behind), .array vs =>
    if vs = [] then .ok ([], [])
    else (fill (old ++ behind) vs).map fun ss => (ss, (old ++ behind).drop ss.length)
  | _, .null => .ok ([], [])
  | _, _ => .error "cannot unmarshal into Go value of type []string"

/-- The entries of a map from strings to strings; later ones count. -/
def stringMap : Item (List (String × String))
  | old, .object fields => do
    let entries ← fields.mapM fun f => (string "" f.2).map fun s => (f.1, s)
    return old ++ entries
  | _, .null => .ok []
  | _, _ => .error "cannot unmarshal into Go value of type map[string]string"

/-- An `int`: the digits of a number that fits in 64 bits. -/
def integer : Item ℤ
  | old, .null => .ok old
  | _, .number n =>
    if n.text.all (fun c => c.isDigit || c = '-') ∧ -9223372036854775808 ≤ n.value.num ∧
        n.value.num ≤ 9223372036854775807 then .ok n.value.num
    else .error "cannot unmarshal number into Go value of type int"
  | _, _ => .error "cannot unmarshal into Go value of type int"

/-! ## Structs -/

/-- The fields of the text for a struct; `null` has none. -/
def structFields : Value → Except String (List (String × Value))
  | .object fields => .ok fields
  | .null => .ok []
  | _ => .error "cannot unmarshal into Go value of type struct"

/-- A field of a struct, with its value before. -/
def field (names : List String) (item : Item α) (zero : α) (name : String)
    (fields : List (String × Value)) : Except String α :=
  (valuesOf names name fields).foldlM item zero

/-- A field with at most one value. -/
def store (item : Item α) (zero : α) : Option Value → Except String α
  | some v => item zero v
  | none => .ok zero

@[simp] theorem store_some (item : Item α) (zero : α) (v : Value) :
    store item zero (some v) = item zero v := rfl

@[simp] theorem store_none (item : Item α) (zero : α) : store item zero none = .ok zero := rfl

theorem fieldOf_of_mem {names : List String} {key : String} (h : key ∈ names) :
    fieldOf names key = some key := if_pos h

/-- The key is the name of a field, or no field has that name in any case. -/
def Plain (names : List String) (key : String) : Prop := key ∈ names ∨ fieldOf names key = none

instance (names : List String) (key : String) : Decidable (Plain names key) :=
  inferInstanceAs (Decidable (_ ∨ _))

/-- Plain keys name the fields they are the names of. -/
theorem valuesOf_of_plain {names : List String} {fields : List (String × Value)}
    (h : ∀ f ∈ fields, Plain names f.1) {name : String} (hname : name ∈ names) :
    valuesOf names name fields = (fields.filter fun f => f.1 = name).map Prod.snd := by
  unfold valuesOf
  congr 1
  refine List.filter_congr fun f hf => ?_
  rcases h f hf with hmem | hnone
  · rw [fieldOf_of_mem hmem]
    simp
  · have hne : f.1 ≠ name := by
      rintro rfl
      cases hnone.symm.trans (fieldOf_of_mem hname)
    rw [hnone]
    simp [hne]

/-- **Fields written once.** With plain keys that occur once each, a field is filled with the value
at its name, or left alone. -/
theorem field_of_nodup {names : List String} {fields : List (String × Value)}
    (hplain : ∀ f ∈ fields, Plain names f.1) (hnd : (fields.map Prod.fst).Nodup) (item : Item α)
    (zero : α) {name : String} (hname : name ∈ names) :
    field names item zero name fields = store item zero (fields.lookup name) := by
  have hvalues : (fields.filter fun f => f.1 = name).map Prod.snd =
      (fields.lookup name).toList := by
    clear hplain
    induction fields with
    | nil => rfl
    | cons f fields ih =>
        obtain ⟨hnot, hrest⟩ := List.nodup_cons.mp hnd
        obtain ⟨key, v⟩ := f
        by_cases hk : key = name
        · subst hk
          have hnone : fields.filter (fun g => g.1 = key) = [] := by
            rw [List.filter_eq_nil_iff]
            intro g hg hgk
            exact hnot (List.mem_map.mpr ⟨g, hg, by simpa using hgk⟩)
          simp [hnone]
        · rw [List.filter_cons_of_neg (by simpa using hk), ih hrest, List.lookup_cons,
            beq_false_of_ne (Ne.symm hk)]
  rw [field, valuesOf_of_plain hplain hname, hvalues]
  cases fields.lookup name with
  | none => rfl
  | some v =>
      simp only [Option.toList_some, List.foldlM_cons, List.foldlM_nil, store_some]
      cases item zero v <;> rfl

theorem fill_strings (old ss : List String) : fill old (ss.map .string) = .ok ss := by
  induction ss generalizing old with
  | nil => rfl
  | cons s ss ih => simp [fill, string, ih]

@[simp] theorem strings_strings (old : List String × List String) (ss : List String) :
    (strings old (.strings ss)).map Prod.fst = .ok ss := by
  obtain ⟨old, behind⟩ := old
  cases ss with
  | nil => rfl
  | cons s ss =>
      have hne : (s :: ss).map Value.string ≠ [] := List.cons_ne_nil _ _
      simp only [strings, Value.strings, if_neg hne, fill_strings, map_ok]

end GoStruct
