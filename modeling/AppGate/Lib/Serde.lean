import AppGate.Lib.Fallible
import AppGate.Lib.Json

/-!
# Derived deserializers

What `serde_derive` 1.0.229 generates for structs of strings, booleans, unsigned integers, lists
and options, on the values of `serde_json` 1.0.151. Unknown fields are ignored, a known field must
not occur twice, and an absent field is fine for an option or with a default only.

* `string`, `boolean`, `unsigned`, `vec`, `option`: the types of fields;
* `structOf`, `requiredField`, `optionalField`, `defaultField`: the fields of a struct;
* `entry`: a field of a struct that is read from any map.

What is used of it:

* `structOf_object_eq_ok`: a struct is read from an object by the names of its fields;
* `mapM_map`, `vec_array_map`: lists are decoded element by element;
* `entry_eq_ok`: an entry is absent or read alone.
-/

set_option autoImplicit false

namespace Serde

open Json

variable {α β : Type}

def string : Value → Except String String
  | .string s => .ok s
  | _ => .error "invalid type: expected a string"

def boolean : Value → Except String Bool
  | .bool b => .ok b
  | _ => .error "invalid type: expected a boolean"

/-- An unsigned integer type with largest value `max`. -/
def unsigned (max : ℕ) : Value → Except String ℕ
  | .number n =>
    match n.toNat? with
    | some k => if k ≤ max then .ok k else .error "invalid value: integer out of range"
    | none => .error "invalid type: expected an unsigned integer"
  | _ => .error "invalid type: expected an unsigned integer"

/-- `Vec<T>`. -/
def vec (item : Value → Except String α) : Value → Except String (List α)
  | .array vs => vs.mapM item
  | _ => .error "invalid type: expected a sequence"

/-- `Option<T>` of a field that is present. -/
def option (item : Value → Except String α) : Value → Except String (Option α)
  | .null => .ok none
  | v => (item v).map some

/-- The fields of a struct: by name from an object, or by position from an array. -/
def structOf (names : List String) : Value → Except String (String → Option Value)
  | .object fields =>
    match names.find? fun n => 1 < fields.countP fun f => f.1 = n with
    | some n => .error ("duplicate field " ++ n)
    | none => .ok fun n => fields.lookup n
  | .array vs =>
    if vs.length = names.length then .ok fun n => (names.zip vs).lookup n
    else .error "invalid length"
  | _ => .error "invalid type: expected a struct"

/-- A field that must be there. -/
def requiredField (item : Value → Except String α) (name : String) (get : String → Option Value) :
    Except String α :=
  match get name with
  | some v => item v
  | none => .error ("missing field " ++ name)

/-- A field of type `Option<T>`. -/
def optionalField (item : Value → Except String α) (name : String) (get : String → Option Value) :
    Except String (Option α) :=
  match get name with
  | some v => option item v
  | none => .ok none

/-- A field with a function for its default. -/
def defaultField (item : Value → Except String α) (dflt : α) (name : String)
    (get : String → Option Value) : Except String α :=
  match get name with
  | some v => item v
  | none => .ok dflt

/-- The same where the struct is read from a map whose values are of another type. -/
def entry {V : Type} (item : V → Except String α) (dflt : α) (name : String)
    (entries : List (String × V)) : Except String α :=
  match entries.filter fun e => e.1 = name with
  | [] => .ok dflt
  | [(_, v)] => item v
  | _ => .error ("duplicate field " ++ name)

@[simp] theorem lookup_cons_of_ne {k k' : String} (h : k ≠ k') (v : Value)
    (fields : List (String × Value)) : ((k', v) :: fields).lookup k = fields.lookup k := by
  rw [List.lookup_cons, beq_false_of_ne h]

theorem structOf_object_eq_ok {names : List String} {fields : List (String × Value)}
    {get : String → Option Value} (h : structOf names (.object fields) = .ok get) (name : String) :
    get name = fields.lookup name := by
  simp only [structOf] at h
  split at h
  · cases h
  · rw [← Except.ok.inj h]

/-- An entry that is read is absent or was read alone. -/
theorem entry_eq_ok {V : Type} {item : V → Except String α} {dflt a : α} {name : String}
    {entries : List (String × V)} (h : entry item dflt name entries = .ok a) :
    (∀ e ∈ entries, e.1 ≠ name) ∧ a = dflt ∨ ∃ v, item v = .ok a := by
  unfold entry at h
  split at h
  next hnone =>
    refine .inl ⟨fun e he heq => ?_, (Except.ok.inj h).symm⟩
    simpa [heq] using List.filter_eq_nil_iff.mp hnone e he
  next v _ => exact .inr ⟨v, h⟩
  next => cases h

theorem mapM_map {item : Value → Except String β} {f : α → Value} {g : α → β} {as : List α}
    (h : ∀ a ∈ as, item (f a) = .ok (g a)) : (as.map f).mapM item = .ok (as.map g) := by
  induction as with
  | nil => rfl
  | cons a as ih =>
      rw [List.map_cons, List.mapM_cons, h a List.mem_cons_self,
        ih fun b hb => h b (List.mem_cons_of_mem a hb)]
      rfl

theorem vec_array_map {item : Value → Except String β} {f : α → Value} {g : α → β} {as : List α}
    (h : ∀ a ∈ as, item (f a) = .ok (g a)) : vec item (.array (as.map f)) = .ok (as.map g) :=
  mapM_map h

@[simp] theorem vec_strings (ss : List String) : vec string (.strings ss) = .ok ss := by
  have h : vec string (.strings ss) = .ok (ss.map id) := vec_array_map fun _ _ => rfl
  rw [h, List.map_id]

@[simp] theorem option_strings (ss : List String) :
    option (vec string) (.strings ss) = .ok (some ss) :=
  congrArg (Except.map some) (vec_strings ss)

@[simp] theorem option_null (item : Value → Except String α) : option item .null = .ok none := rfl

@[simp] theorem option_string (s : String) : option string (.string s) = .ok (some s) := rfl

@[simp] theorem option_int (item : Value → Except String α) (n : ℤ) :
    option item (.int n) = (item (.int n)).map some := rfl

theorem unsigned_int {max : ℕ} {n : ℤ} (h0 : 0 ≤ n) (h : n ≤ max) :
    unsigned max (.int n) = .ok n.toNat := by
  obtain ⟨k, rfl⟩ := Int.eq_ofNat_of_zero_le h0
  have hk : (Number.ofInt k).toNat? = some k := Number.toNat?_ofNat k
  simp only [unsigned, Value.int, hk, Int.toNat_natCast]
  rw [if_pos (by omega)]

end Serde
