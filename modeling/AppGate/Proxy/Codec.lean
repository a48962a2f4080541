import AppGate.Lib.Binary64
import AppGate.Lib.JsonData
import AppGate.Proxy.Handler

/-!
# `encoding/json` on a map

`json.Unmarshal` into a `map[string]interface{}` and `json.Marshal` of one. A number becomes the
nearest `float64`, and a `float64` is written as the shortest decimal that reads back. Both are
defined here on integers; what `strconv` does with other numbers is a parameter.

* `mend`, `readText`: the texts that are accepted;
* `convertNumber`, `valueInterface`, `unmarshal`: decoding;
* `floatEncoder`, `interfaceEncoder`, `marshal`: encoding;
* `goJson`: the codec;
* `unmarshal_object`: what becomes of an object;
* **`convertNumber_int`**, **`value_floatEncoder`**: what becomes of an integer.
-/

set_option autoImplicit false

namespace AppGate.LLMProxy

open NetHttp

/-- `strconv` on numbers that are not integers: the nearest `float64`, none outside the range, and
the shortest decimal. -/
structure Fractions where
  parseFloat : Json.Number → Option ℚ
  formatFloat : ℚ → Json.Number

/-! ## Texts -/

/-- The text that stands for what follows a backslash: an escape of a surrogate that has no other
half is read as `U+FFFD`. -/
def mendEscape : List Char → List Char
  | 'u' :: cs =>
    match Json.code cs with
    | none => ['u']
    | some (n, rest) =>
      if n < 0xD800 ∨ 0xE000 ≤ n then 'u' :: cs.take 4
      else
        match rest with
        | '\\' :: 'u' :: ds =>
          match Json.code ds with
          | none => ['u', 'F', 'F', 'F', 'D']
          | some (m, _) =>
            if n < 0xDC00 ∧ 0xDC00 ≤ m ∧ m < 0xE000 then 'u' :: cs.take 10
            else ['u', 'F', 'F', 'F', 'D']
        | _ => ['u', 'F', 'F', 'F', 'D']
  | c :: _ => [c]
  | [] => []

/-- The text with `pending` in place of its first characters and the escapes behind them mended. -/
def mendFrom : List Char → List Char → List Char
  | _, [] => []
  | p :: pending, _ :: cs => p :: mendFrom pending cs
  | [], c :: cs => if c = '\\' then c :: mendFrom (mendEscape cs) cs else c :: mendFrom [] cs

def mend (cs : List Char) : List Char := mendFrom [] cs

/-- The value of a text. Only a text with half a surrogate pair needs mending. -/
def readText (text : List Char) : Option Json.Value :=
  match Json.parse text with
  | some v => some v
  | none => Json.parse (mend text)

example : mend ['\\', 'u', 'D', '8', '0', '0', '"'] = ['\\', 'u', 'F', 'F', 'F', 'D', '"'] := by
  decide

section

variable (frac : Fractions)

/-! ## Decoding -/

/-- `convertNumber`; none, if the number is out of range. The sign of a zero is not kept. -/
def convertNumber (n : Json.Number) : Option ℚ :=
  if n.value.den = 1 then
    let x := Binary64.round n.value.num
    if x.natAbs < 2 ^ 1024 then some x else none
  else frac.parseFloat n

/-- `valueInterface`. A number that is out of range is an error in the end, and its value is not
used. -/
def valueInterface (v : Json.Value) : GoValue :=
  v.fold
    { null := .null
      bool := .bool
      number := fun n => .float64 ((convertNumber frac n).getD 0)
      string := .string
      array := .array
      object := fun fields => .object (Json.lastWins fields) }

/-- Every number is in range. -/
def converts (v : Json.Value) : Bool :=
  v.fold
    { null := true
      bool := fun _ => true
      number := fun n => (convertNumber frac n).isSome
      string := fun _ => true
      array := fun bs => bs.all id
      object := fun fields => fields.all fun p => p.2 }

/-- `maxNestingDepth`. -/
def maxNestingDepth : ℕ := 10000

/-- `json.Unmarshal` into a map. -/
def unmarshal (data : Bytes) : Except String GoMap :=
  match readText (Utf8.runes data) with
  | none => .error "invalid character"
  | some v =>
    if v.depth > maxNestingDepth then .error "exceeded max depth"
    else
      match v with
      | .null => .ok none
      | .object fields =>
        if converts frac v then
          .ok (some (Json.lastWins (Json.mapFields (fun _ => valueInterface frac) fields)))
        else .error "json: cannot unmarshal number into Go value of type float64"
      | _ => .error "json: cannot unmarshal into Go value of type map[string]interface \x7b\x7d"

/-! ## Encoding -/

/-- `floatEncoder`: an exponent from `1e21` on. -/
def floatEncoder (x : ℚ) : Json.Number :=
  if x.den = 1 then
    if x.num.natAbs < 10 ^ 21 then .ofInt (Binary64.shortest x.num)
    else .exponential (Binary64.shortest x.num)
  else frac.formatFloat x

mutual

/-- `interfaceEncoder`, with the keys of a map in their order. -/
def interfaceEncoder : GoValue → Json.Value
  | .null => .null
  | .bool b => .bool b
  | .float64 x => .number (floatEncoder frac x)
  | .int n => .int n
  | .string s => .string s
  | .array vs => .array (arrayEncoder vs)
  | .object fields => .object (Json.sortKeys (mapEncoder fields))

def arrayEncoder : List GoValue → List Json.Value
  | [] => []
  | v :: vs => interfaceEncoder v :: arrayEncoder vs

def mapEncoder : List (String × GoValue) → List (String × Json.Value)
  | [] => []
  | (k, v) :: fields => (k, interfaceEncoder v) :: mapEncoder fields

end

/-- `json.Marshal` of a map. -/
def marshal (m : GoMap) : Except String Bytes :=
  .ok (Utf8.encode (Json.print Json.goEscaper
    (match m with
      | none => .null
      | some fields => interfaceEncoder frac (.object fields))))

/-- `encoding/json`. -/
def goJson : Codec := ⟨unmarshal frac, marshal frac⟩

end

section

variable {frac : Fractions}

theorem unmarshal_object {data : Bytes} {fields : List (String × Json.Value)}
    (hdata : Json.Denotes data (.object fields)) : unmarshal frac data =
      if (Json.Value.object fields).depth > maxNestingDepth then .error "exceeded max depth"
      else if converts frac (.object fields) then
        .ok (some (Json.lastWins (Json.mapFields (fun _ => valueInterface frac) fields)))
      else .error "json: cannot unmarshal number into Go value of type float64" := by
  obtain ⟨text, rfl, htext⟩ := hdata
  have hread : readText text = some (.object fields) := by rw [readText, htext]
  rw [unmarshal, Utf8.runes_encode, hread]

theorem valueInterface_array (vs : List Json.Value) :
    valueInterface frac (.array vs) = .array (vs.map (valueInterface frac)) :=
  Json.fold_array _ vs

theorem valueInterface_object (fields : List (String × Json.Value)) :
    valueInterface frac (.object fields) =
      .object (Json.lastWins (Json.mapFields (fun _ => valueInterface frac) fields)) :=
  Json.fold_object _ fields

theorem converts_array (vs : List Json.Value) :
    converts frac (.array vs) = vs.all (converts frac) := by
  rw [converts, Json.fold_array]
  exact List.all_map

theorem converts_object (fields : List (String × Json.Value)) :
    converts frac (.object fields) = fields.all fun p => converts frac p.2 := by
  rw [converts, Json.fold_object]
  exact List.all_map

theorem arrayEncoder_eq_map (vs : List GoValue) :
    arrayEncoder frac vs = vs.map (interfaceEncoder frac) := by
  induction vs with
  | nil => rw [arrayEncoder, List.map_nil]
  | cons v vs ih => rw [arrayEncoder, List.map_cons, ih]

theorem mapEncoder_eq_mapFields (fields : List (String × GoValue)) :
    mapEncoder frac fields = Json.mapFields (fun _ => interfaceEncoder frac) fields := by
  induction fields with
  | nil => rw [mapEncoder, Json.mapFields, List.map_nil]
  | cons f fields ih => rw [mapEncoder, Json.mapFields, List.map_cons, ih, Json.mapFields]

/-! ## Numbers -/

theorem convertNumber_int {n : Json.Number} {k : ℤ} (hk : n.value = k)
    (h : (convertNumber frac n).isSome = true) :
    convertNumber frac n = some (Binary64.round k : ℚ) := by
  unfold convertNumber at h ⊢
  rw [hk, Rat.den_intCast, Rat.num_intCast, if_pos rfl] at h ⊢
  dsimp only at h ⊢
  split_ifs at h ⊢
  · rfl
  · cases h

theorem value_floatEncoder (k : ℤ) : (floatEncoder frac k).value = Binary64.shortest k := by
  rw [floatEncoder, Rat.den_intCast, Rat.num_intCast, if_pos rfl]
  split_ifs
  · exact Json.value_ofInt _
  · exact Json.value_exponential _

end

end AppGate.LLMProxy
