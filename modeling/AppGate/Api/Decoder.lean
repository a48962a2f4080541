import AppGate.Proxy.Codec

/-!
# `json.NewDecoder`

`Decode` on the body of a request: the first JSON value of the text, whatever follows it. Behind a
value without a closing bracket white space has to follow, or nothing.

* `firstValue`, `decode`;
* **`decode_print`**: a printed array or object is decoded, with any text behind it.
-/

set_option autoImplicit false

namespace AppGate.Api

open Json

/-- Objects and arrays end with a bracket of their own. -/
def closed : Value → Bool
  | .array _ | .object _ => true
  | _ => false

/-- The first value of a text. -/
def firstValue (text : List Char) : Option Value :=
  match value (text.length + 1) text with
  | none => none
  | some (v, rest) => if closed v || rest.head?.all isWs then some v else none

/-- `Decoder.Decode`, before the value is stored. -/
def decode (data : List UInt8) : Except String Value :=
  let text := Utf8.runes data
  match (firstValue text).orElse fun _ => firstValue (LLMProxy.mend text) with
  | none => .error "invalid character"
  | some v => if v.depth > LLMProxy.maxNestingDepth then .error "exceeded max depth" else .ok v

/-- **The first value.** -/
theorem decode_print (e : Escaper) {v : Value} (h : closed v = true)
    (hdepth : v.depth ≤ LLMProxy.maxNestingDepth) {rest : List Char} (hrest : Stops rest) :
    decode (Utf8.encode (print e v ++ rest)) = .ok v := by
  have hlen : (print e v).length ≤ (print e v ++ rest).length + 1 := by
    rw [List.length_append]
    omega
  have hfirst : firstValue (print e v ++ rest) = some v := by
    rw [firstValue, value_print v hlen hrest]
    simp [h]
  simp only [decode, Utf8.runes_encode, hfirst, Option.orElse_some]
  exact if_neg (Nat.not_lt.mpr hdepth)

end AppGate.Api
