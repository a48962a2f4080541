import AppGate.Auth.Issuer
import AppGate.Lib.GoJwt
import AppGate.Lib.GoStruct
import AppGate.Proxy.Codec

/-!
# Claims on the Go side

How `golang-jwt` reads the registered claims of `jwt.RegisteredClaims`: dates as JSON numbers that
become a `float64` and then whole seconds, an audience that is a string or a list. What `strconv`
and `math` do with numbers that are not integers is a parameter.

* `Instant.ofUnix`, `Instant.before`, `clock`: times; `before_iff`, `nanos_add`, `nanos_ofUnix`;
* `numericDate`, `claimStrings`, `Registered`, `readRegistered`: the registered claims;
* `readText`, `readAlg`: texts, and the `alg` of a header;
* **`readRegistered_fields`**: what is read of the claims that an issuer of the control plane signs.
-/

set_option autoImplicit false

namespace AppGate

open Json Fallible GoStruct

namespace ControlPlane

/-! ## Times -/

/-- `time.Unix(sec, 0)`, in 64 bits. -/
def Instant.ofUnix (sec : ℤ) : Instant where
  ext := Int.bmod (sec + unixToInternal) 18446744073709551616
  nsec := 0
  ext_fits := by
    have hle := @Int.le_bmod (sec + unixToInternal) 18446744073709551616 (by decide)
    have hlt := @Int.bmod_lt (sec + unixToInternal) 18446744073709551616 (by decide)
    omega
  nsec_fits := by decide

/-- `Time.Before`. -/
def Instant.before (t u : Instant) : Bool := t.ext < u.ext || (t.ext = u.ext && t.nsec < u.nsec)

/-- The clock that tokens are checked by. -/
def clock : GoJwt.Clock Instant := ⟨Instant.add, Instant.before⟩

theorem before_iff {t u : Instant} : t.before u = true ↔ t.nanos < u.nanos := by
  have ht := t.nsec_fits
  have hu := u.nsec_fits
  simp only [Instant.before, Instant.nanos, Bool.or_eq_true, Bool.and_eq_true, decide_eq_true_eq]
  omega

/-- Where nothing is set to the end of the range, a duration is added. -/
theorem nanos_add {t : Instant} {d : Int64}
    (h : -4611686018427387904 ≤ t.ext ∧ t.ext ≤ 4611686018427387904) :
    (t.add d).nanos = t.nanos + d.toInt := by
  have hd := d.le_toInt
  have hd' := d.toInt_lt
  obtain ⟨hn, hn'⟩ := t.nsec_fits
  have hs : saturate (t.ext + (t.nsec + d.toInt) / 1000000000) =
      t.ext + (t.nsec + d.toInt) / 1000000000 := by
    rw [saturate, if_neg (by omega), if_neg (by omega)]
  simp only [Instant.nanos, Instant.add, hs]
  omega

theorem ext_ofUnix {sec : ℤ} (h : sec.natAbs < 4611686018427387904) :
    (Instant.ofUnix sec).ext = sec + unixToInternal := by
  simp only [Instant.ofUnix, unixToInternal]
  rw [Int.bmod_eq_of_le] <;> omega

theorem nanos_ofUnix {sec : ℤ} (h : sec.natAbs < 4611686018427387904) :
    (Instant.ofUnix sec).nanos = sec * 1000000000 := by
  rw [Instant.nanos, ext_ofUnix h, show (Instant.ofUnix sec).nsec = 0 from rfl]
  omega

end ControlPlane

namespace GoClaims

open ControlPlane

/-! ## Dates -/

/-- `strconv` on numbers, and `int64(frac * 1e9)` for the part of a `float64` behind the point. -/
structure Floats extends LLMProxy.Fractions where
  nanos : ℚ → ℤ

section

variable (fl : Floats)

/-- `newNumericDateFromSeconds`, cut to whole seconds. A negative part behind the point borrows a
second. -/
def newNumericDateFromSeconds (f : ℚ) : Instant :=
  let round := LLMProxy.goInt f
  .ofUnix (if f.den ≠ 1 ∧ fl.nanos (f - f.num.tdiv f.den) < 0 then round - 1 else round)

/-- A date from the text of a number. -/
def dateOf (n : Number) : Except String (Option Instant) :=
  match LLMProxy.convertNumber fl.toFractions n with
  | some f => .ok (some (newNumericDateFromSeconds fl f))
  | none => .error "could not convert json number value to float"

/-- `NumericDate.UnmarshalJSON`: a number, also in quotes. -/
def numericDate : Item (Option Instant)
  | _, .null => .ok none
  | _, .number n => dateOf fl n
  | _, .string s =>
    if h : isNumber s.toList = true ∧ s.toList.all isNumChar = true then
      dateOf fl ⟨s.toList, h.1, h.2⟩
    else .error "could not parse NumericData: invalid number literal"
  | _, _ => .error "could not parse NumericData"

/-! ## Registered claims -/

/-- `ClaimStrings.UnmarshalJSON`. -/
def claimStrings : Item (List String)
  | _, .string s => .ok [s]
  | _, .array vs => vs.mapM Serde.string
  | old, .null => .ok old
  | _, _ => .error "invalid type for claim"

/-- `jwt.RegisteredClaims`. -/
structure Registered where
  issuer : String
  subject : String
  audience : List String
  expiresAt : Option Instant
  notBefore : Option Instant
  issuedAt : Option Instant
  id : String
  deriving DecidableEq, Repr

/-- The claims that the validator asks for. -/
def Registered.checked (c : Registered) : GoJwt.Registered Instant :=
  ⟨c.issuer, c.audience, c.expiresAt, c.notBefore⟩

def registeredNames : List String := ["iss", "sub", "aud", "exp", "nbf", "iat", "jti"]

/-- The registered claims among the fields of a struct with the given names. -/
def readRegistered (names : List String) (fields : List (String × Value)) :
    Except String Registered := do
  return ⟨← field names string "" "iss" fields, ← field names string "" "sub" fields,
    ← field names claimStrings [] "aud" fields, ← field names (numericDate fl) none "exp" fields,
    ← field names (numericDate fl) none "nbf" fields,
    ← field names (numericDate fl) none "iat" fields, ← field names string "" "jti" fields⟩

/-- The fields of the text for a struct. -/
def fieldsOf (data : List UInt8) : Except String (List (String × Value)) :=
  match LLMProxy.readText (Utf8.runes data) with
  | none => .error "invalid character"
  | some v =>
      if v.depth > LLMProxy.maxNestingDepth then .error "exceeded max depth" else structFields v

/-- The `alg` of a header, if it is a string. -/
def readAlg (data : List UInt8) : Except String (Option String) := do
  let header ← LLMProxy.unmarshal fl.toFractions data
  return match header.find "alg" with
    | some (.string alg) => some alg
    | _ => none

/-! ## What an issuer signs -/

variable {fl}

theorem fieldsOf_textOf {fields : List (String × Value)}
    (h : (Value.object fields).depth ≤ LLMProxy.maxNestingDepth) :
    fieldsOf (GoJwt.textOf (.object fields)) = .ok fields := by
  have hread : LLMProxy.readText (print goEscaper (.object fields)) = some (.object fields) := by
    rw [LLMProxy.readText, parse_print]
  rw [fieldsOf, GoJwt.textOf, Utf8.runes_encode, hread]
  exact if_neg (Nat.not_lt.mpr h)

theorem readAlg_json (h : Jwt.Header) :
    readAlg fl (GoJwt.textOf h.json) = .ok (some h.alg.name) := by
  obtain ⟨alg, kid⟩ := h
  cases kid <;>
    simp [readAlg, GoJwt.textOf, Jwt.Header.json,
      LLMProxy.unmarshal_object (denotes_print goEscaper _), Value.depth, Value.fold, foldFields,
      LLMProxy.maxNestingDepth, LLMProxy.converts, mapFields, LLMProxy.valueInterface, lastWins,
      LLMProxy.GoMap.find]

/-- The same of the readers that a parser takes. -/
theorem header_json {α : Type} (fl : Floats) (claims : List UInt8 → Except String α)
    (h : Jwt.Header) :
    (⟨readAlg fl, claims⟩ : GoJwt.Readers α).header (GoJwt.textOf h.json) =
      .ok (some h.alg.name) := readAlg_json h

theorem numericDate_int {sec : ℤ} (h : sec.natAbs < 9007199254740992) (old : Option Instant) :
    numericDate fl old (.int sec) = .ok (some (.ofUnix sec)) := by
  have hfloat : LLMProxy.convertNumber fl.toFractions (.ofInt sec) = some (sec : ℚ) := by
    unfold LLMProxy.convertNumber
    rw [value_ofInt, Rat.den_intCast, Rat.num_intCast, if_pos rfl, Binary64.round_of_lt h]
    dsimp only
    rw [if_pos (Binary64.lt_two_pow h (by decide))]
  have hint : LLMProxy.goInt (sec : ℚ) = sec := by
    simp only [LLMProxy.goInt, Rat.den_intCast, Rat.num_intCast, Nat.cast_one, Int.tdiv_one]
    rw [if_pos (by omega)]
  simp only [numericDate, Value.int, dateOf, hfloat, newNumericDateFromSeconds, hint,
    Rat.den_intCast, ne_eq, not_true_eq_false, false_and, if_false]

theorem lookup_omitString (n name s : String) :
    (omitString name s).lookup n = if n = name ∧ s ≠ "" then some (.string s) else none := by
  unfold omitString
  by_cases hs : s = ""
  · simp [hs]
  · by_cases hn : n = name <;> simp [hs, hn]

theorem lookup_omitStrings (n name : String) (ss : List String) :
    (omitStrings name ss).lookup n = if n = name ∧ ss ≠ [] then some (.strings ss) else none := by
  unfold omitStrings
  by_cases hs : ss = []
  · simp [hs]
  · by_cases hn : n = name <;> simp [hs, hn]

theorem keys_omitString (name s : String) : ((omitString name s).map Prod.fst).Sublist [name] := by
  unfold omitString
  split_ifs <;> simp

theorem keys_omitStrings (name : String) (ss : List String) :
    ((omitStrings name ss).map Prod.fst).Sublist [name] := by
  unfold omitStrings
  split_ifs <;> simp

/-- The keys of signed claims. -/
theorem keys_fields (c : RegisteredClaims) : (c.fields.map Prod.fst).Sublist registeredNames := by
  simp only [RegisteredClaims.fields, List.map_append, List.append_assoc]
  exact (keys_omitString _ _).append ((keys_omitString _ _).append ((keys_omitStrings _ _).append
    ((List.Sublist.refl ["exp", "nbf", "iat"]).append (keys_omitString _ _))))

theorem depth_fields_le (c : RegisteredClaims) {extra : List (String × Value)}
    (h : ∀ f ∈ extra, f.2.depth ≤ 1) : (Value.object (c.fields ++ extra)).depth ≤ 2 := by
  have hstring (s : String) : (Value.string s).depth ≤ 1 := Nat.zero_le 1
  have hint (n : ℤ) : (Value.int n).depth ≤ 1 := Nat.zero_le 1
  have hstrings (ss : List String) : (Value.strings ss).depth ≤ 1 := by
    refine depth_array_le fun v hv => ?_
    obtain ⟨s, -, rfl⟩ := List.mem_map.mp hv
    exact Nat.le_refl 0
  refine depth_object_le fun f hf => ?_
  rcases List.mem_append.mp hf with hf | hf
  · simp only [RegisteredClaims.fields, omitString, omitStrings, List.mem_append] at hf
    split_ifs at hf <;> simp at hf <;> grind
  · exact h f hf

/-- A date within 53 bits of seconds. -/
def Exact (t : Instant) : Prop := t.unix.natAbs < 9007199254740992

section Fields

variable {names : List String} {extra : List (String × Value)} (c : RegisteredClaims)
  (hnames : registeredNames ⊆ names) (hplain : ∀ f ∈ extra, Plain names f.1)
  (hnd : (registeredNames ++ extra.map Prod.fst).Nodup)

include hnames hplain hnd

/-- Claims are written with each name once. -/
theorem field_fields {α : Type} (item : Item α) (zero : α) {name : String} (hname : name ∈ names) :
    field names item zero name (c.fields ++ extra) =
      store item zero ((c.fields ++ extra).lookup name) := by
  have hkeys : ((c.fields ++ extra).map Prod.fst).Sublist
      (registeredNames ++ extra.map Prod.fst) := by
    rw [List.map_append]
    exact (keys_fields c).append (List.Sublist.refl _)
  refine field_of_nodup (fun f hf => ?_) (hkeys.nodup hnd) item zero hname
  rcases List.mem_append.mp hf with hf | hf
  · exact .inl (hnames ((keys_fields c).subset (List.mem_map_of_mem hf)))
  · exact hplain f hf

/-- A field behind the registered claims. -/
theorem field_extra {α : Type} (item : Item α) (zero : α) {name : String} (hname : name ∈ names)
    (h : name ∉ registeredNames) :
    field names item zero name (c.fields ++ extra) = store item zero (extra.lookup name) := by
  have hnone : c.fields.lookup name = none := by
    rw [List.lookup_eq_none_iff]
    intro f hf
    have hne : name ≠ f.1 := fun heq =>
      h (heq ▸ (keys_fields c).subset (List.mem_map_of_mem hf))
    simpa using hne
  rw [field_fields c hnames hplain hnd item zero hname, List.lookup_append, hnone, Option.none_or]

/-- **What is read of signed claims.** Strings and lists come back as they were, dates as the whole
seconds that were written. -/
theorem readRegistered_fields (hexp : Exact c.expiresAt) (hnbf : Exact c.notBefore)
    (hiat : Exact c.issuedAt) :
    readRegistered fl names (c.fields ++ extra) =
      .ok ⟨c.issuer, c.subject, c.audience, some (.ofUnix c.expiresAt.unix),
        some (.ofUnix c.notBefore.unix), some (.ofUnix c.issuedAt.unix), c.id⟩ := by
  -- what follows the registered claims has other names
  have hextra {n : String} (hn : n ∈ registeredNames) : extra.lookup n = none := by
    rw [List.lookup_eq_none_iff]
    intro f hf
    have hne := (List.nodup_append.mp hnd).2.2 n hn f.1 (List.mem_map_of_mem hf)
    simpa using hne
  have hiss := hextra (n := "iss") (by decide)
  have hsub := hextra (n := "sub") (by decide)
  have haud := hextra (n := "aud") (by decide)
  have hjti := hextra (n := "jti") (by decide)
  have hstring (s : String) :
      store string "" (if s = "" then none else some (.string s)) = .ok s := by
    by_cases hs : s = "" <;> simp [hs, string]
  have hstrings (ss : List String) :
      store claimStrings [] (if ss = [] then none else some (.strings ss)) = .ok ss := by
    by_cases hs : ss = []
    · simp [hs]
    · rw [if_neg hs]
      exact Serde.vec_strings ss
  have hfield {α : Type} (item : Item α) (zero : α) {name : String}
      (hname : name ∈ registeredNames) := field_fields c hnames hplain hnd item zero (hnames hname)
  unfold readRegistered
  rw [hfield _ _ (show "iss" ∈ registeredNames by decide),
    hfield _ _ (show "sub" ∈ registeredNames by decide),
    hfield _ _ (show "aud" ∈ registeredNames by decide),
    hfield _ _ (show "exp" ∈ registeredNames by decide),
    hfield _ _ (show "nbf" ∈ registeredNames by decide),
    hfield _ _ (show "iat" ∈ registeredNames by decide),
    hfield _ _ (show "jti" ∈ registeredNames by decide)]
  simp [RegisteredClaims.fields, lookup_omitString, lookup_omitStrings, hiss, hsub, haud, hjti,
    List.lookup_append, hstring, hstrings, numericDate_int hexp, numericDate_int hnbf,
    numericDate_int hiat]

end Fields

end

end GoClaims

end AppGate
