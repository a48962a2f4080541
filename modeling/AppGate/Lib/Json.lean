import Mathlib.Data.List.Basic
import Mathlib.Data.List.TakeWhile
import Mathlib.Data.Int.Notation
import Mathlib.Tactic.Common

/-!
# JSON texts

Values, texts and a strict parser. A number keeps its text. Which characters of a string are
escaped is left to the encoder: an `Escaper` is any choice that the parser undoes.

* `Value`, `Number`, `Number.ofNat`, `Number.ofInt`, `Number.toNat?`;
* `Value.int`, `Value.strings`, `omitString`, `omitStrings`, `omitInt`: what a Go struct holds;
* `char`, `Escaper`, `goEscaper`: one character of a string;
* `valueBy`, `parseBy`: the parser, with fuel for the nesting and with a reader for its strings;
* `chars`, `value`, `parse`: the parser for strings of Unicode characters;
* `print`: the compact text of a value;
* **`parse_print`**: a printed value is read back.
-/

set_option autoImplicit false

namespace Json

/-! ## Numbers -/

/-- Digits without a leading zero. -/
def isNatural (cs : List Char) : Bool :=
  cs ≠ [] && cs.all Char.isDigit && (cs = ['0'] || cs.head? ≠ some '0')

/-- An exponent part, or nothing. -/
def isExponent : List Char → Bool
  | [] => true
  | e :: '+' :: cs => (e = 'e' || e = 'E') && cs ≠ [] && cs.all Char.isDigit
  | e :: '-' :: cs => (e = 'e' || e = 'E') && cs ≠ [] && cs.all Char.isDigit
  | e :: cs => (e = 'e' || e = 'E') && cs ≠ [] && cs.all Char.isDigit

/-- A fraction and an exponent, or nothing. -/
def isFraction : List Char → Bool
  | '.' :: cs => cs.takeWhile Char.isDigit ≠ [] && isExponent (cs.dropWhile Char.isDigit)
  | cs => isExponent cs

/-- A number without its sign. -/
def isUnsigned (cs : List Char) : Bool :=
  isNatural (cs.takeWhile Char.isDigit) && isFraction (cs.dropWhile Char.isDigit)

/-- The texts of numbers. -/
def isNumber : List Char → Bool
  | '-' :: cs => isUnsigned cs
  | cs => isUnsigned cs

/-- The characters of numbers. -/
def isNumChar (c : Char) : Bool :=
  c.isDigit || c = '-' || c = '+' || c = '.' || c = 'e' || c = 'E'

/-- A number is its text. -/
structure Number where
  text : List Char
  valid : isNumber text = true
  chars : text.all isNumChar = true
  deriving DecidableEq, Repr

theorem toDigits_all (n : ℕ) : ∀ c ∈ Nat.toDigits 10 n, c.isDigit = true :=
  fun _ hc => Nat.isDigit_of_mem_toDigits (by decide) (by decide) hc

theorem head?_toDigits {n : ℕ} (hn : 0 < n) : (Nat.toDigits 10 n).head? ≠ some '0' := by
  induction n using Nat.strongRecOn with
  | ind n ih =>
      by_cases h : n < 10
      · rw [Nat.toDigits_of_lt_base h]
        simp
        omega
      · rw [Nat.toDigits_of_base_le (by decide) (Nat.not_lt.mp h)]
        have hd : 0 < n / 10 := Nat.div_pos (Nat.not_lt.mp h) (by decide)
        rw [List.head?_append_of_ne_nil _ Nat.toDigits_ne_nil]
        exact ih (n / 10) (Nat.div_lt_self hn (by decide)) hd

theorem isNatural_toDigits (n : ℕ) : isNatural (Nat.toDigits 10 n) = true := by
  have hd : (Nat.toDigits 10 n).all Char.isDigit = true := List.all_eq_true.mpr (toDigits_all n)
  rcases Nat.eq_zero_or_pos n with rfl | hn
  · decide
  · simp [isNatural, hd, head?_toDigits hn]

theorem takeWhile_digits {cs : List Char} (h : ∀ c ∈ cs, c.isDigit = true) :
    cs.takeWhile Char.isDigit = cs ∧ cs.dropWhile Char.isDigit = [] :=
  ⟨List.takeWhile_eq_self_iff.mpr h, List.dropWhile_eq_nil_iff.mpr h⟩

theorem isUnsigned_toDigits (n : ℕ) : isUnsigned (Nat.toDigits 10 n) = true := by
  obtain ⟨ht, hd⟩ := takeWhile_digits (toDigits_all n)
  simp [isUnsigned, ht, hd, isNatural_toDigits, isFraction, isExponent]

theorem isNumber_toDigits (n : ℕ) : isNumber (Nat.toDigits 10 n) = true := by
  unfold isNumber
  split
  next cs h =>
    have := toDigits_all n '-' (by rw [h]; exact List.mem_cons_self)
    simp at this
  next => exact isUnsigned_toDigits n

theorem isNumChar_toDigits (n : ℕ) : (Nat.toDigits 10 n).all isNumChar = true :=
  List.all_eq_true.mpr fun c hc => by simp [isNumChar, toDigits_all n c hc]

/-- A natural number. -/
def Number.ofNat (n : ℕ) : Number := ⟨Nat.toDigits 10 n, isNumber_toDigits n, isNumChar_toDigits n⟩

/-- An integer. -/
def Number.ofInt : ℤ → Number
  | .ofNat n => .ofNat n
  | .negSucc n =>
    ⟨'-' :: Nat.toDigits 10 (n + 1), isUnsigned_toDigits (n + 1), by
      rw [List.all_cons, isNumChar_toDigits]
      decide⟩

/-- The value of a number written with digits only. -/
def Number.toNat? (n : Number) : Option ℕ :=
  if n.text.all Char.isDigit then some (Nat.ofDigitChars 10 n.text 0) else none

@[simp] theorem Number.toNat?_ofNat (n : ℕ) : (Number.ofNat n).toNat? = some n := by
  have hd : (Nat.toDigits 10 n).all Char.isDigit = true := List.all_eq_true.mpr (toDigits_all n)
  simp [toNat?, ofNat, hd]

/-! ## Strings -/

/-- The value of a hexadecimal digit. -/
def hexVal (c : Char) : Option ℕ :=
  if c.isDigit then some (c.toNat - 48)
  else if 'a' ≤ c ∧ c ≤ 'f' then some (c.toNat - 87)
  else if 'A' ≤ c ∧ c ≤ 'F' then some (c.toNat - 55)
  else none

/-- Four hexadecimal digits. -/
def code : List Char → Option (ℕ × List Char)
  | a :: b :: c :: d :: cs => do
    let a ← hexVal a
    let b ← hexVal b
    let c ← hexVal c
    let d ← hexVal d
    return (4096 * a + 256 * b + 16 * c + d, cs)
  | _ => none

/-- What follows `\u`: a code unit, or two of a surrogate pair. -/
def unicode (cs : List Char) : Option (Char × List Char) :=
  match code cs with
  | none => none
  | some (n, cs) =>
    if 0xD800 ≤ n ∧ n < 0xDC00 then
      match cs with
      | '\\' :: 'u' :: cs =>
        match code cs with
        | none => none
        | some (m, cs) =>
          if 0xDC00 ≤ m ∧ m < 0xE000 then
            some (Char.ofNat (0x10000 + (n - 0xD800) * 0x400 + (m - 0xDC00)), cs)
          else none
      | _ => none
    else if 0xDC00 ≤ n ∧ n < 0xE000 then none
    else some (Char.ofNat n, cs)

/-- The escapes of one letter. -/
def simpleEscape (e : Char) : Option Char :=
  if e = '"' then some '"'
  else if e = '\\' then some '\\'
  else if e = '/' then some '/'
  else if e = 'b' then some '\x08'
  else if e = 'f' then some '\x0c'
  else if e = 'n' then some '\n'
  else if e = 'r' then some '\r'
  else if e = 't' then some '\t'
  else none

/-- One character of a string, escaped or not. -/
def char : List Char → Option (Char × List Char)
  | [] => none
  | c :: cs =>
    if c = '\\' then
      match cs with
      | [] => none
      | e :: cs => if e = 'u' then unicode cs else (simpleEscape e).map fun c => (c, cs)
    else if c.toNat < 0x20 ∨ c = '"' then none
    else some (c, cs)

/-- A way to write the characters of a string. -/
structure Escaper where
  esc : Char → List Char
  char_esc : ∀ c cs, char (esc c ++ cs) = some (c, cs)

/-- Four digits of a code below `0x10000`. -/
def hex4 (n : ℕ) : List Char :=
  [(n / 4096 % 16).digitChar, (n / 256 % 16).digitChar, (n / 16 % 16).digitChar,
    (n % 16).digitChar]

theorem hexVal_digitChar {d : ℕ} (h : d < 16) : hexVal d.digitChar = some d := by
  have : ∀ d : Fin 16, hexVal d.val.digitChar = some d.val := by decide
  exact this ⟨d, h⟩

theorem code_hex4 {n : ℕ} (h : n < 0x10000) (cs : List Char) :
    code (hex4 n ++ cs) = some (n, cs) := by
  have hn : 4096 * (n / 4096 % 16) + 256 * (n / 256 % 16) + 16 * (n / 16 % 16) + n % 16 = n := by
    omega
  have hd (m : ℕ) : hexVal (m % 16).digitChar = some (m % 16) :=
    hexVal_digitChar (Nat.mod_lt m (by decide))
  simp [hex4, code, hd, hn]

/-- `encoding/json` with its escapes for HTML and for the two line separators. -/
def goEscape (c : Char) : List Char :=
  if c = '"' then ['\\', '"']
  else if c = '\\' then ['\\', '\\']
  else if c = '\x08' then ['\\', 'b']
  else if c = '\x0c' then ['\\', 'f']
  else if c = '\n' then ['\\', 'n']
  else if c = '\r' then ['\\', 'r']
  else if c = '\t' then ['\\', 't']
  else if c.toNat < 0x20 ∨ c = '<' ∨ c = '>' ∨ c = '&' ∨ c.toNat = 0x2028 ∨ c.toNat = 0x2029 then
    '\\' :: 'u' :: hex4 c.toNat
  else [c]

theorem char_unicode {c : Char} (h : c.toNat < 0xD800) (cs : List Char) :
    char ('\\' :: 'u' :: hex4 c.toNat ++ cs) = some (c, cs) := by
  have hc := code_hex4 (show c.toNat < 0x10000 by omega) cs
  have h1 : ¬ (0xD800 ≤ c.toNat ∧ c.toNat < 0xDC00) := by omega
  have h2 : ¬ (0xDC00 ≤ c.toNat ∧ c.toNat < 0xE000) := by omega
  simp only [List.cons_append, char, if_true, unicode, hc, if_neg h1, if_neg h2, Char.ofNat_toNat]

theorem char_goEscape (c : Char) (cs : List Char) : char (goEscape c ++ cs) = some (c, cs) := by
  unfold goEscape
  split_ifs with h1 h2 h3 h4 h5 h6 h7 h8
  · subst h1; rfl
  · subst h2; rfl
  · subst h3; rfl
  · subst h4; rfl
  · subst h5; rfl
  · subst h6; rfl
  · subst h7; rfl
  · refine char_unicode ?_ cs
    rcases h8 with h | rfl | rfl | rfl | h | h
    · omega
    · decide
    · decide
    · decide
    · omega
    · omega
  · have hn : ¬ (c.toNat < 0x20 ∨ c = '"') := by
      rintro (h | h)
      · exact h8 (.inl h)
      · exact h1 h
    simp only [List.cons_append, List.nil_append, char, if_neg h2, if_neg hn]

/-- The strings of `encoding/json`. -/
def goEscaper : Escaper := ⟨goEscape, char_goEscape⟩

/-- `serde_json`. -/
def serdeEscape (c : Char) : List Char :=
  if c = '"' then ['\\', '"']
  else if c = '\\' then ['\\', '\\']
  else if c = '\x08' then ['\\', 'b']
  else if c = '\x0c' then ['\\', 'f']
  else if c = '\n' then ['\\', 'n']
  else if c = '\r' then ['\\', 'r']
  else if c = '\t' then ['\\', 't']
  else if c.toNat < 0x20 then '\\' :: 'u' :: hex4 c.toNat
  else [c]

theorem char_serdeEscape (c : Char) (cs : List Char) :
    char (serdeEscape c ++ cs) = some (c, cs) := by
  unfold serdeEscape
  split_ifs with h1 h2 h3 h4 h5 h6 h7 h8
  · subst h1; rfl
  · subst h2; rfl
  · subst h3; rfl
  · subst h4; rfl
  · subst h5; rfl
  · subst h6; rfl
  · subst h7; rfl
  · exact char_unicode (by omega) cs
  · have hn : ¬ (c.toNat < 0x20 ∨ c = '"') := by
      rintro (h | h)
      · exact h8 h
      · exact h1 h
    simp only [List.cons_append, List.nil_append, char, if_neg h2, if_neg hn]

/-- The strings of `serde_json`. -/
def serdeEscaper : Escaper := ⟨serdeEscape, char_serdeEscape⟩

/-! ## Values and texts -/

/-- A JSON value. The fields of an object keep their order, and a name may occur twice. -/
inductive Value where
  | null
  | bool (b : Bool)
  | number (n : Number)
  | string (s : String)
  | array (vs : List Value)
  | object (fields : List (String × Value))

/-- An integer. -/
def Value.int (n : ℤ) : Value := .number (.ofInt n)

/-- A list of strings. -/
def Value.strings (ss : List String) : Value := .array (ss.map .string)

/-- A field with `omitempty` that is a string. -/
def omitString (name s : String) : List (String × Value) :=
  if s = "" then [] else [(name, .string s)]

/-- A field with `omitempty` that is a list. -/
def omitStrings (name : String) (ss : List String) : List (String × Value) :=
  if ss = [] then [] else [(name, .strings ss)]

/-- A field with `omitempty` that is an integer. -/
def omitInt (name : String) (n : ℤ) : List (String × Value) :=
  if n = 0 then [] else [(name, .int n)]

/-- Induction over the parts of a value. -/
@[elab_as_elim] theorem Value.induction {P : Value → Prop} (null : P .null)
    (bool : ∀ b, P (.bool b)) (number : ∀ n, P (.number n)) (string : ∀ s, P (.string s))
    (array : ∀ vs, (∀ v ∈ vs, P v) → P (.array vs))
    (object : ∀ fields, (∀ f ∈ fields, P f.2) → P (.object fields)) (v : Value) : P v :=
  @Value.rec P (fun vs => ∀ v ∈ vs, P v) (fun fields => ∀ f ∈ fields, P f.2) (fun f => P f.2)
    null bool number string array object
    (fun _ h => absurd h List.not_mem_nil)
    (fun _ _ hv hvs w hw => (List.mem_cons.mp hw).elim (fun h => h ▸ hv) (hvs w))
    (fun _ h => absurd h List.not_mem_nil)
    (fun _ _ hf hfs g hg => (List.mem_cons.mp hg).elim (fun h => h ▸ hf) (hfs g))
    (fun _ _ hv => hv) v

variable (e : Escaper)

/-- A string in quotes. -/
def quote (s : String) : List Char := '"' :: (s.toList.flatMap e.esc ++ ['"'])

/-- The items after the first one, each behind a comma, and the closing bracket. -/
def moreItems (close : Char) : List (List Char) → List Char
  | [] => [close]
  | t :: ts => ',' :: (t ++ moreItems close ts)

/-- Items between commas, and the closing bracket. -/
def items (close : Char) : List (List Char) → List Char
  | [] => [close]
  | t :: ts => t ++ moreItems close ts

mutual

/-- The compact text of a value. -/
def print : Value → List Char
  | .null => ['n', 'u', 'l', 'l']
  | .bool true => ['t', 'r', 'u', 'e']
  | .bool false => ['f', 'a', 'l', 's', 'e']
  | .number n => n.text
  | .string s => quote e s
  | .array vs => '[' :: items ']' (printAll vs)
  | .object fields => '\x7b' :: items '\x7d' (printFields fields)

def printAll : List Value → List (List Char)
  | [] => []
  | v :: vs => print v :: printAll vs

def printFields : List (String × Value) → List (List Char)
  | [] => []
  | (k, v) :: fs => (quote e k ++ ':' :: print v) :: printFields fs

end

/-- The text of a field. -/
def printField (f : String × Value) : List Char := quote e f.1 ++ ':' :: print e f.2

theorem printAll_eq_map (vs : List Value) : printAll e vs = vs.map (print e) := by
  induction vs with
  | nil => simp [printAll]
  | cons v vs ih => simp [printAll, ih]

theorem printFields_eq_map (fs : List (String × Value)) :
    printFields e fs = fs.map (printField e) := by
  induction fs with
  | nil => simp [printFields]
  | cons f fs ih => simp [printFields, printField, ih]

/-! ## The parser -/

def isWs (c : Char) : Bool := c = ' ' || c = '\n' || c = '\r' || c = '\t'

def skipWs (cs : List Char) : List Char := cs.dropWhile isWs

/-- The characters up to the closing quote. -/
def chars : ℕ → List Char → Option (List Char × List Char)
  | 0, _ => none
  | _ + 1, [] => none
  | n + 1, c :: cs =>
    if c = '"' then some ([], cs)
    else (char (c :: cs)).bind fun p => (chars n p.2).map fun q => (p.1 :: q.1, q.2)

section Items

variable {α : Type} (close : Char) (item : List Char → Option (α × List Char))

/-- The items after the first one, and the closing bracket. -/
def readMore : ℕ → List Char → Option (List α × List Char)
  | 0, _ => none
  | n + 1, cs =>
    match skipWs cs with
    | [] => none
    | c :: cs =>
      if c = ',' then
        (item cs).bind fun p => (readMore n p.2).map fun q => (p.1 :: q.1, q.2)
      else if c = close then some ([], cs)
      else none

/-- Items between commas, and the closing bracket. -/
def readItems (n : ℕ) (cs : List Char) : Option (List α × List Char) :=
  match skipWs cs with
  | [] => none
  | c :: cs =>
    if c = close then some ([], cs)
    else (item (c :: cs)).bind fun p => (readMore close item n p.2).map fun q => (p.1 :: q.1, q.2)

end Items

theorem takeWhile_all {p : Char → Bool} (cs : List Char) : (cs.takeWhile p).all p = true :=
  List.all_eq_true.mpr fun _ h => List.mem_takeWhile_imp h

/-- A number: as many characters as can belong to one. -/
def readNumber (cs : List Char) : Option (Value × List Char) :=
  if h : isNumber (cs.takeWhile isNumChar) = true then
    some (.number ⟨cs.takeWhile isNumChar, h, takeWhile_all cs⟩, cs.dropWhile isNumChar)
  else none

/-- A literal name after its first letter. -/
def readName (name : List Char) (v : Value) (cs : List Char) : Option (Value × List Char) :=
  if name.isPrefixOf cs then some (v, cs.drop name.length) else none

section

variable (str : ℕ → List Char → Option (List Char × List Char))

/-- A field of an object: a name in quotes, a colon and a value. -/
def readFieldBy (item : List Char → Option (Value × List Char)) (n : ℕ) (cs : List Char) :
    Option ((String × Value) × List Char) :=
  match skipWs cs with
  | '"' :: cs =>
    (str n cs).bind fun k =>
      match skipWs k.2 with
      | ':' :: cs => (item cs).map fun v => ((String.ofList k.1, v.1), v.2)
      | _ => none
  | _ => none

/-- A value at the front of a text; the fuel bounds the nesting and the lengths. -/
def valueBy : ℕ → List Char → Option (Value × List Char)
  | 0, _ => none
  | n + 1, cs =>
    match skipWs cs with
    | [] => none
    | c :: cs =>
      if c = '"' then (str n cs).map fun p => (.string (String.ofList p.1), p.2)
      else if c = '[' then (readItems ']' (valueBy n) n cs).map fun p => (.array p.1, p.2)
      else if c = '\x7b' then
        (readItems '\x7d' (readFieldBy str (valueBy n) n) n cs).map fun p => (.object p.1, p.2)
      else if c = 'n' then readName ['u', 'l', 'l'] .null cs
      else if c = 't' then readName ['r', 'u', 'e'] (.bool true) cs
      else if c = 'f' then readName ['a', 'l', 's', 'e'] (.bool false) cs
      else readNumber (c :: cs)

/-- A text that is one value. -/
def parseBy (text : List Char) : Option Value :=
  match valueBy str (text.length + 1) text with
  | some (v, rest) => if skipWs rest = [] then some v else none
  | none => none

end

abbrev readField := readFieldBy chars

abbrev value := valueBy chars

/-- A text that is one value, with strings of Unicode characters. -/
def parse (text : List Char) : Option Value := parseBy chars text

/-! ## Reading back a printed value -/

/-- A text that does not continue a number. -/
def Stops (rest : List Char) : Prop := ∀ c ∈ rest.head?, isNumChar c = false

theorem stops_cons {c : Char} {cs : List Char} (h : isNumChar c = false) : Stops (c :: cs) := by
  intro d hd
  cases hd
  exact h

variable {e}

theorem esc_eq_cons (c : Char) : ∃ x xs, e.esc c = x :: xs ∧ x ≠ '"' := by
  have h := e.char_esc c []
  rw [List.append_nil] at h
  cases hx : e.esc c with
  | nil => rw [hx] at h; cases h
  | cons x xs =>
      refine ⟨x, xs, rfl, ?_⟩
      rintro rfl
      rw [hx] at h
      cases h

theorem chars_flatMap_esc (s rest : List Char) {n : ℕ} (hn : (s.flatMap e.esc).length < n) :
    chars n (s.flatMap e.esc ++ '"' :: rest) = some (s, rest) := by
  induction s generalizing n with
  | nil =>
      cases n with
      | zero => exact absurd hn (Nat.not_lt_zero _)
      | succ n => simp [chars]
  | cons c s ih =>
      cases n with
      | zero => exact absurd hn (Nat.not_lt_zero _)
      | succ n =>
          have hc := e.char_esc c (s.flatMap e.esc ++ '"' :: rest)
          obtain ⟨x, xs, hx, hne⟩ := esc_eq_cons (e := e) c
          rw [List.flatMap_cons, List.length_append, hx, List.length_cons] at hn
          rw [List.flatMap_cons, List.append_assoc]
          rw [hx, List.cons_append] at hc ⊢
          have hs := ih (n := n) (by omega)
          simp only [chars, if_neg hne, hc, Option.bind_some, hs, Option.map_some]

theorem skipWs_cons {c : Char} (h : isWs c = false) (cs : List Char) :
    skipWs (c :: cs) = c :: cs := by
  simp [skipWs, h]

/-- The first character of a printed value. -/
structure Starts (c : Char) : Prop where
  notWs : isWs c = false
  notBracket : c ≠ ']'
  notBrace : c ≠ '\x7d'

theorem starts_of_isNumChar {c : Char} (h : isNumChar c = true) : Starts c := by
  constructor
  · by_contra hw
    simp only [isWs, Bool.not_eq_false, Bool.or_eq_true, decide_eq_true_eq] at hw
    rcases hw with ((rfl | rfl) | rfl) | rfl <;> exact absurd h (by decide)
  · rintro rfl
    exact absurd h (by decide)
  · rintro rfl
    exact absurd h (by decide)

theorem Number.text_eq_cons (n : Number) : ∃ c cs, n.text = c :: cs ∧ isNumChar c = true := by
  have hc := n.chars
  cases ht : n.text with
  | nil =>
      have := n.valid
      rw [ht] at this
      exact absurd this (by decide)
  | cons c cs =>
      rw [ht, List.all_cons, Bool.and_eq_true] at hc
      exact ⟨c, cs, rfl, hc.1⟩

theorem print_eq_cons (v : Value) : ∃ c cs, print e v = c :: cs ∧ Starts c := by
  cases v with
  | null => exact ⟨'n', _, rfl, by decide, by decide, by decide⟩
  | bool b =>
      cases b
      · exact ⟨'f', _, rfl, by decide, by decide, by decide⟩
      · exact ⟨'t', _, rfl, by decide, by decide, by decide⟩
  | number n =>
      obtain ⟨c, cs, hn, hc⟩ := n.text_eq_cons
      exact ⟨c, cs, hn, starts_of_isNumChar hc⟩
  | string s => exact ⟨'"', _, rfl, by decide, by decide, by decide⟩
  | array vs => exact ⟨'[', _, rfl, by decide, by decide, by decide⟩
  | object fs => exact ⟨'\x7b', _, rfl, by decide, by decide, by decide⟩

theorem readNumber_text (n : Number) {rest : List Char} (hr : Stops rest) :
    readNumber (n.text ++ rest) = some (.number n, rest) := by
  have hall : ∀ c ∈ n.text, isNumChar c = true := List.all_eq_true.mp n.chars
  have ht : rest.takeWhile isNumChar = [] ∧ rest.dropWhile isNumChar = rest := by
    cases rest with
    | nil => exact ⟨rfl, rfl⟩
    | cons c cs => simp [hr c rfl]
  have htake : (n.text ++ rest).takeWhile isNumChar = n.text := by
    rw [List.takeWhile_append_of_pos hall, ht.1, List.append_nil]
  have hdrop : (n.text ++ rest).dropWhile isNumChar = rest := by
    rw [List.dropWhile_append_of_pos hall, ht.2]
  simp only [readNumber, htake, hdrop, n.valid, dif_pos]

section Items

variable {α : Type} {close : Char} {item : List Char → Option (α × List Char)}
  {pr : α → List Char}

theorem length_lt_moreItems (close : Char) (ts : List (List Char)) :
    ts.length < (moreItems close ts).length ∧
      ∀ t ∈ ts, t.length < (moreItems close ts).length := by
  induction ts with
  | nil => simp [moreItems]
  | cons t ts ih =>
      simp only [moreItems, List.length_cons, List.length_append, List.mem_cons]
      refine ⟨by omega, ?_⟩
      rintro u (rfl | hu)
      · omega
      · have := ih.2 u hu
        omega

theorem length_lt_items (close : Char) (ts : List (List Char)) :
    (∀ t ∈ ts, t.length < (items close ts).length) ∧ ts.tail.length < (items close ts).length := by
  cases ts with
  | nil => simp [items]
  | cons t ts =>
      have h := length_lt_moreItems close ts
      simp only [items, List.length_append, List.mem_cons, List.tail_cons]
      refine ⟨?_, by omega⟩
      rintro u (rfl | hu)
      · omega
      · have := h.2 u hu
        omega

theorem stops_moreItems (hnum : isNumChar close = false) (ts : List (List Char))
    (rest : List Char) : Stops (moreItems close ts ++ rest) := by
  cases ts with
  | nil => exact stops_cons hnum
  | cons t ts => exact stops_cons (by decide)

theorem readMore_moreItems (hws : isWs close = false) (hcomma : close ≠ ',')
    (hnum : isNumChar close = false) {as : List α}
    (h : ∀ a ∈ as, ∀ rest, Stops rest → item (pr a ++ rest) = some (a, rest))
    (rest : List Char) {n : ℕ} (hn : as.length < n) :
    readMore close item n (moreItems close (as.map pr) ++ rest) = some (as, rest) := by
  induction as generalizing n with
  | nil =>
      cases n with
      | zero => exact absurd hn (Nat.not_lt_zero _)
      | succ n => simp [moreItems, readMore, skipWs_cons hws, hcomma]
  | cons a as ih =>
      cases n with
      | zero => exact absurd hn (Nat.not_lt_zero _)
      | succ n =>
          have ha := h a List.mem_cons_self (moreItems close (as.map pr) ++ rest)
            (stops_moreItems hnum _ _)
          have has := ih (n := n) (fun b hb => h b (List.mem_cons_of_mem _ hb))
            (by simpa using hn)
          simp only [List.map_cons, moreItems, List.cons_append, List.append_assoc, readMore]
          rw [skipWs_cons (by decide)]
          simp only [if_true, ha, Option.bind_some, has, Option.map_some]

theorem readItems_items (hws : isWs close = false) (hcomma : close ≠ ',')
    (hnum : isNumChar close = false) {as : List α}
    (h : ∀ a ∈ as, ∀ rest, Stops rest → item (pr a ++ rest) = some (a, rest))
    (hstart : ∀ a ∈ as, ∃ c cs, pr a = c :: cs ∧ isWs c = false ∧ c ≠ close)
    (rest : List Char) {n : ℕ} (hn : as.tail.length < n) :
    readItems close item n (items close (as.map pr) ++ rest) = some (as, rest) := by
  cases as with
  | nil => simp [items, readItems, skipWs_cons hws]
  | cons a as =>
      have ha := h a List.mem_cons_self (moreItems close (as.map pr) ++ rest)
        (stops_moreItems hnum _ _)
      have has := readMore_moreItems hws hcomma hnum
        (fun b hb => h b (List.mem_cons_of_mem _ hb)) rest (n := n) hn
      obtain ⟨c, cs, hc, hcw, hcc⟩ := hstart a List.mem_cons_self
      simp only [List.map_cons, items, List.append_assoc]
      rw [hc, List.cons_append] at ha ⊢
      simp only [readItems, skipWs_cons hcw, if_neg hcc, ha, Option.bind_some, has,
        Option.map_some]

end Items

theorem readField_printField {n : ℕ} (f : String × Value)
    (hv : ∀ rest, Stops rest → value n (print e f.2 ++ rest) = some (f.2, rest))
    (hn : (printField e f).length ≤ n) {rest : List Char} (hr : Stops rest) :
    readField (value n) n (printField e f ++ rest) = some (f, rest) := by
  have hk : (f.1.toList.flatMap e.esc).length < n := by
    simp only [printField, quote, List.length_cons, List.length_append] at hn
    omega
  have hc := chars_flatMap_esc f.1.toList (':' :: (print e f.2 ++ rest)) hk
  simp only [printField, quote, List.cons_append, List.append_assoc, List.nil_append, readFieldBy]
  rw [skipWs_cons (by decide)]
  simp only [hc, Option.bind_some]
  rw [skipWs_cons (by decide)]
  simp only [hv rest hr, Option.map_some, String.ofList_toList]

theorem ne_of_isNumChar {c : Char} (h : isNumChar c = true) :
    c ≠ '"' ∧ c ≠ '[' ∧ c ≠ '\x7b' ∧ c ≠ 'n' ∧ c ≠ 't' ∧ c ≠ 'f' := by
  refine ⟨?_, ?_, ?_, ?_, ?_, ?_⟩ <;>
    · rintro rfl
      exact absurd h (by decide)

/-- What the parser does with the text of `v`, with any fuel that the text needs. -/
def Reads (e : Escaper) (v : Value) : Prop :=
  ∀ {n : ℕ} {rest : List Char}, (print e v).length ≤ n → Stops rest →
    value n (print e v ++ rest) = some (v, rest)

theorem exists_fuel {v : Value} {n : ℕ} (hn : (print e v).length ≤ n) : ∃ k, n = k + 1 := by
  obtain ⟨c, cs, hc, -⟩ := print_eq_cons (e := e) v
  rw [hc, List.length_cons] at hn
  exact ⟨n - 1, by omega⟩

theorem readItems_print {vs : List Value} (h : ∀ v ∈ vs, Reads e v) {n : ℕ}
    (hn : (items ']' (vs.map (print e))).length ≤ n) (rest : List Char) :
    readItems ']' (value n) n (items ']' (vs.map (print e)) ++ rest) = some (vs, rest) := by
  obtain ⟨hlen, htail⟩ := length_lt_items ']' (vs.map (print e))
  refine readItems_items (by decide) (by decide) (by decide) ?_ ?_ rest ?_
  · intro v hv rest hr
    have := hlen _ (List.mem_map_of_mem hv)
    exact h v hv (by omega) hr
  · intro v _
    obtain ⟨c, cs, hc, hs⟩ := print_eq_cons (e := e) v
    exact ⟨c, cs, hc, hs.notWs, hs.notBracket⟩
  · rw [← List.map_tail, List.length_map] at htail
    omega

theorem readItems_printField {fs : List (String × Value)} (h : ∀ f ∈ fs, Reads e f.2) {n : ℕ}
    (hn : (items '\x7d' (fs.map (printField e))).length ≤ n) (rest : List Char) :
    readItems '\x7d' (readField (value n) n) n (items '\x7d' (fs.map (printField e)) ++ rest) =
      some (fs, rest) := by
  obtain ⟨hlen, htail⟩ := length_lt_items '\x7d' (fs.map (printField e))
  refine readItems_items (by decide) (by decide) (by decide) ?_ ?_ rest ?_
  · intro f hf rest hr
    have hl := hlen _ (List.mem_map_of_mem hf)
    refine readField_printField f (fun rest hr => h f hf ?_ hr) (by omega) hr
    simp only [printField, List.length_append, List.length_cons] at hl
    omega
  · intro f _
    exact ⟨'"', _, rfl, by decide, by decide⟩
  · rw [← List.map_tail, List.length_map] at htail
    omega

theorem value_print (v : Value) : Reads e v := by
  -- the fuel is the length of the text, which is smaller for each part
  induction v using Value.induction with
  | null =>
      intro n rest hn hr
      obtain ⟨n, rfl⟩ := exists_fuel hn
      simp [print, value, valueBy, skipWs, isWs, readName]
  | bool b =>
      intro n rest hn hr
      obtain ⟨n, rfl⟩ := exists_fuel hn
      cases b <;> simp [print, value, valueBy, skipWs, isWs, readName]
  | number m =>
      intro n rest hn hr
      obtain ⟨n, rfl⟩ := exists_fuel hn
      obtain ⟨c, cs, ht, hc⟩ := m.text_eq_cons
      obtain ⟨h1, h2, h3, h4, h5, h6⟩ := ne_of_isNumChar hc
      have hread := readNumber_text m hr
      rw [ht, List.cons_append] at hread
      rw [print, ht, List.cons_append, value, valueBy, skipWs_cons (starts_of_isNumChar hc).notWs]
      simp only [if_neg h1, if_neg h2, if_neg h3, if_neg h4, if_neg h5, if_neg h6, hread]
  | string s =>
      intro n rest hn hr
      obtain ⟨n, rfl⟩ := exists_fuel hn
      simp only [print, quote, List.length_cons, List.length_append] at hn
      have hc := chars_flatMap_esc (e := e) s.toList rest (n := n) (by omega)
      simp only [print, quote, List.cons_append, List.append_assoc, List.nil_append]
      rw [value, valueBy, skipWs_cons (by decide)]
      simp only [if_true, hc, Option.map_some, String.ofList_toList]
  | array vs ih =>
      intro n rest hn hr
      obtain ⟨n, rfl⟩ := exists_fuel hn
      simp only [print, List.length_cons, printAll_eq_map] at hn ⊢
      have hitems := readItems_print ih (Nat.le_of_succ_le_succ hn) rest
      rw [List.cons_append, value, valueBy, skipWs_cons (by decide)]
      simp [hitems]
  | object fs ih =>
      intro n rest hn hr
      obtain ⟨n, rfl⟩ := exists_fuel hn
      simp only [print, List.length_cons, printFields_eq_map] at hn ⊢
      have hitems := readItems_printField ih (Nat.le_of_succ_le_succ hn) rest
      rw [List.cons_append, value, valueBy, skipWs_cons (by decide)]
      simp [hitems]

/-- **A printed value is read back.** -/
theorem parse_print (e : Escaper) (v : Value) : parse (print e v) = some v := by
  have h : value ((print e v).length + 1) (print e v ++ []) = some (v, []) :=
    value_print v (Nat.le_succ _) (fun c hc => by cases hc)
  rw [List.append_nil] at h
  simp [parse, parseBy, h, skipWs]

end Json
