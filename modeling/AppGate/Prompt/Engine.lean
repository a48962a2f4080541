import Mathlib.Data.Rat.Defs
import Mathlib.Algebra.Order.Ring.Rat
import AppGate.Lib.Binary64
import AppGate.Lib.Regexp
import AppGate.Lib.Strings

/-!
# The prompt policy engine

`internal/policy/engine.go`. A prompt is a Go string, so a list of bytes. A Go map is the list of
its entries, and a range over it visits a permutation of them. A score is added up in `float64`
(`detectPromptInjection64`, the one that the checks use); counted in exact tenths it is
`detectPromptInjection`.

* `Scale.score`, `matchInjectionPatterns`: the score and the patterns of injections;
* `Pattern`, `patterns`, `detectPII`, `redactPII`: the five kinds of personal data;
* `inspectPrompt`: the three checks one after the other.
-/

set_option autoImplicit false

namespace AppGate.Prompt

/-- The bytes of a Go string. -/
abbrev Bytes := List UInt8

/-! ## Prompt injection -/

/-- The markers of `detectPromptInjection`. -/
def markers : List String :=
  ["ignore previous instructions", "ignore your previous", "disregard all prior",
    "system override", "you are now in", "new instruction:", "developer mode", "jailbreak",
    "DAN mode", "do anything now"]

/-- The numbers of a score: how they are added, what the three signs add, and the cap. -/
structure Scale (α : Type) where
  zero : α
  add : α → α → α
  /-- `0.3` -/
  marker : α
  /-- `0.2` -/
  delimiters : α
  /-- `0.1` -/
  newlines : α
  /-- `1.0` -/
  cap : α

/-- Exact tenths. -/
def tenths : Scale ℕ where
  zero := 0
  add := (· + ·)
  marker := 3
  delimiters := 2
  newlines := 1
  cap := 10

/-- `float64`, in units of `2 ^ -56`: the last place of `0.1`, the smallest of the constants, so
that every sum of them is a whole number of units. -/
def float64 : Scale Binary64.Stored where
  zero := ⟨0, by decide⟩
  add := Binary64.Stored.add
  marker := ⟨21617278211378380, by decide⟩
  delimiters := ⟨14411518807585588, by decide⟩
  newlines := ⟨7205759403792794, by decide⟩
  cap := ⟨2 ^ 56, by decide⟩

/-- `0.3 + 0.3 + 0.3` is the binary64 before `0.9`. -/
example : (float64.add (float64.add float64.marker float64.marker) float64.marker).val =
    64851834634135144 - 8 := by
  decide

section

variable {α : Type} [LinearOrder α]

/-- The score with a given list of markers. -/
def Scale.score (S : Scale α) (L : Strings.Lowering) (markers : List String) (prompt : Bytes) :
    α :=
  let lower := Strings.toLower L prompt
  let score := markers.foldl
    (fun score marker =>
      if Strings.contains lower (Utf8.bytes marker) then S.add score S.marker else score) S.zero
  -- delimiter abuse
  let score :=
    if 20 < Strings.count prompt (Utf8.bytes "\"") ∨ 20 < Strings.count prompt (Utf8.bytes "'") then
      S.add score S.delimiters
    else score
  -- excessive newlines
  let score :=
    if 10 < Strings.count prompt (Utf8.bytes "\n") then S.add score S.newlines else score
  if S.cap < score then S.cap else score

end

/-- The score with a given list of markers, in tenths. -/
def injectionScore (L : Strings.Lowering) (markers : List String) (prompt : Bytes) : ℕ :=
  tenths.score L markers prompt

/-- `detectPromptInjection`, in exact tenths. -/
def detectPromptInjection (L : Strings.Lowering) (prompt : Bytes) : ℕ :=
  injectionScore L markers prompt

/-- `detectPromptInjection`, in `float64`. -/
def detectPromptInjection64 (L : Strings.Lowering) (prompt : Bytes) : Binary64.Stored :=
  float64.score L markers prompt

def digit (c : UInt8) : Bool := 48 ≤ c && c ≤ 57

def letter (c : UInt8) : Bool := (65 ≤ c && c ≤ 90) || (97 ≤ c && c ≤ 122)

/-- `\s`: `[\t\n\f\r ]`. -/
def space (c : UInt8) : Bool := c == 9 || c == 10 || c == 12 || c == 13 || c == 32

/-- One of the bytes of a text. -/
def oneOf (s : String) (c : UInt8) : Bool := (Utf8.bytes s).contains c

/-- A text as it is. -/
def lit (s : String) : Regexp := .seqs ((Utf8.bytes s).map fun b => .byte (· == b))

/-- The other characters that `(?i)` takes for a lower-case letter: the long s and the kelvin
sign. -/
def folded : UInt8 → List Regexp
  | 115 => [lit "ſ"]
  | 107 => [lit "\u212A"]
  | _ => []

/-- A lower-case text under `(?i)`. -/
def caseless (s : String) : Regexp :=
  .seqs ((Utf8.bytes s).map fun b => .alts (.byte (Strings.lowerByte · == b)) (folded b))

/-- The patterns of `matchInjectionPatterns`. -/
def injectionPatterns : List (String × Regexp) :=
  [("ignore_instructions",
      .seqs [caseless "ignore", .atLeast 1 space, .opt (.seq (caseless "all") (.atLeast 1 space)),
        .alts (caseless "previous") [caseless "prior", caseless "your"], .atLeast 1 space,
        .alts (caseless "instructions") [caseless "commands", caseless "directions"]]),
    ("system_override",
      .seqs [caseless "system", .many space,
        .alts (caseless "override") [caseless "prompt", caseless "instruction"]]),
    ("role_change",
      .seqs [caseless "you", .atLeast 1 space, caseless "are", .atLeast 1 space, caseless "now",
        .atLeast 1 space, .alts (caseless "a") [caseless "an", caseless "in"],
        .atLeast 1 space])]

/-- `matchInjectionPatterns`, visiting the patterns in the given order. -/
def matchInjectionPatterns (order : List (String × Regexp)) (prompt : Bytes) : List String :=
  (order.filter fun entry => entry.2.matchString prompt).map Prod.fst

/-! ## Personal data -/

/-- A kind of personal data: what stands between the two `\b` of its expression. -/
structure Pattern where
  category : String
  body : Regexp
  plain : body.plain = true

def Pattern.regexp (p : Pattern) : Regexp := p.body.word

/-- `\b\d{3}-\d{2}-\d{4}\b`. -/
def ssn : Pattern where
  category := "ssn"
  body := .seqs [.times 3 (.byte digit), lit "-", .times 2 (.byte digit), lit "-",
    .times 4 (.byte digit)]
  plain := by decide

/-- `\b[A-Za-z0-9._%+-]+@[A-Za-z0-9.-]+\.[A-Z|a-z]{2,}\b`. -/
def email : Pattern where
  category := "email"
  body := .seqs [.atLeast 1 fun c => letter c || digit c || oneOf "._%+-" c, lit "@",
    .atLeast 1 fun c => letter c || digit c || oneOf ".-" c, lit ".",
    .atLeast 2 fun c => letter c || oneOf "|" c]
  plain := by decide

/-- `\b(?:\+\d{1,2}\s)?\(?\d{3}\)?[\s.-]?\d{3}[\s.-]?\d{4}\b`. -/
def phone : Pattern where
  category := "phone"
  body := .seqs [.opt (.seqs [lit "+", .byte digit, .opt (.byte digit), .byte space]),
    .opt (lit "("), .times 3 (.byte digit), .opt (lit ")"),
    .opt (.byte fun c => space c || oneOf ".-" c), .times 3 (.byte digit),
    .opt (.byte fun c => space c || oneOf ".-" c), .times 4 (.byte digit)]
  plain := by decide

/-- `\b(?:\d{4}[- ]?){3}\d{4}\b`. -/
def creditCard : Pattern where
  category := "credit_card"
  body := .seqs [.times 3 (.seq (.times 4 (.byte digit)) (.opt (.byte (oneOf "- ")))),
    .times 4 (.byte digit)]
  plain := by decide

/-- `\b(?:sk-|pk-|Bearer\s)[A-Za-z0-9_-]{20,}\b`. -/
def apiKey : Pattern where
  category := "api_key"
  body := .seqs [.alts (lit "sk-") [lit "pk-", .seq (lit "Bearer") (.byte space)],
    .atLeast 20 fun c => letter c || digit c || oneOf "_-" c]
  plain := by decide

/-- The patterns of `detectPII`. -/
def patterns : List Pattern := [ssn, email, phone, creditCard, apiKey]

/-- A `map[string][]string`: its entries, in some order. -/
abbrev PII := List (String × List Bytes)

/-- `detectPII`. -/
def detectPII (prompt : Bytes) : PII :=
  (patterns.map fun p => (p.category, p.regexp.findAll prompt)).filter fun entry =>
    !entry.2.isEmpty

def redacted : Bytes := Utf8.bytes "[REDACTED]"

/-- `RedactPII`, visiting the categories in the order of the list. -/
def redactPII (prompt : Bytes) (pii : PII) : Bytes :=
  pii.foldl (fun result entry =>
    entry.2.foldl (fun result m => Strings.replace result m redacted) result) prompt

/-! ## The checks -/

/-- A `float64`. -/
inductive Float64 where
  | finite (q : ℚ)
  | posInf
  | negInf
  | nan

/-- `score > t`, for a score in units of `2 ^ -56`. -/
def Float64.below : Float64 → Binary64.Stored → Bool
  | .finite q, score => q < (score.val : ℚ) / 2 ^ 56
  | .posInf, _ => false
  | .negInf, _ => true
  | .nan, _ => false

structure Config where
  promptInjectionEnabled : Bool
  promptInjectionThreshold : Float64
  piiDetectionEnabled : Bool
  piiRedactionMode : String
  maxPromptLength : ℤ

/-- The value of `violations["prompt_injection"]`. -/
structure Injection where
  score : Binary64.Stored
  matchedPatterns : List String

/-- The map that `InspectPrompt` returns. -/
structure Violations where
  promptInjection : Option Injection
  piiDetected : Option PII

/-- The counters and log lines. -/
inductive Effect where
  | violation (project kind : String)
  | injectionDetected (project : String) (score : Binary64.Stored)
  | piiLogged (project : String) (pii : PII)

structure Inspected where
  allowed : Bool
  reason : String
  violations : Violations
  effects : List Effect

/-- The length check, the last one. -/
def checkLength (cfg : Config) (prompt : Bytes) (violations : Violations)
    (effects : List Effect) : Inspected :=
  if 0 < cfg.maxPromptLength ∧ cfg.maxPromptLength < prompt.length then
    ⟨false, "prompt_too_long", violations, effects⟩
  else ⟨true, "ok", violations, effects⟩

/-- The check for personal data, and what follows it. -/
def checkPII (cfg : Config) (projectID : String) (prompt : Bytes) : Inspected :=
  if cfg.piiDetectionEnabled then
    let piiFound := detectPII prompt
    if piiFound.isEmpty then checkLength cfg prompt ⟨none, none⟩ []
    else
      let violations : Violations := ⟨none, some piiFound⟩
      let recorded := [Effect.violation projectID "pii"]
      if cfg.piiRedactionMode = "block" then ⟨false, "pii_blocked", violations, recorded⟩
      else if cfg.piiRedactionMode = "mask" then ⟨true, "pii_masked", violations, recorded⟩
      else if cfg.piiRedactionMode = "log" then
        checkLength cfg prompt violations (recorded ++ [.piiLogged projectID piiFound])
      else checkLength cfg prompt violations recorded
  else checkLength cfg prompt ⟨none, none⟩ []

/-- `InspectPrompt`. `order` is the order in which the injection patterns are visited. -/
def inspectPrompt (L : Strings.Lowering) (order : List (String × Regexp)) (cfg : Config)
    (projectID : String) (prompt : Bytes) : Inspected :=
  let score := detectPromptInjection64 L prompt
  if cfg.promptInjectionEnabled ∧ cfg.promptInjectionThreshold.below score = true then
    ⟨false, "prompt_injection_detected",
      ⟨some ⟨score, matchInjectionPatterns order prompt⟩, none⟩,
      [.violation projectID "prompt_injection", .injectionDetected projectID score]⟩
  else checkPII cfg projectID prompt

end AppGate.Prompt
