import AppGate.Lib.Base64
import AppGate.Lib.Serde

/-!
# JSON web tokens

Tokens in compact form: header and payload in base64, and a signature over both. The signer is that
of `golang-jwt` 5.3.1, the verifier that of `jsonwebtoken` 9.3.1; the signature schemes are a
parameter, with the property `Crypto.Correct`.

* `Algorithm`, `Family`, `Crypto`, `Crypto.Correct`: algorithms, keys and signatures;
* `Header`, `sign`: making a token;
* `decodeHeader`, `Validation`, `verifySignature`, `validateClaims`, `decode`: checking one.

What is used of the verifier, for a token of the signer:

* `decodeHeader_sign`: the header comes back;
* `verifySignature_sign`: the signature verifies under the key of the signer if the algorithm is
  expected;
* **`decode_sign`**, `decode_sign_eq_ok`: what is left to the checks of the claims.
-/

set_option autoImplicit false

namespace Jwt

open Json Serde Fallible

/-! ## Algorithms and keys -/

inductive Family where
  | hmac
  | rsa
  | ec
  | ed
  deriving DecidableEq, Repr

inductive Algorithm where
  | hs256
  | hs384
  | hs512
  | es256
  | es384
  | rs256
  | rs384
  | rs512
  | ps256
  | ps384
  | ps512
  | edDSA
  deriving DecidableEq, Repr

namespace Algorithm

def family : Algorithm → Family
  | hs256 | hs384 | hs512 => .hmac
  | es256 | es384 => .ec
  | rs256 | rs384 | rs512 | ps256 | ps384 | ps512 => .rsa
  | edDSA => .ed

/-- The `alg` of a header. -/
def name : Algorithm → String
  | hs256 => "HS256"
  | hs384 => "HS384"
  | hs512 => "HS512"
  | es256 => "ES256"
  | es384 => "ES384"
  | rs256 => "RS256"
  | rs384 => "RS384"
  | rs512 => "RS512"
  | ps256 => "PS256"
  | ps384 => "PS384"
  | ps512 => "PS512"
  | edDSA => "EdDSA"

def all : List Algorithm :=
  [hs256, hs384, hs512, es256, es384, rs256, rs384, rs512, ps256, ps384, ps512, edDSA]

def ofName (s : String) : Option Algorithm := all.find? fun a => a.name = s

theorem ofName_name (a : Algorithm) : ofName a.name = some a := by
  cases a <;> decide

end Algorithm

/-- Signatures: private keys, public keys with their family, and signatures over texts. -/
structure Crypto (Priv Pub : Type) where
  publicKey : Priv → Pub
  family : Pub → Family
  sign : Priv → Algorithm → List Char → List UInt8
  verify : Pub → Algorithm → List Char → List UInt8 → Bool

/-- A signature by an algorithm of the key's family verifies under the public key. -/
def Crypto.Correct {Priv Pub : Type} (c : Crypto Priv Pub) : Prop :=
  ∀ key alg message, alg.family = c.family (c.publicKey key) →
    c.verify (c.publicKey key) alg message (c.sign key alg message) = true

/-! ## Compact form -/

/-- The part of a JOSE header that signer and verifier use. -/
structure Header where
  alg : Algorithm
  kid : Option String
  deriving DecidableEq, Repr

def Header.json (h : Header) : Value :=
  .object (("alg", .string h.alg.name) ::
    ((match h.kid with
      | some kid => [("kid", .string kid)]
      | none => []) ++ [("typ", .string "JWT")]))

/-- A part of a token: the base64 of the JSON text. -/
def encodePart (v : Value) : List Char :=
  Base64.encode (String.ofList (print goEscaper v)).toByteArray.data.toList

def decodePart (cs : List Char) : Except String Value :=
  match Base64.decode cs with
  | none => .error "Base64"
  | some bs =>
    match (ByteArray.mk bs.toArray).utf8Decode? with
    | none => .error "Utf8"
    | some text =>
      match parse text.toList with
      | none => .error "Json"
      | some v => .ok v

section Token

variable {Priv Pub α : Type} (c : Crypto Priv Pub)

/-- The text that is signed. -/
def signingInput (h : Header) (payload : Value) : List Char :=
  encodePart h.json ++ '.' :: encodePart payload

/-- A signed token. -/
def sign (key : Priv) (h : Header) (payload : Value) : List Char :=
  signingInput h payload ++ '.' :: Base64.encode (c.sign key h.alg (signingInput h payload))

/-- The parts before and after the last dot. -/
def rsplit (cs : List Char) : Option (List Char × List Char) :=
  match cs.reverse.dropWhile (· ≠ '.') with
  | [] => none
  | _ :: front => some (front.reverse, (cs.reverse.takeWhile (· ≠ '.')).reverse)

/-- The three parts of a token: header, payload and signature, and the text that was signed. -/
def split (token : List Char) : Except String (List Char × List Char × List Char × List Char) :=
  match rsplit token with
  | none => .error "InvalidToken"
  | some (message, signature) =>
    match rsplit message with
    | none => .error "InvalidToken"
    | some (header, payload) => .ok (header, payload, signature, message)

/-! ## The verifier -/

def algorithm (v : Value) : Except String Algorithm := do
  let s ← string v
  match Algorithm.ofName s with
  | some a => .ok a
  | none => .error "unknown variant"

/-- The names of the fields of a header, without `jwk`. -/
def headerFields : List String :=
  ["typ", "alg", "cty", "jku", "kid", "x5u", "x5c", "x5t", "x5t#S256"]

/-- `Header::from_encoded`. -/
def headerOf (cs : List Char) : Except String Header := do
  let get ← structOf headerFields (← decodePart cs)
  let _ ← ["typ", "cty", "jku", "x5u", "x5t", "x5t#S256"].mapM fun n => optionalField string n get
  let _ ← optionalField (vec string) "x5c" get
  return ⟨← requiredField algorithm "alg" get, ← optionalField string "kid" get⟩

/-- `decode_header`. -/
def decodeHeader (token : List Char) : Except String Header := do
  let (header, _) ← split token
  headerOf header

/-- What a verifier requires of a token. Times are in seconds. -/
structure Validation where
  algorithms : List Algorithm
  issuer : Option (List String)
  audience : Option (List String)
  leeway : ℕ
  validateExp : Bool
  validateNbf : Bool
  deriving DecidableEq, Repr

/-- `Validation::new`. -/
def Validation.new (alg : Algorithm) : Validation := ⟨[alg], none, none, 60, true, false⟩

/-- The payload of a token whose algorithm and signature are accepted. -/
def verifySignature (key : Pub) (v : Validation) (token : List Char) :
    Except String (List Char) := do
  if v.algorithms = [] then .error "MissingAlgorithm"
  else if v.algorithms.any fun a => a.family ≠ c.family key then .error "InvalidAlgorithm"
  else
    let (header, payload, signature, message) ← split token
    let h ← headerOf header
    if h.alg ∈ v.algorithms then
      match Base64.decode signature with
      | none => .error "Base64"
      | some sig =>
        if c.verify key h.alg message sig then .ok payload else .error "InvalidSignature"
    else .error "InvalidAlgorithm"

/-- A numeric claim, if it is there and can be read. Fractions are left out. -/
def numericClaim (get : String → Option Value) (name : String) : Option ℕ :=
  match get name with
  | some (.number n) => n.toNat?
  | _ => none

/-- A claim that is a string or a list of strings, if it is there and can be read. -/
def stringsClaim (get : String → Option Value) (name : String) : Option (List String) :=
  match get name with
  | some (.string s) => some [s]
  | some (.array vs) => (vs.mapM string).toOption
  | _ => none

/-- A claim that is there has an accepted value. -/
def accepts (correct : List String) : Option (List String) → Bool
  | some given => given.any fun s => s ∈ correct
  | none => true

/-- The audience is accepted; a token with an audience needs a verifier that expects one. -/
def acceptsAudience : Option (List String) → Option (List String) → Bool
  | some correct, given => accepts correct given
  | none, some _ => false
  | none, none => true

/-- The registered claims at time `now`: `exp` is required, the others are checked if present. -/
def validateClaims (v : Validation) (now : ℕ) (payload : Value) : Except String Unit := do
  let get ← structOf ["exp", "nbf", "sub", "iss", "aud"] payload
  match numericClaim get "exp" with
  | none => .error "MissingRequiredClaim"
  | some exp =>
    if v.validateExp ∧ exp < now - v.leeway then .error "ExpiredSignature"
    else if v.validateNbf ∧ now + v.leeway < (numericClaim get "nbf").getD 0 then
      .error "ImmatureSignature"
    else if ¬ (v.issuer.all fun correct => accepts correct (stringsClaim get "iss")) then
      .error "InvalidIssuer"
    else if ¬ acceptsAudience v.audience (stringsClaim get "aud") then .error "InvalidAudience"
    else .ok ()

/-- `decode`: signature, claims of the caller's type, then the registered claims. -/
def decode (key : Pub) (v : Validation) (now : ℕ) (claims : Value → Except String α)
    (token : List Char) : Except String α := do
  let payload ← decodePart (← verifySignature c key v token)
  let a ← claims payload
  validateClaims v now payload
  return a

/-! ## Tokens of the signer -/

theorem decodePart_encodePart (v : Value) : decodePart (encodePart v) = .ok v := by
  have hu : (ByteArray.mk (print goEscaper v).utf8Encode.data).utf8Decode? =
      some (print goEscaper v).toArray := List.utf8Decode?_utf8Encode
  simp [decodePart, encodePart, Base64.decode_encode, hu, parse_print]

theorem dot_notMem_encodePart (v : Value) : '.' ∉ encodePart v := Base64.dot_notMem_encode _

theorem rsplit_append {front back : List Char} (h : '.' ∉ back) :
    rsplit (front ++ '.' :: back) = some (front, back) := by
  have hall : ∀ x ∈ back.reverse, (decide (x ≠ '.')) = true := by
    intro x hx
    have hne : x ≠ '.' := fun hd => h (hd ▸ List.mem_reverse.mp hx)
    simpa using hne
  have hr : (front ++ '.' :: back).reverse = back.reverse ++ '.' :: front.reverse := by simp
  simp only [rsplit, hr]
  rw [List.dropWhile_append_of_pos hall, List.takeWhile_append_of_pos hall]
  simp

variable {c}

theorem split_sign (key : Priv) (h : Header) (payload : Value) :
    split (sign c key h payload) =
      .ok (encodePart h.json, encodePart payload,
        Base64.encode (c.sign key h.alg (signingInput h payload)), signingInput h payload) := by
  have hm : rsplit (signingInput h payload) = some (encodePart h.json, encodePart payload) :=
    rsplit_append (dot_notMem_encodePart payload)
  simp only [split, sign, rsplit_append (Base64.dot_notMem_encode _), hm]

theorem headerOf_json (h : Header) : headerOf (encodePart h.json) = .ok h := by
  obtain ⟨alg, kid⟩ := h
  cases kid <;>
    simp [headerOf, decodePart_encodePart, Header.json, structOf, headerFields, optionalField,
      requiredField, algorithm, string, Algorithm.ofName_name]

theorem decodeHeader_sign (key : Priv) (h : Header) (payload : Value) :
    decodeHeader (sign c key h payload) = .ok h := by
  simp [decodeHeader, split_sign, headerOf_json]

/-- The payload of a signed token reaches the claims only as it was signed. -/
theorem verifySignature_sign_eq_ok {pub : Pub} {v : Validation} {key : Priv} {h : Header}
    {payload : Value} {cs : List Char}
    (hs : verifySignature c pub v (sign c key h payload) = .ok cs) : cs = encodePart payload := by
  rw [verifySignature] at hs
  simp only [split_sign, headerOf_json, ok_bind, Base64.decode_encode] at hs
  split_ifs at hs
  exact (Except.ok.inj hs).symm

theorem verifySignature_sign (hc : c.Correct) {key : Priv} {v : Validation} {h : Header}
    (hfam : ∀ a ∈ v.algorithms, a.family = c.family (c.publicKey key))
    (halg : h.alg ∈ v.algorithms) (payload : Value) :
    verifySignature c (c.publicKey key) v (sign c key h payload) = .ok (encodePart payload) := by
  have hne : v.algorithms ≠ [] := List.ne_nil_of_mem halg
  have hany : ¬ (v.algorithms.any fun a => a.family ≠ c.family (c.publicKey key)) = true := by
    simpa using hfam
  rw [verifySignature, if_neg hne, if_neg hany]
  simp only [split_sign, headerOf_json, ok_bind, Base64.decode_encode]
  rw [if_pos halg, if_pos (hc key h.alg _ (hfam h.alg halg))]

/-- **Tokens of the signer.** With an algorithm that the verifier takes, a token signed with its
key is decided by its claims. -/
theorem decode_sign (hc : c.Correct) {key : Priv} {v : Validation} {h : Header}
    (hfam : ∀ a ∈ v.algorithms, a.family = c.family (c.publicKey key))
    (halg : h.alg ∈ v.algorithms) (now : ℕ) (claims : Value → Except String α) (payload : Value) :
    decode c (c.publicKey key) v now claims (sign c key h payload) =
      claims payload >>= fun a => validateClaims v now payload >>= fun _ => .ok a := by
  rw [decode, verifySignature_sign hc hfam halg]
  simp only [ok_bind, decodePart_encodePart]
  rfl

/-- Whatever the key and the algorithms, what is returned for a signed token are its claims. -/
theorem decode_sign_eq_ok {pub : Pub} {v : Validation} {now : ℕ} {claims : Value → Except String α}
    {key : Priv} {h : Header} {payload : Value} {a : α}
    (hd : decode c pub v now claims (sign c key h payload) = .ok a) : claims payload = .ok a := by
  obtain ⟨cs, hs, hd⟩ := bind_eq_ok.mp hd
  rw [verifySignature_sign_eq_ok hs, decodePart_encodePart, ok_bind] at hd
  obtain ⟨b, hb, hd⟩ := bind_eq_ok.mp hd
  obtain ⟨_, -, hd⟩ := bind_eq_ok.mp hd
  exact hb.trans hd

end Token

end Jwt
