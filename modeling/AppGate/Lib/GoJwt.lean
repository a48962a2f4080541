import AppGate.Lib.Jwt
import AppGate.Lib.Utf8

/-!
# Parsing tokens with `golang-jwt`

`jwt.ParseWithClaims` of version 5.3.1: three segments, a header, claims, a list of valid methods,
the key that a function of the caller picks, the signature, and the registered claims at last.
Version 5.2.1 differs only where several audiences are expected. How claims are read and how times
compare are parameters.

* `SigningMethod`, `getSigningMethod`: the registered methods;
* `splitToken`, `Readers`, `parseUnverified`: what a token says;
* `Clock`, `Registered`, `Validator.validate`: the registered claims;
* `Parser`, `parseWithClaims`.

What is used of it:

* **`parseWithClaims_eq_ok_iff`**: what acceptance means, with `parseUnverified_eq_ok_iff` for what
  is read and `validate_eq_nil_iff` for the claims;
* **`parseWithClaims_sign`**: a token of the signer is decided by its key and its claims;
* `method_of_parseUnverified_sign`, `parseUnverified_of_dot_notMem`: other texts.
-/

set_option autoImplicit false

namespace GoJwt

open Json Fallible

/-! ## Methods -/

/-- The registered methods: none, ES512, and those that `jsonwebtoken` has too. -/
inductive SigningMethod where
  | unsecured
  | es512
  | of (alg : Jwt.Algorithm)
  deriving DecidableEq, Repr

/-- `Alg`. -/
def SigningMethod.alg : SigningMethod → String
  | unsecured => "none"
  | es512 => "ES512"
  | of alg => alg.name

/-- `GetSigningMethod`. -/
def getSigningMethod (alg : String) : Option SigningMethod :=
  if alg = "none" then some .unsecured
  else if alg = "ES512" then some .es512
  else (Jwt.Algorithm.ofName alg).map .of

theorem getSigningMethod_name (a : Jwt.Algorithm) : getSigningMethod a.name = some (.of a) := by
  cases a <;> decide

theorem alg_of_getSigningMethod {alg : String} {m : SigningMethod}
    (h : getSigningMethod alg = some m) : m.alg = alg := by
  unfold getSigningMethod at h
  split_ifs at h with hnone hes
  · cases h
    exact hnone.symm
  · cases h
    exact hes.symm
  · obtain ⟨a, ha, rfl⟩ := Option.map_eq_some_iff.mp h
    have hname := List.find?_some ha
    simpa only [decide_eq_true_eq, SigningMethod.alg] using hname

/-! ## What a token says -/

/-- `strings.Cut` at a dot. -/
def cut (cs : List Char) : Option (List Char × List Char) :=
  match cs.dropWhile (· ≠ '.') with
  | [] => none
  | _ :: rest => some (cs.takeWhile (· ≠ '.'), rest)

/-- The three segments of a token. -/
structure Segments where
  header : List Char
  claims : List Char
  signature : List Char
  deriving DecidableEq, Repr

/-- The text that was signed. -/
def Segments.text (s : Segments) : List Char := s.header ++ '.' :: s.claims

def splitToken (token : List Char) : Option Segments := do
  let (header, rest) ← cut token
  let (claims, signature) ← cut rest
  if '.' ∈ signature then none else some ⟨header, claims, signature⟩

/-- A token without its signature: the `alg` of its header, the method, and the claims. -/
structure Token (α : Type) where
  alg : String
  method : SigningMethod
  claims : α

section Parse

variable {α : Type}

/-- How the JSON of the header and of the claims is read: of the header, the `alg` if it is a
string. -/
structure Readers (α : Type) where
  header : List UInt8 → Except String (Option String)
  claims : List UInt8 → Except String α

/-- `DecodeSegment`. -/
def decodeSegment (what : String) (cs : List Char) : Except String (List UInt8) :=
  match Base64.decodeRawURL cs with
  | some bs => .ok bs
  | none => .error ("token is malformed: could not base64 decode " ++ what)

/-- `ParseUnverified`. -/
def parseUnverified (r : Readers α) (token : List Char) : Except String (Token α × Segments) :=
  match splitToken token with
  | none => .error "token is malformed: token contains an invalid number of segments"
  | some s => do
    let alg ← r.header (← decodeSegment "header" s.header)
    let claims ← r.claims (← decodeSegment "claim" s.claims)
    match alg with
    | none => .error "token is unverifiable: signing method (alg) is unspecified"
    | some alg =>
      match getSigningMethod alg with
      | none => .error "token is unverifiable: signing method (alg) is unavailable"
      | some method => .ok (⟨alg, method, claims⟩, s)

/-! ## Registered claims -/

variable {τ : Type}

/-- `Time.Add` and `Time.Before`. -/
structure Clock (τ : Type) where
  add : τ → Int64 → τ
  before : τ → τ → Bool

/-- The registered claims that are checked. -/
structure Registered (τ : Type) where
  issuer : String
  audience : List String
  expiresAt : Option τ
  notBefore : Option τ

/-- The options that are set: leeway, audience and issuer. -/
structure Validator where
  leeway : Int64
  expectedAud : List String
  expectedIss : String
  deriving DecidableEq, Repr

variable (k : Clock τ)

def Validator.verifyExpiresAt (v : Validator) (now : τ) (c : Registered τ) : List String :=
  match c.expiresAt with
  | none => []
  | some exp => if k.before now (k.add exp v.leeway) then [] else ["token is expired"]

def Validator.verifyNotBefore (v : Validator) (now : τ) (c : Registered τ) : List String :=
  match c.notBefore with
  | none => []
  | some nbf => if k.before now (k.add nbf (-v.leeway)) then ["token is not valid yet"] else []

def Validator.verifyAudience (v : Validator) (c : Registered τ) : List String :=
  if v.expectedAud = [] then []
  else if c.audience = [] ∨ c.audience = [""] then
    ["token is missing required claim: aud claim is required"]
  else if c.audience.any fun a => a ∈ v.expectedAud then []
  else ["token has invalid audience"]

def Validator.verifyIssuer (v : Validator) (c : Registered τ) : List String :=
  if v.expectedIss = "" then []
  else if c.issuer = "" then ["token is missing required claim: iss claim is required"]
  else if c.issuer = v.expectedIss then []
  else ["token has invalid issuer"]

/-- `Validate`: the errors of all the checks. -/
def Validator.validate (v : Validator) (now : τ) (c : Registered τ) : List String :=
  v.verifyExpiresAt k now c ++ v.verifyNotBefore k now c ++ v.verifyAudience c ++ v.verifyIssuer c

/-! ## The parser -/

/-- The names of `WithValidMethods`, if there are any, and the validator. -/
structure Parser where
  validMethods : Option (List String)
  validator : Validator
  deriving DecidableEq, Repr

variable {Key : Type} (verify : Key → SigningMethod → List Char → List UInt8 → Bool)
  (registered : α → Registered τ)

/-- `ParseWithClaims` at time `now`. -/
def parseWithClaims (p : Parser) (r : Readers α) (now : τ) (keyFunc : Token α → Except String Key)
    (token : List Char) : Except String (Token α) := do
  let (t, s) ← parseUnverified r token
  if p.validMethods.all fun methods => t.method.alg ∈ methods then
    let signature ← decodeSegment "signature" s.signature
    match keyFunc t with
    | .error e => .error ("token is unverifiable: error while executing keyfunc: " ++ e)
    | .ok key =>
      if verify key t.method s.text signature then
        let errs := p.validator.validate k now (registered t.claims)
        if errs = [] then .ok t
        else .error ("token has invalid claims: " ++ ", ".intercalate errs)
      else .error "token signature is invalid"
  else .error ("token signature is invalid: signing method " ++ t.method.alg ++ " is invalid")

/-! ## What acceptance means -/

variable {k verify registered} {p : Parser} {r : Readers α} {now : τ}
  {keyFunc : Token α → Except String Key} {token : List Char}

theorem decodeSegment_eq_ok {what : String} {cs : List Char} {bs : List UInt8} :
    decodeSegment what cs = .ok bs ↔ Base64.decodeRawURL cs = some bs := by
  unfold decodeSegment
  cases Base64.decodeRawURL cs <;> simp

theorem all_eq_true_iff {o : Option (List String)} {a : String} :
    (o.all fun methods => a ∈ methods) = true ↔ ∀ methods, o = some methods → a ∈ methods := by
  cases o <;> simp

theorem parseUnverified_eq_ok_iff {t : Token α} {s : Segments} :
    parseUnverified r token = .ok (t, s) ↔ splitToken token = some s ∧
      (∃ bs, Base64.decodeRawURL s.header = some bs ∧ r.header bs = .ok (some t.alg)) ∧
        getSigningMethod t.alg = some t.method ∧
        ∃ bs, Base64.decodeRawURL s.claims = some bs ∧ r.claims bs = .ok t.claims := by
  unfold parseUnverified
  constructor
  · intro h
    split at h
    · cases h
    · rename_i s' hs
      obtain ⟨hb, hhb, h⟩ := bind_eq_ok.mp h
      obtain ⟨alg, halg, h⟩ := bind_eq_ok.mp h
      obtain ⟨cb, hcb, h⟩ := bind_eq_ok.mp h
      obtain ⟨claims, hclaims, h⟩ := bind_eq_ok.mp h
      cases alg with
      | none => cases h
      | some alg =>
          dsimp only at h
          split at h
          · cases h
          · rename_i method hm
            cases h
            exact ⟨hs, ⟨hb, decodeSegment_eq_ok.mp hhb, halg⟩, hm, cb,
              decodeSegment_eq_ok.mp hcb, hclaims⟩
  · rintro ⟨hs, ⟨hb, hhb, halg⟩, hm, cb, hcb, hclaims⟩
    simp only [hs, decodeSegment_eq_ok.mpr hhb, decodeSegment_eq_ok.mpr hcb, ok_bind, halg, hclaims,
      hm]

theorem alg_of_parseUnverified {t : Token α} {s : Segments}
    (h : parseUnverified r token = .ok (t, s)) : t.method.alg = t.alg :=
  alg_of_getSigningMethod (parseUnverified_eq_ok_iff.mp h).2.2.1

/-- **What acceptance means.** A token is accepted if and only if it can be read, its method is
valid, its signature verifies under the key of the caller, and no check of its claims fails. -/
theorem parseWithClaims_eq_ok_iff {t : Token α} :
    parseWithClaims k verify registered p r now keyFunc token = .ok t ↔
      ∃ s, parseUnverified r token = .ok (t, s) ∧
        (∀ methods, p.validMethods = some methods → t.alg ∈ methods) ∧
        (∃ signature key, Base64.decodeRawURL s.signature = some signature ∧
          keyFunc t = .ok key ∧ verify key t.method s.text signature = true) ∧
        p.validator.validate k now (registered t.claims) = [] := by
  unfold parseWithClaims
  constructor
  · intro h
    obtain ⟨⟨t', s⟩, hp, h⟩ := bind_eq_ok.mp h
    by_cases hm : (p.validMethods.all fun methods => t'.method.alg ∈ methods) = true
    · simp only [if_pos hm] at h
      obtain ⟨signature, hsig, h⟩ := bind_eq_ok.mp h
      cases hk : keyFunc t' with
      | error e =>
          rw [hk] at h
          cases h
      | ok key =>
          simp only [hk] at h
          split_ifs at h with hv herr
          cases h
          rw [alg_of_parseUnverified hp] at hm
          exact ⟨s, hp, all_eq_true_iff.mp hm,
            ⟨signature, key, decodeSegment_eq_ok.mp hsig, hk, hv⟩, herr⟩
    · simp only [if_neg hm] at h
      cases h
  · rintro ⟨s, hp, hm, ⟨signature, key, hsig, hk, hv⟩, herr⟩
    rw [← alg_of_parseUnverified hp, ← all_eq_true_iff] at hm
    simp only [hp, ok_bind, if_pos hm, decodeSegment_eq_ok.mpr hsig, hk, if_pos hv, if_pos herr]

/-! ## Checks of the claims -/

theorem validate_eq_nil_iff {v : Validator} {c : Registered τ} :
    v.validate k now c = [] ↔
      (∀ exp, c.expiresAt = some exp → k.before now (k.add exp v.leeway) = true) ∧
        (∀ nbf, c.notBefore = some nbf → k.before now (k.add nbf (-v.leeway)) = false) ∧
        (v.expectedAud = [] ∨ c.audience ≠ [""] ∧ ∃ a ∈ c.audience, a ∈ v.expectedAud) ∧
        (v.expectedIss = "" ∨ c.issuer = v.expectedIss) := by
  have hexp : v.verifyExpiresAt k now c = [] ↔
      ∀ exp, c.expiresAt = some exp → k.before now (k.add exp v.leeway) = true := by
    unfold Validator.verifyExpiresAt
    cases c.expiresAt <;> simp
  have hnbf : v.verifyNotBefore k now c = [] ↔
      ∀ nbf, c.notBefore = some nbf → k.before now (k.add nbf (-v.leeway)) = false := by
    unfold Validator.verifyNotBefore
    cases c.notBefore <;> simp
  have haud : v.verifyAudience c = [] ↔
      v.expectedAud = [] ∨ c.audience ≠ [""] ∧ ∃ a ∈ c.audience, a ∈ v.expectedAud := by
    unfold Validator.verifyAudience
    by_cases he : v.expectedAud = []
    · simp [he]
    · by_cases hnil : c.audience = []
      · simp [he, hnil]
      · by_cases hone : c.audience = [""] <;> simp [he, hnil, hone]
  have hiss : v.verifyIssuer c = [] ↔ v.expectedIss = "" ∨ c.issuer = v.expectedIss := by
    unfold Validator.verifyIssuer
    by_cases he : v.expectedIss = ""
    · simp [he]
    · by_cases hnil : c.issuer = ""
      · simp [he, hnil, Ne.symm he]
      · simp [he, hnil]
  simp only [Validator.validate, List.append_eq_nil_iff, hexp, hnbf, haud, hiss, and_assoc]

/-! ## Tokens of the signer -/

theorem cut_append {front : List Char} (h : '.' ∉ front) (back : List Char) :
    cut (front ++ '.' :: back) = some (front, back) := by
  have hall : ∀ x ∈ front, (decide (x ≠ '.')) = true := by
    intro x hx
    exact decide_eq_true fun hd => h (hd ▸ hx)
  rw [cut, List.dropWhile_append_of_pos hall, List.takeWhile_append_of_pos hall]
  simp

variable {Priv Pub : Type} {c : Jwt.Crypto Priv Pub}

theorem splitToken_sign (key : Priv) (h : Jwt.Header) (payload : Value) :
    splitToken (Jwt.sign c key h payload) =
      some ⟨Jwt.encodePart h.json, Jwt.encodePart payload,
        Base64.encode (c.sign key h.alg (Jwt.signingInput h payload))⟩ := by
  have hsplit : Jwt.sign c key h payload =
      Jwt.encodePart h.json ++ '.' :: (Jwt.encodePart payload ++
        '.' :: Base64.encode (c.sign key h.alg (Jwt.signingInput h payload))) := by
    simp [Jwt.sign, Jwt.signingInput]
  rw [splitToken, hsplit, cut_append (Jwt.dot_notMem_encodePart _)]
  simp [cut_append (Jwt.dot_notMem_encodePart _), Base64.dot_notMem_encode]

/-- The bytes of a JSON text. -/
def textOf (v : Value) : List UInt8 := Utf8.encode (print goEscaper v)

theorem decodeRawURL_encodePart (v : Value) :
    Base64.decodeRawURL (Jwt.encodePart v) = some (textOf v) := by
  have hbytes : (String.ofList (print goEscaper v)).toByteArray.data.toList = textOf v := by
    have h := Utf8.bytes_eq_encode (String.ofList (print goEscaper v))
    rw [String.toList_ofList] at h
    exact h
  rw [Jwt.encodePart, Base64.decodeRawURL_encode, hbytes]

/-- What is read of a token of the signer are its header and its payload. -/
theorem parseUnverified_sign {key : Priv} {h : Jwt.Header} {payload : Value}
    (hr : r.header (textOf h.json) = .ok (some h.alg.name)) {claims : α}
    (hc : r.claims (textOf payload) = .ok claims) :
    parseUnverified r (Jwt.sign c key h payload) =
      .ok (⟨h.alg.name, .of h.alg, claims⟩, ⟨Jwt.encodePart h.json, Jwt.encodePart payload,
        Base64.encode (c.sign key h.alg (Jwt.signingInput h payload))⟩) :=
  parseUnverified_eq_ok_iff.mpr ⟨splitToken_sign key h payload,
    ⟨_, decodeRawURL_encodePart _, hr⟩, getSigningMethod_name _, _, decodeRawURL_encodePart _, hc⟩

/-- The method of a signed token is that of its header. -/
theorem method_of_parseUnverified_sign {key : Priv} {h : Jwt.Header} {payload : Value}
    (hr : r.header (textOf h.json) = .ok (some h.alg.name)) {t : Token α} {s : Segments}
    (hp : parseUnverified r (Jwt.sign c key h payload) = .ok (t, s)) :
    t.alg = h.alg.name ∧ t.method = .of h.alg := by
  obtain ⟨hs, ⟨bs, hbs, halg⟩, hm, -⟩ := parseUnverified_eq_ok_iff.mp hp
  obtain rfl := Option.some.inj ((splitToken_sign key h payload).symm.trans hs)
  dsimp only at hbs
  rw [decodeRawURL_encodePart] at hbs
  obtain rfl := Option.some.inj hbs
  have hname : h.alg.name = t.alg := Option.some.inj (Except.ok.inj (hr.symm.trans halg))
  rw [← hname, getSigningMethod_name] at hm
  exact ⟨hname.symm, (Option.some.inj hm).symm⟩

theorem parseUnverified_of_dot_notMem (h : '.' ∉ token) :
    ∃ e, parseUnverified r token = .error e := by
  have hdrop : token.dropWhile (· ≠ '.') = [] := by
    rw [List.dropWhile_eq_nil_iff]
    intro x hx
    exact decide_eq_true fun hd => h (hd ▸ hx)
  have hsplit : splitToken token = none := by
    simp only [splitToken, cut, hdrop]
    rfl
  exact ⟨_, by rw [parseUnverified, hsplit]⟩

/-- **Tokens of the signer.** A token with a valid method, signed for the key of the caller, is
decided by its claims. -/
theorem parseWithClaims_sign {key : Priv} {h : Jwt.Header} {payload : Value} {claims : α}
    {pub : Key} (hr : r.header (textOf h.json) = .ok (some h.alg.name))
    (hc : r.claims (textOf payload) = .ok claims)
    (hm : ∀ methods, p.validMethods = some methods → h.alg.name ∈ methods)
    (hk : keyFunc ⟨h.alg.name, .of h.alg, claims⟩ = .ok pub)
    (hv : ∀ text, verify pub (.of h.alg) text (c.sign key h.alg text) = true) (t : Token α) :
    parseWithClaims k verify registered p r now keyFunc (Jwt.sign c key h payload) = .ok t ↔
      t = ⟨h.alg.name, .of h.alg, claims⟩ ∧
        p.validator.validate k now (registered claims) = [] := by
  have hp : parseUnverified r (Jwt.sign c key h payload) =
      .ok (⟨h.alg.name, .of h.alg, claims⟩, ⟨Jwt.encodePart h.json, Jwt.encodePart payload,
        Base64.encode (c.sign key h.alg (Jwt.signingInput h payload))⟩) :=
    parseUnverified_sign hr hc
  rw [parseWithClaims_eq_ok_iff]
  constructor
  · rintro ⟨s, hs, -, -, herr⟩
    have ht : t = ⟨h.alg.name, .of h.alg, claims⟩ :=
      (Prod.mk.inj (Except.ok.inj (hs.symm.trans hp))).1
    rw [ht] at herr
    exact ⟨ht, herr⟩
  · rintro ⟨rfl, herr⟩
    refine ⟨_, hp, hm, ⟨c.sign key h.alg (Jwt.signingInput h payload), pub, ?_, hk, ?_⟩, herr⟩
    · dsimp only
      exact Base64.decodeRawURL_encode _
    · dsimp only [Segments.text]
      exact hv (Jwt.signingInput h payload)

end Parse

end GoJwt
