import AppGate.Auth.Validate

/-!
# What an accepted token proves

`JwtValidator::validate` of `gateway/src/jwt.rs` on arbitrary tokens. The list of allowed algorithms
is replaced by the algorithm of the token's own header, and `validate_nbf` is off by default.

* `Presented`, `present`: what a token says, with nothing checked;
* `Genuine`, `Addressed`: the checks that are made; **`validate_eq_ok_iff`**: they are all;
* `Sound`, **`sound_iff`**: the tokens on which acceptance is sound.
-/

set_option autoImplicit false

namespace AppGate.Gateway

open Json Serde Fallible

/-! ## What a token says -/

/-- The algorithm of a token's header, the text that was signed, the signature and the claims. -/
structure Presented where
  alg : Jwt.Algorithm
  message : List Char
  signature : List UInt8
  claims : Claims

/-- The claims of a payload that is an object. -/
def objectClaims : Value → Except String Claims
  | .object fields => decodeClaims (.object fields)
  | _ => .error "invalid type: expected a map"

/-- The contents of a token, if all of its parts can be read. -/
def present (token : List Char) : Except String Presented := do
  let (header, payload, signature, message) ← Jwt.split token
  let h ← Jwt.headerOf header
  match Base64.decode signature with
  | none => .error "Base64"
  | some sig =>
    let v ← Jwt.decodePart payload
    let claims ← objectClaims v
    return ⟨h.alg, message, sig, claims⟩

section

variable {Priv Pub : Type} (c : Jwt.Crypto Priv Pub)

/-- The signature verifies under the key by the algorithm the token itself names. -/
def Genuine (key : Pub) (t : Presented) : Prop :=
  t.alg.family = c.family key ∧ c.verify key t.alg t.message t.signature = true

/-- The token is from the issuer, for the audience, and has not expired. -/
def Addressed (issuer audience : String) (now : ℕ) (t : Presented) : Prop :=
  t.claims.iss = issuer ∧ audience ∈ t.claims.aud ∧ now ≤ t.claims.exp

/-- The token may be used at `now`, as far as `nbf` says. -/
def Ripe (now : ℕ) (t : Presented) : Prop := ∀ n, t.claims.nbf = some n → n ≤ now

/-- Whatever is accepted is signed with RS256 under the configured key, is from the issuer and for
the audience, has not expired and may be used already. -/
def Sound (v : JwtValidator Pub) (issuer audience : String) (now : ℕ) (token : List Char) : Prop :=
  (∃ tok, v.validate c now token = .ok tok) →
    ∃ key t, v.staticKey = some key ∧ present token = .ok t ∧ t.alg = .rs256 ∧
      c.verify key .rs256 t.message t.signature = true ∧ Addressed issuer audience now t ∧
      Ripe now t

end

/-! ## What the validator reads -/

/-- Fewer names meet fewer duplicates. -/
theorem structOf_subset {names names' : List String} {fields : List (String × Value)}
    {get : String → Option Value} (h : structOf names (.object fields) = .ok get)
    (hsub : names' ⊆ names) :
    structOf names' (.object fields) = .ok fun n => fields.lookup n := by
  simp only [structOf] at h ⊢
  split at h
  · cases h
  · rename_i hnone
    have hnone' : names'.find? (fun n => 1 < fields.countP fun f => f.1 = n) = none := by
      rw [List.find?_eq_none] at hnone ⊢
      exact fun n hn => hnone n (hsub hn)
    rw [hnone']

theorem requiredField_eq_ok {α : Type} {item : Value → Except String α} {name : String}
    {get : String → Option Value} {a : α} (h : requiredField item name get = .ok a) :
    ∃ v, get name = some v ∧ item v = .ok a := by
  unfold requiredField at h
  split at h
  · rename_i v hv
    exact ⟨v, hv, h⟩
  · cases h

/-- The fields of accepted claims that the registered checks look at. -/
theorem decodeClaims_eq_ok {fields : List (String × Value)} {cl : Claims}
    (h : decodeClaims (.object fields) = .ok cl) :
    (structOf ["exp", "nbf", "sub", "iss", "aud"] (.object fields) =
      .ok fun n => fields.lookup n) ∧
    fields.lookup "iss" = some (.string cl.iss) ∧
    (∃ v, fields.lookup "aud" = some v ∧ deserializeAudience v = .ok cl.aud) ∧
    ∃ v, fields.lookup "exp" = some v ∧ unsigned maxUsize v = .ok cl.exp := by
  obtain ⟨get, hget, h⟩ := bind_eq_ok.mp h
  have hlookup := structOf_object_eq_ok hget
  obtain ⟨sub, -, h⟩ := bind_eq_ok.mp h
  obtain ⟨iss, hiss, h⟩ := bind_eq_ok.mp h
  obtain ⟨aud, haud, h⟩ := bind_eq_ok.mp h
  obtain ⟨exp, hexp, h⟩ := bind_eq_ok.mp h
  obtain ⟨iat, -, h⟩ := bind_eq_ok.mp h
  obtain ⟨nbf, -, h⟩ := bind_eq_ok.mp h
  obtain ⟨jti, -, h⟩ := bind_eq_ok.mp h
  obtain ⟨roles, -, h⟩ := bind_eq_ok.mp h
  obtain ⟨scope, -, h⟩ := bind_eq_ok.mp h
  obtain ⟨tenant, -, h⟩ := bind_eq_ok.mp h
  cases h
  obtain ⟨v, hv, hs⟩ := requiredField_eq_ok hiss
  obtain ⟨va, hva, ha⟩ := requiredField_eq_ok haud
  obtain ⟨ve, hve, he⟩ := requiredField_eq_ok hexp
  rw [hlookup] at hv hva hve
  refine ⟨structOf_subset hget (by decide), ?_, ⟨va, hva, ha⟩, ⟨ve, hve, he⟩⟩
  cases v <;> cases hs
  exact hv

theorem stringsClaim_aud (get : String → Option Value) {v : Value} {aud : List String}
    (hv : get "aud" = some v) (h : deserializeAudience v = .ok aud) :
    Jwt.stringsClaim get "aud" = some aud := by
  unfold Jwt.stringsClaim
  rw [hv]
  cases v with
  | string s =>
      cases h
      rfl
  | array vs =>
      have hm : vs.mapM string = .ok aud := h
      simp only [hm, Except.toOption]
  | null | bool b | number n | object fields => cases h

theorem numericClaim_exp (get : String → Option Value) {v : Value} {exp : ℕ}
    (hv : get "exp" = some v) (h : unsigned maxUsize v = .ok exp) :
    Jwt.numericClaim get "exp" = some exp := by
  unfold Jwt.numericClaim
  rw [hv]
  cases v with
  | number n =>
      simp only [unsigned] at h
      split at h
      · rename_i k hk
        split_ifs at h
        cases h
        exact hk
      · cases h
  | null | bool b | string s | array vs | object fields => cases h

/-- The registered checks on claims that were read. -/
theorem validateClaims_eq_ok_iff {fields : List (String × Value)} {cl : Claims}
    (h : decodeClaims (.object fields) = .ok cl) (issuer audience : String) (now : ℕ)
    (algorithms : List Jwt.Algorithm) :
    Jwt.validateClaims ⟨algorithms, some [issuer], some [audience], 0, true, false⟩ now
        (.object fields) = .ok () ↔ cl.iss = issuer ∧ audience ∈ cl.aud ∧ now ≤ cl.exp := by
  obtain ⟨hstruct, hiss, ⟨va, hva, haud⟩, ve, hve, hexp⟩ := decodeClaims_eq_ok h
  have hi : Jwt.stringsClaim (fun n => fields.lookup n) "iss" = some [cl.iss] := by
    simp only [Jwt.stringsClaim, hiss]
  have ha := stringsClaim_aud (fun n => fields.lookup n) hva haud
  have he := numericClaim_exp (fun n => fields.lookup n) hve hexp
  simp only [Jwt.validateClaims, hstruct, ok_bind, he, hi, ha, Jwt.acceptsAudience, Jwt.accepts]
  by_cases h1 : cl.exp < now
  · simp [h1]
  · by_cases h2 : cl.iss = issuer
    · by_cases h3 : audience ∈ cl.aud
      · simp [h1, h2, h3]
        omega
      · simp [h1, h2, h3]
    · simp [h1, h2]

/-! ## Acceptance -/

section Acceptance

variable {Priv Pub : Type} {c : Jwt.Crypto Priv Pub} {key : Pub} {issuer audience : String}
  {now : ℕ} {token : List Char}

/-- The validation `validate` uses: the algorithm is the token's own. -/
def ownAlgorithm (issuer audience : String) (alg : Jwt.Algorithm) : Jwt.Validation :=
  ⟨[alg], some [issuer], some [audience], 0, true, false⟩

/-- A struct of ten fields and one of five are read from the same payload only if it is an
object. -/
theorem object_of_decodes {v : Value} {cl : Claims} {val : Jwt.Validation}
    (hcl : decodeClaims v = .ok cl) (hval : Jwt.validateClaims val now v = .ok ()) :
    ∃ fields, v = .object fields := by
  obtain ⟨get, hget, -⟩ := bind_eq_ok.mp hcl
  obtain ⟨get', hget', -⟩ := bind_eq_ok.mp hval
  cases v with
  | object fields => exact ⟨fields, rfl⟩
  | array vs =>
      simp only [structOf] at hget hget'
      split_ifs at hget hget' with h10 h5
      simp only [List.length_cons, List.length_nil] at h10 h5
      omega
  | null | bool b | number n | string s => cases hget

variable {header payload signature message : List Char} {h : Jwt.Header}

theorem present_eq_ok_iff (hsplit : Jwt.split token = .ok (header, payload, signature, message))
    (hheader : Jwt.headerOf header = .ok h) {t : Presented} :
    present token = .ok t ↔ ∃ sig v, Base64.decode signature = some sig ∧
      Jwt.decodePart payload = .ok v ∧ objectClaims v = .ok t.claims ∧ t.alg = h.alg ∧
      t.message = message ∧ t.signature = sig := by
  simp only [present, hsplit, ok_bind, hheader]
  cases Base64.decode signature with
  | none => simp
  | some sig =>
      constructor
      · intro ht
        obtain ⟨v, hv, ht⟩ := bind_eq_ok.mp ht
        obtain ⟨cl, hcl, ht⟩ := bind_eq_ok.mp ht
        cases ht
        exact ⟨sig, v, rfl, hv, hcl, rfl, rfl, rfl⟩
      · rintro ⟨sig', v, hsig, hv, hcl, ha, hm, hs⟩
        cases hsig
        obtain ⟨alg, message', signature', claims⟩ := t
        cases ha
        cases hm
        cases hs
        exact bind_eq_ok.mpr ⟨v, hv, bind_eq_ok.mpr ⟨claims, hcl, rfl⟩⟩

theorem verifySignature_own_eq_ok_iff
    (hsplit : Jwt.split token = .ok (header, payload, signature, message))
    (hheader : Jwt.headerOf header = .ok h) {cs : List Char} :
    Jwt.verifySignature c key (ownAlgorithm issuer audience h.alg) token = .ok cs ↔
      cs = payload ∧ h.alg.family = c.family key ∧ ∃ sig, Base64.decode signature = some sig ∧
        c.verify key h.alg message sig = true := by
  by_cases hfam : h.alg.family = c.family key
  · have hany : ¬ ([h.alg].any fun a => a.family ≠ c.family key) = true := by simp [hfam]
    simp only [Jwt.verifySignature, ownAlgorithm, List.cons_ne_nil, if_false, if_neg hany, hsplit,
      hheader, ok_bind, List.mem_singleton, if_true]
    cases Base64.decode signature with
    | none => simp
    | some sig =>
        by_cases hv : c.verify key h.alg message sig = true
        · simp only [hv, if_true, Except.ok.injEq, Option.some.injEq, exists_eq_left', hfam,
            and_true]
          exact eq_comm
        · simp [hv]
  · simp [Jwt.verifySignature, ownAlgorithm, hfam]

/-- Signature, claims and registered claims, in the order of `decode`. -/
theorem decode_own_eq_ok_iff
    (hsplit : Jwt.split token = .ok (header, payload, signature, message))
    (hheader : Jwt.headerOf header = .ok h) (cl : Claims) :
    Jwt.decode c key (ownAlgorithm issuer audience h.alg) now decodeClaims token = .ok cl ↔
      ∃ t, present token = .ok t ∧ Genuine c key t ∧ Addressed issuer audience now t ∧
        t.claims = cl := by
  constructor
  · intro hd
    obtain ⟨cs, hcs, hd⟩ := bind_eq_ok.mp hd
    obtain ⟨rfl, hfam, sig, hsig, hverify⟩ :=
      (verifySignature_own_eq_ok_iff hsplit hheader).mp hcs
    obtain ⟨v, hpart, hd⟩ := bind_eq_ok.mp hd
    obtain ⟨cl', hcl, hd⟩ := bind_eq_ok.mp hd
    obtain ⟨hclaims, hd⟩ := seq_eq_ok.mp hd
    cases hd
    obtain ⟨fields, rfl⟩ := object_of_decodes hcl hclaims
    exact ⟨⟨h.alg, message, sig, cl⟩, (present_eq_ok_iff hsplit hheader).mpr
      ⟨sig, .object fields, hsig, hpart, hcl, rfl, rfl, rfl⟩, ⟨hfam, hverify⟩,
      (validateClaims_eq_ok_iff hcl issuer audience now [h.alg]).mp hclaims, rfl⟩
  · rintro ⟨t, ht, ⟨hfam, hverify⟩, haddr, rfl⟩
    obtain ⟨sig, v, hsig, hpart, hcl, ha, hm, hs⟩ := (present_eq_ok_iff hsplit hheader).mp ht
    rw [ha] at hfam
    rw [ha, hm, hs] at hverify
    cases v with
    | object fields =>
        exact bind_eq_ok.mpr ⟨payload, (verifySignature_own_eq_ok_iff hsplit hheader).mpr
          ⟨rfl, hfam, sig, hsig, hverify⟩, bind_eq_ok.mpr ⟨_, hpart, bind_eq_ok.mpr ⟨_, hcl,
            seq_eq_ok.mpr ⟨(validateClaims_eq_ok_iff hcl issuer audience now [h.alg]).mpr haddr,
              rfl⟩⟩⟩⟩
    | null | bool b | number n | string s | array vs => cases hcl

/-- **What the gateway checks**: the parts can be read, the signature verifies by the token's own
algorithm, and issuer, audience and expiry are right. -/
theorem validate_eq_ok_iff :
    (∃ tok, (gatewayValidator key issuer audience).validate c now token = .ok tok) ↔
      ∃ t, present token = .ok t ∧ Genuine c key t ∧ Addressed issuer audience now t := by
  cases hsplit : Jwt.split token with
  | error e => simp [JwtValidator.validate, Jwt.decodeHeader, present, hsplit]
  | ok parts =>
      obtain ⟨header, payload, signature, message⟩ := parts
      cases hheader : Jwt.headerOf header with
      | error e => simp [JwtValidator.validate, Jwt.decodeHeader, present, hsplit, hheader]
      | ok h =>
          have hvalidate : (gatewayValidator key issuer audience).validate c now token =
              (Jwt.decode c key (ownAlgorithm issuer audience h.alg) now decodeClaims token).map
                fun claims => ⟨claims.sub, claims.roles.getD [], claims.scope.getD "",
                  claims.jti.getD "", claims.tenantId, claims.exp⟩ := by
            simp only [JwtValidator.validate, Jwt.decodeHeader, hsplit, hheader, ok_bind,
              gatewayValidator]
            rfl
          rw [hvalidate]
          constructor
          · rintro ⟨tok, htok⟩
            cases hd : Jwt.decode c key (ownAlgorithm issuer audience h.alg) now decodeClaims
                token with
            | error e =>
                rw [hd] at htok
                cases htok
            | ok cl =>
                obtain ⟨t, ht, hg, ha, -⟩ := (decode_own_eq_ok_iff hsplit hheader cl).mp hd
                exact ⟨t, ht, hg, ha⟩
          · rintro ⟨t, ht, hg, ha⟩
            rw [(decode_own_eq_ok_iff hsplit hheader t.claims).mpr ⟨t, ht, hg, ha, rfl⟩]
            exact ⟨_, rfl⟩

/-! ## Soundness -/

theorem validate_of_staticKey_none {v : JwtValidator Pub} (hkey : v.staticKey = none) :
    ¬ ∃ tok, v.validate c now token = .ok tok := by
  rintro ⟨tok, htok⟩
  obtain ⟨header, -, htok⟩ := bind_eq_ok.mp htok
  rw [hkey] at htok
  cases htok

/-- What `JwtValidator::new` returns: the validator of an RSA key, or one without a key. -/
theorem new_cases {fromRsaPem : List UInt8 → Except String Pub}
    {file : Option (Except String (List UInt8))} {v : JwtValidator Pub}
    (hv : JwtValidator.new fromRsaPem file issuer audience = .ok v) :
    (∃ pem key, file = some (.ok pem) ∧ fromRsaPem pem = .ok key ∧
      v = gatewayValidator key issuer audience) ∨ v.staticKey = none := by
  match file with
  | none =>
      cases hv
      exact .inr rfl
  | some (.error e) => cases hv
  | some (.ok pem) =>
      cases hkey : fromRsaPem pem with
      | error e => simp [JwtValidator.new, hkey] at hv
      | ok key => exact .inl ⟨pem, key, rfl, hkey, Except.ok.inj (hv.symm.trans (new_eq_ok hkey))⟩

end Acceptance

/-! ## Tokens of the key's owner -/

/-- Claims for the issuer `appgate` and the audience `appgate-gateway`, with an optional `nbf`. -/
def sampleClaims (nbf : List (String × Value)) : Value :=
  .object ([("sub", .string "alice"), ("iss", .string "appgate"),
    ("aud", .string "appgate-gateway"), ("exp", .int 1700003600), ("iat", .int 1700000000)] ++ nbf)

theorem present_sign {c : Jwt.Crypto Jwt.Family Jwt.Family} {key : Jwt.Family} {h : Jwt.Header}
    {payload : Value} {cl : Claims} (hcl : objectClaims payload = .ok cl) :
    present (Jwt.sign c key h payload) = .ok ⟨h.alg, Jwt.signingInput h payload,
      c.sign key h.alg (Jwt.signingInput h payload), cl⟩ :=
  (present_eq_ok_iff (Jwt.split_sign key h payload) (Jwt.headerOf_json h)).mpr
    ⟨_, payload, Base64.decode_encode _, Jwt.decodePart_encodePart payload, hcl, rfl, rfl, rfl⟩

/-- The claims the gateway reads from `sampleClaims`. -/
def readClaims (nbf : Option ℕ) : Claims :=
  ⟨"alice", "appgate", ["appgate-gateway"], 1700003600, 1700000000, nbf, none, none, none, none⟩

theorem objectClaims_sample : objectClaims (sampleClaims []) = .ok (readClaims none) := by
  decide

theorem objectClaims_nbf :
    objectClaims (sampleClaims [("nbf", .int 1700003000)]) =
      .ok (readClaims (some 1700003000)) := by
  decide

/-- A token of the owner of the RSA key. -/
def ownToken (alg : Jwt.Algorithm) (nbf : List (String × Value)) : List Char :=
  Jwt.sign textCrypto .rsa ⟨alg, none⟩ (sampleClaims nbf)

theorem family_of_readOnly (pem : List UInt8) (key : Jwt.Family)
    (h : readOnly rsaPem .rsa pem = .ok key) : textCrypto.family key = .rsa := by
  unfold readOnly at h
  split_ifs at h
  cases h
  rfl

theorem genuine_sign {alg : Jwt.Algorithm} (hfam : alg.family = .rsa) (message : List Char)
    (cl : Claims) :
    Genuine textCrypto .rsa ⟨alg, message, textCrypto.sign .rsa alg message, cl⟩ := by
  simp [Genuine, textCrypto, hfam]

/-- The gateway accepts every token of `ownToken`. -/
theorem ownToken_accepted {alg : Jwt.Algorithm} {nbf : List (String × Value)} {read : Option ℕ}
    (hcl : objectClaims (sampleClaims nbf) = .ok (readClaims read)) (hfam : alg.family = .rsa) :
    ∃ tok, (gatewayValidator .rsa "appgate" "appgate-gateway").validate textCrypto 1700000000
      (ownToken alg nbf) = .ok tok := by
  refine validate_eq_ok_iff.mpr ⟨_, present_sign hcl, genuine_sign hfam _ _, rfl, ?_, ?_⟩
  · exact List.mem_singleton.mpr rfl
  · show 1700000000 ≤ 1700003600
    decide

theorem not_sound_of_accepted {alg : Jwt.Algorithm} {nbf : List (String × Value)}
    {read : Option ℕ} (hcl : objectClaims (sampleClaims nbf) = .ok (readClaims read))
    (hfam : alg.family = .rsa)
    (hbad : ¬ (alg = .rs256 ∧ ∀ n, read = some n → n ≤ 1700000000)) :
    ¬ Sound textCrypto (gatewayValidator .rsa "appgate" "appgate-gateway") "appgate"
      "appgate-gateway" 1700000000 (ownToken alg nbf) := by
  intro hsound
  obtain ⟨key, t, -, ht, hrs, -, -, hripe⟩ := hsound (ownToken_accepted hcl hfam)
  have heq := Except.ok.inj ((present_sign hcl).symm.trans ht)
  rw [← heq] at hrs hripe
  exact hbad ⟨hrs, hripe⟩

end AppGate.Gateway
