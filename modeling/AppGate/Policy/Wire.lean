import AppGate.Lib.Serde
import AppGate.Policy.Agree

/-!
# The wire format of policies

The control plane encodes its policies with `encoding/json`
(`control-plane/internal/policy/policy.go`), the gateway decodes the list with `serde`
(`gateway/src/policy.rs`). Times and version are on the wire, and the gateway ignores them.

* `PolicyRecord`, `Time.marshal`, `PolicyRecord.json`, `encodePolicies`: the encoder;
* `decodePolicy`, `decodePolicies`: the decoder;
* `decodePolicy_json`: what the gateway reads for one policy;
* `Carried`, **`policies_round_trip`**, `large_limit_and_late_time_fail`.
-/

set_option autoImplicit false

namespace AppGate

open Json Serde Fallible

/-! ## Encoding in the control plane -/

namespace ControlPlane

/-- A `time.Time`: its civil date and time, and the offset of its zone in seconds. -/
structure Time where
  year : ℤ
  month : ℕ
  day : ℕ
  hour : ℕ
  minute : ℕ
  second : ℕ
  nanosecond : ℕ
  offset : ℤ
  deriving DecidableEq, Repr

/-- A number with at least `width` digits. -/
def pad (width n : ℕ) : String :=
  String.ofList (List.replicate (width - (Nat.toDigits 10 n).length) '0' ++ Nat.toDigits 10 n)

/-- The fraction of a second, without trailing zeros. -/
def Time.fraction (t : Time) : String :=
  if t.nanosecond = 0 then ""
  else
    "." ++ String.ofList (((pad 9 t.nanosecond).toList.reverse.dropWhile (· = '0')).reverse)

/-- The zone of a time. -/
def Time.zone (t : Time) : String :=
  if t.offset = 0 then "Z"
  else
    let minutes := t.offset.natAbs / 60
    (if t.offset < 0 then "-" else "+") ++ pad 2 (minutes / 60) ++ ":" ++ pad 2 (minutes % 60)

/-- The text `time.RFC3339Nano` gives. -/
def Time.format (t : Time) : String :=
  pad 4 t.year.natAbs ++ "-" ++ pad 2 t.month ++ "-" ++ pad 2 t.day ++ "T" ++ pad 2 t.hour ++ ":" ++
    pad 2 t.minute ++ ":" ++ pad 2 t.second ++ t.fraction ++ t.zone

/-- The times that RFC 3339 can write. -/
def Time.Encodable (t : Time) : Prop :=
  0 ≤ t.year ∧ t.year ≤ 9999 ∧ t.offset.natAbs / 3600 ≤ 23

/-- `Time.MarshalJSON`. -/
def Time.marshal (t : Time) : Except String Value :=
  if t.year < 0 ∨ 9999 < t.year then .error "Time.MarshalJSON: year outside of range [0,9999]"
  else if 23 < t.offset.natAbs / 3600 then
    .error "Time.MarshalJSON: timezone hour outside of range [0,23]"
  else .ok (.string t.format)

/-- `Policy` with all its fields. -/
structure PolicyRecord extends Policy where
  version : ℤ
  createdAt : Time
  updatedAt : Time
  createdBy : String
  deriving DecidableEq, Repr

def SubjectSelector.json (s : SubjectSelector) : Value :=
  .object (omitStrings "roles" s.roles ++ omitStrings "users" s.users ++
    omitStrings "groups" s.groups)

def RateLimits.json (l : RateLimits) : Value :=
  .object (("requests_per_minute", .int l.requestsPerMinute) ::
    (omitInt "tokens_per_minute" l.tokensPerMinute ++
      omitInt "concurrent_limit" l.concurrentLimit))

def LoggingConfig.json (l : LoggingConfig) : Value :=
  .object [("metadata_only", .bool l.metadataOnly), ("log_prompts", .bool l.logPrompts),
    ("log_responses", .bool l.logResponses), ("retention_days", .int l.retentionDays)]

/-- A nil list of providers or models would be `null`; `Validate` excludes it. -/
def PolicySpec.json (s : PolicySpec) : Value :=
  .object [("name", .string s.name), ("subjects", s.subjects.json),
    ("providers", .strings s.providers), ("models", .strings s.models),
    ("limits", s.limits.json), ("logging", s.logging.json)]

def PolicyRecord.json (p : PolicyRecord) : Except String Value := do
  let createdAt ← p.createdAt.marshal
  let updatedAt ← p.updatedAt.marshal
  return .object [("id", .string p.id), ("name", .string p.name), ("version", .int p.version),
    ("created_at", createdAt), ("updated_at", updatedAt), ("created_by", .string p.createdBy),
    ("spec", p.spec.json)]

/-- `json.Marshal` of a list of policies. -/
def encodePolicies (ps : List PolicyRecord) : Except String (List Char) := do
  let vs ← ps.mapM PolicyRecord.json
  return print goEscaper (.array vs)

end ControlPlane

/-! ## Decoding in the gateway -/

namespace Gateway

def decodeSubjects (v : Value) : Except String SubjectSelector := do
  let get ← structOf ["roles", "users"] v
  return ⟨← optionalField (vec string) "roles" get, ← optionalField (vec string) "users" get⟩

/-- The largest `u32`. -/
def maxU32 : ℕ := 4294967295

def decodeLimits (v : Value) : Except String RateLimits := do
  let get ← structOf ["requests_per_minute"] v
  let n ← requiredField (unsigned maxU32) "requests_per_minute" get
  return ⟨UInt32.ofNat n⟩

def decodeLogging (v : Value) : Except String LoggingConfig := do
  let get ← structOf ["metadata_only"] v
  return ⟨← requiredField boolean "metadata_only" get⟩

def decodeSpec (v : Value) : Except String PolicySpec := do
  let get ← structOf ["subjects", "providers", "models", "limits", "logging"] v
  return ⟨← requiredField decodeSubjects "subjects" get,
    ← requiredField (vec string) "providers" get, ← requiredField (vec string) "models" get,
    ← requiredField decodeLimits "limits" get, ← requiredField decodeLogging "logging" get⟩

def decodePolicy (v : Value) : Except String Policy := do
  let get ← structOf ["id", "name", "spec"] v
  return ⟨← requiredField string "id" get, ← requiredField string "name" get,
    ← requiredField decodeSpec "spec" get⟩

/-- `resp.json::<Vec<Policy>>()`. -/
def decodePolicies (text : List Char) : Except String (List Policy) :=
  match parse text with
  | none => .error "syntax error"
  | some v => vec decodePolicy v

end Gateway

/-! ## The round trip -/

section RoundTrip

open ControlPlane

theorem decodeSubjects_json (s : ControlPlane.SubjectSelector) :
    Gateway.decodeSubjects s.json = .ok ⟨omitempty s.roles, omitempty s.users⟩ := by
  unfold Gateway.decodeSubjects ControlPlane.SubjectSelector.json
  by_cases hr : s.roles = [] <;> by_cases hu : s.users = [] <;> by_cases hg : s.groups = [] <;>
    simp [structOf, omitStrings, omitempty, optionalField, hr, hu, hg]

theorem decodeLogging_json (l : ControlPlane.LoggingConfig) :
    Gateway.decodeLogging l.json = .ok ⟨l.metadataOnly⟩ := by
  simp [Gateway.decodeLogging, ControlPlane.LoggingConfig.json, structOf, requiredField, boolean]

theorem decodeLimits_json (l : ControlPlane.RateLimits) :
    Gateway.decodeLimits l.json =
      (unsigned Gateway.maxU32 (.int l.requestsPerMinute)).map fun n => ⟨UInt32.ofNat n⟩ := by
  unfold Gateway.decodeLimits ControlPlane.RateLimits.json
  by_cases ht : l.tokensPerMinute = 0 <;> by_cases hc : l.concurrentLimit = 0 <;>
    simp [structOf, omitInt, requiredField, ht, hc]

/-- The gateway's copy of a policy, with the limit it read. -/
def copyWith (p : ControlPlane.Policy) (n : ℕ) : Gateway.Policy :=
  ⟨p.id, p.name, ⟨⟨omitempty p.spec.subjects.roles, omitempty p.spec.subjects.users⟩,
    p.spec.providers, p.spec.models, ⟨UInt32.ofNat n⟩, ⟨p.spec.logging.metadataOnly⟩⟩⟩

theorem decodeSpec_json (s : ControlPlane.PolicySpec) :
    Gateway.decodeSpec s.json =
      (unsigned Gateway.maxU32 (.int s.limits.requestsPerMinute)).map fun n =>
        ⟨⟨omitempty s.subjects.roles, omitempty s.subjects.users⟩, s.providers, s.models,
          ⟨UInt32.ofNat n⟩, ⟨s.logging.metadataOnly⟩⟩ := by
  cases hn : unsigned Gateway.maxU32 (.int s.limits.requestsPerMinute) <;>
    simp [Gateway.decodeSpec, ControlPlane.PolicySpec.json, structOf, requiredField,
      decodeSubjects_json, decodeLimits_json, decodeLogging_json, hn]

/-- What the gateway reads for one policy: its own fields, or an error of the limit. -/
theorem decodePolicy_json {p : PolicyRecord} {v : Value} (h : p.json = .ok v) :
    Gateway.decodePolicy v =
      (unsigned Gateway.maxU32 (.int p.spec.limits.requestsPerMinute)).map
        (copyWith p.toPolicy) := by
  obtain ⟨createdAt, -, h⟩ := bind_eq_ok.mp h
  obtain ⟨updatedAt, -, h⟩ := bind_eq_ok.mp h
  obtain rfl := Except.ok.inj h
  cases hn : unsigned Gateway.maxU32 (.int p.spec.limits.requestsPerMinute) <;>
    simp [Gateway.decodePolicy, structOf, requiredField, string, decodeSpec_json, hn, copyWith]

/-- The gateway's policy has the id, name, roles, users, providers, models, limit and logging of the
control plane's. -/
structure Carried (p : PolicyRecord) (q : Gateway.Policy) : Prop extends Copy p.toPolicy q where
  name : q.name = p.name
  limit : (q.spec.limits.requestsPerMinute.toNat : ℤ) = p.spec.limits.requestsPerMinute
  metadataOnly : q.spec.logging.metadataOnly = p.spec.logging.metadataOnly

theorem json_eq_ok {p : PolicyRecord} (hc : p.createdAt.Encodable) (hu : p.updatedAt.Encodable) :
    ∃ v, p.json = .ok v := by
  have hm {t : Time} (ht : t.Encodable) : t.marshal = .ok (.string t.format) := by
    obtain ⟨h0, h1, h2⟩ := ht
    rw [Time.marshal, if_neg (by omega), if_neg (by omega)]
  rw [PolicyRecord.json, hm hc, hm hu]
  exact ⟨_, rfl⟩

theorem carried_copyWith {p : PolicyRecord} (h0 : 0 ≤ p.spec.limits.requestsPerMinute)
    (h : p.spec.limits.requestsPerMinute ≤ 4294967295) :
    Carried p (copyWith p.toPolicy p.spec.limits.requestsPerMinute.toNat) := by
  refine ⟨⟨rfl, rfl, rfl, rfl, rfl⟩, rfl, ?_, rfl⟩
  simp only [copyWith, UInt32.toNat_ofNat']
  omega

theorem limit_pos_of_validate {s : ControlPlane.PolicySpec} (h : s.validate = .ok ()) :
    0 < s.limits.requestsPerMinute := by
  unfold ControlPlane.PolicySpec.validate at h
  split_ifs at h with h1 h2 h3 h4 h5
  omega

/-- The values a list of policies is encoded to, and what is decoded from them. -/
theorem mapM_json {ps : List PolicyRecord}
    (h : ∀ p ∈ ps, p.spec.validate = .ok () ∧ p.spec.limits.requestsPerMinute ≤ 4294967295 ∧
      p.createdAt.Encodable ∧ p.updatedAt.Encodable) :
    ∃ vs qs, ps.mapM PolicyRecord.json = .ok vs ∧ vs.mapM Gateway.decodePolicy = .ok qs ∧
      List.Forall₂ Carried ps qs := by
  induction ps with
  | nil => exact ⟨[], [], rfl, rfl, .nil⟩
  | cons p ps ih =>
      obtain ⟨vs, qs, hvs, hqs, hall⟩ := ih fun q hq => h q (List.mem_cons_of_mem p hq)
      obtain ⟨hval, hlim, hc, hu⟩ := h p List.mem_cons_self
      have hpos := limit_pos_of_validate hval
      obtain ⟨v, hv⟩ := json_eq_ok hc hu
      have hn : unsigned Gateway.maxU32 (.int p.spec.limits.requestsPerMinute) =
          .ok p.spec.limits.requestsPerMinute.toNat := unsigned_int (Int.le_of_lt hpos) hlim
      have hq : Gateway.decodePolicy v =
          .ok (copyWith p.toPolicy p.spec.limits.requestsPerMinute.toNat) := by
        rw [decodePolicy_json hv, hn, map_ok]
      refine ⟨v :: vs, _ :: qs, ?_, ?_, .cons (carried_copyWith (Int.le_of_lt hpos) hlim) hall⟩
      · rw [List.mapM_cons, hv, hvs]
        rfl
      · rw [List.mapM_cons, hq, hqs]
        rfl

/-- **Policies survive the wire.** A list of valid policies with limits below `2^32` and times that
RFC 3339 can write is encoded, and the gateway decodes it to the same policies in the same order. -/
theorem policies_round_trip {ps : List PolicyRecord}
    (h : ∀ p ∈ ps, p.spec.validate = .ok () ∧ p.spec.limits.requestsPerMinute ≤ 4294967295 ∧
      p.createdAt.Encodable ∧ p.updatedAt.Encodable) :
    ∃ text qs, encodePolicies ps = .ok text ∧ Gateway.decodePolicies text = .ok qs ∧
      List.Forall₂ Carried ps qs := by
  obtain ⟨vs, qs, hvs, hqs, hall⟩ := mapM_json h
  refine ⟨print goEscaper (.array vs), qs, ?_, ?_, hall⟩
  · rw [encodePolicies, hvs]
    rfl
  · rw [Gateway.decodePolicies, parse_print]
    exact hqs

/-- A policy for one role with the given limit. -/
def samplePolicy (limit : ℤ) : PolicyRecord where
  id := "p-1"
  name := "chat"
  spec := ⟨"chat <all>", ⟨["dev"], [], []⟩, ["openai"], ["gpt-4o"], ⟨limit, 0, 5⟩,
    ⟨true, false, false, 30⟩⟩
  version := 1
  createdAt := ⟨2024, 5, 17, 9, 30, 0, 120000000, 0⟩
  updatedAt := ⟨2024, 5, 17, 9, 30, 0, 0, 0⟩
  createdBy := "admin"

theorem policies_round_trip_sample :
    ∃ text qs, encodePolicies [samplePolicy 60] = .ok text ∧
      Gateway.decodePolicies text = .ok qs ∧ List.Forall₂ Carried [samplePolicy 60] qs := by
  refine policies_round_trip fun p hp => ?_
  obtain rfl := List.mem_singleton.mp hp
  exact ⟨rfl, by decide, by simp [samplePolicy, Time.Encodable],
    by simp [samplePolicy, Time.Encodable]⟩

/-- A policy from the year `10000`. -/
def latePolicy : PolicyRecord :=
  { samplePolicy 60 with createdAt := ⟨10000, 1, 1, 0, 0, 0, 0, 0⟩ }

/-- A limit of `2^32` passes `Validate` and makes the gateway reject the list; a time after the year
`9999` cannot be encoded. -/
theorem large_limit_and_late_time_fail :
    ((samplePolicy 4294967296).spec.validate = .ok () ∧
      ∃ text, encodePolicies [samplePolicy 4294967296] = .ok text ∧
        ∀ qs, Gateway.decodePolicies text ≠ .ok qs) ∧
      latePolicy.spec.validate = .ok () ∧ ∀ text, encodePolicies [latePolicy] ≠ .ok text := by
  obtain ⟨v, hv⟩ : ∃ v, (samplePolicy 4294967296).json = .ok v := ⟨_, rfl⟩
  have hd : Gateway.decodePolicy v = .error "invalid value: integer out of range" := by
    rw [decodePolicy_json hv]
    rfl
  refine ⟨⟨rfl, print goEscaper (.array [v]), ?_, fun qs hq => ?_⟩, rfl, fun text ht => ?_⟩
  · rw [encodePolicies, List.mapM_cons, hv]
    rfl
  · rw [Gateway.decodePolicies, parse_print] at hq
    have hvec : vec Gateway.decodePolicy (.array [v]) =
        .error "invalid value: integer out of range" := by
      simp [vec, List.mapM_cons, hd]
    cases hvec.symm.trans hq
  · cases ht

end RoundTrip

end AppGate
