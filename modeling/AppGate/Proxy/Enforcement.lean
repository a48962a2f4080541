import AppGate.Prompt.Inspect
import AppGate.Proxy.Body

/-!
# The policy of the proxy

`Config` has a policy for prompts, and `LLMProxy` builds an engine from it and puts the engine's
middleware in front of its handlers. The middleware of `internal/policy/engine.go` calls the next
handler for every method; nothing calls `InspectPrompt`.

* `engineMiddleware`, `auditMiddleware`, `policyChain`, `serveWithPolicy`: the whole chain;
* `string_forwarded`: the strings of a body that is forwarded;
* `Admitted`, **`policy_not_enforced`**: which chat requests are sent on, and with which prompts.
-/

set_option autoImplicit false

namespace AppGate.LLMProxy

open NetHttp
open Json (Value Step Node mapFields sortKeys)

/-! ## The chain -/

/-- A handler behind the middlewares that read the claims. -/
abbrev Handler := NetHttp.Request → Handled

/-- `Engine.Middleware`: only bodies of `POST` requests are to be inspected. -/
def engineMiddleware (_cfg : Prompt.Config) (next : Handler) : Handler := fun r =>
  if r.method ≠ "POST" then next r
  else
    -- the inspection is left to the handler
    next r

/-- `auditMiddleware`: the wrapped writer keeps a status that nothing reads. -/
def auditMiddleware (next : Handler) : Handler := fun r => next r

section

variable {Key : Type} (lib : Library Key) (p : LLMProxy Key) (env : Env) (cfg : Prompt.Config)

/-- The four middlewares of the subrouter. -/
def policyChain (r : NetHttp.Request) (next : Claims → Handler) : Handled :=
  apiChain lib p env r fun claims => engineMiddleware cfg (auditMiddleware (next claims)) r

/-- `ServeHTTP` of a proxy with this policy. -/
def serveWithPolicy (fallback : NetHttp.Request → Response) (r : NetHttp.Request) : Handled :=
  if r.method = "GET" ∧ r.path = "/healthz" then
    .plain ⟨200, "\x7b\"status\":\"healthy\"\x7d", []⟩
  else if r.method = "GET" ∧ r.path = "/readyz" then handleReady env
  else if r.method = "GET" ∧ r.path = "/metrics" then .plain ⟨200, env.metrics, []⟩
  else if r.method = "POST" ∧ r.path = "/v1/chat/completions" then
    policyChain lib p env cfg r fun claims r => handleChatCompletions lib p env claims r
  else if r.method = "POST" ∧ r.path = "/v1/embeddings" then
    policyChain lib p env cfg r fun _ _ => handleEmbeddings
  else if r.method = "GET" ∧ r.path = "/v1/models" then
    policyChain lib p env cfg r fun _ _ => handleModels
  else ⟨[], [], [], .own (fallback r)⟩

variable {lib p env cfg}

theorem engineMiddleware_eq (next : Handler) : engineMiddleware cfg next = next := by
  funext r
  unfold engineMiddleware
  split_ifs <;> rfl

theorem serveWithPolicy_eq (fallback : NetHttp.Request → Response) (r : NetHttp.Request) :
    serveWithPolicy lib p env cfg fallback r = serveHTTP lib p env fallback r := by
  simp only [serveWithPolicy, serveHTTP, policyChain, engineMiddleware_eq, auditMiddleware]

/-! ## Strings -/

variable {frac : Fractions}

theorem node_roundTrip_string {v : Value} {s : String} (h : v.node = .string s) :
    (roundTrip frac v).node = .string s := by
  cases v with
  | string t => exact h
  | _ => cases h

/-- Decoding and encoding keep every string of a document. -/
theorem string_roundTrip {v : Value} (hd : v.Distinct) {path : List Step} {s : String}
    (h : v.nodeAt path = some (.string s)) :
    (roundTrip frac v).nodeAt path = some (.string s) := by
  rw [Value.nodeAt, Option.map_eq_some_iff] at h
  obtain ⟨u, hu, hs⟩ := h
  rw [Value.nodeAt, at?_roundTrip hd, hu]
  exact congrArg some (node_roundTrip_string hs)

/-- So does the clamp of `max_tokens`, which changes a number. -/
theorem string_encode {name : String} {v : Value} (hd : v.Distinct) {path : List Step} {s : String}
    (h : v.nodeAt path = some (.string s)) :
    (interfaceEncoder frac (clampField name (valueInterface frac v))).nodeAt path =
      some (.string s) := by
  have hclamp : clampField name (valueInterface frac v) = valueInterface frac v := by
    cases v with
    | number n =>
        -- a number has no strings in it
        cases path with
        | nil => cases h
        | cons step path => cases step <;> cases h
    | array vs => rw [valueInterface_array]; rfl
    | object fields => rw [valueInterface_object]; rfl
    | _ => rfl
  rw [hclamp]
  exact string_roundTrip hd h

/-- Every string of the body is forwarded, where it was. -/
theorem string_forwarded {fields : List (String × Value)} (hd : (Value.object fields).Distinct)
    {path : List Step} {s : String} (h : (Value.object fields).nodeAt path = some (.string s)) :
    (forwarded frac fields).nodeAt path = some (.string s) := by
  cases path with
  | nil => cases h
  | cons step path =>
      cases step with
      | index i => cases h
      | key name =>
          rw [Json.nodeAt_cons] at h ⊢
          obtain ⟨v, hv, hs⟩ := Option.bind_eq_some_iff.mp h
          rw [child_forwarded hd.nodup, hv]
          exact string_encode (hd.child hv) hs

/-! ## What is sent -/

/-- What a chat request must have to be sent on: the route, a token, room within the limit, a body
that is an object, an upstream, and no upgrade that the reverse proxy refuses. -/
structure Admitted (lib : Library Key) (p : LLMProxy Key) (env : Env) (r : NetHttp.Request) :
    Prop where
  route : r.method = "POST" ∧ r.path = "/v1/chat/completions"
  token : ∃ claims, (validator lib p env).authenticate (r.header.get "Authorization") = .ok claims
  rate : (p.rateLimiter.verdict env.redis env.clock).allowed = true
  body : ∃ body m modifiedBody, readAll maxBytes r.body = .ok body ∧
    lib.json.unmarshal body = .ok m ∧ lib.json.marshal (clampMaxTokens m) = .ok modifiedBody
  upstream : p.upstreams ≠ []
  upgrade : isPrint (upgradeType r.header) = true

theorem isPrint_of_outgoing {url : URL} {r : NetHttp.Request} {body : Bytes} {out : Outgoing}
    (h : outgoing url r body = some out) : isPrint (upgradeType r.header) = true := by
  unfold outgoing at h
  split_ifs at h with hp
  exact hp

theorem apiChain_of_admitted {r : NetHttp.Request} {claims : Claims} {next : Claims → Handled}
    (hc : (validator lib p env).authenticate (r.header.get "Authorization") = .ok claims)
    (hv : (p.rateLimiter.verdict env.redis env.clock).allowed = true) :
    (apiChain lib p env r next).sent = (next claims).sent := by
  simp only [apiChain, hc, Limiter.reply, hv, if_true]

theorem admitted_of_sent {fallback : NetHttp.Request → Response} {r : NetHttp.Request}
    {out : Outgoing} (h : out ∈ (serveHTTP lib p env fallback r).sent) :
    Admitted lib p env r ∧
      ∃ claims, out ∈ (handleChatCompletions lib p env claims r).sent := by
  obtain ⟨hmethod, hpath, hs⟩ := mem_sent_serveHTTP h
  obtain ⟨claims, hc, hv, hs⟩ := mem_sent_apiChain hs
  obtain ⟨body, m, url, modifiedBody, hb, hm, hu, hj, hout⟩ := mem_sent_handleChatCompletions hs
  refine ⟨⟨⟨hmethod, hpath⟩, ⟨claims, hc⟩, hv, ⟨body, m, modifiedBody, hb, hm, hj⟩, ?_, ?_⟩,
    claims, hs⟩
  · exact exists_lookup_selectUpstream_iff.mp ⟨url, hu⟩
  · rw [← upgradeType_rewrite r (selectUpstream p env) modifiedBody]
    exact isPrint_of_outgoing hout

theorem sent_of_admitted {r : NetHttp.Request} (h : Admitted lib p env r)
    (fallback : NetHttp.Request → Response) :
    ∃ out, (serveHTTP lib p env fallback r).sent = [out] := by
  obtain ⟨⟨hmethod, hpath⟩, ⟨claims, hc⟩, hv, ⟨body, m, modifiedBody, hb, hm, hj⟩, hne, hup⟩ := h
  obtain ⟨url, hu⟩ : ∃ u, p.upstreams.lookup (selectUpstream p env) = some u :=
    exists_lookup_selectUpstream_iff.mpr hne
  have hsent := sent_of_reads lib p env claims hb hm hu hj hup
  have hserve : (serveHTTP lib p env fallback r).sent =
      (handleChatCompletions lib p env claims r).sent := by
    have hchain :
        (apiChain lib p env r fun claims => handleChatCompletions lib p env claims r).sent =
          (handleChatCompletions lib p env claims r).sent := apiChain_of_admitted hc hv
    rw [← hchain]
    simp [serveHTTP, hmethod, hpath]
  rw [hserve]
  cases hs : (handleChatCompletions lib p env claims r).sent with
  | nil => simp [hs] at hsent
  | cons out rest =>
      rw [hs, List.map_cons, List.cons.injEq, List.map_eq_nil_iff] at hsent
      exact ⟨out, by rw [hsent.2]⟩

/-- **The policy is not enforced.** Whatever the policy of the proxy, a request is sent on, once,
exactly when it is admitted, and nothing is sent otherwise: no prompt is inspected. Every string of
its body, at any depth, is sent on as it is, also one that `InspectPrompt` refuses under this
policy. -/
theorem policy_not_enforced (frac : Fractions) (lib : Library Key) (hjson : lib.json = goJson frac)
    (p : LLMProxy Key) (env : Env) (cfg : Prompt.Config) (fallback : NetHttp.Request → Response)
    (r : NetHttp.Request) :
    (Admitted lib p env r → ∃ out, (serveWithPolicy lib p env cfg fallback r).sent = [out]) ∧
      (¬ Admitted lib p env r → (serveWithPolicy lib p env cfg fallback r).sent = []) ∧
      ∀ out ∈ (serveWithPolicy lib p env cfg fallback r).sent, ∀ fields,
        r.body.data.length ≤ maxBytes → Json.Denotes r.body.data (.object fields) →
        (Value.object fields).Distinct →
          ∃ w, Json.Denotes out.body w ∧ ∀ path s,
            (Value.object fields).nodeAt path = some (.string s) →
              w.nodeAt path = some (.string s) := by
  rw [serveWithPolicy_eq]
  refine ⟨fun h => sent_of_admitted h fallback, fun h => ?_,
    fun out hout fields hlen hdata hd => ?_⟩
  · rw [List.eq_nil_iff_forall_not_mem]
    exact fun out hout => h (admitted_of_sent hout).1
  · obtain ⟨-, claims, hsent⟩ := admitted_of_sent hout
    obtain ⟨-, hw⟩ := forwarded_of_sent hjson hlen hdata hd hsent
    exact ⟨_, hw, fun path s hs => string_forwarded hd hs⟩

end

/-- The fields of a body with one prompt. -/
def promptFields (prompt : String) : List (String × Value) := [("prompt", .string prompt)]

/-- A chat request with one prompt. -/
def promptRequest (prompt : String) : NetHttp.Request := jsonRequest (.object (promptFields prompt))

theorem distinct_promptFields (prompt : String) :
    (Value.object (promptFields prompt)).Distinct := by
  refine Json.distinct_object (List.nodup_singleton _) fun name v hv => ?_
  rw [promptFields, List.lookup_cons] at hv
  split at hv
  · cases hv
    intro path fields hpath
    cases path with
    | nil => cases hpath
    | cons step path => cases step <;> cases hpath
  · cases hv

theorem denotes_promptRequest (prompt : String) :
    Json.Denotes (promptRequest prompt).body.data (.object (promptFields prompt)) :=
  Json.denotes_print _ _

theorem length_jailbreak : (promptRequest "jailbreak").body.data.length ≤ maxBytes := by
  decide +kernel

theorem depth_jailbreak :
    ¬ (Value.object (promptFields "jailbreak")).depth > maxNestingDepth := by
  decide +kernel

theorem converts_jailbreak :
    converts noFractions (.object (promptFields "jailbreak")) = true := by
  decide +kernel

theorem authenticate_sample : (validator jsonLibrary sampleProxy sampleEnv).authenticate
    ((sampleRequest []).header.get "Authorization") = .ok ⟨"p1", "anonymous", "", []⟩ := by
  rfl

theorem json_jsonLibrary : jsonLibrary.json = ⟨unmarshal noFractions, marshal noFractions⟩ := rfl

theorem admitted_promptRequest {prompt : String}
    (hlen : (promptRequest prompt).body.data.length ≤ maxBytes)
    (hdepth : ¬ (Value.object (promptFields prompt)).depth > maxNestingDepth)
    (hconv : converts noFractions (.object (promptFields prompt)) = true) :
    Admitted jsonLibrary sampleProxy sampleEnv (promptRequest prompt) where
  route := ⟨rfl, rfl⟩
  token := ⟨_, authenticate_sample⟩
  rate := rfl
  body := by
    have hread : readAll maxBytes (promptRequest prompt).body =
        .ok (promptRequest prompt).body.data := by
      rw [readAll_of_err_none rfl, List.take_of_length_le hlen]
    have hun : unmarshal noFractions (promptRequest prompt).body.data = _ :=
      unmarshal_object (denotes_promptRequest prompt)
    rw [if_neg hdepth, if_pos hconv] at hun
    rw [json_jsonLibrary]
    dsimp only
    exact ⟨_, _, _, hread, hun, marshal_clampMaxTokens (List.nodup_singleton _)⟩
  upstream := List.cons_ne_nil _ _
  upgrade := show isPrint (upgradeType (sampleRequest []).header) = true by decide

/-- A prompt that the policy refuses is sent on. -/
theorem policy_not_enforced_jailbreak :
    (Prompt.inspectPrompt Strings.asciiLowering Prompt.injectionPatterns Prompt.oneMarker "project"
      (Utf8.bytes "jailbreak")).allowed = false ∧
    ∃ out w, (serveWithPolicy jsonLibrary sampleProxy sampleEnv Prompt.oneMarker
        (fun _ => ⟨404, "", []⟩) (promptRequest "jailbreak")).sent = [out] ∧
      Json.Denotes out.body w ∧ w.nodeAt [.key "prompt"] = some (.string "jailbreak") := by
  obtain ⟨hsent, -, hstrings⟩ := policy_not_enforced noFractions jsonLibrary rfl sampleProxy
    sampleEnv Prompt.oneMarker (fun _ => ⟨404, "", []⟩) (promptRequest "jailbreak")
  obtain ⟨out, hout⟩ := hsent
    (admitted_promptRequest length_jailbreak depth_jailbreak converts_jailbreak)
  obtain ⟨w, hw, hs⟩ := hstrings out (by rw [hout]; exact List.mem_singleton.mpr rfl) _
    length_jailbreak (denotes_promptRequest _) (distinct_promptFields _)
  exact ⟨Prompt.allowed_of_reason _ _ _ _ Prompt.reason_jailbreak, out, w, hout, hw, hs _ _ rfl⟩

end AppGate.LLMProxy
