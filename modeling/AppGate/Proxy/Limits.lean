import Mathlib.Data.List.TakeDrop
import AppGate.Proxy.Handler

/-!
# Bodies over the limit

`handleChatCompletions` reads the body of the request and that of the upstream's response through a
limited reader, whose end looks like the end of the body.

* `Handled.Refused`, `handleChatCompletions_truncated`, **`oversized_not_refused`**: a request over
  the limit is handled as the request that its first 10 MiB are;
* `Answer.Intact`, `answer_of_sent`, **`intact_iff`**: the responses that are delivered intact.
-/

set_option autoImplicit false

namespace AppGate.LLMProxy

open NetHttp

theorem readAll_of_le {limit : ℕ} {s : Stream} (h : limit ≤ s.data.length) :
    readAll limit s = .ok (s.data.take limit) := if_pos h

/-- Up to the limit, a stream that ends without an error is read as it is. -/
theorem readAll_of_err_none {limit : ℕ} {s : Stream} (h : s.err = none) :
    readAll limit s = .ok (s.data.take limit) := by
  by_cases hle : limit ≤ s.data.length
  · exact readAll_of_le hle
  · rw [readAll, if_neg hle, h, List.take_of_length_le (Nat.le_of_not_le hle)]

/-! ## Requests -/

/-- The status of an answer. -/
def Answer.status : Answer → ℕ
  | .own response => response.status
  | .copied status _ _ => status

/-- The request is answered `413` and nothing is sent upstream. -/
def Handled.Refused (h : Handled) : Prop := h.answer.status = 413 ∧ h.sent = []

/-- The request whose body is the first 10 MiB. -/
def truncate (r : NetHttp.Request) : NetHttp.Request :=
  { r with body := ⟨r.body.data.take maxBytes, none⟩ }

section

variable {Key : Type} (lib : Library Key) (p : LLMProxy Key) (env : Env)

theorem serveProxy_not_refused (claims : Claims) (r : NetHttp.Request) (model name : String)
    (target : URL) (modifiedBody : Bytes) :
    ¬ (serveProxy lib env claims r model name target modifiedBody).Refused := by
  unfold serveProxy
  split
  · rintro ⟨h, -⟩
    cases h
  · split
    · rintro ⟨-, h⟩
      cases h
    · split
      · rintro ⟨-, h⟩
        cases h
      · rintro ⟨-, h⟩
        cases h

/-- A body that can be read is never answered `413`. -/
theorem not_refused_of_readAll {claims : Claims} {r : NetHttp.Request} {body : Bytes}
    (hbody : readAll maxBytes r.body = .ok body) :
    ¬ (handleChatCompletions lib p env claims r).Refused := by
  unfold handleChatCompletions
  rw [hbody]
  dsimp only
  split
  · rintro ⟨h, -⟩
    cases h
  · split
    · rintro ⟨h, -⟩
      cases h
    · split
      · rintro ⟨h, -⟩
        cases h
      · exact serveProxy_not_refused lib env claims _ _ _ _ _

/-- **The rest of a long body is not looked at.** -/
theorem handleChatCompletions_truncated {claims : Claims} {r : NetHttp.Request}
    (h : maxBytes ≤ r.body.data.length) :
    handleChatCompletions lib p env claims r =
      handleChatCompletions lib p env claims (truncate r) := by
  have hlen : maxBytes ≤ (truncate r).body.data.length := by
    simp [truncate, h]
  have htake : (truncate r).body.data.take maxBytes = r.body.data.take maxBytes := by
    rw [truncate, List.take_take, Nat.min_self]
  unfold handleChatCompletions
  rw [readAll_of_le h, readAll_of_le hlen, htake]
  rfl

/-- **Requests over the limit are not refused.** None of them is answered `413` without being sent
upstream: the first 10 MiB are handled as if they were the request. -/
theorem oversized_not_refused (claims : Claims) (r : NetHttp.Request)
    (h : maxBytes < r.body.data.length) :
    ¬ (handleChatCompletions lib p env claims r).Refused ∧
      handleChatCompletions lib p env claims r =
        handleChatCompletions lib p env claims (truncate r) :=
  ⟨not_refused_of_readAll lib p env (readAll_of_le (Nat.le_of_lt h)),
    handleChatCompletions_truncated lib p env (Nat.le_of_lt h)⟩

/-- What is sent upstream, when every step before it succeeds. -/
theorem sent_of_reads (claims : Claims) {r : NetHttp.Request} {body modifiedBody : Bytes}
    {m : GoMap} {url : URL} (hbody : readAll maxBytes r.body = .ok body)
    (hm : lib.json.unmarshal body = .ok m)
    (hurl : p.upstreams.lookup (selectUpstream p env) = some url)
    (hj : lib.json.marshal (clampMaxTokens m) = .ok modifiedBody)
    (hup : isPrint (upgradeType r.header) = true) :
    (handleChatCompletions lib p env claims r).sent.map (·.body) = [modifiedBody] := by
  simp only [handleChatCompletions, hbody, hm, hurl, hj, serveProxy, outgoing,
    upgradeType_rewrite, hup, if_true]
  split
  · rfl
  · split <;> rfl

end

/-- An empty object, padded with blanks to more than 10 MiB. -/
def paddedBody : Bytes := [123, 125] ++ List.replicate maxBytes 32

/-- Libraries that also read an empty object between blanks. -/
def paddedLibrary : Library ℕ :=
  { sampleLibrary with
    json :=
      { unmarshal := fun b =>
          if b.filter (· ≠ 32) = [123, 125] then .ok (some []) else .error "invalid character"
        marshal := fun _ => .ok [123, 125] } }

theorem length_paddedBody : maxBytes < paddedBody.length := by
  rw [paddedBody, List.length_append, List.length_replicate]
  exact Nat.lt_add_of_pos_left (by decide)

theorem oversized_not_refused_padded :
    ¬ (handleChatCompletions paddedLibrary sampleProxy sampleEnv ⟨"p1", "anonymous", "", []⟩
      (sampleRequest paddedBody)).Refused :=
  (oversized_not_refused paddedLibrary sampleProxy sampleEnv ⟨"p1", "anonymous", "", []⟩
    (sampleRequest paddedBody) length_paddedBody).1

theorem filter_take_padded (n : ℕ) (hn : 2 ≤ n) :
    ((([123, 125] : Bytes) ++ List.replicate n 32).take n).filter (· ≠ 32) = [123, 125] := by
  rw [List.take_append, List.take_replicate, List.filter_append,
    List.filter_replicate_of_neg (by decide), List.take_of_length_le hn]
  decide

theorem unmarshal_paddedBody :
    paddedLibrary.json.unmarshal (paddedBody.take maxBytes) = .ok (some []) := by
  have hle : 2 ≤ maxBytes := by decide
  have hfilter := filter_take_padded maxBytes hle
  rw [← paddedBody] at hfilter
  simp only [paddedLibrary]
  rw [if_pos hfilter]

/-- The padded body is sent upstream as the empty object. -/
theorem padded_is_forwarded :
    maxBytes < paddedBody.length ∧
      ¬ (handleChatCompletions paddedLibrary sampleProxy sampleEnv ⟨"p1", "anonymous", "", []⟩
        (sampleRequest paddedBody)).Refused ∧
      (handleChatCompletions paddedLibrary sampleProxy sampleEnv ⟨"p1", "anonymous", "", []⟩
        (sampleRequest paddedBody)).sent.map (·.body) = [[123, 125]] := by
  have hread : readAll maxBytes (sampleRequest paddedBody).body =
      .ok (paddedBody.take maxBytes) := readAll_of_le (Nat.le_of_lt length_paddedBody)
  exact ⟨length_paddedBody, not_refused_of_readAll _ _ _ hread,
    sent_of_reads _ _ _ _ hread unmarshal_paddedBody rfl rfl (by decide)⟩

/-! ## Responses -/

/-- The bytes of an answer. -/
def Answer.body : Answer → Bytes
  | .own response => response.body.toUTF8.data.toList
  | .copied _ _ body => body

/-- The `Content-Length` values of an answer. -/
def Answer.contentLength : Answer → List String
  | .own response => (response.headers.filter fun h => lower h.1 = "content-length").map Prod.snd
  | .copied _ header _ => header.values "content-length"

/-- The answer has the bytes of the upstream's body, and `Content-Length`, if it is there, is their
number. -/
def Answer.Intact (resp : UpstreamResponse) (a : Answer) : Prop :=
  a.body = resp.body.data ∧ ∀ v ∈ a.contentLength, v = toString a.body.length

section

variable {Key : Type} {lib : Library Key} {p : LLMProxy Key} {env : Env}

/-- What is written for a response whose body ends without an error. -/
theorem answer_of_sent {claims : Claims} {r : NetHttp.Request} (resp : UpstreamResponse)
    (hsent : (handleChatCompletions lib p env claims r).sent ≠ [])
    (hup : env.upstream = .ok resp) (hend : resp.body.err = none) :
    (handleChatCompletions lib p env claims r).answer =
      if resp.status = 101 then badGateway
      else .copied resp.status (removeHopByHop resp.header) (resp.body.data.take maxBytes) := by
  rcases handleChatCompletions_cases lib p env claims r with
    ⟨body, m, url, modifiedBody, -, -, -, -, heq⟩ | ⟨-, hnil⟩
  · rw [heq] at hsent ⊢
    unfold serveProxy at hsent ⊢
    split at hsent
    · exact absurd rfl hsent
    · simp only [hup, readAll_of_err_none hend]
  · exact absurd hnil hsent

/-- **Responses are delivered intact** exactly when they are within the limit and the
`Content-Length` that is passed on is right; a `101` is answered with an empty `502` instead. -/
theorem intact_iff (lib : Library Key) (p : LLMProxy Key) (env : Env) (claims : Claims)
    (r : NetHttp.Request) (resp : UpstreamResponse)
    (hsent : (handleChatCompletions lib p env claims r).sent ≠ [])
    (hup : env.upstream = .ok resp) (hend : resp.body.err = none) :
    (handleChatCompletions lib p env claims r).answer.Intact resp ↔
      if resp.status = 101 then resp.body.data = []
      else resp.body.data.length ≤ maxBytes ∧
        ∀ v ∈ (removeHopByHop resp.header).values "content-length",
          v = toString resp.body.data.length := by
  rw [answer_of_sent resp hsent hup hend]
  by_cases hstatus : resp.status = 101
  · have hempty : Answer.body badGateway = [] := by decide
    rw [if_pos hstatus, if_pos hstatus, Answer.Intact, hempty]
    constructor
    · exact fun h => h.1.symm
    · exact fun h => ⟨h.symm, fun v hv => absurd hv List.not_mem_nil⟩
  · rw [if_neg hstatus, if_neg hstatus, Answer.Intact, Answer.body, Answer.contentLength,
      List.take_eq_self_iff]
    constructor
    · rintro ⟨hle, hlength⟩
      rw [List.take_of_length_le hle] at hlength
      exact ⟨hle, hlength⟩
    · rintro ⟨hle, hlength⟩
      rw [List.take_of_length_le hle]
      exact ⟨hle, hlength⟩

end

/-- An upstream that answers `200` with the given body and its length. -/
def answering (body : Bytes) : Env :=
  { sampleEnv with
    upstream := .ok ⟨200, Header.empty.set "Content-Length" (toString body.length), ⟨body, none⟩⟩ }

theorem sent_answering (body : Bytes) :
    (handleChatCompletions sampleLibrary sampleProxy (answering body) ⟨"p1", "anonymous", "", []⟩
      (sampleRequest [123, 125])).sent ≠ [] := by
  intro h
  have hsent := sent_of_reads sampleLibrary sampleProxy (answering body)
    ⟨"p1", "anonymous", "", []⟩ (r := sampleRequest [123, 125]) rfl rfl rfl rfl (by decide)
  rw [h] at hsent
  cases hsent

/-- A short response. -/
theorem intact_short :
    (handleChatCompletions sampleLibrary sampleProxy (answering [123, 125])
      ⟨"p1", "anonymous", "", []⟩ (sampleRequest [123, 125])).answer.Intact
      ⟨200, Header.empty.set "Content-Length" "2", ⟨[123, 125], none⟩⟩ := by
  refine (intact_iff sampleLibrary sampleProxy (answering [123, 125]) ⟨"p1", "anonymous", "", []⟩
    (sampleRequest [123, 125]) _ (sent_answering _) rfl rfl).mpr ?_
  rw [if_neg (by decide)]
  exact ⟨by decide, by decide⟩

/-- One byte more than the limit. -/
def longBody : Bytes := List.replicate (maxBytes + 1) 120

/-- The response with this body. -/
def longResponse : UpstreamResponse :=
  ⟨200, Header.empty.set "Content-Length" (toString longBody.length), ⟨longBody, none⟩⟩

/-- The last byte of a response over the limit is lost, and `Content-Length` still counts it. -/
theorem long_response_is_cut :
    ¬ (handleChatCompletions sampleLibrary sampleProxy (answering longBody)
      ⟨"p1", "anonymous", "", []⟩ (sampleRequest [123, 125])).answer.Intact longResponse := by
  have hstatus : longResponse.status ≠ 101 := show 200 ≠ 101 by decide
  rw [answer_of_sent longResponse (sent_answering longBody) rfl rfl, if_neg hstatus]
  rintro ⟨hbody, -⟩
  have hlength := congrArg List.length hbody
  simp only [Answer.body, longResponse, longBody, List.length_take, List.length_replicate]
    at hlength
  omega

end AppGate.LLMProxy
