import AppGate.Lib.JsonRaw
import AppGate.Server.Proxy
import AppGate.Server.Upstream

/-!
# Error bodies

`proxy_error_response` of the rust-gateway and `route_request` of the gateway format their bodies
with the text of the error between quotes. The text of an upstream error has the URL of the request
in it, and so the query of the client.

* `Holds`: a body is a JSON object with some fields;
* `proxyErrorBody_eq`, `upstreamFailureBody_eq`: the bodies as objects with unescaped strings;
* **`error_bodies_iff`**: when the bodies hold the strings they were formatted with.
-/

set_option autoImplicit false

namespace AppGate.ErrorBody

open Json RustGateway Gateway.Router

/-- The body is a JSON object that has the strings at the names. -/
def Holds (body : String) (fields : List (String × String)) : Prop :=
  ∃ fs, parse body.toList = some (.object fs) ∧ ∀ f ∈ fields, fs.lookup f.1 = some (.string f.2)

-- `delta`: the equation lemma of a definition with long literals is slow to make
theorem proxyErrorBody_eq (code message requestId : String) :
    (proxyErrorBody code message requestId).toList =
      rawObject [("error", code), ("message", message), ("request_id", requestId)] := by
  delta proxyErrorBody
  simp only [rawObject, items, moreItems, rawField, rawString, List.map_cons, List.map_nil,
    String.toList_append, String.reduceToList, List.append_assoc, List.cons_append,
    List.nil_append]

theorem upstreamFailureBody_eq (e : Gateway.Router.ProxyError) :
    (upstreamFailureBody e).toList =
      rawObject [("error", "upstream_failure"), ("message", e.text)] := by
  delta upstreamFailureBody
  simp only [rawObject, items, moreItems, rawField, rawString, List.map_cons, List.map_nil,
    String.toList_append, String.reduceToList, List.append_assoc, List.cons_append,
    List.nil_append]

theorem plain_names : Plain "error" ∧ Plain "message" ∧ Plain "request_id" ∧
    Plain "upstream_failure" := by
  simp [Plain, special]

theorem holds_proxyErrorBody_iff (code message requestId : String) :
    Holds (proxyErrorBody code message requestId)
        [("error", code), ("message", message), ("request_id", requestId)] ↔
      Plain code ∧ Plain message ∧ Plain requestId := by
  obtain ⟨herror, hmessage, hid, -⟩ := plain_names
  rw [Holds, proxyErrorBody_eq, parse_rawObject_iff (by simp)]
  simp [herror, hmessage, hid]

/-- The first field of the body of `route_request` is read back, whatever the text of the error. -/
theorem lookup_error {e : Gateway.Router.ProxyError} {fs : List (String × Value)}
    (h : parse (upstreamFailureBody e).toList = some (.object fs)) :
    fs.lookup "error" = some (.string "upstream_failure") := by
  obtain ⟨herror, -, -, hcode⟩ := plain_names
  rw [upstreamFailureBody_eq] at h
  obtain ⟨gs, hgs⟩ := parse_rawObject_head (f := ("error", "upstream_failure")) ⟨herror, hcode⟩ h
  cases hgs
  rfl

theorem holds_upstreamFailureBody_iff (e : Gateway.Router.ProxyError) :
    Holds (upstreamFailureBody e) [("message", e.text)] ↔ Plain e.text := by
  obtain ⟨herror, hmessage, -, hcode⟩ := plain_names
  have hboth : Holds (upstreamFailureBody e) [("message", e.text)] ↔
      Holds (upstreamFailureBody e) [("error", "upstream_failure"), ("message", e.text)] := by
    refine exists_congr fun fs => and_congr_right fun h => ?_
    simp [lookup_error h]
  rw [hboth, Holds, upstreamFailureBody_eq, parse_rawObject_iff (by simp)]
  simp [herror, hmessage, hcode]

end AppGate.ErrorBody
