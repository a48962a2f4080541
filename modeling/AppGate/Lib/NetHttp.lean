import Mathlib.Data.List.Basic
import Mathlib.Tactic.Common
import AppGate.Lib.Json

/-!
# Headers, streams and the single-host reverse proxy of `net/http`

A header map has one entry for each name up to letter case, so it is a function of the lower-case
name. The reverse proxy clones a request, directs it at a target URL, removes the hop-by-hop
headers and adds its own; the trailers and the transfer encoding are cloned as they are, and the
transport decides by the latter which trailers it sends.

* `Header.get`, `Header.set`, `Header.del`, `AgreeOff`: a header map and two maps that agree except
  on one name;
* `Stream`, `readAll`: `io.ReadAll(io.LimitReader(r, limit))` of a stream that may end in an error;
* `Response`, `httpError`, `jsonAnswer`: what a handler writes;
* `upgradeType`, `removeHopByHop`, `direct`, `outgoing`: the request that
  `NewSingleHostReverseProxy` hands to the transport;
* `sendsTrailers`, `Outgoing.sentTrailer`: the fields that the transport sends behind the body;
* **`outgoing_values`**: a header the client did not send is not sent on, except the five the proxy
  adds.
-/

set_option autoImplicit false

namespace NetHttp

/-- The bytes of a body. -/
abbrev Bytes := List UInt8

/-- Letter case does not matter in a header name. -/
def lower (s : String) : String := String.ofList (s.toList.map Char.toLower)

/-! ## Headers -/

/-- The values of each header name. -/
@[ext] structure Header where
  values : String → List String

namespace Header

/-- A header map without entries. -/
def empty : Header := ⟨fun _ => []⟩

def get (h : Header) (name : String) : String := (h.values (lower name)).headD ""

def set (h : Header) (name value : String) : Header :=
  ⟨fun n => if n = lower name then [value] else h.values n⟩

def del (h : Header) (name : String) : Header :=
  ⟨fun n => if n = lower name then [] else h.values n⟩

/-- Two header maps that agree on every name but one. -/
def AgreeOff (name : String) (h₁ h₂ : Header) : Prop :=
  ∀ n, n ≠ lower name → h₁.values n = h₂.values n

theorem AgreeOff.set_eq {name value : String} {h₁ h₂ : Header} (h : AgreeOff name h₁ h₂) :
    h₁.set name value = h₂.set name value := by
  ext1
  funext n
  by_cases hn : n = lower name
  · simp [set, hn]
  · simp [set, hn, h n hn]

theorem AgreeOff.set {name other value : String} {h₁ h₂ : Header} (h : AgreeOff name h₁ h₂) :
    AgreeOff name (h₁.set other value) (h₂.set other value) := by
  intro n hn
  simp [Header.set, h n hn]

end Header

/-! ## Streams -/

/-- A body: its bytes, then the end of input or an error. -/
structure Stream where
  data : Bytes
  err : Option String
  deriving DecidableEq, Repr

/-- `io.ReadAll(io.LimitReader(s, limit))`: an error behind the limit is not seen. -/
def readAll (limit : ℕ) (s : Stream) : Except String Bytes :=
  if limit ≤ s.data.length then .ok (s.data.take limit)
  else
    match s.err with
    | none => .ok s.data
    | some e => .error e

/-! ## Requests -/

structure URL where
  scheme : String
  host : String
  path : String
  rawQuery : String
  deriving DecidableEq, Repr

/-- The values of each trailer field, by the lower-case name; none, if the field is not declared.
A field that is declared and not sent has no values. -/
abbrev Trailer := String → Option (List String)

/-- A request as the server hands it to a handler, with its `Trailer` as it is once the body has
been read and closed. `remoteIP` is the host of `RemoteAddr`, if that splits into host and port. -/
structure Request where
  method : String
  host : String
  path : String
  rawQuery : String
  header : Header
  body : Stream
  transferEncoding : List String
  trailer : Trailer
  remoteIP : Option String

/-- A request as the reverse proxy hands it to the transport. -/
structure Outgoing where
  method : String
  host : String
  url : URL
  header : Header
  body : Bytes
  transferEncoding : List String
  trailer : Trailer

/-- Trailers follow a body over HTTP/2, and over HTTP/1.1 one that is sent in chunks. -/
def sendsTrailers (http2 : Bool) (transferEncoding : List String) : Bool :=
  http2 || transferEncoding.head? == some "chunked"

/-- The values of a field that the transport sends behind the body. -/
def Outgoing.sentTrailer (o : Outgoing) (http2 : Bool) (name : String) : List String :=
  if sendsTrailers http2 o.transferEncoding then (o.trailer (lower name)).getD [] else []

/-! ## Answers -/

/-- What a handler writes: the status, the body, and the headers it has set. -/
structure Response where
  status : ℕ
  body : String
  headers : List (String × String) := []
  deriving DecidableEq, Repr

/-- `http.Error`: the text as a line, and its headers behind those that are set. -/
def httpError (text : String) (status : ℕ) (headers : List (String × String) := []) : Response :=
  ⟨status, text ++ "\n",
    headers ++ [("Content-Type", "text/plain; charset=utf-8"), ("X-Content-Type-Options", "nosniff")]⟩

/-- `json.NewEncoder(w).Encode(v)` behind a status. -/
def jsonAnswer (status : ℕ) (v : Json.Value) : Response :=
  ⟨status, String.ofList (Json.print Json.goEscaper v ++ ['\n']),
    [("Content-Type", "application/json")]⟩

@[simp] theorem status_httpError (text : String) (status : ℕ) (headers : List (String × String)) :
    (httpError text status headers).status = status := rfl

@[simp] theorem status_jsonAnswer (status : ℕ) (v : Json.Value) :
    (jsonAnswer status v).status = status := rfl

/-! ## The reverse proxy -/

/-- The items of a comma-separated value, without the blanks around them. -/
def items (value : String) : List String :=
  (value.toList.splitOn ',').map fun cs =>
    String.ofList (((cs.dropWhile Char.isWhitespace).reverse.dropWhile Char.isWhitespace).reverse)

/-- `httpguts.HeaderValuesContainsToken`. -/
def containsToken (values : List String) (token : String) : Bool :=
  values.any fun v => (items v).any fun i => lower i = lower token

/-- `upgradeType`. -/
def upgradeType (h : Header) : String :=
  if containsToken (h.values "connection") "Upgrade" then h.get "Upgrade" else ""

/-- `ascii.IsPrint`. -/
def isPrint (s : String) : Bool := s.toList.all fun c => ' ' ≤ c && c ≤ '~'

/-- `hopHeaders`. -/
def hopHeaders : List String :=
  ["connection", "proxy-connection", "keep-alive", "proxy-authenticate", "proxy-authorization",
    "te", "trailer", "transfer-encoding", "upgrade"]

/-- `removeHopByHopHeaders`: the names listed in `Connection`, and the known ones. -/
def removeHopByHop (h : Header) : Header :=
  ⟨fun n =>
    if n ∈ (h.values "connection").flatMap (fun v => (items v).map lower) ∨ n ∈ hopHeaders then []
    else h.values n⟩

/-- `singleJoiningSlash`. -/
def singleJoiningSlash (a b : String) : String :=
  match a.toList.getLast? == some '/', b.toList with
  | true, '/' :: rest => a ++ String.ofList rest
  | false, '/' :: _ => a ++ b
  | true, _ => a ++ b
  | false, _ => a ++ "/" ++ b

/-- The URL that the director of `NewSingleHostReverseProxy` writes. -/
def direct (target : URL) (r : Request) : URL where
  scheme := target.scheme
  host := target.host
  path := singleJoiningSlash target.path r.path
  rawQuery :=
    if target.rawQuery = "" ∨ r.rawQuery = "" then target.rawQuery ++ r.rawQuery
    else target.rawQuery ++ "&" ++ r.rawQuery

/-- The `X-Forwarded-For` entry. -/
def forwardedFor (h : Header) : Option String → Header
  | none => h
  | some ip =>
    match h.values "x-forwarded-for" with
    | [] => h.set "X-Forwarded-For" ip
    | prior => h.set "X-Forwarded-For" (", ".intercalate prior ++ ", " ++ ip)

/-- The headers that `ReverseProxy.ServeHTTP` hands to the transport. -/
def outgoingHeader (r : Request) : Header :=
  let h := removeHopByHop r.header
  let h := if containsToken (r.header.values "te") "trailers" then h.set "Te" "trailers" else h
  let up := upgradeType r.header
  let h := if up ≠ "" then (h.set "Connection" "Upgrade").set "Upgrade" up else h
  let h := forwardedFor h r.remoteIP
  if h.values "user-agent" = [] then h.set "User-Agent" "" else h

/-- The request that `ReverseProxy.ServeHTTP` makes for `target` with body `body`; none, if the
client asks for an upgrade to a protocol that is not printable. -/
def outgoing (target : URL) (r : Request) (body : Bytes) : Option Outgoing :=
  if isPrint (upgradeType r.header) then
    some ⟨r.method, r.host, direct target r, outgoingHeader r, body, r.transferEncoding, r.trailer⟩
  else none

/-- The reverse proxy passes trailers and transfer encoding on as they are. -/
theorem sentTrailer_of_outgoing {target : URL} {r : Request} {body : Bytes} {out : Outgoing}
    (h : outgoing target r body = some out) (http2 : Bool) (name : String) :
    out.sentTrailer http2 name =
      if sendsTrailers http2 r.transferEncoding then (r.trailer (lower name)).getD [] else [] := by
  unfold outgoing at h
  split_ifs at h
  cases h
  rfl

/-- The headers the proxy may add. -/
def added : List String := ["te", "connection", "upgrade", "x-forwarded-for", "user-agent"]

theorem set_values {h : Header} {name value n : String} (hn : n ≠ lower name) :
    (h.set name value).values n = h.values n := by
  simp [Header.set, hn]

theorem forwardedFor_values {h : Header} {ip : Option String} {n : String}
    (hn : n ≠ "x-forwarded-for") : (forwardedFor h ip).values n = h.values n := by
  unfold forwardedFor
  split
  · rfl
  · split <;> exact set_values hn

theorem outgoingHeader_values {r : Request} {n : String} (hn : n ∉ added) :
    (outgoingHeader r).values n = (removeHopByHop r.header).values n := by
  simp only [added, List.mem_cons, List.not_mem_nil, or_false, not_or] at hn
  obtain ⟨hte, hconn, hup, hfwd, hua⟩ := hn
  have hte : n ≠ lower "Te" := by rwa [show lower "Te" = "te" by decide]
  have hconn : n ≠ lower "Connection" := by rwa [show lower "Connection" = "connection" by decide]
  have hup : n ≠ lower "Upgrade" := by rwa [show lower "Upgrade" = "upgrade" by decide]
  have hua : n ≠ lower "User-Agent" := by rwa [show lower "User-Agent" = "user-agent" by decide]
  unfold outgoingHeader
  dsimp only
  -- each header the proxy sets has another name
  split_ifs <;>
    simp only [set_values hua, forwardedFor_values hfwd, set_values hup, set_values hconn,
      set_values hte]

/-- **Nothing but the five headers of the proxy is added.** -/
theorem outgoing_values {target : URL} {r : Request} {body : Bytes} {out : Outgoing} {n : String}
    (h : outgoing target r body = some out) (hr : r.header.values n = []) (hn : n ∉ added) :
    out.header.values n = [] := by
  unfold outgoing at h
  split_ifs at h
  cases h
  rw [outgoingHeader_values hn]
  simp [removeHopByHop, hr]

end NetHttp
