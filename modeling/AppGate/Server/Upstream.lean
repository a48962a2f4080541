import AppGate.Lib.Uri

/-!
# The upstream URL of the gateway

`route_request` in `gateway/src/router.rs` joins the configured base URL, without its last slashes,
with the path and the query of the request target as hyper delivers them. The HTTP client reads the
authority back from the text.

* `Target`: a request target, with what `uri().path()` and `uri().query()` return for it;
* `upstreamUrl`, `routeRequest`: the code;
* `BaseUrl`, **`sameAuthority_iff`**: when the composed URL has the authority of the base URL.
-/

set_option autoImplicit false

namespace AppGate.Gateway.Router

open Uri

/-- A request target. The path of an absolute target is at least `/`, that of an authority target
is empty. -/
inductive Target where
  | origin (path : String) (query : Option String)
  | absolute (path : String) (query : Option String)
  | authority (query : Option String)
  | asterisk (query : Option String)
  deriving DecidableEq, Repr

/-- `req.uri().path()`. -/
def Target.path : Target → String
  | .origin path _ => "/" ++ path
  | .absolute path _ => "/" ++ path
  | .authority _ => ""
  | .asterisk _ => "*"

/-- `req.uri().query()`. -/
def Target.query : Target → Option String
  | .origin _ query => query
  | .absolute _ query => query
  | .authority query => query
  | .asterisk query => query

/-- The query with its question mark, if there is one. -/
def Target.queryText (target : Target) : String := (target.query.map fun q => "?" ++ q).getD ""

/-- `ProxyError`. -/
inductive ProxyError where
  | upstream (e : String)
  | internal (e : String)
  deriving DecidableEq, Repr

/-- The texts of `ProxyError`. -/
def ProxyError.text : ProxyError → String
  | .upstream e => "upstream error: " ++ e
  | .internal e => "internal error: " ++ e

theorem ProxyError.text_upstream (e : String) :
    (ProxyError.upstream e).text = "upstream error: " ++ e := rfl

structure Response where
  status : ℕ
  headers : List (String × String)
  body : String
  deriving DecidableEq, Repr

/-- The URL that `route_request` composes. -/
def upstreamUrl (base : String) (target : Target) : String :=
  String.ofList (trimEnd '/' base.toList) ++ target.path ++ target.queryText

/-- The body of the response to a failed request. -/
def upstreamFailureBody (e : ProxyError) : String :=
  "\x7b\"error\":\"upstream_failure\",\"message\":\"" ++ e.text ++ "\"\x7d"

/-- `route_request`, over `ProxyClient::forward` on the URL. -/
def routeRequest (forward : String → Except ProxyError Response) (base : String) (target : Target) :
    Response :=
  match forward (upstreamUrl base target) with
  | .ok resp => resp
  | .error e => ⟨502, [("content-type", "application/json")], upstreamFailureBody e⟩

/-! ## The authority -/

/-- A base URL: `scheme://authority` or `scheme://authority/path`. -/
structure BaseUrl where
  scheme : String
  authority : String
  path : Option String
  colon_notMem_scheme : ':' ∉ scheme.toList
  authority_ne : authority ≠ ""
  authority_plain : ∀ c ∈ authority.toList, isDelimiter c = false

namespace BaseUrl

def text (b : BaseUrl) : String :=
  b.scheme ++ "://" ++ b.authority ++ (b.path.map fun p => "/" ++ p).getD ""

/-- The path of the base URL consists of slashes only, if there is one. -/
def Bare (b : BaseUrl) : Prop := ∀ p ∈ b.path, ∀ c ∈ p.toList, c = '/'

/-- The characters after the authority. -/
def pathChars (b : BaseUrl) : List Char := (b.path.map fun p => '/' :: p.toList).getD []

theorem bare_iff (b : BaseUrl) : b.Bare ↔ trimEnd '/' b.pathChars = [] := by
  rw [trimEnd_eq_nil_iff, Bare, pathChars]
  cases b.path <;> simp

theorem slash_of_head?_trimEnd {b : BaseUrl} {c : Char}
    (h : (trimEnd '/' b.pathChars).head? = some c) : c = '/' := by
  have hhead := head?_of_head?_trimEnd h
  unfold pathChars at hhead
  cases hp : b.path with
  | none =>
      rw [hp] at hhead
      cases hhead
  | some p =>
      rw [hp] at hhead
      cases hhead
      rfl

/-- The characters up to the end of the authority. -/
def originChars (b : BaseUrl) : List Char :=
  b.scheme.toList ++ ':' :: '/' :: '/' :: b.authority.toList

theorem toList_text (b : BaseUrl) : b.text.toList = b.originChars ++ b.pathChars := by
  unfold text originChars pathChars
  cases b.path <;> simp

theorem getLast?_originChars (b : BaseUrl) : b.originChars.getLast? ≠ some '/' := by
  have hne : b.authority.toList ≠ [] := by simpa using b.authority_ne
  have hsplit : b.originChars = (b.scheme.toList ++ "://".toList) ++ b.authority.toList := by
    simp [originChars]
  rw [hsplit, List.getLast?_append_of_ne_nil _ hne]
  intro h
  have hplain := b.authority_plain '/' (List.mem_of_getLast? h)
  revert hplain
  decide

theorem trimEnd_text (b : BaseUrl) :
    trimEnd '/' b.text.toList = b.originChars ++ trimEnd '/' b.pathChars := by
  rw [toList_text, trimEnd_append b.getLast?_originChars]

end BaseUrl

/-- The HTTP client reads the scheme and the authority of the base URL in the composed one. -/
def SameAuthority (b : BaseUrl) (target : Target) : Prop :=
  splitAuthority (upstreamUrl b.text target).toList =
    some (b.scheme.toList, b.authority.toList)

instance (b : BaseUrl) (target : Target) : Decidable (SameAuthority b target) :=
  inferInstanceAs (Decidable (_ = _))

/-- Every path but `*` starts with a delimiter or leaves the query to do so. -/
theorem delimiter_head?_iff (target : Target) :
    (∀ c ∈ (target.path.toList ++ target.queryText.toList).head?, isDelimiter c = true) ↔
      target.path ≠ "*" := by
  cases target with
  | origin path query | absolute path query =>
      refine iff_of_true (by simp [Target.path, isDelimiter]) ?_
      intro h
      have hlist := congrArg String.toList h
      simp [Target.path] at hlist
  | authority query =>
      cases query <;> simp [Target.path, Target.queryText, Target.query, isDelimiter]
  | asterisk query => simp [Target.path, isDelimiter]

/-- **Which targets change the authority.** The composed URL has the scheme and the authority of the
base URL, unless the target is `*` and the base URL has no path, or one of slashes only. -/
theorem sameAuthority_iff (b : BaseUrl) (target : Target) :
    SameAuthority b target ↔ ¬ (target.path = "*" ∧ b.Bare) := by
  have htext : (upstreamUrl b.text target).toList =
      b.scheme.toList ++ ':' :: '/' :: '/' :: (b.authority.toList ++
        (trimEnd '/' b.pathChars ++ (target.path.toList ++ target.queryText.toList))) := by
    simp [upstreamUrl, b.trimEnd_text, BaseUrl.originChars]
  rw [SameAuthority, htext, splitAuthority_append_iff b.colon_notMem_scheme b.authority_plain,
    b.bare_iff]
  cases ht : trimEnd '/' b.pathChars with
  | nil =>
      -- the authority is followed by the path of the target
      rw [List.nil_append, delimiter_head?_iff]
      simp
  | cons c rest =>
      have hc : c = '/' := BaseUrl.slash_of_head?_trimEnd (b := b) (by rw [ht]; rfl)
      subst hc
      simp [isDelimiter]

/-- A base URL without a path. -/
def bareBase : BaseUrl :=
  ⟨"http", "api.example.com", none, by decide, by decide, by simp [isDelimiter]⟩

/-- `OPTIONS *` goes to another host. -/
theorem asterisk_changes_authority :
    ¬ SameAuthority bareBase (.asterisk none) ∧
      upstreamUrl bareBase.text (.asterisk none) = "http://api.example.com*" := by
  decide +kernel

end AppGate.Gateway.Router
