import AppGate.Lib.Split
import AppGate.Server.Proxy

/-!
# The route table of the rust-gateway

`Router::new` in `rust-gateway/src/router.rs` reads the variable `APPGATE_ROUTES`: pieces between
commas, each cut at its first two `=`. Pieces without the three parts are skipped.

* `parseRoute`, `parseRoutes`, `Router.new`: the code;
* `WrittenRoute`, `Junk`, `Piece`, `written`: what an operator writes into the variable;
* `parseRoutes_written`, **`new_written`**: the routes written are the routes read, and `select`
  takes the first that matches.
-/

set_option autoImplicit false

namespace AppGate.RustGateway

/-- `pair.splitn(3, '=')`, if it has three parts: prefix, provider and upstream. -/
def parseRoute (pair : List Char) : Option Route :=
  match Split.splitn '=' 3 pair with
  | [path, provider, upstream] =>
    some ⟨String.ofList path, String.ofList upstream, String.ofList provider⟩
  | _ => none

/-- The routes in the value of `APPGATE_ROUTES`. -/
def parseRoutes (routeEnv : String) : List Route :=
  (routeEnv.toList.splitOn ',').filterMap parseRoute

/-- `Router::new`, of the default URL and the variable `APPGATE_ROUTES` if it is set. -/
def Router.new (defaultUrl : String) (routeEnv : Option String) : Router where
  defaultUpstream := defaultUrl
  routes :=
    let routes := (routeEnv.map parseRoutes).getD []
    if routes.isEmpty then [⟨"/v1/chat/completions", defaultUrl, "openai"⟩] else routes

/-! ## Selection -/

/-- The route's prefix is a prefix of the path. -/
def Route.Matches (route : Route) (path : String) : Prop :=
  route.pathPrefix.toList <+: path.toList

/-- The upstream that `select` should choose: that of the first matching route, or the default. -/
inductive Selected (r : Router) (path : String) : Option String → Prop
  | first (before : List Route) (route : Route) (after : List Route)
      (hroutes : r.routes = before ++ route :: after) (hmatch : route.Matches path)
      (hbefore : ∀ q ∈ before, ¬ q.Matches path) : Selected r path (some route.upstream)
  | fallback (hnone : ∀ q ∈ r.routes, ¬ q.Matches path) : Selected r path (some r.defaultUpstream)

theorem selected_select (r : Router) (path : String) : Selected r path (r.select path) := by
  unfold Router.select
  split
  next route h =>
    obtain ⟨hmatch, before, after, hroutes, hbefore⟩ := List.find?_eq_some_iff_append.mp h
    refine .first before route after hroutes (List.isPrefixOf_iff_prefix.mp hmatch) ?_
    intro q hq hm
    have hnot := hbefore q hq
    rw [List.isPrefixOf_iff_prefix.mpr hm] at hnot
    cases hnot
  next h =>
    refine .fallback fun q hq hm => ?_
    exact List.find?_eq_none.mp h q hq (List.isPrefixOf_iff_prefix.mpr hm)

/-! ## What is written -/

/-- A route that can be written into the variable. -/
structure WrittenRoute extends Route where
  comma_notMem_prefix : ',' ∉ pathPrefix.toList
  equals_notMem_prefix : '=' ∉ pathPrefix.toList
  comma_notMem_provider : ',' ∉ provider.toList
  equals_notMem_provider : '=' ∉ provider.toList
  comma_notMem_upstream : ',' ∉ upstream.toList

/-- `prefix=provider=upstream`. -/
def WrittenRoute.text (route : WrittenRoute) : String :=
  route.pathPrefix ++ "=" ++ route.provider ++ "=" ++ route.upstream

/-- A piece between two commas that is not a route. -/
structure Junk where
  text : String
  comma_notMem : ',' ∉ text.toList
  equals_lt : text.toList.count '=' < 2

/-- What stands between two commas. -/
inductive Piece where
  | route (w : WrittenRoute)
  | junk (j : Junk)

namespace Piece

def text : Piece → String
  | .route w => w.text
  | .junk j => j.text

def route? : Piece → Option WrittenRoute
  | .route w => some w
  | .junk _ => none

theorem comma_notMem_text (p : Piece) : ',' ∉ p.text.toList := by
  cases p with
  | route w =>
      simp [text, WrittenRoute.text, w.comma_notMem_prefix, w.comma_notMem_provider,
        w.comma_notMem_upstream]
  | junk j => exact j.comma_notMem

end Piece

/-- The pieces, joined with commas. -/
def written (pieces : List Piece) : String := ",".intercalate (pieces.map Piece.text)

theorem splitOn_written {pieces : List Piece} (hne : pieces ≠ []) :
    (written pieces).toList.splitOn ',' = pieces.map fun p => p.text.toList := by
  have hcomma : ",".toList = [','] := rfl
  rw [written, String.toList_intercalate, hcomma, List.map_map]
  refine List.splitOn_intercalate ',' ?_ (by simpa using hne)
  intro l hl
  obtain ⟨p, -, rfl⟩ := List.mem_map.mp hl
  exact p.comma_notMem_text

/-! ## What is read -/

theorem parseRoute_text (route : WrittenRoute) :
    parseRoute route.text.toList = some route.toRoute := by
  have ht : route.text.toList =
      route.pathPrefix.toList ++
        '=' :: (route.provider.toList ++ '=' :: route.upstream.toList) := by
    simp [WrittenRoute.text]
  have hs : Split.splitn '=' 3 route.text.toList =
      [route.pathPrefix.toList, route.provider.toList, route.upstream.toList] := by
    rw [ht, Split.splitn_append_cons route.equals_notMem_prefix,
      Split.splitn_append_cons route.equals_notMem_provider]
    rfl
  simp only [parseRoute, hs, String.ofList_toList]

theorem parseRoute_of_count_lt {pair : List Char} (h : pair.count '=' < 2) :
    parseRoute pair = none := by
  have hlen := Split.length_splitn '=' 2 pair
  unfold parseRoute
  split
  next path provider upstream hs =>
    rw [hs] at hlen
    simp only [List.length_cons, List.length_nil] at hlen
    omega
  next => rfl

theorem parseRoute_piece (p : Piece) :
    parseRoute p.text.toList = p.route?.map WrittenRoute.toRoute := by
  cases p with
  | route w => exact parseRoute_text w
  | junk j => exact parseRoute_of_count_lt j.equals_lt

/-- The routes written are read in their order, and nothing else is. -/
theorem parseRoutes_written (pieces : List Piece) :
    parseRoutes (written pieces) = (pieces.filterMap Piece.route?).map WrittenRoute.toRoute := by
  rcases eq_or_ne pieces [] with rfl | hne
  · rfl
  · rw [parseRoutes, splitOn_written hne, List.filterMap_map, List.map_filterMap]
    refine List.filterMap_congr fun p _ => ?_
    exact parseRoute_piece p

theorem routes_new_written (defaultUrl : String) {pieces : List Piece}
    (hne : pieces.filterMap Piece.route? ≠ []) :
    Router.new defaultUrl (some (written pieces)) =
      ⟨defaultUrl, (pieces.filterMap Piece.route?).map WrittenRoute.toRoute⟩ := by
  simp [Router.new, parseRoutes_written, hne]

theorem filterMap_route (routes : List WrittenRoute) :
    (routes.map Piece.route).filterMap Piece.route? = routes := by
  have hroute : Piece.route? ∘ Piece.route = some := rfl
  rw [List.filterMap_map, hroute, List.filterMap_some]

/-- **The table is read as it was written.** The router has the routes written, in their order;
pieces with fewer than two `=` change nothing; and `select` gives the upstream of the first route
that matches, or the default. -/
theorem new_written (defaultUrl : String) (routes : List WrittenRoute) (hne : routes ≠ []) :
    (Router.new defaultUrl (some (written (routes.map .route)))).routes =
        routes.map WrittenRoute.toRoute ∧
      ∀ pieces : List Piece, pieces.filterMap Piece.route? = routes →
        Router.new defaultUrl (some (written pieces)) =
            Router.new defaultUrl (some (written (routes.map .route))) ∧
          ∀ path, Selected ⟨defaultUrl, routes.map WrittenRoute.toRoute⟩ path
            ((Router.new defaultUrl (some (written pieces))).select path) := by
  have hroutes := routes_new_written defaultUrl (by rwa [filterMap_route])
  rw [filterMap_route routes] at hroutes
  refine ⟨by rw [hroutes], ?_⟩
  rintro pieces rfl
  rw [hroutes, routes_new_written defaultUrl hne]
  exact ⟨rfl, fun path => selected_select _ path⟩

/-- A route whose upstream has a query. -/
def keyedRoute : WrittenRoute :=
  ⟨⟨"/v1/", "http://llm:9000/?key=a=b", "local"⟩, by decide, by decide, by decide, by decide,
    by decide⟩

theorem new_written_keyed :
    Selected ⟨"http://d", [⟨"/v1/", "http://llm:9000/?key=a=b", "local"⟩]⟩ "/v1/models"
      ((Router.new "http://d" (some (written [.junk ⟨"=", by decide, by decide⟩,
        .route keyedRoute, .junk ⟨"", by decide, by decide⟩]))).select "/v1/models") :=
  ((new_written "http://d" [keyedRoute] (by simp)).2 _ rfl).2 "/v1/models"

end AppGate.RustGateway
