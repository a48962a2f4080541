import AppGate.Lib.JsonMarked
import AppGate.Proxy.Access
import AppGate.Proxy.Codec
import AppGate.Proxy.Limits

/-!
# The body that is forwarded

`handleChatCompletions` decodes the whole body and encodes it again to limit `max_tokens`. The shape
of the document comes through, and names and strings without unpaired surrogates; an integer comes
through if it is the shortest decimal of its nearest `float64`.

* `roundTrip`, `nodeAt_roundTrip`: a value after decoding and encoding, node by node;
* `clampField`, `clampMaxTokens_eq`: the clamp, field by field;
* `Preserves`, `Representable`, **`preserves_forwarded_iff`**: where only `max_tokens` changes;
* `preserves_marked_iff`, `unicode_of_preserves`: the same of documents with any JSON strings;
* **`forwards_iff`**: the bodies of which only `max_tokens` changes.
-/

set_option autoImplicit false

namespace AppGate.LLMProxy

open NetHttp
open Json (Value Step Node mapFields sortKeys lastWins)

/-! ## Decoding and encoding -/

section

variable (frac : Fractions)

/-- A value, decoded and encoded again. -/
def roundTrip (v : Value) : Value := interfaceEncoder frac (valueInterface frac v)

variable {frac}

theorem roundTrip_array (vs : List Value) :
    roundTrip frac (.array vs) = .array (vs.map (roundTrip frac)) := by
  rw [roundTrip, valueInterface_array, interfaceEncoder, arrayEncoder_eq_map, List.map_map]
  rfl

theorem interfaceEncoder_object (fields : List (String × GoValue)) :
    interfaceEncoder frac (.object fields) =
      .object (sortKeys (mapFields (fun _ => interfaceEncoder frac) fields)) := by
  rw [interfaceEncoder, mapEncoder_eq_mapFields]

theorem roundTrip_object {fields : List (String × Value)} (h : (fields.map Prod.fst).Nodup) :
    roundTrip frac (.object fields) =
      .object (sortKeys (mapFields (fun _ => roundTrip frac) fields)) := by
  have hkeys : ((mapFields (fun _ => valueInterface frac) fields).map Prod.fst).Nodup := by
    rwa [Json.keys_mapFields]
  rw [roundTrip, valueInterface_object, Json.lastWins_of_nodup hkeys, interfaceEncoder_object,
    Json.mapFields_mapFields]
  rfl

/-- One step into a value that was decoded and encoded. -/
theorem child_roundTrip {v : Value} (h : v.Distinct) (step : Step) :
    (roundTrip frac v).child step = (v.child step).map (roundTrip frac) := by
  cases v with
  | null => cases step <;> rfl
  | bool b => cases step <;> rfl
  | number n => cases step <;> rfl
  | string s => cases step <;> rfl
  | array vs =>
      rw [roundTrip_array]
      cases step with
      | key name => rfl
      | index i => simp [Value.child]
  | object fields =>
      rw [roundTrip_object h.nodup]
      cases step with
      | key name =>
          have hkeys : ((mapFields (fun _ => roundTrip frac) fields).map Prod.fst).Nodup := by
            rw [Json.keys_mapFields]
            exact h.nodup
          rw [Value.child, Json.lookup_sortKeys hkeys, Json.lookup_mapFields]
          rfl
      | index i => rfl

theorem at?_roundTrip {v : Value} (h : v.Distinct) (path : List Step) :
    (roundTrip frac v).at? path = (v.at? path).map (roundTrip frac) := by
  induction path generalizing v with
  | nil => rfl
  | cons step path ih =>
      rw [Value.at?, Value.at?, child_roundTrip h]
      cases hu : v.child step with
      | none => rfl
      | some u => exact ih (h.child hu)

theorem converts_child {v u : Value} {step : Step} (h : converts frac v = true)
    (hu : v.child step = some u) : converts frac u = true := by
  cases v with
  | array vs =>
      cases step with
      | key name => cases hu
      | index i =>
          rw [converts_array, List.all_eq_true] at h
          exact h u (List.mem_of_getElem? hu)
  | object fields =>
      cases step with
      | key name =>
          rw [converts_object, List.all_eq_true] at h
          rw [Value.child, List.lookup_eq_some_iff] at hu
          obtain ⟨fs, gs, rfl, -⟩ := hu
          exact h (name, u) (by simp)
      | index i => cases hu
  | _ => cases step <;> cases hu

theorem valueInterface_number {n : Json.Number} (hc : converts frac (.number n) = true)
    (hint : (Value.number n).Integral) :
    valueInterface frac (.number n) = .float64 (Binary64.round n.value.num : ℚ) := by
  have hk : n.value = (n.value.num : ℚ) := (Rat.den_eq_one_iff _).mp (hint [] _ rfl) |>.symm
  have hconv : convertNumber frac n = some (Binary64.round n.value.num : ℚ) :=
    convertNumber_int hk hc
  show GoValue.float64 ((convertNumber frac n).getD 0) = _
  rw [hconv, Option.getD_some]

/-- What decoding and encoding make of a node, if a number is an integer. -/
def stored : Node → Node
  | .number q => .number (Binary64.shortest (Binary64.round q.num))
  | node => node

theorem node_roundTrip {v : Value} (hc : converts frac v = true) (hint : v.Integral) :
    (roundTrip frac v).node = stored v.node := by
  cases v with
  | number n =>
      rw [roundTrip, valueInterface_number hc hint, interfaceEncoder, Value.node,
        value_floatEncoder]
      rfl
  | array vs => rw [roundTrip_array]; rfl
  | object fields => rw [roundTrip, valueInterface_object, interfaceEncoder]; rfl
  | _ => rfl

/-- **A document after decoding and encoding**, node by node. -/
theorem nodeAt_roundTrip {v : Value} (hd : v.Distinct) (hc : converts frac v = true)
    (hint : v.Integral) (path : List Step) :
    (roundTrip frac v).nodeAt path = (v.nodeAt path).map stored := by
  rw [Value.nodeAt, Value.nodeAt, at?_roundTrip hd]
  cases hu : v.at? path with
  | none => rfl
  | some u =>
      have hcu : converts frac u = true := Json.of_at? (fun _ _ _ => converts_child) hc hu
      have hiu : u.Integral := Json.of_at? (fun _ _ _ => Value.Integral.child) hint hu
      exact congrArg some (node_roundTrip hcu hiu)

theorem distinct_roundTrip {v : Value} (hd : v.Distinct) : (roundTrip frac v).Distinct := by
  intro path fields hpath
  rw [at?_roundTrip hd] at hpath
  cases hu : v.at? path with
  | none =>
      rw [hu] at hpath
      cases hpath
  | some u =>
      rw [hu, Option.map_some, Option.some.injEq] at hpath
      cases u with
      | object gs =>
          have hgs : (gs.map Prod.fst).Nodup := hd path gs hu
          rw [roundTrip_object hgs] at hpath
          cases hpath
          exact Json.nodup_keys_sortKeys (by rwa [Json.keys_mapFields])
      | _ => cases hpath

/-! ## The clamp -/

/-- The clamp of one field. -/
def clampField (name : String) : GoValue → GoValue
  | .float64 x => if name = "max_tokens" ∧ x > 4096 then .int 4096 else .float64 x
  | v => v

theorem clampField_of_ne {name : String} (h : name ≠ "max_tokens") (v : GoValue) :
    clampField name v = v := by
  unfold clampField
  split
  · rw [if_neg fun hx => h hx.1]
  · rfl

theorem clampMaxTokens_eq {fields : List (String × GoValue)} (h : (fields.map Prod.fst).Nodup) :
    clampMaxTokens (some fields) = some (mapFields clampField fields) := by
  have hfind : GoMap.find (some fields) "max_tokens" = fields.lookup "max_tokens" := rfl
  -- the field that is looked up is the only one of its name
  have hfield {f : String × GoValue} (hf : f ∈ fields) (hname : f.1 = "max_tokens") :
      fields.lookup "max_tokens" = some f.2 :=
    (Json.lookup_eq_some_iff_mem h).mpr (hname ▸ hf)
  rw [clampMaxTokens, hfind]
  split
  next x hx =>
    split_ifs with hgt
    · refine congrArg some (List.map_congr_left fun f hf => ?_)
      split_ifs with hname
      · have hval := hfield hf hname
        rw [hx, Option.some.injEq] at hval
        rw [← hval, clampField, if_pos ⟨hname, hgt⟩]
      · rw [clampField_of_ne hname]
    · refine congrArg some (Json.mapFields_eq_self fun f hf => ?_).symm
      by_cases hname : f.1 = "max_tokens"
      · have hval := hfield hf hname
        rw [hx, Option.some.injEq] at hval
        rw [← hval, clampField, if_neg fun h => hgt h.2]
      · exact clampField_of_ne hname f.2
  next hne =>
    refine congrArg some (Json.mapFields_eq_self fun f hf => ?_).symm
    by_cases hname : f.1 = "max_tokens"
    · unfold clampField
      split
      next x hx => exact absurd (hx ▸ hfield hf hname) (hne x)
      next => rfl
    · exact clampField_of_ne hname f.2

variable (frac)

/-- The document that is forwarded for an object with these fields. -/
def forwarded (fields : List (String × Value)) : Value :=
  .object (sortKeys (mapFields
    (fun name v => interfaceEncoder frac (clampField name (valueInterface frac v))) fields))

variable {frac}

theorem marshal_clampMaxTokens {fields : List (String × Value)} (h : (fields.map Prod.fst).Nodup) :
    marshal frac (clampMaxTokens
        (some (lastWins (mapFields (fun _ => valueInterface frac) fields)))) =
      .ok (Utf8.encode (Json.print Json.goEscaper (forwarded frac fields))) := by
  have hkeys : ((mapFields (fun _ => valueInterface frac) fields).map Prod.fst).Nodup := by
    rwa [Json.keys_mapFields]
  rw [Json.lastWins_of_nodup hkeys, clampMaxTokens_eq hkeys, marshal, interfaceEncoder_object,
    Json.mapFields_mapFields, Json.mapFields_mapFields, forwarded]

/-- The field is a `max_tokens` that the handler limits. -/
def Exceeds (name : String) (v : Value) : Prop :=
  name = "max_tokens" ∧ ∃ q, v.node = .number q ∧ 4096 < q

/-- The comparison with the limit sees the number that was sent. -/
theorem lt_round_num_iff {n : Json.Number} (hint : (Value.number n).Integral) :
    4096 < Binary64.round n.value.num ↔ 4096 < n.value := by
  have hk : (n.value.num : ℚ) = n.value := (Rat.den_eq_one_iff _).mp (hint [] _ rfl)
  have hround : ((4096 : ℕ) : ℤ) < Binary64.round n.value.num ↔ ((4096 : ℕ) : ℤ) < n.value.num :=
    Binary64.lt_round_iff (by decide)
  rw [← hk]
  exact_mod_cast hround

theorem encode_of_exceeds {name : String} {v : Value} (hc : converts frac v = true)
    (hint : v.Integral) (h : Exceeds name v) :
    interfaceEncoder frac (clampField name (valueInterface frac v)) = .int 4096 := by
  obtain ⟨hname, q, hq, hgt⟩ := h
  cases v with
  | number n =>
      cases hq
      have hround : ((Binary64.round n.value.num : ℤ) : ℚ) > 4096 := by
        exact_mod_cast (lt_round_num_iff hint).mpr hgt
      rw [valueInterface_number hc hint, clampField, if_pos ⟨hname, hround⟩, interfaceEncoder]
  | _ => cases hq

theorem encode_of_not_exceeds {name : String} {v : Value} (hc : converts frac v = true)
    (hint : v.Integral) (h : ¬ Exceeds name v) :
    interfaceEncoder frac (clampField name (valueInterface frac v)) = roundTrip frac v := by
  cases v with
  | number n =>
      rw [roundTrip, valueInterface_number hc hint, clampField, if_neg]
      rintro ⟨hname, hgt⟩
      exact h ⟨hname, n.value, rfl, (lt_round_num_iff hint).mp (by exact_mod_cast hgt)⟩
  | array vs => rw [roundTrip, valueInterface_array]; rfl
  | object fields => rw [roundTrip, valueInterface_object]; rfl
  | _ => rfl

theorem child_forwarded {fields : List (String × Value)} (h : (fields.map Prod.fst).Nodup)
    (name : String) : (forwarded frac fields).child (.key name) =
      ((Value.object fields).child (.key name)).map
        fun v => interfaceEncoder frac (clampField name (valueInterface frac v)) := by
  rw [forwarded, Value.child, Value.child, Json.lookup_sortKeys, Json.lookup_mapFields]
  rwa [Json.keys_mapFields]

/-- The only change that the handler means to make: a `max_tokens` above 4096 becomes 4096. -/
def clampNode (path : List Step) : Node → Node
  | .number q => if path = [.key "max_tokens"] ∧ 4096 < q then .number 4096 else .number q
  | node => node

/-- The document `w` is `v` with `max_tokens` limited. -/
structure Preserves (v w : Value) : Prop where
  distinct : w.Distinct
  nodes : ∀ path, w.nodeAt path = (v.nodeAt path).map (clampNode path)

/-- What is forwarded at a path. -/
def sentNode (path : List Step) : Node → Node
  | .number q => if path = [.key "max_tokens"] ∧ 4096 < q then .number 4096 else stored (.number q)
  | node => node

/-- The nodes of a field that is limited. -/
theorem nodeAt_of_exceeds {name : String} {v : Value} (h : Exceeds name v) (path : List Step) :
    (Value.int 4096).nodeAt path = (v.nodeAt path).map (sentNode (.key name :: path)) := by
  obtain ⟨rfl, q, hq, hgt⟩ := h
  cases v with
  | number n =>
      cases hq
      cases path with
      | nil =>
          show some (Node.number (Json.Number.ofInt 4096).value) =
            some (sentNode _ (.number n.value))
          rw [sentNode, if_pos ⟨rfl, hgt⟩, Json.value_ofInt]
          rfl
      | cons step path => cases step <;> rfl
  | _ => cases hq

/-- The nodes of a field, as they are forwarded. -/
theorem nodeAt_encode {name : String} {v : Value} (hd : v.Distinct) (hc : converts frac v = true)
    (hint : v.Integral) (path : List Step) :
    (interfaceEncoder frac (clampField name (valueInterface frac v))).nodeAt path =
      (v.nodeAt path).map (sentNode (.key name :: path)) := by
  by_cases hex : Exceeds name v
  · rw [encode_of_exceeds hc hint hex, nodeAt_of_exceeds hex]
  · rw [encode_of_not_exceeds hc hint hex, nodeAt_roundTrip hd hc hint]
    refine Option.map_congr fun node hnode => ?_
    cases node with
    | number q =>
        rw [sentNode, if_neg]
        rintro ⟨hpath, hgt⟩
        cases hpath
        exact hex ⟨rfl, q, Option.some.inj hnode, hgt⟩
    | _ => rfl

theorem distinct_encode {name : String} {v : Value} (hd : v.Distinct)
    (hc : converts frac v = true) (hint : v.Integral) :
    (interfaceEncoder frac (clampField name (valueInterface frac v))).Distinct := by
  by_cases hex : Exceeds name v
  · rw [encode_of_exceeds hc hint hex]
    exact Json.distinct_number _
  · rw [encode_of_not_exceeds hc hint hex]
    exact distinct_roundTrip hd

/-- **The document that is forwarded**, node by node. -/
theorem nodeAt_forwarded {fields : List (String × Value)} (hd : (Value.object fields).Distinct)
    (hc : converts frac (.object fields) = true) (hint : (Value.object fields).Integral)
    (path : List Step) : (forwarded frac fields).nodeAt path =
      ((Value.object fields).nodeAt path).map (sentNode path) := by
  cases path with
  | nil => rfl
  | cons step path =>
      cases step with
      | index i => rfl
      | key name =>
          rw [Json.nodeAt_cons, Json.nodeAt_cons, child_forwarded hd.nodup]
          cases hv : (Value.object fields).child (.key name) with
          | none => rfl
          | some v => exact nodeAt_encode (hd.child hv) (converts_child hc hv) (hint.child hv) path

theorem distinct_forwarded {fields : List (String × Value)} (hd : (Value.object fields).Distinct)
    (hc : converts frac (.object fields) = true) (hint : (Value.object fields).Integral) :
    (forwarded frac fields).Distinct := by
  refine Json.distinct_object (Json.nodup_keys_sortKeys ?_) fun name w hw => ?_
  · rw [Json.keys_mapFields]
    exact hd.nodup
  · have hchild : (forwarded frac fields).child (.key name) = some w := hw
    rw [child_forwarded hd.nodup, Option.map_eq_some_iff] at hchild
    obtain ⟨v, hv, rfl⟩ := hchild
    exact distinct_encode (hd.child hv) (converts_child hc hv) (hint.child hv)

/-- Every integer of the document is the shortest decimal of its nearest `float64`, except a
`max_tokens` that is limited. -/
def Representable (v : Value) : Prop :=
  ∀ path (n : ℤ), v.nodeAt path = some (.number n) →
    (path = [.key "max_tokens"] ∧ 4096 < n) ∨ Binary64.shortest (Binary64.round n) = n

theorem preserves_forwarded_iff {fields : List (String × Value)}
    (hd : (Value.object fields).Distinct) (hc : converts frac (.object fields) = true)
    (hint : (Value.object fields).Integral) :
    Preserves (.object fields) (forwarded frac fields) ↔ Representable (.object fields) := by
  constructor
  · rintro ⟨-, hnodes⟩ path n hn
    have hnode := hnodes path
    rw [nodeAt_forwarded hd hc hint, hn, Option.map_some, Option.map_some, Option.some.injEq,
      sentNode, clampNode] at hnode
    by_cases hclamp : path = [.key "max_tokens"] ∧ 4096 < (n : ℚ)
    · exact .inl ⟨hclamp.1, by exact_mod_cast hclamp.2⟩
    · rw [if_neg hclamp, if_neg hclamp, stored, Node.number.injEq, Rat.num_intCast] at hnode
      exact .inr (by exact_mod_cast hnode)
  · intro h
    refine ⟨distinct_forwarded hd hc hint, fun path => ?_⟩
    rw [nodeAt_forwarded hd hc hint]
    refine Option.map_congr fun node hnode => ?_
    cases node with
    | number q =>
        have hk : (q.num : ℚ) = q := (Rat.den_eq_one_iff q).mp (hint path q hnode)
        rcases h path q.num (by rw [hk]; exact hnode) with ⟨hpath, hgt⟩ | hshown
        · have hgt' : 4096 < q := by
            rw [← hk]
            exact_mod_cast hgt
          rw [sentNode, clampNode, if_pos ⟨hpath, hgt'⟩, if_pos ⟨hpath, hgt'⟩]
        · rw [sentNode, clampNode, stored, hshown, hk]
    | _ => rfl

end

/-! ## Documents with unpaired surrogates -/

section

variable {v w : Value}

theorem map_marked_eq_max_tokens {path : List Step} :
    path.map Step.marked = [.key "max_tokens"] ↔ path = [.key "max_tokens"] := by
  have hkey : [Step.key "max_tokens"] = [Step.key "max_tokens"].map Step.marked := by decide
  rw [hkey]
  exact (List.map_injective_iff.mpr Step.marked_injective).eq_iff.trans (by rw [← hkey])

theorem clampNode_marked (path : List Step) (node : Node) :
    clampNode (path.map Step.marked) node.marked = (clampNode path node).marked := by
  cases node with
  | number q =>
      simp only [clampNode, Node.marked, map_marked_eq_max_tokens]
      split_ifs <;> rfl
  | _ => rfl

theorem preserves_marked_iff : Preserves v.marked w.marked ↔ Preserves v w := by
  have hpath : ∀ path, w.marked.nodeAt (path.map Step.marked) =
      (v.marked.nodeAt (path.map Step.marked)).map (clampNode (path.map Step.marked)) ↔
        w.nodeAt path = (v.nodeAt path).map (clampNode path) := by
    intro path
    have hclamp : ((v.nodeAt path).map Node.marked).map (clampNode (path.map Step.marked)) =
        ((v.nodeAt path).map (clampNode path)).map Node.marked := by
      rw [Option.map_map, Option.map_map]
      exact congrArg (Option.map · _) (funext (clampNode_marked path))
    rw [Json.nodeAt_marked, Json.nodeAt_marked, hclamp]
    exact (Option.map_injective Node.marked_injective).eq_iff
  constructor
  · rintro ⟨hd, hnodes⟩
    exact ⟨Json.distinct_marked_iff.mp hd, fun path => (hpath path).mp (hnodes _)⟩
  · rintro ⟨hd, hnodes⟩
    refine ⟨Json.distinct_marked_iff.mpr hd, fun path => ?_⟩
    by_cases hmarked : ∃ path' : List Step, path = path'.map Step.marked
    · obtain ⟨path', rfl⟩ := hmarked
      exact (hpath path').mpr (hnodes path')
    · -- a path that is not marked leads nowhere
      have hnone : ∀ u : Value, u.marked.nodeAt path = none := by
        intro u
        by_contra hsome
        obtain ⟨node, hnode⟩ := Option.ne_none_iff_exists'.mp hsome
        obtain ⟨path', -, rfl, -⟩ := Json.exists_of_nodeAt_marked hnode
        exact hmarked ⟨path', rfl⟩
      rw [hnone, hnone]
      rfl

theorem representable_marked_iff : Representable v.marked ↔ Representable v := by
  constructor
  · intro h path n hn
    have hmarked : v.marked.nodeAt (path.map Step.marked) = some (.number n) := by
      rw [Json.nodeAt_marked, hn]
      rfl
    exact (h _ n hmarked).imp_left (And.imp_left map_marked_eq_max_tokens.mp)
  · intro h path n hn
    obtain ⟨path', node, rfl, hnode, hnum⟩ := Json.exists_of_nodeAt_marked hn
    cases node with
    | number q =>
        rw [← Node.number.inj hnum] at hnode
        exact (h path' n hnode).imp_left (And.imp_left map_marked_eq_max_tokens.mpr)
    | _ => cases hnum

/-- A document of Unicode strings preserves no other one. -/
theorem unicode_of_preserves (h : Preserves v w.marked) : v.Unicode := by
  intro path node hnode
  have hsent : w.marked.nodeAt path = some (clampNode path node) := by
    rw [h.nodes, hnode, Option.map_some]
  obtain ⟨hnames, hstring⟩ := Json.unicode_marked w _ _ hsent
  refine ⟨hnames, fun s hs => hstring s ?_⟩
  subst hs
  rfl

end

/-! ## Requests -/

section

variable {Key : Type} {lib : Library Key} {p : LLMProxy Key} {env : Env}

/-- What is sent has the body and the headers that the handler has written. -/
theorem body_of_sent {claims : Claims} {r : NetHttp.Request} {o : Outgoing}
    (ho : o ∈ (handleChatCompletions lib p env claims r).sent) :
    ∃ body m, readAll maxBytes r.body = .ok body ∧ lib.json.unmarshal body = .ok m ∧
      lib.json.marshal (clampMaxTokens m) = .ok o.body ∧
      o.header = outgoingHeader (rewrite r (selectUpstream p env) o.body) := by
  obtain ⟨body, m, url, modifiedBody, hb, hm, -, hj, hout⟩ := mem_sent_handleChatCompletions ho
  unfold outgoing at hout
  split_ifs at hout
  cases hout
  exact ⟨body, m, hb, hm, hj, rfl⟩

theorem contentLength_rewrite (r : NetHttp.Request) (upstreamName : String) (body : Bytes) :
    (rewrite r upstreamName body).header.values "content-length" = [toString body.length] := by
  have hauth : "content-length" ≠ lower "Authorization" := by decide
  have hproject : "content-length" ≠ lower "X-AppGate-Project" := by decide
  have hlower : "content-length" = lower "Content-Length" := by decide
  simp only [rewrite, Header.del, Header.set, if_neg hauth, if_neg hproject, if_pos hlower]

/-- The outgoing request carries the document `v` with only `max_tokens` limited. The handler has
set `Content-Length` to the length of its body, and the header map passes on no other. -/
structure Forwards (v : Value) (rewritten : NetHttp.Request) (o : Outgoing) : Prop where
  document : ∃ w, Json.Spells o.body w ∧ Preserves v w
  contentLength : rewritten.header.get "Content-Length" = toString o.body.length
  passedOn : ∀ n ∈ o.header.values "content-length", n = toString o.body.length

theorem contentLength_passedOn {r : NetHttp.Request} {upstreamName n : String} {body : Bytes}
    (hn : n ∈ (outgoingHeader (rewrite r upstreamName body)).values "content-length") :
    n = toString body.length := by
  rw [outgoingHeader_values (by decide)] at hn
  unfold removeHopByHop at hn
  dsimp only at hn
  split_ifs at hn
  · cases hn
  · rw [contentLength_rewrite] at hn
    exact List.mem_singleton.mp hn

/-- The body that is sent for an object with distinct names. -/
theorem forwarded_of_sent {frac : Fractions} {claims : Claims} {r : NetHttp.Request}
    {fields : List (String × Value)} {o : Outgoing} (hjson : lib.json = goJson frac)
    (hlen : r.body.data.length ≤ maxBytes) (hdata : Json.Denotes r.body.data (.object fields))
    (hd : (Value.object fields).Distinct)
    (ho : o ∈ (handleChatCompletions lib p env claims r).sent) :
    converts frac (.object fields) = true ∧ Json.Denotes o.body (forwarded frac fields) := by
  obtain ⟨body, m, hbody, hm, hj, -⟩ := body_of_sent ho
  rw [hjson] at hm hj
  have hread : body = r.body.data := by
    by_cases hle : maxBytes ≤ r.body.data.length
    · rw [readAll_of_le hle, List.take_of_length_le hlen] at hbody
      cases hbody
      rfl
    · rw [readAll, if_neg hle] at hbody
      split at hbody
      · cases hbody
        rfl
      · cases hbody
  subst hread
  have hun : unmarshal frac r.body.data = .ok m := hm
  rw [unmarshal_object hdata] at hun
  split_ifs at hun with hdepth hconv
  cases hun
  have hsent : marshal frac _ = .ok o.body := hj
  rw [marshal_clampMaxTokens hd.nodup, Except.ok.injEq] at hsent
  rw [← hsent]
  exact ⟨hconv, Json.denotes_print _ _⟩

theorem forwards_iff_preserves {claims : Claims} {r : NetHttp.Request} {v w : Value}
    {o : Outgoing} (ho : o ∈ (handleChatCompletions lib p env claims r).sent)
    (hw : Json.Spells o.body w) :
    Forwards v (rewrite r (selectUpstream p env) o.body) o ↔ Preserves v w := by
  constructor
  · rintro ⟨⟨w', hw', hpres⟩, -, -⟩
    rwa [hw.unique hw']
  · intro hpres
    obtain ⟨_, _, -, -, -, hheader⟩ := body_of_sent ho
    refine ⟨⟨w, hw, hpres⟩, ?_, fun n hn => ?_⟩
    · rw [Header.get, show lower "Content-Length" = "content-length" by decide,
        contentLength_rewrite]
      rfl
    · rw [hheader] at hn
      exact contentLength_passedOn hn

/-- The body that is sent holds Unicode strings, whatever was received. -/
theorem spells_of_sent {frac : Fractions} {claims : Claims} {r : NetHttp.Request} {o : Outgoing}
    (hjson : lib.json = goJson frac) (ho : o ∈ (handleChatCompletions lib p env claims r).sent) :
    ∃ w : Value, Json.Spells o.body w.marked := by
  obtain ⟨_, m, -, -, hj, -⟩ := body_of_sent ho
  rw [hjson] at hj
  have hsent : marshal frac (clampMaxTokens m) = .ok o.body := hj
  unfold marshal at hsent
  rw [← Except.ok.inj hsent]
  exact ⟨_, Json.denotes_iff_spells.mp (Json.denotes_print _ _)⟩

/-- **Only `max_tokens` changes** in a body of integers exactly when no name or string has an
unpaired surrogate and each other integer is the shortest decimal of its nearest `float64`. -/
theorem forwards_iff (frac : Fractions) (lib : Library Key) (p : LLMProxy Key) (env : Env)
    (claims : Claims) (r : NetHttp.Request) (fields : List (String × Value)) (o : Outgoing)
    (hjson : lib.json = goJson frac) (hlen : r.body.data.length ≤ maxBytes)
    (hdata : Json.Spells r.body.data (.object fields)) (hd : (Value.object fields).Distinct)
    (hint : (Value.object fields).Integral)
    (ho : o ∈ (handleChatCompletions lib p env claims r).sent) :
    Forwards (.object fields) (rewrite r (selectUpstream p env) o.body) o ↔
      (Value.object fields).Unicode ∧ Representable (.object fields) := by
  by_cases hunicode : (Value.object fields).Unicode
  · obtain ⟨u, hu⟩ := Json.exists_marked_of_unicode hd hunicode
    obtain ⟨gs, rfl, -⟩ := Json.eq_object_of_marked hu.symm
    rw [hu] at hdata hd hint hunicode ⊢
    have hd' := Json.distinct_marked_iff.mp hd
    have hint' := Json.integral_of_marked hint
    obtain ⟨hconv, hw⟩ := forwarded_of_sent hjson hlen (Json.denotes_iff_spells.mpr hdata) hd' ho
    rw [forwards_iff_preserves ho (Json.denotes_iff_spells.mp hw), preserves_marked_iff,
      preserves_forwarded_iff hd' hconv hint', representable_marked_iff]
    exact (and_iff_right hunicode).symm
  · refine ⟨fun hforwards => absurd ?_ hunicode, fun h => absurd h.1 hunicode⟩
    obtain ⟨w, hw⟩ := spells_of_sent hjson ho
    exact unicode_of_preserves ((forwards_iff_preserves ho hw).mp hforwards)

end

/-- Integers up to 53 bits are representable. -/
theorem representable_of_lt {v : Value}
    (h : ∀ path (n : ℤ), v.nodeAt path = some (.number n) → n.natAbs < 2 ^ 53) :
    Representable v :=
  fun path n hn => .inr (Binary64.shortest_round_of_lt (h path n hn))

/-- An object of integers. -/
def flat (ints : List (String × ℤ)) : Value := .object (mapFields (fun _ => Value.int) ints)

theorem distinct_flat {ints : List (String × ℤ)} (h : (ints.map Prod.fst).Nodup) :
    (flat ints).Distinct := by
  refine Json.distinct_object (by rwa [Json.keys_mapFields]) fun name v hv => ?_
  rw [Json.lookup_mapFields, Option.map_eq_some_iff] at hv
  obtain ⟨n, -, rfl⟩ := hv
  exact Json.distinct_number _

theorem nodeAt_flat {ints : List (String × ℤ)} {path : List Step} {q : ℚ}
    (h : (flat ints).nodeAt path = some (.number q)) :
    ∃ name n, path = [.key name] ∧ ints.lookup name = some n ∧ q = (n : ℚ) := by
  cases path with
  | nil => cases h
  | cons step path =>
      rw [Json.nodeAt_cons, Option.bind_eq_some_iff] at h
      obtain ⟨v, hv, hq⟩ := h
      cases step with
      | index i => cases hv
      | key name =>
          rw [flat, Value.child, Json.lookup_mapFields, Option.map_eq_some_iff] at hv
          obtain ⟨n, hn, rfl⟩ := hv
          cases path with
          | nil =>
              refine ⟨name, n, rfl, hn, ?_⟩
              rw [← Json.value_ofInt]
              exact (Node.number.inj (Option.some.inj hq)).symm
          | cons step path => cases step <;> cases hq

theorem integral_flat (ints : List (String × ℤ)) : (flat ints).Integral := by
  intro path q h
  obtain ⟨name, n, -, -, rfl⟩ := nodeAt_flat h
  exact Rat.den_intCast n

/-- Names without NUL are marked as they are. -/
theorem marked_flat {ints : List (String × ℤ)} (h : ∀ p ∈ ints, Json.marked p.1 = p.1) :
    (flat ints).marked = flat ints := by
  rw [flat, Json.marked_object, mapFields, List.map_map]
  refine congrArg Value.object (List.map_congr_left fun p hp => ?_)
  exact Prod.ext (h p hp) rfl

theorem nodeAt_key_flat {ints : List (String × ℤ)} {name : String} {n : ℤ}
    (h : ints.lookup name = some n) : (flat ints).nodeAt [.key name] = some (.number n) := by
  rw [Value.nodeAt, Value.at?, flat, Value.child, Json.lookup_mapFields, h, ← Json.value_ofInt]
  rfl

theorem representable_flat {ints : List (String × ℤ)} (h : ∀ p ∈ ints, p.2.natAbs < 2 ^ 53) :
    Representable (flat ints) := by
  refine representable_of_lt fun path n hn => ?_
  obtain ⟨name, k, -, hk, hnk⟩ := nodeAt_flat hn
  obtain ⟨_, _, rfl, -⟩ := List.lookup_eq_some_iff.mp hk
  rw [Int.cast_inj.mp hnk]
  exact h (name, k) (by simp)

/-- `strconv` as far as the samples need it: none of their numbers is a fraction. -/
def noFractions : Fractions := ⟨fun _ => none, fun _ => .ofInt 0⟩

/-- Libraries with `encoding/json`. -/
def jsonLibrary : Library ℕ := { sampleLibrary with json := goJson noFractions }

/-- A chat request with this document. -/
def jsonRequest (v : Value) : NetHttp.Request :=
  sampleRequest (Utf8.encode (Json.print Json.goEscaper v))

theorem spells_flat {ints : List (String × ℤ)} (h : ∀ p ∈ ints, Json.marked p.1 = p.1) :
    Json.Spells (jsonRequest (flat ints)).body.data (flat ints) := by
  have hdata : Json.Denotes (jsonRequest (flat ints)).body.data (flat ints) :=
    Json.denotes_print _ _
  have hspells := Json.denotes_iff_spells.mp hdata
  rwa [marked_flat h] at hspells

theorem unicode_flat {ints : List (String × ℤ)} (h : ∀ p ∈ ints, Json.marked p.1 = p.1) :
    (flat ints).Unicode := by
  rw [← marked_flat h]
  exact Json.unicode_marked _

/-- What is sent for an object of integers that can be decoded. -/
theorem sent_flat (ints : List (String × ℤ)) (hkeys : (ints.map Prod.fst).Nodup)
    (hlen : (jsonRequest (flat ints)).body.data.length ≤ maxBytes)
    (hdepth : (flat ints).depth ≤ maxNestingDepth)
    (hconv : converts noFractions (flat ints) = true) :
    ∃ o, o ∈ (handleChatCompletions jsonLibrary sampleProxy sampleEnv ⟨"p1", "anonymous", "", []⟩
        (jsonRequest (flat ints))).sent ∧
      o.body = Utf8.encode (Json.print Json.goEscaper
        (forwarded noFractions (mapFields (fun _ => Value.int) ints))) := by
  have hread : readAll maxBytes (jsonRequest (flat ints)).body =
      .ok (jsonRequest (flat ints)).body.data := by
    rw [readAll_of_err_none rfl, List.take_of_length_le hlen]
  have hdata : Json.Denotes (jsonRequest (flat ints)).body.data (flat ints) :=
    Json.denotes_print _ _
  have hun : unmarshal noFractions (jsonRequest (flat ints)).body.data = _ := unmarshal_object hdata
  rw [← flat, if_neg (Nat.not_lt.mpr hdepth), if_pos hconv] at hun
  have hmarshal : marshal noFractions _ = _ :=
    marshal_clampMaxTokens ((Json.keys_mapFields (fun _ => Value.int) ints).symm ▸ hkeys)
  have hsent := sent_of_reads jsonLibrary sampleProxy sampleEnv ⟨"p1", "anonymous", "", []⟩ hread
    hun rfl hmarshal (show isPrint (upgradeType (sampleRequest []).header) = true by decide)
  exact List.mem_map.mp (hsent ▸ List.mem_singleton_self _)

/-- A body with small integers and a `max_tokens` that is limited. -/
theorem forwards_small :
    ∃ o, Forwards (flat [("max_tokens", 8192), ("seed", 42)])
      (rewrite (jsonRequest (flat [("max_tokens", 8192), ("seed", 42)]))
        (selectUpstream sampleProxy sampleEnv) o.body) o := by
  obtain ⟨o, ho, -⟩ := sent_flat [("max_tokens", 8192), ("seed", 42)] (by decide)
    (by decide +kernel) (by decide +kernel) (by decide +kernel)
  exact ⟨o, (forwards_iff noFractions jsonLibrary sampleProxy sampleEnv _ _ _ o rfl
    (by decide +kernel) (spells_flat (by decide)) (distinct_flat (by decide)) (integral_flat _)
    ho).mpr ⟨unicode_flat (by decide), representable_flat (by decide)⟩⟩

/-- The seed `2 ^ 53 + 1` is forwarded as `2 ^ 53`. -/
theorem seed_is_changed :
    (jsonRequest (flat [("seed", 9007199254740993)])).body.data =
        Utf8.bytes "\x7b\"seed\":9007199254740993\x7d" ∧
      ∃ o, o ∈ (handleChatCompletions jsonLibrary sampleProxy sampleEnv
          ⟨"p1", "anonymous", "", []⟩ (jsonRequest (flat [("seed", 9007199254740993)]))).sent ∧
        o.body = Utf8.bytes "\x7b\"seed\":9007199254740992\x7d" ∧
        ¬ Forwards (flat [("seed", 9007199254740993)])
          (rewrite (jsonRequest (flat [("seed", 9007199254740993)]))
            (selectUpstream sampleProxy sampleEnv) o.body) o := by
  have hconv : converts noFractions (flat [("seed", 9007199254740993)]) = true := by
    decide +kernel
  have hd : (flat [("seed", 9007199254740993)]).Distinct := distinct_flat (by decide)
  obtain ⟨o, ho, hbody⟩ := sent_flat [("seed", 9007199254740993)] (by decide)
    (by decide +kernel) (by decide +kernel) hconv
  refine ⟨by rw [Utf8.bytes_eq_encode]; rfl, o, ho, ?_, fun h => ?_⟩
  · rw [hbody, Utf8.bytes_eq_encode]
    congr 1
    decide +kernel
  · have hw : Json.Denotes o.body (forwarded noFractions
        (mapFields (fun _ => Value.int) [("seed", 9007199254740993)])) := by
      rw [hbody]
      exact Json.denotes_print _ _
    have hpres := (forwards_iff_preserves ho (Json.denotes_iff_spells.mp hw)).mp h
    rw [← marked_flat (by decide), preserves_marked_iff] at hpres
    have hrep := (preserves_forwarded_iff hd hconv (integral_flat _)).mp hpres
    rcases hrep [.key "seed"] 9007199254740993 (nodeAt_key_flat rfl) with ⟨hpath, -⟩ | hshown
    · exact absurd hpath (by decide)
    · exact absurd hshown (by decide +kernel)

end AppGate.LLMProxy
