import AppGate.Api.Decoder
import AppGate.Audit.Delivery
import AppGate.Policy.Distribution

/-!
# From the gateways' audit events to the control plane

The worker of a gateway posts its batches to `/v1/audit/batch`, where `HandleAuditBatch`
(`control-plane/internal/api/api.go`) answers with the number of events it has decoded. A request
or its answer may be lost on the way.

* `decodeBatch`, `handleAuditBatch`: the endpoint;
* `Wire`: a type of events as `serde` writes it; `rustGatewayWire`, `gatewayWire`: the two gateways;
* **`decodeBatch_body`**: every batch is decoded, with all its events;
* `Event`, `System`, `system`: a gateway, the network and the control plane;
* **`ingested_exactly_once`**: the events that the control plane has counted.
-/

set_option autoImplicit false

namespace AppGate.AuditIngest

open Json Lts Audit.Delivery

/-! ## The endpoint -/

section

variable (frac : LLMProxy.Fractions)

/-- A `map[string]interface{}`. -/
def isMap : Value → Bool
  | .object fields => LLMProxy.converts frac (.object fields)
  | .null => true
  | _ => false

/-- The length of the events that `HandleAuditBatch` decodes. -/
def decodeBatch (body : List UInt8) : Except String ℕ := do
  match ← Api.decode body with
  | .array vs =>
    if vs.all (isMap frac) then .ok vs.length else .error "json: cannot unmarshal into Go value"
  | .null => .ok 0
  | _ => .error "json: cannot unmarshal into Go value of type []map[string]interface \x7b\x7d"

/-- `HandleAuditBatch`, for a fresh identifier. -/
def handleAuditBatch (batchID : String) (body : List UInt8) : NetHttp.Response :=
  match decodeBatch frac body with
  | .error e =>
    NetHttp.httpError ("\x7b\"error\":\"invalid_json\",\"message\":\"" ++ e ++ "\"\x7d") 400
  | .ok n => NetHttp.jsonAnswer 200 (.object [("batch_id", .string batchID),
      ("ingested", .int n), ("status", .string "ok")])

/-! ## Events on the wire -/

variable {frac}

/-- A value that the endpoint takes, nested at most `n` deep. -/
structure Fits (frac : LLMProxy.Fractions) (n : ℕ) (v : Value) : Prop where
  converts : LLMProxy.converts frac v = true
  depth : v.depth ≤ n

@[simp] theorem fits_string (n : ℕ) (s : String) : Fits frac n (.string s) := ⟨rfl, Nat.zero_le n⟩

@[simp] theorem fits_option (n : ℕ) (s : Option String) :
    Fits frac n ((s.map .string).getD .null) := by
  cases s with
  | none => exact ⟨rfl, Nat.zero_le n⟩
  | some s => exact fits_string n s

@[simp] theorem fits_uint8 (n : ℕ) (k : UInt8) : Fits frac n (.int k.toNat) := by
  have hk : (k.toNat : ℤ).natAbs < 2 ^ 53 := by
    have := k.toNat_lt
    omega
  have hfloat : LLMProxy.convertNumber frac (.ofInt k.toNat) = some ((k.toNat : ℤ) : ℚ) := by
    unfold LLMProxy.convertNumber
    rw [value_ofInt, Rat.den_intCast, Rat.num_intCast, if_pos rfl, Binary64.round_of_lt hk]
    exact if_pos (Binary64.lt_two_pow hk (by decide))
  refine ⟨?_, Nat.zero_le n⟩
  show (LLMProxy.convertNumber frac (.ofInt k.toNat)).isSome = true
  rw [hfloat]
  rfl

theorem fits_object {n : ℕ} {fields : List (String × Value)} (h : ∀ f ∈ fields, Fits frac n f.2) :
    Fits frac (n + 1) (.object fields) := by
  refine ⟨?_, depth_object_le fun f hf => (h f hf).depth⟩
  rw [LLMProxy.converts_object, List.all_eq_true]
  exact fun f hf => (h f hf).converts

@[simp] theorem fits_strings (n : ℕ) (ss : List String) : Fits frac (n + 1) (.strings ss) := by
  refine ⟨?_, depth_array_le fun v hv => ?_⟩
  · rw [Value.strings, LLMProxy.converts_array, List.all_map, List.all_eq_true]
    exact fun _ _ => rfl
  · obtain ⟨s, -, rfl⟩ := List.mem_map.mp hv
    exact Nat.zero_le n

/-- How a type of events is written. -/
structure Wire (frac : LLMProxy.Fractions) (ε : Type) where
  fields : ε → List (String × Value)
  fits : ∀ e, Fits frac 3 (.object (fields e))

def Wire.json {ε : Type} (w : Wire frac ε) (e : ε) : Value := .object (w.fields e)

/-- `json(batch)` of `reqwest`. -/
def body {ε : Type} (w : Wire frac ε) (batch : List ε) : List UInt8 :=
  Utf8.encode (print serdeEscaper (.array (batch.map w.json)))

/-- **Every batch is decoded.** -/
theorem decodeBatch_body {ε : Type} (w : Wire frac ε) (batch : List ε) :
    decodeBatch frac (body w batch) = .ok batch.length := by
  have hdepth : (Value.array (batch.map w.json)).depth ≤ LLMProxy.maxNestingDepth := by
    refine Nat.le_trans (depth_array_le (n := 3) fun v hv => ?_) (by decide)
    obtain ⟨e, -, rfl⟩ := List.mem_map.mp hv
    exact (w.fits e).depth
  have hstops : Stops [] := by
    intro c hc
    cases hc
  have hdecode : Api.decode (body w batch) = .ok (.array (batch.map w.json)) := by
    have h : Api.decode (Utf8.encode (print serdeEscaper (.array (batch.map w.json)) ++ [])) = _ :=
      Api.decode_print serdeEscaper rfl hdepth hstops
    rwa [List.append_nil] at h
  have hall : (batch.map w.json).all (isMap frac) = true := by
    rw [List.all_map]
    exact List.all_eq_true.mpr fun e _ => (w.fits e).converts
  simp only [decodeBatch, hdecode, Fallible.ok_bind, if_pos hall, List.length_map]

/-! ## The two gateways -/

/-- A map of strings. -/
def stringMapJson (m : List (String × String)) : Value :=
  .object (m.map fun p => (p.1, .string p.2))

@[simp] theorem fits_stringMap (n : ℕ) (m : List (String × String)) :
    Fits frac (n + 1) (stringMapJson m) := by
  refine fits_object fun f hf => ?_
  obtain ⟨p, -, rfl⟩ := List.mem_map.mp hf
  exact fits_string n p.2

/-- `AuditEvent` of the rust-gateway. -/
def eventFields (e : AuditEvent) : List (String × Value) :=
  [("event_type", .string e.eventType), ("actor_id", .string e.actorId),
    ("action", .string e.action), ("resource", .string e.resource), ("result", .string e.result),
    ("correlation_id", .string e.correlationId), ("source", .string e.source),
    ("metadata", stringMapJson e.metadata)]

def rustGatewayWire (frac : LLMProxy.Fractions) : Wire frac AuditEvent where
  fields := eventFields
  fits e := fits_object (by simp [eventFields])

/-- The fields of `AuditEvent` in the gateway, with those of its parts. -/
structure GatewayEvent where
  eventType : String
  eventTime : String
  severity : UInt8
  actorId : String
  actorType : String
  actorRoles : List String
  tenantId : Option String
  actionName : String
  actionType : String
  resourceType : String
  resourceName : String
  provider : String
  model : String
  status : String
  reason : String
  policyId : Option String
  correlationId : String
  metadata : List (String × String)
  deriving DecidableEq, Repr

/-- `AuditEvent` of the gateway. -/
def gatewayFields (e : GatewayEvent) : List (String × Value) :=
  [("event_type", .string e.eventType), ("event_time", .string e.eventTime),
    ("severity", .int e.severity.toNat),
    ("actor", .object [("id", .string e.actorId), ("type", .string e.actorType),
      ("roles", .strings e.actorRoles), ("tenant_id", (e.tenantId.map .string).getD .null)]),
    ("action", .object [("name", .string e.actionName), ("type", .string e.actionType)]),
    ("resource", .object [("type", .string e.resourceType), ("name", .string e.resourceName),
      ("provider", .string e.provider), ("model", .string e.model)]),
    ("result", .object [("status", .string e.status), ("reason", .string e.reason),
      ("policy_id", (e.policyId.map .string).getD .null)]),
    ("correlation_id", .string e.correlationId), ("metadata", stringMapJson e.metadata)]

def gatewayWire (frac : LLMProxy.Fractions) : Wire frac GatewayEvent where
  fields := gatewayFields
  fits e := fits_object (by simp [gatewayFields, fits_object])

/-! ## The system -/

/-- What becomes of a POST: it is answered, or the answer is lost, or the request is. -/
inductive Post where
  | served
  | answerLost
  | requestLost
  deriving DecidableEq, Repr

inductive Event (ε : Type) where
  | record (event : ε)
  | recv
  | tick
  | posted (post : Post)
  deriving DecidableEq, Repr

/-- What the worker sees, for the status that the control plane answers with. -/
def Event.act {ε : Type} (status : ℕ) : Event ε → Act ε
  | record event => .record event
  | recv => .recv
  | tick => .tick
  | posted .served => .answered (.status status)
  | posted _ => .answered .transportError

/-- A worker and the control plane: the sum of the counts it has answered with, and the history of
the events in the bodies that arrived and in those that did not. -/
structure System (ε : Type) where
  worker : State ε
  ingested : ℕ
  arrived : List ε
  missed : List ε

/-- The count that the control plane finds in a body. -/
def countOf (frac : LLMProxy.Fractions) (request : List UInt8) : ℕ :=
  match decodeBatch frac request with
  | .ok n => n
  | .error _ => 0

variable {ε : Type} (w : Wire frac ε) (batchID : String)

def step (s : System ε) (ev : Event ε) : Option (System ε) :=
  let request := body w s.worker.batch
  let status := (handleAuditBatch frac batchID request).status
  (Audit.Delivery.step s.worker (ev.act status)).map fun t =>
    match ev with
    | .posted .requestLost => { s with worker := t, missed := s.missed ++ s.worker.batch }
    | .posted _ =>
      { s with
        worker := t
        ingested := s.ingested + countOf frac request
        arrived := s.arrived ++ s.worker.batch }
    | _ => { s with worker := t }

def system : Machine (System ε) (Event ε) := ⟨⟨(worker ε).init, 0, [], []⟩, step w batchID⟩

variable {w batchID}

theorem status_handleAuditBatch (batch : List ε) :
    (handleAuditBatch frac batchID (body w batch)).status = 200 := by
  rw [handleAuditBatch, decodeBatch_body]
  rfl

theorem countOf_body (batch : List ε) : countOf frac (body w batch) = batch.length := by
  rw [countOf, decodeBatch_body]

/-- Where the recorded events are, and what was counted of them. -/
structure Tallied (s : System ε) : Prop where
  perm : (s.arrived ++ s.missed ++ s.worker.batch ++ s.worker.channel).Perm s.worker.recorded
  ingested : s.ingested = s.arrived.length
  delivered : (delivered s.worker).Sublist s.arrived

theorem delivered_answered (s : State ε) (outcome : Outcome) :
    delivered { s with posts := s.posts ++ [(s.batch, outcome)], batch := [], posting := false } =
      delivered s ++ if outcome.isSuccess then s.batch else [] := by
  cases h : outcome.isSuccess <;> simp [delivered, h]

theorem Tallied.step {s t : System ε} {ev : Event ε} (h : Tallied s)
    (hst : (system w batchID).step s ev = some t) : Tallied t := by
  obtain ⟨hperm, hing, hdel⟩ := h
  obtain ⟨u, hu, rfl⟩ := Option.map_eq_some_iff.mp hst
  have hmove := move_of_step hu
  cases ev with
  | record event =>
      cases hmove
      refine ⟨?_, hing, hdel⟩
      simpa only [List.append_assoc] using hperm.append_right [event]
  | recv =>
      cases hmove with
      | @recv event rest hp hc =>
          refine ⟨?_, hing, hdel⟩
          rw [hc] at hperm
          simpa only [List.append_assoc, List.singleton_append] using hperm
  | tick =>
      cases hmove
      exact ⟨hperm, hing, hdel⟩
  | posted post =>
      -- the batch moves behind the events that arrived, or behind those that did not
      have harrived : (s.arrived ++ s.worker.batch ++ s.missed ++ [] ++ s.worker.channel).Perm
          s.worker.recorded := by
        refine List.Perm.trans ?_ hperm
        simp only [List.append_nil, List.append_assoc]
        refine List.Perm.append_left _ ?_
        simp only [← List.append_assoc]
        exact List.Perm.append_right _ List.perm_append_comm
      have hmissed : (s.arrived ++ (s.missed ++ s.worker.batch) ++ [] ++ s.worker.channel).Perm
          s.worker.recorded := by
        simpa only [List.append_nil, List.append_assoc] using hperm
      have hlen : s.ingested + countOf frac (body w s.worker.batch) =
          (s.arrived ++ s.worker.batch).length := by
        rw [countOf_body, List.length_append, hing]
      cases post with
      | served =>
          cases hmove
          refine ⟨harrived, hlen, ?_⟩
          rw [delivered_answered, status_handleAuditBatch]
          exact hdel.append (List.Sublist.refl _)
      | answerLost =>
          cases hmove
          refine ⟨harrived, hlen, ?_⟩
          rw [delivered_answered]
          exact hdel.append (List.nil_sublist _)
      | requestLost =>
          cases hmove
          refine ⟨hmissed, hing, ?_⟩
          rw [delivered_answered]
          simpa [Outcome.isSuccess] using hdel

/-- **Every event is counted once.** In every run, whatever is lost on the way: the counts that the
control plane has answered with add up to the number of events in the requests that arrived; these,
the events of the requests that were lost, and the events that the worker still holds are the
recorded events, each as often as it was recorded; and an event that the worker takes for delivered
has arrived. -/
theorem ingested_exactly_once {s : System ε} (h : (system w batchID).Reach s) :
    (s.arrived ++ s.missed ++ s.worker.batch ++ s.worker.channel).Perm s.worker.recorded ∧
      s.ingested = s.arrived.length ∧ (delivered s.worker).Sublist s.arrived := by
  have hinit : Tallied (system w batchID).init := by
    constructor <;> simp [system, worker, delivered]
  obtain ⟨hperm, hing, hdel⟩ := Machine.inv_reach hinit (fun s ev t => Tallied.step) h
  exact ⟨hperm, hing, hdel⟩

/-- An answer is lost: the control plane has counted an event that the worker believes rejected. -/
theorem ingested_exactly_once_unanswered :
    let frac : LLMProxy.Fractions := ⟨fun _ => none, fun _ => .ofInt 0⟩
    ∃ s, (system (rustGatewayWire frac) "batch-1").Reach s ∧ s.ingested = 1 ∧
      delivered s.worker = [] ∧ s.worker.recorded = [denial] := by
  intro frac
  obtain ⟨s, hs, harrived, hdelivered, hrecorded⟩ : ∃ s,
      (system (rustGatewayWire frac) "batch-1").exec (system (rustGatewayWire frac) "batch-1").init
        [.record denial, .recv, .tick, .posted .answerLost] = some s ∧ s.arrived = [denial] ∧
      delivered s.worker = [] ∧ s.worker.recorded = [denial] := ⟨_, rfl, rfl, rfl, rfl⟩
  have hing := (ingested_exactly_once ⟨_, hs⟩).2.1
  rw [harrived] at hing
  exact ⟨s, ⟨_, hs⟩, hing, hdelivered, hrecorded⟩

end

end AppGate.AuditIngest
