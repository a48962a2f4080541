import AppGate.Lib.Machine
import Mathlib.Data.List.Basic

/-!
# Delivery of audit events by the gateways

The worker that `AuditLogger::new` spawns in `rust-gateway/src/audit.rs` and, with the same loop, in
`gateway/src/audit.rs`: `record` sends on an unbounded channel, the worker collects a batch of `100`
or whatever a tick of the interval finds, posts it to the control plane and clears it. The loop is
the same for every type of event, so it is kept generic.

* `Outcome`, `State`, `step`, `worker`: recording, receiving, ticking and the end of a POST;
* `Move`, `Accounted`, **`recorded_posted_or_held`**: every recorded event is posted once or held,
  and only a failed POST loses events;
* `rejected_batch_is_lost`: a rejected batch is not sent again.
-/

set_option autoImplicit false

namespace AppGate.Audit.Delivery

open Lts

/-- The fields of `AuditEvent` in the rust-gateway. -/
structure AuditEvent where
  eventType : String
  actorId : String
  action : String
  resource : String
  result : String
  correlationId : String
  source : String
  metadata : List (String × String)
  deriving DecidableEq, Repr

/-- How a POST ends: an answer with a status, or an error of the transport. -/
inductive Outcome where
  | status (code : ℕ)
  | transportError
  deriving DecidableEq, Repr

/-- `resp.status().is_success()`. -/
def Outcome.isSuccess : Outcome → Bool
  | .status code => 200 ≤ code && code < 300
  | .transportError => false

/-- The channel and the worker, with the history of the `record` calls and of the POSTs. -/
structure State (ε : Type) where
  channel : List ε
  batch : List ε
  /-- The worker awaits the end of a POST of `batch`. -/
  posting : Bool
  posts : List (List ε × Outcome)
  recorded : List ε
  deriving DecidableEq, Repr

/-- A `record` call or a step of the worker. -/
inductive Act (ε : Type) where
  | record (event : ε)
  /-- `receiver.recv()` wins the `select!`. -/
  | recv
  /-- `interval.tick()` wins the `select!`. -/
  | tick
  /-- The POST of `send_batch` ends, and `batch.clear()` follows. -/
  | answered (outcome : Outcome)
  deriving DecidableEq, Repr

variable {ε : Type}

/-- `send_batch` up to its await, with the `batch.clear()` that follows an early return. -/
def sendBatch (s : State ε) : State ε :=
  if s.batch.isEmpty then { s with batch := [] } else { s with posting := true }

/-- One step of the recorder or of the worker. -/
def step (s : State ε) : Act ε → Option (State ε)
  | .record event =>
    some { s with channel := s.channel ++ [event], recorded := s.recorded ++ [event] }
  | .recv =>
    match s.posting, s.channel with
    | false, event :: rest =>
      let s := { s with channel := rest, batch := s.batch ++ [event] }
      some (if s.batch.length ≥ 100 then sendBatch s else s)
    | _, _ => none
  | .tick =>
    if s.posting then none
    else some (if s.batch.isEmpty then s else sendBatch s)
  | .answered outcome =>
    -- both arms of the match on the result only write a warning
    if s.posting then
      some { s with posts := s.posts ++ [(s.batch, outcome)], batch := [], posting := false }
    else none

/-- The logger from `AuditLogger::new` on. -/
def worker (ε : Type) : Machine (State ε) (Act ε) := ⟨⟨[], [], false, [], []⟩, step⟩

/-- The events of the POSTs answered with a success status. -/
def delivered (s : State ε) : List ε :=
  (s.posts.filter fun p => p.2.isSuccess).flatMap fun p => p.1

/-- The events of the POSTs that failed. -/
def lost (s : State ε) : List ε :=
  (s.posts.filter fun p => !p.2.isSuccess).flatMap fun p => p.1

/-! ## What a step can do -/

/-- The steps of the recorder and of the worker. -/
inductive Move (s : State ε) : Act ε → State ε → Prop
  | record {event : ε} :
      Move s (.record event)
        { s with channel := s.channel ++ [event], recorded := s.recorded ++ [event] }
  | recv {event : ε} {rest : List ε} : s.posting = false → s.channel = event :: rest →
      Move s .recv { s with
        channel := rest
        batch := s.batch ++ [event]
        posting := decide (100 ≤ s.batch.length + 1) }
  | tick : s.posting = false → Move s .tick { s with posting := !s.batch.isEmpty }
  | answered {outcome : Outcome} : s.posting = true →
      Move s (.answered outcome)
        { s with posts := s.posts ++ [(s.batch, outcome)], batch := [], posting := false }

theorem move_of_step {s t : State ε} {a : Act ε} (h : (worker ε).step s a = some t) :
    Move s a t := by
  simp only [worker] at h
  cases a with
  | record event => cases h; exact .record
  | recv =>
      simp only [step] at h
      split at h
      next event rest hp hc =>
        obtain rfl := Option.some.inj h
        have hm := Move.recv hp hc
        convert hm using 1
        by_cases hl : 100 ≤ s.batch.length + 1 <;> simp [sendBatch, hl, hp]
      next => cases h
  | tick =>
      simp only [step] at h
      split_ifs at h with hp hb
      · obtain rfl := Option.some.inj h
        have hm := Move.tick (s := s) (by simpa using hp)
        convert hm using 1
        cases s
        simp_all
      · obtain rfl := Option.some.inj h
        have hm := Move.tick (s := s) (by simpa using hp)
        convert hm using 1
        simp [sendBatch, hb]
  | answered outcome =>
      simp only [step] at h
      split_ifs at h with hp
      cases h
      exact .answered hp

/-! ## Accounting -/

/-- Where the recorded events are. -/
structure Accounted (s : State ε) : Prop where
  events : s.posts.flatMap Prod.fst ++ s.batch ++ s.channel = s.recorded
  sizes : ∀ p ∈ s.posts, 1 ≤ p.1.length ∧ p.1.length ≤ 100
  idle : s.posting = false → s.batch.length < 100
  posting : s.posting = true → 1 ≤ s.batch.length ∧ s.batch.length ≤ 100

theorem accounted_step (s : State ε) (a : Act ε) (t : State ε) (h : Accounted s)
    (hst : (worker ε).step s a = some t) : Accounted t := by
  cases move_of_step hst with
  | record => exact ⟨by simp [← h.events], h.sizes, h.idle, h.posting⟩
  | @recv event rest hp hc =>
      have hl := h.idle hp
      refine ⟨by simp [← h.events, hc], h.sizes, fun hn => ?_, fun hf => ?_⟩
      · rw [List.length_append, List.length_singleton]
        have := of_decide_eq_false hn
        omega
      · rw [List.length_append, List.length_singleton]
        omega
  | tick hp =>
      have hl := h.idle hp
      refine ⟨h.events, h.sizes, fun _ => hl, fun hf => ⟨?_, Nat.le_of_lt hl⟩⟩
      exact List.length_pos_of_ne_nil (by simpa using hf)
  | answered hp =>
      refine ⟨by simp [← h.events], fun p hm => ?_, fun _ => by simp, fun hf => ?_⟩
      · rcases List.mem_append.mp hm with hm | hm
        · exact h.sizes p hm
        · obtain rfl := List.mem_singleton.mp hm
          exact h.posting hp
      · cases hf

theorem mem_delivered_or_lost {s : State ε} {p : List ε × Outcome} {e : ε} (hp : p ∈ s.posts)
    (he : e ∈ p.1) : e ∈ delivered s ∨ e ∈ lost s := by
  by_cases hs : p.2.isSuccess = true
  · exact .inl (List.mem_flatMap.mpr ⟨p, List.mem_filter.mpr ⟨hp, hs⟩, he⟩)
  · exact .inr (List.mem_flatMap.mpr ⟨p, List.mem_filter.mpr ⟨hp, by simpa using hs⟩, he⟩)

/-- **Every recorded event is posted once or held.** In every reachable state the bodies of the
POSTs so far, the batch and the channel make up the recorded events in their order, whatever the
outcomes were, and an event that is neither held nor delivered was in the body of a POST that
failed. -/
theorem recorded_posted_or_held {s : State ε} (h : (worker ε).Reach s) :
    s.posts.flatMap Prod.fst ++ s.batch ++ s.channel = s.recorded ∧
      (∀ p ∈ s.posts, 1 ≤ p.1.length ∧ p.1.length ≤ 100) ∧
      ∀ e ∈ s.recorded, e ∈ delivered s ∨ e ∈ s.channel ∨ e ∈ s.batch ∨ e ∈ lost s := by
  have hinit : Accounted (worker ε).init := by constructor <;> simp [worker]
  have ha : Accounted s := Machine.inv_reach hinit accounted_step h
  refine ⟨ha.events, ha.sizes, fun e he => ?_⟩
  rw [← ha.events] at he
  rcases List.mem_append.mp he with he | he
  · rcases List.mem_append.mp he with he | he
    · obtain ⟨p, hp, hep⟩ := List.mem_flatMap.mp he
      rcases mem_delivered_or_lost hp hep with h | h
      · exact .inl h
      · exact .inr (.inr (.inr h))
    · exact .inr (.inr (.inl he))
  · exact .inr (.inl he)

/-- A denied request, as the gateway records it. -/
def denial : AuditEvent :=
  ⟨"authorization.denial", "alice", "chat", "/v1/proxy", "denied", "r-1", "gateway", []⟩

/-- The control plane answers the POST of a batch of one event with the given outcome. -/
def oneBatch (outcome : Outcome) : List (Act AuditEvent) :=
  [.record denial, .recv, .tick, .answered outcome]

theorem recorded_posted_or_held_delivered :
    ∃ s, (worker AuditEvent).exec (worker AuditEvent).init (oneBatch (.status 202)) = some s ∧
      delivered s = [denial] ∧
      ∀ e ∈ s.recorded, e ∈ delivered s ∨ e ∈ s.channel ∨ e ∈ s.batch ∨ e ∈ lost s :=
  ⟨_, rfl, rfl, (recorded_posted_or_held ⟨oneBatch (.status 202), rfl⟩).2.2⟩

/-- The control plane answers `503`: the batch is cleared, and its event is nowhere. -/
theorem rejected_batch_is_lost :
    ∃ s, (worker AuditEvent).exec (worker AuditEvent).init (oneBatch (.status 503)) = some s ∧
      denial ∈ s.recorded ∧
      ¬ (denial ∈ delivered s ∨ denial ∈ s.channel ∨ denial ∈ s.batch) :=
  ⟨_, rfl, by decide, by decide⟩

end AppGate.Audit.Delivery
