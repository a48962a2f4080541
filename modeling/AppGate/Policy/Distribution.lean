import AppGate.Leader.Writers
import AppGate.Policy.Refresh

/-!
# From the policy endpoints to the gateway

The policy endpoints of the control plane (`control-plane/internal/api/api.go`) together with the
refresh loop of the gateway. Writes are answered and not stored, and the list of policies is an
object on the wire, where the gateway reads an array.

* `handleListPolicies`, `Write.answer`: the endpoints of an instance;
* `Event`, `step`, `distribution`: the control plane with its elections, writes, and one gateway, in
  any order;
* `accepted_answer_iff`: who accepts a write; `refresh_answered`: what one fetch does;
* **`policies_never_arrive`**: what holds after every run.
-/

set_option autoImplicit false

namespace AppGate

open Json Lts

namespace ControlPlane

open NetHttp

def handleListPolicies : NetHttp.Response := jsonAnswer 200 (.object [("policies", .array [])])

end ControlPlane

namespace Gateway

open ControlPlane Leader

/-! ## The system -/

inductive Write where
  | create
  | update
  | delete
  deriving DecidableEq, Repr

/-- The answer of an instance with this elector to a write. -/
def Write.answer (elector : Option Elector) : Write → NetHttp.Response
  | .create => handleCreatePolicy elector
  | .update => handleUpdatePolicy elector
  | .delete => handleDeletePolicy elector

/-- What happens: a step of the control plane; a write to an instance; a fetch of the gateway, which
gets the list from an instance, or loses the connection while it reads the body, or gets none. -/
inductive Event where
  | control (a : Leader.Event)
  | write (w : Write) (i : ℕ)
  | fetched (i : ℕ)
  | broken (i : ℕ) (e : String)
  | failed (e : String)
  deriving DecidableEq, Repr

def Event.fails : Event → Bool
  | failed _ => true
  | _ => false

/-- The writes among the events, with the instances they went to. -/
def Event.written : Event → Option (Write × ℕ)
  | write w i => some (w, i)
  | _ => none

/-- A write that was answered, with the control plane as it was. -/
structure Answered where
  write : Write
  instanceId : ℕ
  world : World
  response : NetHttp.Response

/-- The write was answered with a success status. -/
def Answered.accepted (a : Answered) : Prop := 200 ≤ a.response.status ∧ a.response.status < 300

structure System where
  world : World
  engine : PolicyEngine
  answers : List Answered

/-- One step. Only an instance that is up answers. -/
def step (key : String) (s : System) : Event → Option System
  | .control a => (worldStep key s.world a).map fun w => { s with world := w }
  | .write w i =>
    match s.world.inst i with
    | .up elector => some { s with answers := s.answers ++ [⟨w, i, s.world, w.answer elector⟩] }
    | .down => none
  | .fetched i =>
    match s.world.inst i with
    | .up _ =>
      let served := handleListPolicies
      some { s with engine := s.engine.refresh (.ok ⟨served.status, .ok served.body.toList⟩) }
    | .down => none
  | .broken i e =>
    match s.world.inst i with
    | .up _ => some { s with engine := s.engine.refresh (.ok ⟨handleListPolicies.status, .error e⟩) }
    | .down => none
  | .failed e => some { s with engine := s.engine.refresh (.error e) }

/-- All instances of the control plane are configured with one election key. -/
def distribution (key : String) : Machine System Event :=
  ⟨⟨(control key).init, .new, []⟩, step key⟩

/-! ## One write -/

/-- Instance `i` runs with an elector that is leader. -/
def Leads (w : World) (i : ℕ) : Prop := ∃ e, w.inst i = .up (some e) ∧ e.isLeader = true

/-- **One write.** It is accepted by a leader and by an instance without an elector. -/
theorem accepted_answer_iff {w : World} {i : ℕ} {elector : Option Elector}
    (h : w.inst i = .up elector) (x : Write) :
    Answered.accepted ⟨x, i, w, x.answer elector⟩ ↔ w.standalone i ∨ Leads w i := by
  have hgate : Answered.accepted ⟨x, i, w, x.answer elector⟩ ↔ writeRefused elector = false := by
    unfold Answered.accepted
    cases x <;> cases hr : writeRefused elector <;>
      simp [Write.answer, handleCreatePolicy, handleUpdatePolicy, handleDeletePolicy, hr]
  have hstandalone : w.standalone i ↔ elector = none := by
    rw [World.standalone, h, Instance.up.injEq]
  have hleads : Leads w i ↔ ∃ e, elector = some e ∧ e.isLeader = true := by
    simp only [Leads, h, Instance.up.injEq]
  rw [hgate, hstandalone, hleads]
  cases elector with
  | none => simp [writeRefused]
  | some e => simp [writeRefused]

/-! ## One fetch -/

/-- A text with the end of a line behind it. -/
theorem parse_line (v : Value) : parse (print goEscaper v ++ ['\n']) = some v := by
  have hstops : Stops ['\n'] := by
    intro c hc
    cases hc
    rfl
  have hlen : (print goEscaper v).length ≤ (print goEscaper v ++ ['\n']).length + 1 := by
    rw [List.length_append]
    omega
  have h : valueBy chars ((print goEscaper v ++ ['\n']).length + 1) (print goEscaper v ++ ['\n']) =
      some (v, ['\n']) := value_print v hlen hstops
  rw [parse, parseBy, h]
  exact if_pos rfl

/-- The gateway reads a list of policies, not an object with one. -/
theorem decodePolicies_list : ∃ e, decodePolicies handleListPolicies.body.toList = .error e := by
  have h : decodePolicies handleListPolicies.body.toList =
      Serde.vec decodePolicy (.object [("policies", .array [])]) := by
    rw [handleListPolicies, NetHttp.jsonAnswer, String.toList_ofList, decodePolicies, parse_line]
  exact ⟨_, h⟩

theorem silent_of_body {body : Except String (List Char)}
    (h : ∀ text, body = .ok text → ∃ e, decodePolicies text = .error e) (status : ℕ) :
    Silent (.ok ⟨status, body⟩) := by
  refine ⟨?_, _, rfl⟩
  unfold installed Response.json
  dsimp only
  split_ifs
  · cases body with
    | error e => rfl
    | ok text =>
        obtain ⟨e, he⟩ := h text rfl
        simp only [Except.bind, he, Except.toOption]
  · rfl

/-- A fetch that is answered changes nothing. -/
theorem refresh_answered (engine : PolicyEngine) {body : Except String (List Char)}
    (h : ∀ text, body = .ok text → text = handleListPolicies.body.toList) (status : ℕ) :
    engine.refresh (.ok ⟨status, body⟩) = engine := by
  refine PolicyEngine.refresh_of_silent engine (silent_of_body (fun text htext => ?_) _)
  rw [h text htext]
  exact decodePolicies_list

/-! ## Every run -/

/-- What relates the system to the events so far. -/
structure Starved (key : String) (events : List Event) (s : System) : Prop where
  policies : s.engine.policies = []
  healthy : s.engine.healthy = true ↔ ∀ e ∈ events, e.fails = false
  world : (control key).Reach s.world
  answered : s.answers.map (fun a => (a.write, a.instanceId)) = events.filterMap Event.written
  accepted : ∀ a ∈ s.answers, (control key).Reach a.world ∧
    (a.accepted ↔ a.world.standalone a.instanceId ∨ Leads a.world a.instanceId)

theorem forall_fails_snoc {events : List Event} {e : Event} :
    (∀ x ∈ events ++ [e], x.fails = false) ↔
      (∀ x ∈ events, x.fails = false) ∧ e.fails = false := by
  simp [or_imp, forall_and]

/-- An event that is no failure. -/
theorem Starved.healthy_snoc {key : String} {events : List Event} {s : System} {e : Event}
    (h : Starved key events s) (hf : e.fails = false) :
    s.engine.healthy = true ↔ ∀ x ∈ events ++ [e], x.fails = false := by
  rw [forall_fails_snoc, h.healthy, and_iff_left hf]

/-- An event that is no write. -/
theorem Starved.answered_snoc {key : String} {events : List Event} {s : System} {e : Event}
    (h : Starved key events s) (hw : e.written = none) :
    s.answers.map (fun a => (a.write, a.instanceId)) =
      (events ++ [e]).filterMap Event.written := by
  rw [List.filterMap_append, h.answered]
  simp [hw]

/-- An event that changes nothing. -/
theorem Starved.quiet {key : String} {events : List Event} {s : System} {e : Event}
    (h : Starved key events s) (hf : e.fails = false) (hw : e.written = none) :
    Starved key (events ++ [e]) s :=
  ⟨h.policies, h.healthy_snoc hf, h.world, h.answered_snoc hw, h.accepted⟩

theorem Starved.step {key : String} {events : List Event} {s t : System} {e : Event}
    (h : Starved key events s) (hstep : (distribution key).step s e = some t) :
    Starved key (events ++ [e]) t := by
  cases e with
  | control a =>
      obtain ⟨w, hw, rfl⟩ := Option.map_eq_some_iff.mp hstep
      exact ⟨h.policies, h.healthy_snoc rfl, h.world.step hw, h.answered_snoc rfl, h.accepted⟩
  | write x i =>
      simp only [distribution, Gateway.step] at hstep
      split at hstep
      next elector hi =>
        cases hstep
        refine ⟨h.policies, h.healthy_snoc rfl, h.world, ?_, fun a ha => ?_⟩
        · rw [List.filterMap_append, List.map_append, h.answered]
          rfl
        · rcases List.mem_append.mp ha with ha | ha
          · exact h.accepted a ha
          · obtain rfl := List.mem_singleton.mp ha
            exact ⟨h.world, accepted_answer_iff hi x⟩
      next => cases hstep
  | fetched i =>
      simp only [distribution, Gateway.step] at hstep
      split at hstep
      next =>
        have htext : ∀ text, (.ok handleListPolicies.body.toList : Except String (List Char)) =
            .ok text → text = handleListPolicies.body.toList :=
          fun text ht => (Except.ok.inj ht).symm
        rw [refresh_answered s.engine htext handleListPolicies.status] at hstep
        cases hstep
        exact h.quiet rfl rfl
      next => cases hstep
  | broken i err =>
      simp only [distribution, Gateway.step] at hstep
      split at hstep
      next =>
        have htext : ∀ text, (.error err : Except String (List Char)) = .ok text →
            text = handleListPolicies.body.toList := nofun
        rw [refresh_answered s.engine htext handleListPolicies.status] at hstep
        cases hstep
        exact h.quiet rfl rfl
      next => cases hstep
  | failed err =>
      cases hstep
      refine ⟨h.policies, ?_, h.world, h.answered_snoc rfl, h.accepted⟩
      rw [forall_fails_snoc]
      exact ⟨nofun, fun hall => nomatch hall.2⟩

/-- **No policy reaches the gateway.** After every run of the control plane, its clients and a
gateway: the gateway has no policies and denies every request for lack of them; it is healthy
exactly as long as no fetch has failed to get an answer, since no later fetch makes it healthy
again; and every write has been answered, with a success exactly where the instance was leader or
without an elector. -/
theorem policies_never_arrive {key : String} {events : List Event} {s : System}
    (h : (distribution key).exec (distribution key).init events = some s) :
    s.engine.policies = [] ∧
      (∀ identityId roles provider model,
        evaluate s.engine.policies identityId roles provider model =
          ⟨false, none, "No policies configured - fail closed"⟩) ∧
      (s.engine.isHealthy = true ↔ ∀ e ∈ events, e.fails = false) ∧
      s.answers.map (fun a => (a.write, a.instanceId)) = events.filterMap Event.written ∧
      ∀ a ∈ s.answers, (control key).Reach a.world ∧
        (a.accepted ↔ a.world.standalone a.instanceId ∨ Leads a.world a.instanceId) := by
  have hinit : Starved key [] (distribution key).init :=
    ⟨rfl, ⟨fun _ e he => absurd he List.not_mem_nil, fun _ => rfl⟩, ⟨[], rfl⟩, rfl,
      fun a ha => absurd ha List.not_mem_nil⟩
  obtain ⟨hp, hh, -, hall, ha⟩ := Machine.inv_trace hinit (fun as s e t => Starved.step) h
  refine ⟨hp, fun identityId roles provider model => ?_, hh, hall, ha⟩
  rw [hp]
  rfl

/-- One instance becomes leader, and another one does not; both get a write, and the gateway fetches
the policies from the leader before and after its connection is refused once. -/
def leaderWrites : List Event :=
  (winElection 0 "a" 0).map .control ++ [.control (.start 1 true "b"), .write .create 0,
    .fetched 0, .write .create 1, .failed "connection refused", .fetched 0]

theorem policies_never_arrive_leader :
    ∃ s, (distribution "/appgate/leader").exec (distribution "/appgate/leader").init leaderWrites =
        some s ∧
      s.engine.policies = [] ∧ s.engine.isHealthy = false ∧
      s.answers.map (fun a => (a.write, a.instanceId)) = [(.create, 0), (.create, 1)] := by
  obtain ⟨s, hs⟩ : ∃ s, (distribution "/appgate/leader").exec
      (distribution "/appgate/leader").init leaderWrites = some s := ⟨_, rfl⟩
  obtain ⟨hp, -, hh, hall, -⟩ := policies_never_arrive hs
  refine ⟨s, hs, hp, ?_, hall.trans rfl⟩
  rw [Bool.eq_false_iff]
  intro hhealthy
  exact absurd (hh.mp hhealthy (.failed "connection refused") (by decide)) (by decide)

end Gateway

end AppGate
