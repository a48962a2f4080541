import AppGate.Lib.Machine

/-!
# The shutdown notification of the accept loop

`AppGateServer::run` in `rust-gateway/src/server.rs`: a forwarder task turns the shutdown broadcast
into one `notify_waiters()`, and the accept loop selects, in this order, on a fresh
`shutdown.notified()` and on `listener.accept()`. A `Notified` future exists from the entry into
`select!` until its end, and `notify_waiters()` completes the futures that exist when it is called.

* `Loop`, `Forwarder`, `step`, `server`: the two tasks, interleaved at every poll;
* `Lost`: the loop selects on a future that no notification will complete;
* `Timely`, `heard_step`, `lost_of_not_timely`, **`shutdown_not_lost`**: the notification arrives
  exactly when it falls on a live future that is polled again.
-/

set_option autoImplicit false

namespace AppGate.Server

open Lts

/-- Where the accept loop is. Inside `select!` it holds a `Notified` future, completed or not. -/
inductive Loop where
  /-- Before the `select!` of the next iteration. -/
  | top
  /-- In `select!`, before polling `shutdown.notified()`. -/
  | armed (completed : Bool)
  /-- In `select!`, `shutdown.notified()` was pending and `listener.accept()` is polled next. -/
  | polled (completed : Bool)
  /-- In `select!`, both branches were pending and the task is suspended. -/
  | parked (completed : Bool)
  /-- In the body of the accept branch; the futures of `select!` are dropped. -/
  | body
  /-- After the loop. -/
  | stopped
  deriving DecidableEq, Repr

/-- The state of the `Notified` future, if one exists. -/
def Loop.future : Loop → Option Bool
  | .armed c => some c
  | .polled c => some c
  | .parked c => some c
  | _ => none

/-- What `notify_waiters()` does to the loop's future. -/
def Loop.complete : Loop → Loop
  | .armed _ => .armed true
  | .polled _ => .polled true
  | .parked _ => .parked true
  | l => l

/-- Where the forwarder task is. -/
inductive Forwarder where
  | receiving
  | received
  | notified
  deriving DecidableEq, Repr

/-- The shutdown broadcast, the forwarder and the accept loop. -/
structure State where
  broadcast : Bool
  forwarder : Forwarder
  loop : Loop
  deriving DecidableEq, Repr

/-- A step of `main`, of the forwarder or of the accept loop. -/
inductive Act where
  /-- `shutdown_tx.send(())`. -/
  | send
  /-- `rx.recv().await` returns. -/
  | recv
  /-- `shutdown_clone.notify_waiters()`. -/
  | notify
  /-- The loop enters `select!`. -/
  | enter
  /-- `select!` polls `shutdown.notified()`. -/
  | pollShutdown
  /-- `select!` polls `listener.accept()`. -/
  | pollAccept (ready : Bool)
  /-- The suspended task is woken and polls again. -/
  | wake
  /-- The body of the accept branch ends: accept error, connection limit or spawned handler. -/
  | endBody
  deriving DecidableEq, Repr

/-- One step of the server. -/
def step (s : State) : Act → Option State
  | .send => some { s with broadcast := true }
  | .recv =>
    if s.broadcast ∧ s.forwarder = .receiving then some { s with forwarder := .received } else none
  | .notify =>
    if s.forwarder = .received then
      some { s with forwarder := .notified, loop := s.loop.complete }
    else none
  | .enter => if s.loop = .top then some { s with loop := .armed false } else none
  | .pollShutdown =>
    match s.loop with
    | .armed true => some { s with loop := .stopped }
    | .armed false => some { s with loop := .polled false }
    | _ => none
  | .pollAccept ready =>
    match s.loop with
    | .polled c => some { s with loop := if ready then .body else .parked c }
    | _ => none
  | .wake =>
    match s.loop with
    | .parked c => some { s with loop := .armed c }
    | _ => none
  | .endBody => if s.loop = .body then some { s with loop := .top } else none

/-- The server from the start of `run`. -/
def server : Machine State Act := ⟨⟨false, .receiving, .top⟩, step⟩

/-- `notify_waiters()` has been called and the loop selects on a future it did not complete. -/
def Lost (s : State) : Prop := s.forwarder = .notified ∧ s.loop.future = some false

instance (s : State) : Decidable (Lost s) := by unfold Lost; infer_instance

/-! ## What a step can do -/

/-- The steps of the server. -/
inductive Move (s : State) : Act → State → Prop
  | send : Move s .send { s with broadcast := true }
  | recv : s.forwarder = .receiving → Move s .recv { s with forwarder := .received }
  | notify : s.forwarder = .received →
      Move s .notify { s with forwarder := .notified, loop := s.loop.complete }
  | enter : s.loop = .top → Move s .enter { s with loop := .armed false }
  | stop : s.loop = .armed true → Move s .pollShutdown { s with loop := .stopped }
  | pending : s.loop = .armed false → Move s .pollShutdown { s with loop := .polled false }
  | accept {c : Bool} : s.loop = .polled c → Move s (.pollAccept true) { s with loop := .body }
  | park {c : Bool} : s.loop = .polled c → Move s (.pollAccept false) { s with loop := .parked c }
  | wake {c : Bool} : s.loop = .parked c → Move s .wake { s with loop := .armed c }
  | endBody : s.loop = .body → Move s .endBody { s with loop := .top }

theorem move_of_step {s t : State} {a : Act} (h : server.step s a = some t) : Move s a t := by
  simp only [server] at h
  cases a with
  | send =>
      cases h
      exact .send
  | recv =>
      simp only [step, Option.ite_none_right_eq_some] at h
      obtain ⟨⟨-, hf⟩, h⟩ := h
      cases h
      exact .recv hf
  | notify =>
      simp only [step, Option.ite_none_right_eq_some] at h
      obtain ⟨hf, h⟩ := h
      cases h
      exact .notify hf
  | enter =>
      simp only [step, Option.ite_none_right_eq_some] at h
      obtain ⟨hl, h⟩ := h
      cases h
      exact .enter hl
  | pollShutdown =>
      simp only [step] at h
      split at h
      · rename_i hl
        cases h
        exact .stop hl
      · rename_i hl
        cases h
        exact .pending hl
      · cases h
  | pollAccept ready =>
      simp only [step] at h
      split at h
      · rename_i c hl
        cases h
        cases ready with
        | true => exact .accept hl
        | false => exact .park hl
      · cases h
  | wake =>
      simp only [step] at h
      split at h
      · rename_i c hl
        cases h
        exact .wake hl
      · cases h
  | endBody =>
      simp only [step, Option.ite_none_right_eq_some] at h
      obtain ⟨hl, h⟩ := h
      cases h
      exact .endBody hl

/-! ## Timely notifications -/

/-- The notification falls on a live future, and the poll of `accept` that follows it in the same
poll of `select!` is pending. -/
def Timely (s : State) : Act → Prop
  | .notify => s.loop.future.isSome
  | .pollAccept ready => ready = true → s.loop.future ≠ some true
  | _ => True

instance (s : State) (a : Act) : Decidable (Timely s a) := by
  cases a <;> unfold Timely <;> infer_instance

/-- The loop has stopped or selects on a completed future. -/
def Loop.heard (l : Loop) : Prop := l = .stopped ∨ l.future = some true

theorem heard_complete {l : Loop} (h : l.future.isSome) : l.complete.heard := by
  refine .inr ?_
  cases l <;> first | rfl | cases h

theorem heard_armed {c : Bool} (h : (Loop.armed c).heard) : c = true := by
  simpa [Loop.heard, Loop.future] using h

theorem heard_polled {c : Bool} (h : (Loop.polled c).heard) : c = true := by
  simpa [Loop.heard, Loop.future] using h

theorem heard_parked {c : Bool} (h : (Loop.parked c).heard) : c = true := by
  simpa [Loop.heard, Loop.future] using h

theorem not_heard_top : ¬ Loop.top.heard := by simp [Loop.heard, Loop.future]

theorem not_heard_body : ¬ Loop.body.heard := by simp [Loop.heard, Loop.future]

/-- **A timely notification is never dropped.** -/
theorem heard_step (s : State) (a : Act) (t : State)
    (hs : s.forwarder = .notified → s.loop.heard) (ha : Timely s a)
    (h : server.step s a = some t) : t.forwarder = .notified → t.loop.heard := by
  cases move_of_step h with
  | send => exact hs
  | recv hf => exact fun hn => Forwarder.noConfusion hn
  | notify hf => exact fun _ => heard_complete ha
  | enter hl =>
      intro hn
      exact absurd (hl ▸ hs hn) not_heard_top
  | stop hl => exact fun _ => .inl rfl
  | pending hl =>
      intro hn
      cases heard_armed (hl ▸ hs hn)
  | @accept c hl =>
      intro hn
      have hc : c = true := heard_polled (hl ▸ hs hn)
      exact absurd (by rw [hl, hc]; rfl) (ha rfl)
  | @park c hl =>
      intro hn
      have hc : c = true := heard_polled (hl ▸ hs hn)
      exact .inr (by rw [hc]; rfl)
  | @wake c hl =>
      intro hn
      have hc : c = true := heard_parked (hl ▸ hs hn)
      exact .inr (by rw [hc]; rfl)
  | endBody hl =>
      intro hn
      exact absurd (hl ▸ hs hn) not_heard_body

/-- Only the notification completes a future, and only a completed future stops the loop. -/
theorem caused_step (s : State) (a : Act) (t : State)
    (hs : s.loop.heard → s.forwarder = .notified) (h : server.step s a = some t) :
    t.loop.heard → t.forwarder = .notified := by
  intro ht
  cases move_of_step h with
  | send => exact hs ht
  | recv hf =>
      have hn := hs ht
      rw [hf] at hn
      cases hn
  | notify hf => rfl
  | enter hl => cases heard_armed ht
  | stop hl => exact hs (.inr (by rw [hl]; rfl))
  | pending hl => cases heard_polled ht
  | accept hl => exact absurd ht not_heard_body
  | park hl => exact hs (.inr (by rw [hl, heard_parked ht]; rfl))
  | wake hl => exact hs (.inr (by rw [hl, heard_armed ht]; rfl))
  | endBody hl => exact absurd ht not_heard_top

theorem caused_reach {s : State} (hs : server.Reach s) (hl : s.loop.heard) :
    s.forwarder = .notified :=
  Machine.inv_reach (fun h => absurd h not_heard_top) caused_step hs hl

/-! ## Lost notifications -/

/-- Outside `select!` and not stopped. -/
def Loop.between (l : Loop) : Prop := l = .top ∨ l = .body

theorem lost_of_between {s : State} (hn : s.forwarder = .notified) (hl : s.loop.between) :
    ∃ as t, server.exec s as = some t ∧ Lost t := by
  obtain ⟨b, f, l⟩ := s
  rcases hl with rfl | rfl
  · exact ⟨[.enter], ⟨b, f, .armed false⟩, rfl, hn, rfl⟩
  · exact ⟨[.endBody, .enter], ⟨b, f, .armed false⟩, rfl, hn, rfl⟩

theorem between_of_future_none {l : Loop} (hf : ¬ l.future.isSome) (hh : ¬ l.heard) :
    l.between := by
  cases l with
  | top => exact .inl rfl
  | armed c | polled c | parked c => exact absurd rfl hf
  | body => exact .inr rfl
  | stopped => exact absurd (.inl rfl) hh

/-- **An untimely step loses the notification**: a later `select!` waits for it in vain. -/
theorem lost_of_not_timely {s t : State} {a : Act} (hs : server.Reach s) (ha : ¬ Timely s a)
    (h : server.step s a = some t) : ∃ as u, server.exec t as = some u ∧ Lost u := by
  cases move_of_step h with
  | notify hf =>
      apply lost_of_between rfl
      have hb : s.loop.between := by
        apply between_of_future_none ha
        intro hh
        have hn := caused_reach hs hh
        rw [hf] at hn
        cases hn
      rcases hb with hl | hl
      · exact .inl (by simp [hl, Loop.complete])
      · exact .inr (by simp [hl, Loop.complete])
  | accept hl =>
      simp only [Timely, Classical.not_imp, not_not] at ha
      have hn := caused_reach hs (.inr ha.2)
      exact lost_of_between hn (.inr rfl)
  | park hl => exact absurd (fun h => Bool.noConfusion h) ha
  | send | recv | enter | stop | pending | wake | endBody => exact absurd trivial ha

/-- **Shutdown is not lost under timely steps**: no state on the way is lost, and after the
notification the loop has stopped or stops at its next poll. Any other step loses it. -/
theorem shutdown_not_lost (s : State) :
    (server.ReachVia Timely s → ¬ Lost s ∧
      (s.forwarder = .notified → s.loop = .stopped ∨ s.loop.future = some true)) ∧
    ∀ a t, server.Reach s → ¬ Timely s a → server.step s a = some t →
      ∃ as u, server.exec t as = some u ∧ Lost u := by
  refine ⟨?_, ?_⟩
  · intro hs
    have hh : s.forwarder = .notified → s.loop.heard :=
      Machine.inv_reachVia (fun h => Forwarder.noConfusion h) heard_step hs
    refine ⟨?_, hh⟩
    rintro ⟨hn, hf⟩
    rcases hh hn with e | e
    · rw [e] at hf
      cases hf
    · rw [e] at hf
      cases hf
  · intro a t hs ha h
    exact lost_of_not_timely hs ha h

/-- The loop is suspended in `select!` when the notification arrives, and stops. -/
theorem shutdown_not_lost_parked : ¬ Lost ⟨true, .notified, .stopped⟩ :=
  ((shutdown_not_lost _).1 ⟨[.enter, .pollShutdown, .pollAccept false, .send, .recv, .notify, .wake,
    .pollShutdown], by decide, by decide⟩).1

/-- A connection is accepted, the notification falls into the branch body, and the next `select!`
waits on a fresh future. -/
theorem shutdown_lost_in_body :
    ∃ s, server.exec server.init [.enter, .pollShutdown, .pollAccept true, .send, .recv, .notify,
      .endBody, .enter] = some s ∧ Lost s :=
  ⟨⟨true, .notified, .armed false⟩, by decide, by decide⟩

end AppGate.Server
