import AppGate.Lib.Counting
import AppGate.Server.Shutdown

/-!
# Connection accounting and drain

The body of the accept branch of `AppGateServer::run`, the connection tasks it spawns and the drain
loop after it. Two counters are kept: the permits of a semaphore of 10000, and
`ACTIVE_CONNECTIONS`, an `AtomicUsize` (64 bits, wrapping). A task gives the second back before the
first.

* `Body`, `Task`, `Drain`, `step`, `connections`: accept loop, tasks and drain loop, interleaved at
  every access to a counter; `accept_reach`: the accept loop is the one of `Server.Shutdown`;
* `Move`, `move_of_step`: everything a step can do;
* `Inv`, `inv_step`, **`connection_accounting`**.
-/

set_option autoImplicit false

namespace AppGate.Server.Connections

open Lts

/-- Where the body of the accept branch is. -/
inductive Body where
  /-- Outside the body. -/
  | idle
  /-- `listener.accept()` returned. -/
  | accepted
  /-- `try_acquire_owned` returned a permit; before `fetch_add`. -/
  | permitted
  /-- Before `tokio::spawn`. -/
  | counted
  deriving DecidableEq, Repr

/-- Where a connection task is. -/
inductive Task where
  | spawned
  /-- In `handle_connection`. -/
  | serving
  /-- `handle_connection` returned; before `fetch_sub`. -/
  | served
  /-- Before `_permit` is dropped. -/
  | leaving
  | gone
  deriving DecidableEq, Repr

/-- How `conn.await` ends in `handle_connection`. -/
inductive ConnResult where
  | ok
  | incompleteMessage
  | error
  deriving DecidableEq, Repr

/-- A step of a connection task. -/
inductive TaskAct where
  | run
  | finish (result : ConnResult)
  | fetchSub
  | dropPermit
  deriving DecidableEq, Repr

/-- Where the drain loop is; it starts when the accept loop has stopped. -/
inductive Drain where
  /-- Before `ACTIVE_CONNECTIONS.load` in the loop condition. -/
  | loading
  /-- The load was positive; before `drain_start.elapsed()`. -/
  | busy
  | sleeping
  /-- Left through the timeout. -/
  | timedOut
  /-- Left because the load was zero. -/
  | drained
  deriving DecidableEq, Repr

/-- The accept loop, its body, the two counters, the tasks and the drain loop. -/
structure State where
  accept : Server.State
  body : Body
  active : UInt64
  available : ℕ
  tasks : List Task
  drain : Drain
  deriving DecidableEq, Repr

/-- A step of the server. -/
inductive Act where
  /-- A step of `main`, the forwarder or `select!`. -/
  | accept (a : Server.Act)
  /-- `listener.accept()` returned an error. -/
  | acceptError
  /-- `try_acquire_owned` fails. -/
  | refuse
  /-- `try_acquire_owned` succeeds. -/
  | acquire
  | fetchAdd
  | spawn
  | task (i : ℕ) (a : TaskAct)
  /-- The drain loop reads `ACTIVE_CONNECTIONS`. -/
  | load
  /-- `drain_start.elapsed() > max_drain`. -/
  | elapsed (late : Bool)
  | slept
  deriving DecidableEq, Repr

/-- The next position of a task. -/
def Task.next : Task → TaskAct → Option Task
  | .spawned, .run => some .serving
  | .serving, .finish _ => some .served
  | .served, .fetchSub => some .leaving
  | .leaving, .dropPermit => some .gone
  | _, _ => none

/-- `ACTIVE_CONNECTIONS` after a step of a task. -/
def TaskAct.active (n : UInt64) : TaskAct → UInt64
  | .fetchSub => n - 1
  | _ => n

/-- The permits available after a step of a task. -/
def TaskAct.available (n : ℕ) : TaskAct → ℕ
  | .dropPermit => n + 1
  | _ => n

/-- The body of the accept branch ends. -/
def State.endBody (s : State) : Option State :=
  (Server.step s.accept .endBody).map fun u => { s with accept := u, body := .idle }

/-- One step. -/
def step (s : State) : Act → Option State
  | .accept .endBody => none
  | .accept (.pollAccept true) =>
    (Server.step s.accept (.pollAccept true)).map fun u =>
      { s with accept := u, body := .accepted }
  | .accept a => (Server.step s.accept a).map fun u => { s with accept := u }
  | .acceptError => if s.body = .accepted then s.endBody else none
  | .refuse => if s.body = .accepted ∧ s.available = 0 then s.endBody else none
  | .acquire =>
    if s.body = .accepted ∧ 0 < s.available then
      some { s with body := .permitted, available := s.available - 1 }
    else none
  | .fetchAdd =>
    if s.body = .permitted then some { s with body := .counted, active := s.active + 1 } else none
  | .spawn =>
    if s.body = .counted then State.endBody { s with tasks := s.tasks ++ [.spawned] } else none
  | .task i a =>
    match s.tasks[i]? with
    | some t => (t.next a).map fun t' =>
        { s with
          tasks := s.tasks.set i t'
          active := a.active s.active
          available := a.available s.available }
    | none => none
  | .load =>
    if s.accept.loop = .stopped ∧ s.drain = .loading then
      some { s with drain := if 0 < s.active then .busy else .drained }
    else none
  | .elapsed late =>
    if s.drain = .busy then some { s with drain := if late then .timedOut else .sleeping } else none
  | .slept => if s.drain = .sleeping then some { s with drain := .loading } else none

/-- The server from the start of `run`. -/
def connections : Machine State Act := ⟨⟨server.init, .idle, 0, 10000, [], .loading⟩, step⟩

/-! ## What a step can do -/

/-- The steps of the server. -/
inductive Move (s : State) : Act → State → Prop
  | accept {a : Server.Act} {u : Server.State} : a ≠ .endBody → a ≠ .pollAccept true →
      server.step s.accept a = some u → Move s (.accept a) { s with accept := u }
  | accepted {u : Server.State} : server.step s.accept (.pollAccept true) = some u →
      Move s (.accept (.pollAccept true)) { s with accept := u, body := .accepted }
  | drop {a : Act} {u : Server.State} : a = .acceptError ∨ a = .refuse ∧ s.available = 0 →
      s.body = .accepted → server.step s.accept .endBody = some u →
      Move s a { s with accept := u, body := .idle }
  | acquire : s.body = .accepted → 0 < s.available →
      Move s .acquire { s with body := .permitted, available := s.available - 1 }
  | fetchAdd : s.body = .permitted →
      Move s .fetchAdd { s with body := .counted, active := s.active + 1 }
  | spawn {u : Server.State} : s.body = .counted → server.step s.accept .endBody = some u →
      Move s .spawn { s with tasks := s.tasks ++ [.spawned], accept := u, body := .idle }
  | task {i : ℕ} {a : TaskAct} {t t' : Task} : s.tasks[i]? = some t → t.next a = some t' →
      Move s (.task i a) { s with
        tasks := s.tasks.set i t'
        active := a.active s.active
        available := a.available s.available }
  | busy : s.accept.loop = .stopped → Move s .load { s with drain := .busy }
  | drained : s.accept.loop = .stopped → s.active = 0 → Move s .load { s with drain := .drained }
  | elapsed {late : Bool} : s.drain = .busy →
      Move s (.elapsed late) { s with drain := if late then .timedOut else .sleeping }
  | slept : s.drain = .sleeping → Move s .slept { s with drain := .loading }

theorem endBody_eq_some {s t : State} (h : s.endBody = some t) :
    ∃ u, server.step s.accept .endBody = some u ∧ t = { s with accept := u, body := .idle } := by
  obtain ⟨u, hu, rfl⟩ := Option.map_eq_some_iff.mp h
  exact ⟨u, hu, rfl⟩

theorem move_of_step {s t : State} {a : Act} (h : connections.step s a = some t) : Move s a t := by
  simp only [connections] at h
  cases a with
  | accept a =>
      unfold step at h
      split at h <;> rename_i ha <;> cases ha
      · cases h
      · obtain ⟨u, hu, rfl⟩ := Option.map_eq_some_iff.mp h
        exact .accepted hu
      · rename_i hne hne'
        obtain ⟨u, hu, rfl⟩ := Option.map_eq_some_iff.mp h
        exact .accept (fun e => hne (e ▸ rfl)) (fun e => hne' (e ▸ rfl)) hu
  | acceptError =>
      simp only [step, Option.ite_none_right_eq_some] at h
      obtain ⟨u, hu, rfl⟩ := endBody_eq_some h.2
      exact .drop (.inl rfl) h.1 hu
  | refuse =>
      simp only [step, Option.ite_none_right_eq_some] at h
      obtain ⟨u, hu, rfl⟩ := endBody_eq_some h.2
      exact .drop (.inr ⟨rfl, h.1.2⟩) h.1.1 hu
  | acquire =>
      simp only [step, Option.ite_none_right_eq_some] at h
      obtain ⟨⟨hb, ha⟩, h⟩ := h
      cases h
      exact .acquire hb ha
  | fetchAdd =>
      simp only [step, Option.ite_none_right_eq_some] at h
      obtain ⟨hb, h⟩ := h
      cases h
      exact .fetchAdd hb
  | spawn =>
      simp only [step, Option.ite_none_right_eq_some] at h
      obtain ⟨u, hu, rfl⟩ := endBody_eq_some h.2
      exact .spawn h.1 hu
  | task i a =>
      simp only [step] at h
      split at h
      · rename_i t ht
        obtain ⟨t', hn, rfl⟩ := Option.map_eq_some_iff.mp h
        exact .task ht hn
      · cases h
  | load =>
      simp only [step, Option.ite_none_right_eq_some] at h
      obtain ⟨⟨hl, -⟩, h⟩ := h
      cases h
      split_ifs with ha
      · exact .busy hl
      · refine .drained hl ?_
        rw [UInt64.lt_iff_toNat_lt] at ha
        exact UInt64.toNat_inj.mp (Nat.eq_zero_of_not_pos ha)
  | elapsed late =>
      simp only [step, Option.ite_none_right_eq_some] at h
      obtain ⟨hd, h⟩ := h
      cases h
      exact .elapsed hd
  | slept =>
      simp only [step, Option.ite_none_right_eq_some] at h
      obtain ⟨hd, h⟩ := h
      cases h
      exact .slept hd

/-- **The accept loop** of this machine runs as the one of `Server.Shutdown`. -/
theorem accept_reach {s : State} (hs : connections.Reach s) : server.Reach s.accept := by
  refine Machine.inv_reach (I := fun s => server.Reach s.accept) ⟨[], rfl⟩ ?_ hs
  intro s a t hr h
  cases move_of_step h with
  | accept _ _ hu => exact hr.step hu
  | accepted hu => exact hr.step hu
  | drop _ _ hu => exact hr.step hu
  | spawn _ hu => exact hr.step hu
  | acquire | fetchAdd | task | busy | drained | elapsed | slept => exact hr

/-- Only its end leaves the body of the accept branch. -/
theorem loop_body_of_step {u v : Server.State} {a : Server.Act} (ha : a ≠ .endBody)
    (h : server.step u a = some v) (hu : u.loop = .body) : v.loop = .body := by
  cases Server.move_of_step h with
  | send | recv => exact hu
  | notify => simp [hu, Loop.complete]
  | accept => rfl
  | endBody => exact absurd rfl ha
  | enter hl | stop hl | pending hl | park hl | wake hl => cases hu.symm.trans hl

/-- A stopped accept loop stays stopped. -/
theorem loop_stopped_of_step {u v : Server.State} {a : Server.Act}
    (h : server.step u a = some v) (hu : u.loop = .stopped) : v.loop = .stopped := by
  cases Server.move_of_step h with
  | send | recv => exact hu
  | notify => simp [hu, Loop.complete]
  | stop => rfl
  | enter hl | pending hl | accept hl | park hl | wake hl | endBody hl => cases hu.symm.trans hl

/-! ## The two counters -/

/-- The task is counted in `ACTIVE_CONNECTIONS`. -/
def Task.counts : Task → Bool
  | .spawned | .serving | .served => true
  | .leaving | .gone => false

/-- The task holds a permit. -/
def Task.holds : Task → Bool
  | .gone => false
  | _ => true

/-- The body has counted a connection it has not spawned. -/
def Body.counts : Body → Bool
  | .counted => true
  | _ => false

/-- The body holds a permit. -/
def Body.holds : Body → Bool
  | .permitted | .counted => true
  | _ => false

/-- The connections counted. -/
def State.counted (s : State) : ℕ := s.tasks.countP Task.counts + s.body.counts.toNat

/-- The permits held. -/
def State.held (s : State) : ℕ := s.tasks.countP Task.holds + s.body.holds.toNat

theorem counted_le_held (s : State) : s.counted ≤ s.held := by
  have htasks : s.tasks.countP Task.counts ≤ s.tasks.countP Task.holds := by
    apply List.countP_mono_left
    intro t _ ht
    cases t <;> first | rfl | cases ht
  have hbody : s.body.counts.toNat ≤ s.body.holds.toNat := by
    cases s.body <;> decide
  exact Nat.add_le_add htasks hbody

theorem next_available {t t' : Task} {a : TaskAct} (h : t.next a = some t') (n : ℕ) :
    a.available n + t'.holds.toNat = n + t.holds.toNat := by
  cases t <;> cases a <;> cases h <;> rfl

/-- A counted task takes exactly itself off a positive counter. -/
theorem next_active {t t' : Task} {a : TaskAct} (h : t.next a = some t') {n : UInt64}
    (hn : t.counts = true → 0 < n.toNat) :
    (a.active n).toNat + t.counts.toNat = n.toNat + t'.counts.toNat := by
  by_cases ha : a = .fetchSub
  · subst ha
    cases t <;> cases h
    have hpos := hn rfl
    have hone : (1 : UInt64) ≤ n := by rwa [UInt64.le_iff_toNat_le, UInt64.toNat_one]
    simp only [TaskAct.active, Task.counts, Bool.toNat_true, Bool.toNat_false]
    rw [UInt64.toNat_sub_of_le _ _ hone, UInt64.toNat_one]
    omega
  · cases t <;> cases a <;> cases h <;> first | rfl | exact absurd rfl ha

theorem next_counts_le {t t' : Task} {a : TaskAct} (h : t.next a = some t') :
    t'.counts.toNat ≤ t.counts.toNat := by
  cases t <;> cases a <;> cases h <;> decide

/-- The two counters say what they count, and a drained server serves nobody. -/
structure Inv (s : State) : Prop where
  inside : s.body ≠ .idle → s.accept.loop = .body
  active : s.active.toNat = s.counted
  permits : s.available + s.held = 10000
  drained : s.drain = .drained → s.accept.loop = .stopped ∧ s.tasks.countP Task.counts = 0

theorem inv_init : Inv connections.init where
  inside h := absurd rfl h
  active := rfl
  permits := rfl
  drained h := Drain.noConfusion h

theorem Inv.counted_le {s : State} (h : Inv s) : s.counted ≤ 10000 := by
  have h1 := counted_le_held s
  have h2 := h.permits
  omega

/-- No body runs after the accept loop has stopped. -/
theorem Inv.not_drained {s : State} (h : Inv s) (hb : s.body ≠ .idle) : s.drain ≠ .drained := by
  intro hd
  have hloop := (h.drained hd).1
  rw [h.inside hb] at hloop
  cases hloop

theorem Inv.active_pos {s : State} (hs : Inv s) {i : ℕ} {t : Task} (ht : s.tasks[i]? = some t)
    (hc : t.counts = true) : 0 < s.active.toNat := by
  have hpos : 0 < s.tasks.countP Task.counts :=
    List.countP_pos_iff.mpr ⟨t, List.mem_of_getElem? ht, hc⟩
  rw [hs.active, State.counted]
  omega

theorem inv_task {s : State} (hs : Inv s) {i : ℕ} {a : TaskAct} {t t' : Task}
    (ht : s.tasks[i]? = some t) (hn : t.next a = some t') :
    Inv { s with
      tasks := s.tasks.set i t'
      active := a.active s.active
      available := a.available s.available } := by
  have hcounts := Counting.countP_set_add ht t' Task.counts
  have hholds := Counting.countP_set_add ht t' Task.holds
  have hactive := hs.active
  have hpermits := hs.permits
  unfold State.counted at hactive
  unfold State.held at hpermits
  refine ⟨hs.inside, ?_, ?_, fun hd => ⟨(hs.drained hd).1, ?_⟩⟩
  · have := next_active hn fun hc => hs.active_pos ht hc
    simp only [State.counted]
    omega
  · have := next_available hn s.available
    simp only [State.held]
    omega
  · have hle := next_counts_le hn
    have hzero := (hs.drained hd).2
    dsimp only
    omega

theorem inv_step (s : State) (a : Act) (t : State) (hs : Inv s)
    (h : connections.step s a = some t) : Inv t := by
  have hactive := hs.active
  have hpermits := hs.permits
  cases move_of_step h with
  | accept hne hne' hu =>
      exact ⟨fun hb => loop_body_of_step hne hu (hs.inside hb), hactive, hpermits,
        fun hd => ⟨loop_stopped_of_step hu (hs.drained hd).1, (hs.drained hd).2⟩⟩
  | accepted hu =>
      cases Server.move_of_step hu with
      | accept hl =>
          have hidle : s.body = .idle := by
            by_contra hb
            cases (hs.inside hb).symm.trans hl
          simp only [State.counted, State.held, hidle] at hactive hpermits
          refine ⟨fun _ => rfl, hactive, hpermits, fun hd => ?_⟩
          cases (hs.drained hd).1.symm.trans hl
  | drop _ hb hu =>
      have hne : s.body ≠ .idle := by simp [hb]
      simp only [State.counted, State.held, hb] at hactive hpermits
      exact ⟨fun h => absurd rfl h, hactive, hpermits, fun hd => absurd hd (hs.not_drained hne)⟩
  | acquire hb ha =>
      have hne : s.body ≠ .idle := by simp [hb]
      simp only [State.counted, State.held, hb] at hactive hpermits
      refine ⟨fun _ => hs.inside hne, hactive, ?_, fun hd => absurd hd (hs.not_drained hne)⟩
      simp only [State.held, Body.holds, Bool.toNat_true, Bool.toNat_false] at hpermits ⊢
      omega
  | fetchAdd hb =>
      have hne : s.body ≠ .idle := by simp [hb]
      have hle := hs.counted_le
      have hsucc : (s.active + 1).toNat = s.active.toNat + 1 := by
        rw [UInt64.toNat_add, UInt64.toNat_one]
        omega
      simp only [State.counted, State.held, hb] at hactive hpermits
      refine ⟨fun _ => hs.inside hne, ?_, hpermits, fun hd => absurd hd (hs.not_drained hne)⟩
      rw [hsucc, hactive]
      rfl
  | spawn hb hu =>
      have hne : s.body ≠ .idle := by simp [hb]
      simp only [State.counted, State.held, hb] at hactive hpermits
      refine ⟨fun h => absurd rfl h, ?_, ?_, fun hd => absurd hd (hs.not_drained hne)⟩
      · simp only [State.counted, List.countP_append]
        exact hactive
      · simp only [State.held, List.countP_append]
        exact hpermits
  | task ht hn => exact inv_task hs ht hn
  | busy hl => exact ⟨hs.inside, hactive, hpermits, fun hd => Drain.noConfusion hd⟩
  | drained hl h0 =>
      refine ⟨hs.inside, hactive, hpermits, fun _ => ⟨hl, ?_⟩⟩
      rw [h0, State.counted, UInt64.toNat_zero] at hactive
      dsimp only
      omega
  | @elapsed late hd =>
      refine ⟨hs.inside, hactive, hpermits, fun h => ?_⟩
      cases late <;> cases h
  | slept hd => exact ⟨hs.inside, hactive, hpermits, fun h => Drain.noConfusion h⟩

theorem inv_connections {s : State} (hs : connections.Reach s) : Inv s :=
  Machine.inv_reach inv_init inv_step hs

/-! ## Every interleaving -/

/-- The task is in `handle_connection`. -/
def Task.isServing : Task → Bool
  | .serving => true
  | _ => false

/-- The connections in `handle_connection`. -/
def State.serving (s : State) : ℕ := s.tasks.countP Task.isServing

theorem serving_le_counted (s : State) : s.serving ≤ s.counted := by
  have h : s.serving ≤ s.tasks.countP Task.counts := by
    apply List.countP_mono_left
    intro t _ ht
    cases t <;> first | rfl | cases ht
  exact Nat.le_add_right_of_le h

/-- The counter does not wrap below zero. -/
theorem fetchSub_exact {s t : State} {i : ℕ} (hs : Inv s)
    (h : connections.step s (.task i .fetchSub) = some t) :
    t.active.toNat + 1 = s.active.toNat := by
  cases move_of_step h with
  | @task _ _ u u' hu hn =>
      have hexact := next_active hn fun hc => hs.active_pos hu hc
      cases u <;> cases hn
      exact hexact
  | drop ha =>
      rcases ha with ha | ⟨ha, -⟩ <;> cases ha

/-- **Connection accounting and drain.** In every reachable state `ACTIVE_CONNECTIONS` is at most
the number of permits held, which is at most 10000, and at least the number of connections being
served; every decrement takes exactly one off; and when the drain loop has read zero, every accepted
connection has left `handle_connection`. -/
theorem connection_accounting (s : State) (hs : connections.Reach s) :
    s.active.toNat ≤ s.held ∧ s.held ≤ 10000 ∧ s.available + s.held = 10000 ∧
    (∀ i t, connections.step s (.task i .fetchSub) = some t →
      t.active.toNat + 1 = s.active.toNat) ∧
    s.serving ≤ s.active.toNat ∧
    (s.drain = .drained → s.body = .idle ∧ ∀ t ∈ s.tasks, t = .leaving ∨ t = .gone) := by
  have hinv := inv_connections hs
  have hactive := hinv.active
  have hpermits := hinv.permits
  refine ⟨?_, ?_, hpermits, ?_, ?_, ?_⟩
  · rw [hactive]
    exact counted_le_held s
  · omega
  · intro i t h
    exact fetchSub_exact hinv h
  · rw [hactive]
    exact serving_le_counted s
  · intro hd
    obtain ⟨hloop, hzero⟩ := hinv.drained hd
    refine ⟨?_, ?_⟩
    · by_contra hb
      exact hinv.not_drained hb hd
    · intro t ht
      have hc : ¬ t.counts = true := List.countP_eq_zero.mp hzero t ht
      cases t with
      | leaving => exact .inl rfl
      | gone => exact .inr rfl
      | spawned | serving | served => exact absurd rfl hc

/-- One connection, served to its end in an error while the accept loop stops, then drained. -/
def oneConnection : List Act :=
  [.accept .enter, .accept .pollShutdown, .accept (.pollAccept true), .acquire, .fetchAdd, .spawn,
    .accept .enter, .task 0 .run, .accept .send, .accept .recv, .accept .notify,
    .accept .pollShutdown, .load, .elapsed false, .task 0 (.finish .error), .task 0 .fetchSub,
    .slept, .load]

/-- The drain loop ends with the task past its decrement and the permit still held. -/
theorem connection_accounting_one :
    ∃ s, connections.exec connections.init oneConnection = some s ∧ s.drain = .drained ∧
      s.held = 1 ∧ ∀ t ∈ s.tasks, t = .leaving ∨ t = .gone :=
  ⟨_, rfl, rfl, rfl, ((connection_accounting _ ⟨oneConnection, rfl⟩).2.2.2.2.2 rfl).2⟩

end AppGate.Server.Connections
