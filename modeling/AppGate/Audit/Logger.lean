import AppGate.Lib.Machine
import AppGate.Lib.Slice
import Mathlib.Data.Int.Notation

/-!
# The audit logger of the proxy

`Logger` in `internal/audit/logger.go`: `Log` sends on a buffered channel or drops the event, one
worker goroutine moves events from the channel into a batch and hands the batch to `flush`, and
`Close` closes the channel and waits for the worker.

* `Event`, `State`, `step`, `logger`: any number of `Log` and `Close` calls and the worker,
  interleaved at every operation on the channels, the flag and the batch;
* `Move`: what one step can do;
* `Conserved`, **`logger_conserves`**: no interleaving loses, repeats or reorders an event;
* `Orderly`, `Closing`, **`orderly_never_panics`**, `exists_panic_of_not_orderly`: when the channel
  is neither sent on nor closed once it is closed.
-/

set_option autoImplicit false

namespace AppGate.Audit

open Lts Golang

/-- A single audit record. Times are nanoseconds since the zero time. -/
structure Event where
  timestamp : ℤ
  projectID : String
  userID : String
  requestID : String
  model : String
  upstream : String
  statusCode : ℤ
  latencyMs : ℤ
  inputTokens : ℤ
  outputTokens : ℤ
  /-- In units of `2 ^ -70`. -/
  costUSD : ℤ
  promptHash : String
  responseHash : String
  violation : String
  deriving DecidableEq, Repr, Inhabited

/-- The zero value of `Event`. -/
def Event.zero : Event := ⟨0, "", "", "", "", "", 0, 0, 0, 0, 0, "", "", ""⟩

/-- The first statement of `Log`: an event without a time gets the current one. -/
def Event.stamp (e : Event) (now : ℤ) : Event :=
  if e.timestamp = 0 then { e with timestamp := now } else e

def batchSize : ℕ := 100

def queueCapacity : ℕ := 10000

/-- Where the worker goroutine is. -/
inductive Worker where
  /-- At the `select`. -/
  | selecting
  /-- The batch has reached `batchSize`; `flush()` is next. -/
  | full
  /-- The ticker fired; `flush()` is next. -/
  | ticked
  /-- The channel is closed and empty; `flush()` is next. -/
  | drained
  /-- After the last `flush()`; `close(l.done)` is next. -/
  | finishing
  | returned
  deriving DecidableEq, Repr

/-- A run-time panic on the `events` channel. -/
inductive Panic where
  | sendOnClosed
  | closeOfClosed
  deriving DecidableEq, Repr

/-- The logger, its worker and the `Close` calls in progress. The last three fields are the history
of the `Log` and `Close` calls. -/
structure State where
  stopped : Bool
  closed : Bool
  queue : List Event
  worker : Worker
  batch : Slice Event
  /-- The batches handed to `flush`. -/
  flushed : List (List Event)
  done : Bool
  /-- `Close` calls that read `stopped` as false and have not set it. -/
  passed : ℕ
  /-- `Close` calls that set `stopped` and have not closed the channel. -/
  marked : ℕ
  /-- `Close` calls that wait for the worker. -/
  waiting : ℕ
  accepted : List Event
  dropped : List Event
  panics : List Panic

/-- A step of a `Log` call, of the worker or of a `Close` call. -/
inductive Act where
  /-- `Log(e)` at time `now`: its `select`. -/
  | log (e : Event) (now : ℤ)
  /-- The worker receives from `events`. -/
  | recv
  /-- The worker receives from the ticker. -/
  | tick
  /-- The worker runs `flush()`. -/
  | flush
  /-- The worker runs `close(l.done)` and returns. -/
  | closeDone
  /-- A `Close` call tests `l.stopped`. -/
  | closeTest
  /-- A `Close` call sets `l.stopped`. -/
  | closeMark
  /-- A `Close` call runs `close(l.events)`. -/
  | closeEvents
  /-- A `Close` call stops waiting, after `done` or after the five seconds. -/
  | closeEnd (timedOut : Bool)
  deriving DecidableEq, Repr

/-- What `flush` does to the batch and to the batches handed over. -/
def flush (s : State) : State :=
  if s.batch.len = 0 then s
  else { s with flushed := s.flushed ++ [s.batch.elems], batch := s.batch.clear }

/-- One step of the logger. -/
def step (s : State) : Act → Option State
  | .log e now =>
    -- a send case on a closed channel panics, also in a `select` with a `default`
    if s.closed then some { s with panics := s.panics ++ [.sendOnClosed] }
    else if s.queue.length < queueCapacity then
      some { s with queue := s.queue ++ [e.stamp now], accepted := s.accepted ++ [e.stamp now] }
    else some { s with dropped := s.dropped ++ [e.stamp now] }
  | .recv =>
    if s.worker = .selecting then
      match s.queue with
      | e :: rest =>
        let batch := s.batch.append e
        some { s with
          queue := rest
          batch := batch
          worker := if batch.len ≥ batchSize then .full else .selecting }
      | [] => if s.closed then some { s with worker := .drained } else none
    else none
  | .tick => if s.worker = .selecting then some { s with worker := .ticked } else none
  | .flush =>
    match s.worker with
    | .full => some { flush s with worker := .selecting }
    | .ticked => some { flush s with worker := .selecting }
    | .drained => some { flush s with worker := .finishing }
    | _ => none
  | .closeDone =>
    if s.worker = .finishing then some { s with worker := .returned, done := true } else none
  | .closeTest => some (if s.stopped then s else { s with passed := s.passed + 1 })
  | .closeMark =>
    if 0 < s.passed then
      some { s with stopped := true, passed := s.passed - 1, marked := s.marked + 1 }
    else none
  | .closeEvents =>
    if 0 < s.marked then
      if s.closed then
        some { s with marked := s.marked - 1, panics := s.panics ++ [.closeOfClosed] }
      else some { s with marked := s.marked - 1, closed := true, waiting := s.waiting + 1 }
    else none
  | .closeEnd timedOut =>
    if 0 < s.waiting ∧ (s.done ∨ timedOut) then some { s with waiting := s.waiting - 1 } else none

/-- The logger as `New` returns it, with its worker started. -/
def logger : Machine State Act where
  init := ⟨false, false, [], .selecting, Slice.make Event.zero batchSize, [], false, 0, 0, 0,
    [], [], []⟩
  step := step

/-! ## What a step can do -/

/-- The steps of the logger. -/
inductive Move (s : State) : Act → State → Prop
  | panicLog {e : Event} {now : ℤ} : s.closed = true →
      Move s (.log e now) { s with panics := s.panics ++ [.sendOnClosed] }
  | enqueue {e : Event} {now : ℤ} : s.closed = false → s.queue.length < queueCapacity →
      Move s (.log e now)
        { s with queue := s.queue ++ [e.stamp now], accepted := s.accepted ++ [e.stamp now] }
  | drop {e : Event} {now : ℤ} : s.closed = false → queueCapacity ≤ s.queue.length →
      Move s (.log e now) { s with dropped := s.dropped ++ [e.stamp now] }
  | recv {e : Event} {rest : List Event} : s.worker = .selecting → s.queue = e :: rest →
      Move s .recv { s with
        queue := rest
        batch := s.batch.append e
        worker := if (s.batch.append e).len ≥ batchSize then .full else .selecting }
  | drain : s.worker = .selecting → s.queue = [] → s.closed = true →
      Move s .recv { s with worker := .drained }
  | tick : s.worker = .selecting → Move s .tick { s with worker := .ticked }
  | flush : s.worker = .full ∨ s.worker = .ticked →
      Move s .flush { flush s with worker := .selecting }
  | flushLast : s.worker = .drained → Move s .flush { flush s with worker := .finishing }
  | closeDone : s.worker = .finishing →
      Move s .closeDone { s with worker := .returned, done := true }
  | closeSkip : s.stopped = true → Move s .closeTest s
  | closeTest : s.stopped = false → Move s .closeTest { s with passed := s.passed + 1 }
  | closeMark : 0 < s.passed →
      Move s .closeMark
        { s with stopped := true, passed := s.passed - 1, marked := s.marked + 1 }
  | panicClose : 0 < s.marked → s.closed = true →
      Move s .closeEvents
        { s with marked := s.marked - 1, panics := s.panics ++ [.closeOfClosed] }
  | closeEvents : 0 < s.marked → s.closed = false →
      Move s .closeEvents
        { s with marked := s.marked - 1, closed := true, waiting := s.waiting + 1 }
  | closeEnd {timedOut : Bool} : Move s (.closeEnd timedOut) { s with waiting := s.waiting - 1 }

theorem move_of_step {s t : State} {a : Act} (h : logger.step s a = some t) : Move s a t := by
  simp only [logger] at h
  cases a with
  | log e now =>
      simp only [step] at h
      split_ifs at h with hc hq <;> cases h
      · exact .panicLog hc
      · exact .enqueue (by simpa using hc) hq
      · exact .drop (by simpa using hc) (by omega)
  | recv =>
      simp only [step] at h
      by_cases hw : s.worker = .selecting
      · rw [if_pos hw] at h
        split at h
        next e rest hq => cases h; exact .recv hw hq
        next hq =>
          split_ifs at h with hc
          cases h
          exact .drain hw hq hc
      · rw [if_neg hw] at h
        cases h
  | tick =>
      simp only [step] at h
      split_ifs at h with hw
      cases h
      exact .tick hw
  | flush =>
      simp only [step] at h
      split at h
      next hw => cases h; exact .flush (.inl hw)
      next hw => cases h; exact .flush (.inr hw)
      next hw => cases h; exact .flushLast hw
      next => cases h
  | closeDone =>
      simp only [step] at h
      split_ifs at h with hw
      cases h
      exact .closeDone hw
  | closeTest =>
      simp only [step] at h
      split_ifs at h with hs <;> cases h
      · exact .closeSkip hs
      · exact .closeTest (by simpa using hs)
  | closeMark =>
      simp only [step] at h
      split_ifs at h with hp
      cases h
      exact .closeMark hp
  | closeEvents =>
      simp only [step] at h
      split_ifs at h with hm hc <;> cases h
      · exact .panicClose hm hc
      · exact .closeEvents hm (by simpa using hc)
  | closeEnd timedOut =>
      simp only [step] at h
      split_ifs at h with hw
      cases h
      exact .closeEnd

/-! ## Conservation -/

/-- What holds of the events at every point of every run. -/
structure Conserved (s : State) : Prop where
  events : s.flushed.flatten ++ s.batch.elems ++ s.queue = s.accepted
  sizes : ∀ b ∈ s.flushed, 1 ≤ b.length ∧ b.length ≤ batchSize
  room : s.batch.len < batchSize ∨ s.batch.len = batchSize ∧ s.worker = .full
  drained : s.worker = .drained → s.closed = true ∧ s.queue = []
  finished : s.worker = .finishing ∨ s.worker = .returned →
    s.closed = true ∧ s.queue = [] ∧ s.batch.elems = []
  done : s.done = true → s.worker = .returned

theorem Conserved.len_lt {s : State} (h : Conserved s) (hw : s.worker ≠ .full) :
    s.batch.len < batchSize := by
  rcases h.room with h | ⟨_, hf⟩
  · exact h
  · exact absurd hf hw

theorem flush_events (s : State) :
    (flush s).flushed.flatten ++ (flush s).batch.elems = s.flushed.flatten ++ s.batch.elems := by
  unfold flush
  split_ifs <;> simp

theorem flush_batch (s : State) : (flush s).batch.elems = [] ∧ (flush s).batch.len = 0 := by
  unfold flush
  split_ifs with h
  · exact ⟨List.eq_nil_of_length_eq_zero (by rw [Slice.length_elems, h]), h⟩
  · exact ⟨Slice.elems_clear _, rfl⟩

theorem flush_sizes {s : State} (h : Conserved s) :
    ∀ b ∈ (flush s).flushed, 1 ≤ b.length ∧ b.length ≤ batchSize := by
  intro b hb
  unfold flush at hb
  split_ifs at hb with h0
  · exact h.sizes b hb
  · rcases List.mem_append.mp hb with hb | hb
    · exact h.sizes b hb
    · obtain rfl := List.mem_singleton.mp hb
      rw [Slice.length_elems]
      have := h.room
      omega

@[simp] theorem flush_queue (s : State) : (flush s).queue = s.queue := by
  unfold flush
  split_ifs <;> rfl

@[simp] theorem flush_accepted (s : State) : (flush s).accepted = s.accepted := by
  unfold flush
  split_ifs <;> rfl

@[simp] theorem flush_closed (s : State) : (flush s).closed = s.closed := by
  unfold flush
  split_ifs <;> rfl

@[simp] theorem flush_done (s : State) : (flush s).done = s.done := by
  unfold flush
  split_ifs <;> rfl

theorem Conserved.flush_eq {s : State} (h : Conserved s) :
    (flush s).flushed.flatten ++ (flush s).batch.elems ++ (flush s).queue = (flush s).accepted := by
  rw [flush_events, flush_queue, flush_accepted]
  exact h.events

theorem conserved_init : Conserved logger.init where
  events := by simp [logger]
  sizes := by simp [logger]
  room := .inl (by simp [logger, Slice.make, batchSize])
  drained := by simp [logger]
  finished := by simp [logger]
  done := by simp [logger]

theorem conserved_step (s : State) (a : Act) (t : State) (h : Conserved s)
    (hst : logger.step s a = some t) : Conserved t := by
  cases move_of_step hst with
  | panicLog | drop | closeSkip | closeTest | closeMark | panicClose | closeEnd =>
      exact ⟨h.events, h.sizes, h.room, h.drained, h.finished, h.done⟩
  | @enqueue e now hc hq =>
      -- an open channel: the worker has not seen its end
      refine ⟨?_, h.sizes, h.room, fun hw => ?_, fun hw => ?_, h.done⟩
      · simp only [← h.events, List.append_assoc]
      · exact absurd (h.drained hw).1 (by simp [hc])
      · exact absurd (h.finished hw).1 (by simp [hc])
  | @recv e rest hw hq =>
      have hroom : s.batch.len < batchSize := h.len_lt (by simp [hw])
      refine ⟨?_, h.sizes, ?_, fun hd => ?_, fun hd => ?_, fun hd => ?_⟩
      · rw [← h.events, hq]
        simp
      · simp only [Slice.len_append]
        split_ifs with hl
        · exact .inr ⟨by omega, rfl⟩
        · exact .inl (by omega)
      · simp only at hd
        split_ifs at hd
      · simp only at hd
        split_ifs at hd <;> simp at hd
      · exact absurd (h.done hd) (by simp [hw])
  | drain hw hq hc =>
      refine ⟨h.events, h.sizes, .inl ?_, fun _ => ⟨hc, hq⟩, fun hd => ?_, fun hd => ?_⟩
      · exact h.len_lt (by simp [hw])
      · simp at hd
      · exact absurd (h.done hd) (by simp [hw])
  | tick hw =>
      refine ⟨h.events, h.sizes, .inl ?_, fun hd => ?_, fun hd => ?_, fun hd => ?_⟩
      · exact h.len_lt (by simp [hw])
      · cases hd
      · simp at hd
      · exact absurd (h.done hd) (by simp [hw])
  | flush hw =>
      refine ⟨h.flush_eq, flush_sizes h, .inl ?_, fun hd => ?_, fun hd => ?_, fun hd => ?_⟩
      · simp [(flush_batch s).2, batchSize]
      · cases hd
      · simp at hd
      · simp only [flush_done] at hd
        rw [h.done hd] at hw
        simp at hw
  | flushLast hw =>
      refine ⟨h.flush_eq, flush_sizes h, .inl ?_, fun hd => ?_, fun _ => ?_, fun hd => ?_⟩
      · simp [(flush_batch s).2, batchSize]
      · cases hd
      · obtain ⟨hc, hq⟩ := h.drained hw
        exact ⟨by simp [hc], by simp [hq], (flush_batch s).1⟩
      · simp only [flush_done] at hd
        exact absurd (h.done hd) (by simp [hw])
  | closeDone hw =>
      refine ⟨h.events, h.sizes, .inl ?_, fun hd => ?_, fun _ => h.finished (.inl hw), fun _ => rfl⟩
      · exact h.len_lt (by simp [hw])
      · cases hd
  | closeEvents hm hc =>
      refine ⟨h.events, h.sizes, h.room, fun hw => ?_, fun hw => ?_, h.done⟩
      · exact ⟨rfl, (h.drained hw).2⟩
      · exact ⟨rfl, (h.finished hw).2⟩

/-- **No event is lost, repeated or reordered.** In every reachable state the flushed batches, the
current batch and the queue make up the accepted events in their order, a flushed batch has between
`1` and `100` events, and once `done` is closed every accepted event has been flushed. -/
theorem logger_conserves {s : State} (h : logger.Reach s) :
    s.flushed.flatten ++ s.batch.elems ++ s.queue = s.accepted ∧
      (∀ b ∈ s.flushed, 1 ≤ b.length ∧ b.length ≤ 100) ∧
      (s.done = true → s.flushed.flatten = s.accepted) := by
  have hc : Conserved s := Machine.inv_reach conserved_init conserved_step h
  refine ⟨hc.events, hc.sizes, fun hd => ?_⟩
  obtain ⟨-, hq, hb⟩ := hc.finished (.inr (hc.done hd))
  rw [← hc.events, hq, hb, List.append_nil, List.append_nil]

/-- Two events, one flushed by the ticker and one by `Close`. -/
def shutdownRun : List Act :=
  [.log Event.zero 7, .recv, .log { Event.zero with projectID := "p" } 8, .tick, .closeTest,
    .flush, .closeMark, .closeEvents, .recv, .recv, .flush, .closeDone]

theorem logger_conserves_shutdown :
    ∃ s, logger.exec logger.init shutdownRun = some s ∧
      s.done = true ∧ s.flushed.length = 2 ∧ s.flushed.flatten = s.accepted :=
  ⟨_, rfl, rfl, rfl, (logger_conserves ⟨shutdownRun, rfl⟩).2.2 rfl⟩

/-! ## Panics -/

/-- No `Log` sends once the channel is closed, and no `Close` reads `stopped` as false while another
one that did so has not set it. -/
def Orderly (s : State) : Act → Prop
  | .log _ _ => s.closed = false
  | .closeTest => s.stopped = true ∨ s.passed = 0
  | _ => True

instance (s : State) (a : Act) : Decidable (Orderly s a) := by
  cases a <;> unfold Orderly <;> infer_instance

/-- At most one `Close` call is between its test and its close of the channel, and only while the
channel is open. -/
structure Closing (s : State) : Prop where
  silent : s.panics = []
  passed : s.passed = 0 ∨ s.passed = 1 ∧ s.stopped = false
  idle : s.stopped = false → s.marked = 0 ∧ s.closed = false
  marked : s.marked = 0 ∨ s.marked = 1 ∧ s.closed = false

theorem closing_step (s : State) (a : Act) (t : State) (h : Closing s) (ho : Orderly s a)
    (hst : logger.step s a = some t) : Closing t := by
  obtain ⟨hn, hp, hi, hm⟩ := h
  cases move_of_step hst with
  | panicLog hc => exact absurd hc (by simpa [Orderly] using ho)
  | enqueue | drop | recv | drain | tick | closeDone | closeSkip | closeEnd =>
      exact ⟨hn, hp, hi, hm⟩
  | flush | flushLast =>
      unfold flush
      split_ifs <;> exact ⟨hn, hp, hi, hm⟩
  | closeTest hs =>
      have h0 : s.passed = 0 := by
        rcases ho with ho | ho
        · exact absurd ho (by simp [hs])
        · exact ho
      exact ⟨hn, .inr ⟨by simp [h0], hs⟩, hi, hm⟩
  | closeMark hpos =>
      obtain ⟨h1, hs⟩ : s.passed = 1 ∧ s.stopped = false := hp.resolve_left (by omega)
      obtain ⟨hm0, hc⟩ := hi hs
      exact ⟨hn, .inl (by simp [h1]), by simp, .inr ⟨by simp [hm0], hc⟩⟩
  | panicClose hpos hc =>
      obtain ⟨-, hc'⟩ : s.marked = 1 ∧ s.closed = false := hm.resolve_left (by omega)
      exact absurd hc (by simp [hc'])
  | closeEvents hpos hc =>
      obtain ⟨h1, -⟩ : s.marked = 1 ∧ s.closed = false := hm.resolve_left (by omega)
      have hs : s.stopped = true := by
        by_contra hs
        have := (hi (by simpa using hs)).1
        omega
      exact ⟨hn, hp, by simp [hs], .inl (by simp [h1])⟩

/-- **Orderly runs never panic.** As long as every `Log` sends before the channel is closed and no
two `Close` calls test the flag before one of them has set it, the channel is neither sent on nor
closed after it was closed. -/
theorem orderly_never_panics {s : State} (h : logger.ReachVia Orderly s) : s.panics = [] := by
  have hinit : Closing logger.init := by constructor <;> simp [logger]
  exact (Machine.inv_reachVia hinit closing_step h).silent

/-- **The first step out of order can always end in a panic.** -/
theorem exists_panic_of_not_orderly {s : State} {a : Act} (ho : ¬ Orderly s a) :
    ∃ bs t, logger.exec s (a :: bs) = some t ∧ t.panics ≠ [] := by
  cases a with
  | log e now =>
      have hc : s.closed = true := by simpa [Orderly] using ho
      exact ⟨[], { s with panics := s.panics ++ [.sendOnClosed] },
        by simp [Machine.exec, logger, step, hc], by simp⟩
  | closeTest =>
      -- both `Close` calls go on to close the channel
      obtain ⟨hs, hp⟩ : s.stopped = false ∧ 0 < s.passed := by
        simpa [Orderly, Nat.pos_iff_ne_zero] using ho
      refine ⟨[.closeMark, .closeMark, .closeEvents, .closeEvents], ?_⟩
      by_cases hc : s.closed = true <;> simp [Machine.exec, logger, step, hs, hc, hp]
  | recv | tick | flush | closeDone | closeMark | closeEvents | closeEnd =>
      exact absurd trivial ho

/-- Two `Close` calls after another and `Log` calls until the channel is closed. -/
def orderlyRun : List Act :=
  [.log Event.zero 7, .closeTest, .log Event.zero 8, .closeMark, .closeTest, .log Event.zero 9,
    .closeEvents, .closeTest]

theorem orderly_never_panics_close_twice :
    ∃ s, logger.exec logger.init orderlyRun = some s ∧ s.closed = true ∧ s.panics = [] :=
  ⟨_, rfl, rfl, orderly_never_panics ⟨orderlyRun, by decide, rfl⟩⟩

/-- A `Log` after `Close`, and two `Close` calls that both find the flag unset. -/
theorem late_log_and_overlapping_close_panic :
    (∃ s, logger.exec logger.init
        [.closeTest, .closeMark, .closeEvents, .log Event.zero 7] = some s ∧
      s.panics = [.sendOnClosed]) ∧
    ∃ s, logger.exec logger.init
        [.closeTest, .closeTest, .closeMark, .closeMark, .closeEvents, .closeEvents] = some s ∧
      s.panics = [.closeOfClosed] :=
  ⟨⟨_, rfl, rfl⟩, ⟨_, rfl, rfl⟩⟩

end AppGate.Audit
