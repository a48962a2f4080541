import AppGate.Lib.Machine
import AppGate.Store.Watch

/-!
# The channel of a watch

The goroutine that `EtcdStore.Watch` in `control-plane/internal/store/store.go` starts: it takes the
responses of the client's watch and sends the value of each event on a channel with room for `100`,
or stops when the context is done. The consumer receives at its own pace.

* `State`, `Act`, `step`, `watcher`: the client, the goroutine, the context and the consumer;
* `Sound`, `sound_step`: what one step keeps;
* `progress`: what the goroutine can wait for;
* **`received_of_reach`**: what the consumer has, in every reachable state.
-/

set_option autoImplicit false

namespace AppGate.Store.Channel

open Lts

/-- The room of the channel. -/
def capacity : ℕ := 100

/-- The client's channel, the goroutine, the channel to the consumer, and what was delivered and
received so far. -/
structure State where
  pending : List (List Event)
  /-- The client has closed its channel. -/
  ended : Bool
  /-- The events of the current response that are not sent yet. -/
  current : List Event
  buffer : List String
  cancelled : Bool
  closed : Bool
  delivered : List (List Event)
  received : List String
  deriving DecidableEq, Repr

inductive Act where
  /-- The client's watch delivers a response. -/
  | deliver (wresp : List Event)
  /-- The client's watch ends. -/
  | endWatch
  /-- The context is done. -/
  | cancel
  /-- The loop over the responses takes one. -/
  | take
  /-- The `select` sends a value. -/
  | send
  /-- The `select` sees that the context is done. -/
  | stop
  /-- The loop over the responses is over. -/
  | finish
  /-- The consumer receives a value. -/
  | recv
  deriving DecidableEq, Repr

/-- The steps of the goroutine. -/
def loop (s : State) : Act → Option State
  | .take =>
    match s.current, s.pending with
    | [], wresp :: rest => some { s with current := wresp, pending := rest }
    | _, _ => none
  | .send =>
    match s.current with
    | ev :: evs =>
      if s.buffer.length < capacity then
        some { s with current := evs, buffer := s.buffer ++ [ev.value] }
      else none
    | [] => none
  | .stop => if s.cancelled ∧ s.current ≠ [] then some { s with closed := true } else none
  | .finish =>
    if s.ended ∧ s.current = [] ∧ s.pending = [] then some { s with closed := true } else none
  | _ => none

def step (s : State) : Act → Option State
  | .deliver wresp =>
    if s.ended then none
    else some { s with pending := s.pending ++ [wresp], delivered := s.delivered ++ [wresp] }
  | .endWatch => some { s with ended := true }
  | .cancel => some { s with cancelled := true }
  | .recv =>
    match s.buffer with
    | value :: rest => some { s with buffer := rest, received := s.received ++ [value] }
    | [] => none
  | act => if s.closed then none else loop s act

def watcher : Machine State Act := ⟨⟨[], false, [], [], false, false, [], []⟩, step⟩

/-- The values that were delivered and not sent. -/
def State.backlog (s : State) : List String :=
  s.current.map (fun ev => ev.value) ++ watch s.pending

/-! ## What a step keeps -/

structure Sound (s : State) : Prop where
  values : s.received ++ s.buffer ++ s.backlog = watch s.delivered
  room : s.buffer.length ≤ capacity
  closed : s.closed = true → s.cancelled = true ∨ s.current = [] ∧ s.pending = [] ∧ s.ended = true

theorem watch_append (rs ts : List (List Event)) : watch (rs ++ ts) = watch rs ++ watch ts :=
  List.flatMap_append

/-- The steps that are the goroutine's. -/
def own : List Act := [.take, .send, .stop, .finish]

/-- The steps of the goroutine are taken while the channel is open. -/
theorem step_of_own {s : State} {a : Act} (ha : a ∈ own) :
    watcher.step s a = if s.closed then none else loop s a := by
  simp only [own, List.mem_cons, List.not_mem_nil, or_false] at ha
  rcases ha with rfl | rfl | rfl | rfl <;> rfl

theorem sound_loop {s t : State} {a : Act} (h : Sound s) (hopen : s.closed = false)
    (hl : loop s a = some t) : Sound t := by
  obtain ⟨hv, hroom, -⟩ := h
  have hnot (h : s.closed = true) : False := Bool.false_ne_true (hopen.symm.trans h)
  cases a with
  | deliver | endWatch | cancel | recv => cases hl
  | take =>
      simp only [loop] at hl
      split at hl
      next wresp rest hcur hpend =>
        cases hl
        refine ⟨?_, hroom, fun hc => (hnot hc).elim⟩
        simpa [State.backlog, hcur, hpend, watch] using hv
      next => cases hl
  | send =>
      simp only [loop] at hl
      split at hl
      next ev evs hcur =>
        split_ifs at hl with hlt
        cases hl
        refine ⟨?_, ?_, fun hc => (hnot hc).elim⟩
        · simpa [State.backlog, hcur] using hv
        · rw [List.length_append, List.length_singleton]
          omega
      next => cases hl
  | stop =>
      simp only [loop] at hl
      split_ifs at hl with hs
      cases hl
      exact ⟨hv, hroom, fun _ => .inl hs.1⟩
  | finish =>
      simp only [loop] at hl
      split_ifs at hl with hs
      cases hl
      exact ⟨hv, hroom, fun _ => .inr ⟨hs.2.1, hs.2.2, hs.1⟩⟩

theorem sound_step (s : State) (a : Act) (t : State) (h : Sound s)
    (hst : watcher.step s a = some t) : Sound t := by
  cases a with
  | deliver wresp =>
      obtain ⟨hv, hroom, hclosed⟩ := h
      simp only [watcher, step] at hst
      split_ifs at hst with he
      cases hst
      refine ⟨?_, hroom, fun hc => ?_⟩
      · simp only [State.backlog, watch_append] at hv ⊢
        rw [← hv]
        simp only [List.append_assoc]
      · rcases hclosed hc with h | ⟨-, -, h⟩
        · exact .inl h
        · exact absurd h he
  | endWatch =>
      cases hst
      exact ⟨h.values, h.room, fun hc => (h.closed hc).imp_right fun ⟨h₁, h₂, _⟩ => ⟨h₁, h₂, rfl⟩⟩
  | cancel =>
      cases hst
      exact ⟨h.values, h.room, fun _ => .inl rfl⟩
  | recv =>
      simp only [watcher, step] at hst
      split at hst
      next value rest hb =>
        cases hst
        obtain ⟨hv, hroom, hclosed⟩ := h
        rw [hb] at hv hroom
        refine ⟨?_, Nat.le_of_succ_le hroom, hclosed⟩
        simpa only [List.append_assoc, List.singleton_append, State.backlog] using hv
      next => cases hst
  | take | send | stop | finish =>
      rw [step_of_own (by simp [own])] at hst
      split_ifs at hst with hc
      exact sound_loop h (by simpa using hc) hst

theorem sound_init : Sound watcher.init := ⟨rfl, Nat.zero_le _, fun h => by cases h⟩

/-! ## What the goroutine waits for -/

/-- While the channel is open the goroutine can take a step, unless it waits for a response of the
client or for the consumer to make room. -/
theorem progress {s : State} (h : Sound s) (hopen : s.closed = false) :
    (∃ a ∈ own, ∃ t, watcher.step s a = some t) ∨
      (s.current = [] ∧ s.pending = [] ∧ s.ended = false) ∨
      (s.current ≠ [] ∧ s.buffer.length = capacity ∧ s.cancelled = false) := by
  have hstep {a : Act} (ha : a ∈ own) (hl : (loop s a).isSome) :
      ∃ a ∈ own, ∃ t, watcher.step s a = some t := by
    refine ⟨a, ha, Option.isSome_iff_exists.mp ?_⟩
    rw [step_of_own ha, hopen]
    exact hl
  match hcur : s.current, hpend : s.pending with
  | [], wresp :: rest =>
      left
      apply hstep (by simp [own] : Act.take ∈ own)
      simp only [loop, hcur, hpend, Option.isSome_some]
  | [], [] =>
      cases he : s.ended with
      | false => exact .inr (.inl ⟨rfl, rfl, rfl⟩)
      | true =>
          left
          apply hstep (by simp [own] : Act.finish ∈ own)
          simp only [loop, hcur, hpend, he, and_self, if_true,
            Option.isSome_some]
  | ev :: evs, _ =>
      by_cases hlt : s.buffer.length < capacity
      · left
        apply hstep (by simp [own] : Act.send ∈ own)
        simp only [loop, hcur, hlt, if_true, Option.isSome_some]
      · cases hcan : s.cancelled with
        | true =>
            left
            apply hstep (by simp [own] : Act.stop ∈ own)
            simp only [loop, hcur, hcan, ne_eq, reduceCtorEq, not_false_eq_true, and_self, if_true,
            Option.isSome_some]
        | false =>
            have hroom := h.room
            exact .inr (.inr ⟨by simp, by omega, rfl⟩)

/-! ## What is received -/

/-- **What the consumer of a watch has.** In every reachable state of the goroutine, with any
batches and any interleaving of its sends, the receives, the end of the context and the end of the
client's watch: the values received, the at most `100` on the channel and the ones not sent yet are
the values delivered, in order and each once; a channel that closed without cancellation has them
all; an open channel waits only for the client or for the consumer; and a consumer that has received
all values of a history knows what `Get` finds, up to whether the history ends in a deletion. -/
theorem received_of_reach {s : State} (hs : watcher.Reach s) :
    s.received ++ s.buffer ++ s.backlog = watch s.delivered ∧
      s.buffer.length ≤ capacity ∧
      (s.closed = true → s.cancelled = false → s.received ++ s.buffer = watch s.delivered) ∧
      (s.closed = false →
        (∃ a ∈ own, ∃ t, watcher.step s a = some t) ∨
          (s.current = [] ∧ s.pending = [] ∧ s.ended = false) ∨
          (s.current ≠ [] ∧ s.buffer.length = capacity ∧ s.cancelled = false)) ∧
      ∀ (key : String) (ops : List Op) (kv : Etcd), Delivers key ops s.delivered →
        s.buffer = [] → s.backlog = [] →
          kv.run ops key =
            if EndsInDelete key ops then none else (s.received.getLast? <|> kv key) := by
  have h : Sound s := Machine.inv_reach sound_init sound_step hs
  refine ⟨h.values, h.room, fun hc hcan => ?_, progress h, fun key ops kv hd hb hback => ?_⟩
  · have hv := h.values
    rcases h.closed hc with hcan' | ⟨hcur, hpend, -⟩
    · simp [hcan] at hcan'
    · simpa [State.backlog, hcur, hpend, watch] using hv
  · have hv := h.values
    rw [hb, hback, List.append_nil, List.append_nil] at hv
    rw [run_apply_of_delivers hd, hv]

/-- A run in which the context ends while a response is half sent. -/
def halfSent : List Act :=
  [.deliver [⟨false, "a"⟩, ⟨false, "b"⟩], .take, .send, .cancel, .recv, .stop]

theorem received_of_reach_halfSent : ∃ s, watcher.Reach s ∧ s.closed = true ∧
    s.received ++ s.buffer ++ s.backlog = watch s.delivered ∧ s.backlog = ["b"] := by
  refine ⟨⟨[], false, [⟨false, "b"⟩], [], true, true, [[⟨false, "a"⟩, ⟨false, "b"⟩]], ["a"]⟩,
    ⟨halfSent, rfl⟩, rfl, (received_of_reach ⟨halfSent, rfl⟩).1, rfl⟩

end AppGate.Store.Channel
