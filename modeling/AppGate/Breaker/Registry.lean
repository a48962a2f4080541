import Mathlib.Logic.Function.Basic
import AppGate.Breaker.Model
import AppGate.Lib.Machine

/-!
# The registry of circuit breakers

`CircuitBreakerRegistry` in `rust-gateway/src/circuit_breaker.rs`, shared by any number of callers.
`get` is one critical section under the read lock; `get_or_create` is a `get` and, when it misses, a
second critical section under the write lock. An `Arc<RwLock<CircuitBreaker>>` is an address.

* `get`, `orInsert`, `call`: the critical sections; `getOrCreate`: the two of them in a row;
* `State`, `step`, `registry`: their interleaving, with a log of what went through the handles;
  `exec_alone`: a call nobody interrupts;
* `Move`, `move_of_step`: everything a step can do;
* `Inv`, `inv_step`, **`one_breaker_per_key`**.
-/

set_option autoImplicit false

namespace AppGate.Breaker

open Lts

/-- `CircuitBreakerRegistry`: the map from keys to addresses, and the breakers allocated. -/
structure CircuitBreakerRegistry where
  breakers : String → Option ℕ
  heap : List CircuitBreaker
  config : CircuitBreakerConfig

namespace CircuitBreakerRegistry

/-- `CircuitBreakerRegistry::new`. -/
def new (config : CircuitBreakerConfig) : CircuitBreakerRegistry := ⟨fun _ => none, [], config⟩

/-- `CircuitBreakerRegistry::get`: `read.get(key).cloned()`. -/
def get (r : CircuitBreakerRegistry) (key : String) : Option ℕ := r.breakers key

/-- `write.entry(key.to_string()).or_insert_with(..).clone()`. -/
def orInsert (r : CircuitBreakerRegistry) (key : String) : ℕ × CircuitBreakerRegistry :=
  match r.breakers key with
  | some a => (a, r)
  | none => (r.heap.length,
      { r with
        breakers := Function.update r.breakers key (some r.heap.length)
        heap := r.heap ++ [Breaker.new r.config] })

/-- `CircuitBreakerRegistry::get_or_create`, when nobody interrupts it. -/
def getOrCreate (r : CircuitBreakerRegistry) (key : String) : ℕ × CircuitBreakerRegistry :=
  match r.get key with
  | some a => (a, r)
  | none => r.orInsert key

/-- A call on the breaker behind a handle, under its write lock. -/
def call (r : CircuitBreakerRegistry) (a : ℕ) (op : Op) : CircuitBreakerRegistry :=
  { r with heap := r.heap.modify a fun b => Breaker.step b op }

end CircuitBreakerRegistry

namespace Registry

/-- Which function was called. -/
inductive Kind where
  | get
  | getOrCreate
  deriving DecidableEq, Repr

/-- Where a call is. -/
inductive Phase where
  /-- Before the read-locked lookup. -/
  | started
  /-- The lookup of a `get_or_create` missed; before the write-locked insert. -/
  | missed
  | returned (handle : Option ℕ)
  deriving DecidableEq, Repr

/-- A call of `get` or `get_or_create`. -/
structure Call where
  kind : Kind
  key : String
  phase : Phase
  deriving DecidableEq, Repr

/-- The registry, the calls so far, and the calls made on breakers with the key each handle was
returned for. -/
structure State where
  registry : CircuitBreakerRegistry
  calls : List Call
  log : List (String × Op)

/-- A step of a caller. -/
inductive Act where
  | begin (kind : Kind) (key : String)
  /-- The `i`-th call runs its read-locked section. -/
  | lookup (i : ℕ)
  /-- The `i`-th call runs its write-locked section. -/
  | insert (i : ℕ)
  /-- The handle the `i`-th call returned is used. -/
  | use (i : ℕ) (op : Op)
  deriving DecidableEq, Repr

/-- What a lookup leaves a call with. -/
def Call.looked (c : Call) (found : Option ℕ) : Call :=
  match found, c.kind with
  | some a, _ => { c with phase := .returned (some a) }
  | none, .get => { c with phase := .returned none }
  | none, .getOrCreate => { c with phase := .missed }

/-- One step. -/
def step (s : State) : Act → Option State
  | .begin kind key => some { s with calls := s.calls ++ [⟨kind, key, .started⟩] }
  | .lookup i =>
    match s.calls[i]? with
    | some c =>
      if c.phase = .started then
        some { s with calls := s.calls.set i (c.looked (s.registry.get c.key)) }
      else none
    | none => none
  | .insert i =>
    match s.calls[i]? with
    | some c =>
      if c.phase = .missed then
        some { s with
          registry := (s.registry.orInsert c.key).2
          calls := s.calls.set i
            { c with phase := .returned (some (s.registry.orInsert c.key).1) } }
      else none
    | none => none
  | .use i op =>
    match s.calls[i]? with
    | some ⟨_, key, .returned (some a)⟩ =>
      some { s with registry := s.registry.call a op, log := s.log ++ [(key, op)] }
    | _ => none

/-- A fresh registry. -/
def registry (cfg : CircuitBreakerConfig) : Machine State Act := ⟨⟨.new cfg, [], []⟩, step⟩

/-- The calls of a log made under `key`, in order. -/
def recordedIn (log : List (String × Op)) (key : String) : List Op :=
  (log.filter (·.1 = key)).map Prod.snd

/-! ## What a step can do -/

/-- The steps of the callers. -/
inductive Move (s : State) : Act → State → Prop
  | begin (kind : Kind) (key : String) :
      Move s (.begin kind key) { s with calls := s.calls ++ [⟨kind, key, .started⟩] }
  | lookup {i : ℕ} {c : Call} : s.calls[i]? = some c → c.phase = .started →
      Move s (.lookup i) { s with calls := s.calls.set i (c.looked (s.registry.get c.key)) }
  | insert {i : ℕ} {c : Call} : s.calls[i]? = some c → c.phase = .missed →
      Move s (.insert i) { s with
        registry := (s.registry.orInsert c.key).2
        calls := s.calls.set i { c with phase := .returned (some (s.registry.orInsert c.key).1) } }
  | use {i a : ℕ} {c : Call} {op : Op} : s.calls[i]? = some c → c.phase = .returned (some a) →
      Move s (.use i op)
        { s with registry := s.registry.call a op, log := s.log ++ [(c.key, op)] }

theorem move_of_step {cfg : CircuitBreakerConfig} {s t : State} {a : Act}
    (h : (registry cfg).step s a = some t) : Move s a t := by
  simp only [registry] at h
  cases a with
  | begin kind key =>
      cases h
      exact .begin kind key
  | lookup i =>
      simp only [step] at h
      split at h
      · rename_i c hc
        split_ifs at h with hp
        cases h
        exact .lookup hc hp
      · cases h
  | insert i =>
      simp only [step] at h
      split at h
      · rename_i c hc
        split_ifs at h with hp
        cases h
        exact .insert hc hp
      · cases h
  | use i op =>
      simp only [step] at h
      split at h
      · rename_i kind key a hc
        cases h
        exact .use hc rfl
      · cases h

/-- A `get_or_create` that nobody interrupts computes `getOrCreate`, in whatever state it starts. -/
theorem exec_alone {cfg : CircuitBreakerConfig} {s : State} {i : ℕ} {c : Call}
    (hc : s.calls[i]? = some c) (hk : c.kind = .getOrCreate) (hp : c.phase = .started) :
    ∃ as, (registry cfg).exec s as = some { s with
      registry := (s.registry.getOrCreate c.key).2
      calls := s.calls.set i
        { c with phase := .returned (some (s.registry.getOrCreate c.key).1) } } := by
  obtain ⟨hi, hci⟩ := List.getElem?_eq_some_iff.mp hc
  unfold CircuitBreakerRegistry.getOrCreate
  cases hg : s.registry.get c.key with
  | some a =>
      refine ⟨[.lookup i], ?_⟩
      simp [Machine.exec, registry, step, hc, hp, hg, Call.looked]
  | none =>
      refine ⟨[.lookup i, .insert i], ?_⟩
      simp [Machine.exec, registry, step, hci, hk, hp, hg, hi, Call.looked]

/-- The phase a lookup leaves a call in. -/
theorem looked_returned {c : Call} {found handle : Option ℕ}
    (h : (c.looked found).phase = .returned handle) :
    handle = found ∧ (handle = none → c.kind = .get) := by
  unfold Call.looked at h
  split at h
  · cases h
    exact ⟨rfl, fun hn => nomatch hn⟩
  · rename_i hk
    cases h
    exact ⟨rfl, fun _ => hk⟩
  · cases h

@[simp] theorem looked_key (c : Call) (found : Option ℕ) : (c.looked found).key = c.key := by
  unfold Call.looked
  split <;> rfl

@[simp] theorem looked_kind (c : Call) (found : Option ℕ) : (c.looked found).kind = c.kind := by
  unfold Call.looked
  split <;> rfl

/-! ## One address for each key -/

theorem recordedIn_snoc (log : List (String × Op)) (key key' : String) (op : Op) :
    recordedIn (log ++ [(key, op)]) key' =
      if key = key' then recordedIn log key' ++ [op] else recordedIn log key' := by
  split_ifs with h
  · simp [recordedIn, h]
  · simp [recordedIn, h]

/-- Keys have addresses of their own, and behind each address is the breaker that saw every call
made under its key. -/
structure Sound (cfg : CircuitBreakerConfig) (r : CircuitBreakerRegistry)
    (log : List (String × Op)) : Prop where
  config : r.config = cfg
  inj : ∀ k k' a, r.breakers k = some a → r.breakers k' = some a → k = k'
  content : ∀ k a, r.breakers k = some a → r.heap[a]? = some (run cfg (recordedIn log k))
  unused : ∀ k, r.breakers k = none → recordedIn log k = []

variable {cfg : CircuitBreakerConfig}

theorem sound_new (cfg : CircuitBreakerConfig) : Sound cfg (.new cfg) [] where
  config := rfl
  inj _ _ _ h := nomatch h
  content _ _ h := nomatch h
  unused _ _ := rfl

theorem Sound.lt_length {r : CircuitBreakerRegistry} {log : List (String × Op)}
    (h : Sound cfg r log) {k : String} {a : ℕ} (ha : r.breakers k = some a) : a < r.heap.length :=
  (List.getElem?_eq_some_iff.mp (h.content k a ha)).1

theorem orInsert_self (r : CircuitBreakerRegistry) (key : String) :
    (r.orInsert key).2.breakers key = some (r.orInsert key).1 := by
  unfold CircuitBreakerRegistry.orInsert
  split
  · assumption
  · exact Function.update_self ..

/-- The second check under the write lock: a key that has an address keeps it. -/
theorem orInsert_stable {r : CircuitBreakerRegistry} (key : String) {k : String} {a : ℕ}
    (h : r.breakers k = some a) : (r.orInsert key).2.breakers k = some a := by
  unfold CircuitBreakerRegistry.orInsert
  split
  · exact h
  · rename_i hnone
    have hne : k ≠ key := by
      rintro rfl
      rw [hnone] at h
      cases h
    exact (Function.update_of_ne hne ..).trans h

theorem sound_orInsert {r : CircuitBreakerRegistry} {log : List (String × Op)}
    (h : Sound cfg r log) (key : String) : Sound cfg (r.orInsert key).2 log := by
  unfold CircuitBreakerRegistry.orInsert
  split
  · exact h
  · rename_i hnone
    -- the new address is behind the end of the heap, so no other key has it
    have hfresh : ∀ k, r.breakers k ≠ some r.heap.length :=
      fun k hk => absurd (h.lt_length hk) (Nat.lt_irrefl _)
    refine ⟨h.config, ?_, ?_, ?_⟩
    · intro k k' a hk hk'
      dsimp only at hk hk'
      rw [Function.update_apply] at hk hk'
      split_ifs at hk hk' with e e'
      · rw [e, e']
      · cases hk
        exact absurd hk' (hfresh k')
      · cases hk'
        exact absurd hk (hfresh k)
      · exact h.inj k k' a hk hk'
    · intro k a hk
      dsimp only at hk ⊢
      rw [Function.update_apply] at hk
      split_ifs at hk with e
      · cases hk
        rw [List.getElem?_concat_length, e, h.unused key hnone, h.config]
        rfl
      · rw [List.getElem?_append_left (h.lt_length hk)]
        exact h.content k a hk
    · intro k hk
      dsimp only at hk
      rw [Function.update_apply] at hk
      split_ifs at hk with e
      exact h.unused k hk

theorem sound_call {r : CircuitBreakerRegistry} {log : List (String × Op)} (h : Sound cfg r log)
    {key : String} {a : ℕ} (ha : r.breakers key = some a) (op : Op) :
    Sound cfg (r.call a op) (log ++ [(key, op)]) := by
  refine ⟨h.config, h.inj, ?_, ?_⟩
  · intro k b hb
    have hcont := h.content k b hb
    rw [recordedIn_snoc, CircuitBreakerRegistry.call, List.getElem?_modify]
    by_cases e : key = k
    · subst e
      obtain rfl : a = b := Option.some.inj (ha.symm.trans hb)
      simp [hcont]
    · have hne : a ≠ b := fun hab => e (h.inj key k a ha (hab ▸ hb))
      simp [e, hne, hcont]
  · intro k hk
    have hne : key ≠ k := by
      rintro rfl
      have hk : r.breakers key = none := hk
      rw [ha] at hk
      cases hk
    rw [recordedIn_snoc, if_neg hne]
    exact h.unused k hk

/-! ## Every schedule -/

/-- The registry is sound, and a handle is the address of the key it was returned for. -/
structure Inv (cfg : CircuitBreakerConfig) (s : State) : Prop where
  sound : Sound cfg s.registry s.log
  mapped : ∀ c ∈ s.calls, ∀ a, c.phase = .returned (some a) →
    s.registry.breakers c.key = some a
  created : ∀ c ∈ s.calls, c.phase = .returned none → c.kind = .get

theorem inv_step (s : State) (a : Act) (t : State) (hs : Inv cfg s)
    (h : (registry cfg).step s a = some t) : Inv cfg t := by
  cases move_of_step h with
  | begin kind key =>
      refine ⟨hs.sound, ?_, ?_⟩
      · intro c hc a ha
        rcases List.mem_append.mp hc with hc | hc
        · exact hs.mapped c hc a ha
        · rw [List.mem_singleton.mp hc] at ha
          cases ha
      · intro c hc hn
        rcases List.mem_append.mp hc with hc | hc
        · exact hs.created c hc hn
        · rw [List.mem_singleton.mp hc] at hn
          cases hn
  | @lookup i d hd hp =>
      refine ⟨hs.sound, ?_, ?_⟩
      · intro c hc a ha
        rcases List.mem_or_eq_of_mem_set hc with hc | rfl
        · exact hs.mapped c hc a ha
        · rw [looked_key]
          exact (looked_returned ha).1.symm
      · intro c hc hn
        rcases List.mem_or_eq_of_mem_set hc with hc | rfl
        · exact hs.created c hc hn
        · rw [looked_kind]
          exact (looked_returned hn).2 rfl
  | @insert i d hd hp =>
      refine ⟨sound_orInsert hs.sound d.key, ?_, ?_⟩
      · intro c hc a ha
        rcases List.mem_or_eq_of_mem_set hc with hc | rfl
        · exact orInsert_stable d.key (hs.mapped c hc a ha)
        · cases ha
          exact orInsert_self s.registry d.key
      · intro c hc hn
        rcases List.mem_or_eq_of_mem_set hc with hc | rfl
        · exact hs.created c hc hn
        · cases hn
  | @use i a d op hd hp =>
      have ha := hs.mapped d (List.mem_of_getElem? hd) a hp
      exact ⟨sound_call hs.sound ha op, hs.mapped, hs.created⟩

theorem inv_init (cfg : CircuitBreakerConfig) : Inv cfg (registry cfg).init where
  sound := sound_new cfg
  mapped _ hc := absurd hc List.not_mem_nil
  created _ hc := absurd hc List.not_mem_nil

theorem inv_registry {s : State} (hs : (registry cfg).Reach s) : Inv cfg s :=
  Machine.inv_reach (inv_init cfg) inv_step hs

/-- **One breaker for each key.** In every state any interleaving reaches: two handles are the same
breaker exactly when they were returned for the same key, only a `get` returns none, and the breaker
behind a handle is the one that saw every call made through any handle of its key. -/
theorem one_breaker_per_key (cfg : CircuitBreakerConfig) (s : State)
    (hs : (registry cfg).Reach s) :
    (∀ c ∈ s.calls, ∀ d ∈ s.calls, ∀ a b, c.phase = .returned (some a) →
      d.phase = .returned (some b) → (a = b ↔ c.key = d.key)) ∧
    (∀ c ∈ s.calls, c.phase = .returned none → c.kind = .get) ∧
    ∀ c ∈ s.calls, ∀ a, c.phase = .returned (some a) →
      s.registry.heap[a]? = some (run cfg (recordedIn s.log c.key)) := by
  have hinv := inv_registry hs
  refine ⟨?_, hinv.created, ?_⟩
  · intro c hc d hd a b ha hb
    have hca := hinv.mapped c hc a ha
    have hdb := hinv.mapped d hd b hb
    constructor
    · rintro rfl
      exact hinv.sound.inj c.key d.key a hca hdb
    · intro hk
      rw [hk, hdb] at hca
      exact (Option.some.inj hca).symm
  · intro c hc a ha
    exact hinv.sound.content c.key a (hinv.mapped c hc a ha)

/-- Two callers miss before either inserts, and the second one records a failure. -/
def race : List Act :=
  [.begin .getOrCreate "a", .begin .getOrCreate "a", .lookup 0, .lookup 1, .insert 0, .insert 1,
    .use 1 (.recordFailure 0)]

/-- Both callers of the race get one breaker, and the failure is in it. -/
theorem one_breaker_per_key_race :
    ∃ s, (registry ⟨1, 0, 1⟩).exec (registry ⟨1, 0, 1⟩).init race = some s ∧
      s.registry.heap[0]? = some (run ⟨1, 0, 1⟩ [.recordFailure 0]) :=
  ⟨_, rfl, (one_breaker_per_key ⟨1, 0, 1⟩ _ ⟨race, rfl⟩).2.2
    ⟨.getOrCreate, "a", .returned (some 0)⟩ (by decide) 0 rfl⟩

end Registry

end AppGate.Breaker
