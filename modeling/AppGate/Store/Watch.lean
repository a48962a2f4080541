import Mathlib.Data.List.Induction
import Mathlib.Logic.Function.Basic
import Mathlib.Tactic.Common

/-!
# Reading and watching a key

`EtcdStore` in `control-plane/internal/store/store.go`. `Get` tells a missing key from an empty
value; `Watch` sends the value of every event, and the event of a deletion has an empty value. Of
etcd the model assumes that a watch delivers one event for each operation on its key, in order.

* `get`, `put`, `delete`, `watch`: the code; `Op`, `run`: histories of operations;
* `run_apply`: the value of a key is what the last operation on it left;
* `run_apply_of_delivers`: what is read, from what was received and whether it ended in a deletion;
* **`get_eq_iff`**: when two histories that look alike on the channel leave the same value.
-/

set_option autoImplicit false

namespace AppGate.Store

/-- The contents of etcd. -/
abbrev Etcd := String → Option String

/-- `EtcdStore.Get`, of the values that the client's `Get` returns or its error. -/
def get (key : String) (resp : Except String (List String)) : Except String String :=
  match resp with
  | .error e => .error ("etcd get failed: " ++ e)
  | .ok [] => .error ("key not found: " ++ key)
  | .ok (value :: _) => .ok value

/-- The values at a key, as etcd returns them. -/
def Etcd.range (kv : Etcd) (key : String) : List String := (kv key).toList

/-- What `EtcdStore.Get` returns when etcd answers. -/
def Etcd.get (kv : Etcd) (key : String) : Except String String := Store.get key (.ok (kv.range key))

/-- `EtcdStore.Put`. -/
def Etcd.put (kv : Etcd) (key value : String) : Etcd := Function.update kv key (some value)

/-- `EtcdStore.Delete`. -/
def Etcd.delete (kv : Etcd) (key : String) : Etcd := Function.update kv key none

/-- An event of a watch: its type, and `ev.Kv.Value`. -/
structure Event where
  isDelete : Bool
  value : String
  deriving DecidableEq, Repr

/-- `EtcdStore.Watch`: the strings sent for the responses of the client's watch. -/
def watch (responses : List (List Event)) : List String :=
  responses.flatMap fun wresp => wresp.map fun ev => ev.value

/-! ## Histories -/

/-- An operation on the store. -/
inductive Op where
  | put (key value : String)
  | delete (key : String)
  deriving DecidableEq, Repr

namespace Op

def key : Op → String
  | .put key _ => key
  | .delete key => key

/-- The event of an operation: a deletion has no value. -/
def event : Op → Event
  | .put _ value => ⟨false, value⟩
  | .delete _ => ⟨true, ""⟩

/-- The value an operation leaves at its key. -/
def left : Op → Option String
  | .put _ value => some value
  | .delete _ => none

end Op

/-- One operation on etcd. -/
def Etcd.step (kv : Etcd) : Op → Etcd
  | .put key value => kv.put key value
  | .delete key => kv.delete key

/-- A history of operations. -/
def Etcd.run (kv : Etcd) (ops : List Op) : Etcd := ops.foldl Etcd.step kv

/-- The operations on a key. -/
def opsOn (key : String) (ops : List Op) : List Op := ops.filter fun op => op.key = key

/-- The responses of a watch on the key carry the events of a history, in any batches. -/
def Delivers (key : String) (ops : List Op) (responses : List (List Event)) : Prop :=
  responses.flatten = (opsOn key ops).map Op.event

/-- The last operation on the key is a deletion. -/
def EndsInDelete (key : String) (ops : List Op) : Prop :=
  (opsOn key ops).getLast? = some (.delete key)

instance (key : String) (ops : List Op) : Decidable (EndsInDelete key ops) :=
  inferInstanceAs (Decidable ((opsOn key ops).getLast? = some (.delete key)))

theorem step_apply (kv : Etcd) (op : Op) (key : String) :
    kv.step op key = if op.key = key then op.left else kv key := by
  cases op with
  | put k value | delete k =>
    by_cases hk : k = key
    · subst hk
      simp [Etcd.step, Etcd.put, Etcd.delete, Op.key, Op.left]
    · simp [Etcd.step, Etcd.put, Etcd.delete, Op.key, hk, Ne.symm hk]

/-- The value of a key is what the last operation on it left. -/
theorem run_apply (kv : Etcd) (ops : List Op) (key : String) :
    kv.run ops key = ((opsOn key ops).getLast?.map Op.left).getD (kv key) := by
  induction ops using List.reverseRecOn with
  | nil => rfl
  | append_singleton ops op ih =>
      have hrun : kv.run (ops ++ [op]) = (kv.run ops).step op := by simp [Etcd.run]
      rw [hrun, step_apply]
      by_cases hk : op.key = key
      · simp [opsOn, hk]
      · simpa [opsOn, hk] using ih

/-! ## What is received -/

theorem watch_of_delivers {key : String} {ops : List Op} {responses : List (List Event)}
    (h : Delivers key ops responses) :
    watch responses = (opsOn key ops).map fun op => op.event.value := by
  unfold watch
  rw [List.flatMap_def, ← List.map_flatten, h, List.map_map]
  rfl

theorem key_of_mem_opsOn {key : String} {ops : List Op} {op : Op} (h : op ∈ opsOn key ops) :
    op.key = key := by
  simpa using (List.mem_filter.mp h).2

/-- An operation that is not a deletion leaves the value of its event. -/
theorem left_eq {op : Op} {key : String} (hk : op.key = key) :
    op.left = if op = .delete key then none else some op.event.value := by
  subst hk
  cases op <;> simp [Op.left, Op.event, Op.key]

theorem getLast?_watch {key : String} {ops : List Op} {responses : List (List Event)}
    (h : Delivers key ops responses) :
    (watch responses).getLast? = (opsOn key ops).getLast?.map fun op => op.event.value := by
  rw [watch_of_delivers h, List.getLast?_map]

/-- What is read depends on what was received last and on whether it was a deletion. -/
theorem run_apply_of_delivers {key : String} {ops : List Op} {responses : List (List Event)}
    (h : Delivers key ops responses) (kv : Etcd) :
    kv.run ops key =
      if EndsInDelete key ops then none else ((watch responses).getLast? <|> kv key) := by
  rw [run_apply, getLast?_watch h]
  cases hl : (opsOn key ops).getLast? with
  | none => simp [EndsInDelete, hl]
  | some op =>
      have hk : op.key = key := key_of_mem_opsOn (List.mem_of_getLast? hl)
      simp [EndsInDelete, hl, left_eq hk]

/-! ## Reading -/

theorem get_eq_get_iff {kv kv' : Etcd} {key : String} :
    kv.get key = kv'.get key ↔ kv key = kv' key := by
  unfold Etcd.get Etcd.range get
  cases kv key <;> cases kv' key <;> simp

theorem getLast?_of_endsInDelete {key : String} {ops : List Op}
    {responses : List (List Event)} (hd : Delivers key ops responses) (h : EndsInDelete key ops) :
    (watch responses).getLast? = some "" := by
  rw [getLast?_watch hd, h]
  rfl

/-- **Deletions look like empty values.** Two histories that give the same strings on the channel
leave the same for `Get` to return exactly when both end in a deletion of the key or neither
does. -/
theorem get_eq_iff {key : String} (kv : Etcd) {ops ops' : List Op}
    {responses responses' : List (List Event)} (hd : Delivers key ops responses)
    (hd' : Delivers key ops' responses') (hw : watch responses = watch responses') :
    (kv.run ops).get key = (kv.run ops').get key ↔
      (EndsInDelete key ops ↔ EndsInDelete key ops') := by
  rw [get_eq_get_iff, run_apply_of_delivers hd, run_apply_of_delivers hd', hw]
  by_cases h : EndsInDelete key ops <;> by_cases h' : EndsInDelete key ops'
  · simp [h, h']
  · have hlast := getLast?_of_endsInDelete hd h
    rw [hw] at hlast
    simp [h, h', hlast]
  · have hlast := getLast?_of_endsInDelete hd' h'
    simp [h, h', hlast]
  · simp [h, h']

/-- Two histories that end in the same write. -/
theorem get_eq_two_puts :
    (Etcd.run (fun _ => none) [.put "k" "a"]).get "k" =
      (Etcd.run (fun _ => none) [.delete "j", .put "k" "a"]).get "k" :=
  have hd : Delivers "k" [.put "k" "a"] [[⟨false, "a"⟩]] := rfl
  have hd' : Delivers "k" [.delete "j", .put "k" "a"] [[], [⟨false, "a"⟩]] := rfl
  (get_eq_iff (fun _ => none) hd hd' rfl).mpr (by decide)

/-- An empty value and a deletion cannot be told apart on the channel. -/
theorem empty_put_looks_deleted :
    ¬ ∀ (key : String) (kv : Etcd) (ops ops' : List Op) (responses responses' : List (List Event)),
      Delivers key ops responses → Delivers key ops' responses' →
        watch responses = watch responses' →
          (kv.run ops).get key = (kv.run ops').get key := by
  intro h
  have heq := h "k" (fun _ => some "v") [.put "k" ""] [.delete "k"] [[⟨false, ""⟩]] [[⟨true, ""⟩]]
    rfl rfl rfl
  rw [get_eq_get_iff] at heq
  cases heq

end AppGate.Store
