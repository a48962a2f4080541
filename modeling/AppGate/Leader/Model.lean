import AppGate.Lib.Machine

/-!
# The leader elector

`control-plane/internal/leader/leader.go`. One `Elector.Run` loop and any number of
`Elector.Resign` calls share the elector; every lock acquisition and every call to etcd is one
step, and the outcome of an etcd call is part of the label. An election object is named by the
session it was created for.

* `newElector`, `Run`, `Resign`, `Elector`, `Act`, `step`, `elector`;
* `Move`, `move_of_step`: everything a step can do.
-/

set_option autoImplicit false

namespace AppGate.Leader

open Lts

/-- An etcd session. -/
abbrev SessionId := ℕ

/-- Where a call of `Elector.Resign` is. -/
inductive Resign where
  /-- Before reading `election` and `isLeader` under the lock. -/
  | start
  /-- In `election.Resign`, on the election read. -/
  | calling (election : SessionId)
  /-- Before clearing `isLeader` under the lock. -/
  | clearing
  | finished
  deriving DecidableEq, Repr

/-- Where `Elector.Run` is. -/
inductive Run where
  /-- The check of `ctx.Done` at the head of the loop. -/
  | check
  | creatingSession
  /-- Before `setHealthy(false)` after `createSession` failed. -/
  | sessionFailed
  /-- Before storing the new session under the lock. -/
  | storing (session : SessionId)
  /-- Before storing the election of the session. -/
  | electing (session : SessionId)
  | campaigning (session : SessionId)
  /-- Before `session.Close()` and `setHealthy(false)` after `Campaign` failed. -/
  | campaignFailed
  | backingOff
  /-- Before setting `isLeader` under the lock. -/
  | elected (session : SessionId)
  /-- In the `select` on `session.Done` and `ctx.Done`. -/
  | leading (session : SessionId)
  /-- Before clearing `isLeader` after the session expired. -/
  | steppingDown
  /-- In the `e.resign` made after the context was cancelled. -/
  | resigning (call : Resign)
  | returned
  deriving DecidableEq, Repr

/-- `Elector`, with the position of `Run` and of the calls of `Resign`; `sessionDone` says that
the `Done` channel of the stored session is closed. -/
structure Elector where
  session : Option SessionId := none
  election : Option SessionId := none
  isLeader : Bool := false
  isHealthy : Bool := true
  ctxDone : Bool := false
  sessionDone : Bool := false
  run : Run := .check
  resigns : List Resign := []
  deriving DecidableEq, Repr

/-- `NewElector`; the client is `nil` when etcd could not be reached. -/
def newElector (client : Option Unit) (key id : String) : Except String Elector :=
  if client = none then .error "etcd client is nil"
  else if key = "" then .error "leader election key is empty"
  else if id = "" then .error "instance ID is empty"
  else .ok {}

/-- One step of a `Resign` call: its next position and the value of `isLeader` after it. -/
def Resign.next (election : Option SessionId) (isLeader ok : Bool) : Resign → Option (Resign × Bool)
  | .start =>
    match election with
    | some el => if isLeader then some (.calling el, isLeader) else some (.finished, isLeader)
    | none => some (.finished, isLeader)
  | .calling _ => if ok then some (.clearing, isLeader) else some (.finished, isLeader)
  | .clearing => some (.finished, false)
  | .finished => none

/-- A step of the elector or of its environment. -/
inductive Act where
  /-- The context is cancelled. -/
  | cancel
  /-- The `Done` channel of the stored session closes. -/
  | sessionDone
  /-- `Run` executes its next statement outside the blocking calls. -/
  | advance
  /-- `createSession` returns a session or an error. -/
  | createSession (result : Option SessionId)
  /-- `Campaign` returns. -/
  | campaign (ok : Bool)
  /-- `time.Sleep` returns. -/
  | wake
  /-- The leader's `select` takes `session.Done`. -/
  | observeDone
  /-- The leader's `select` takes `ctx.Done`. -/
  | observeCancel
  /-- A new call of `Resign`. -/
  | callResign
  /-- The `i`-th call of `Resign` takes its next step; `ok` is the answer of etcd. -/
  | resign (i : ℕ) (ok : Bool)
  /-- The `resign` inside `Run` takes its next step. -/
  | ownResign (ok : Bool)
  deriving DecidableEq, Repr

/-- The next statement of `Run` outside its blocking calls. -/
def advance (e : Elector) : Option Elector :=
  match e.run with
  | .check => some { e with run := if e.ctxDone then .returned else .creatingSession }
  | .sessionFailed => some { e with isHealthy := false, run := .backingOff }
  | .storing s => some { e with session := some s, sessionDone := false, run := .electing s }
  | .electing s => some { e with election := some s, run := .campaigning s }
  | .campaignFailed =>
    some { e with sessionDone := true, isHealthy := false, run := .backingOff }
  | .elected s => some { e with isLeader := true, isHealthy := true, run := .leading s }
  | .steppingDown => some { e with isLeader := false, run := .check }
  | _ => none

/-- One step of the elector. -/
def step (e : Elector) : Act → Option Elector
  | .cancel => some { e with ctxDone := true }
  | .sessionDone => if e.session.isSome then some { e with sessionDone := true } else none
  | .advance => advance e
  | .createSession result =>
    match e.run with
    | .creatingSession =>
      some { e with run := match result with | some s => .storing s | none => .sessionFailed }
    | _ => none
  | .campaign ok =>
    match e.run with
    | .campaigning s => some { e with run := if ok then .elected s else .campaignFailed }
    | _ => none
  | .wake => if e.run = .backingOff then some { e with run := .check } else none
  | .observeDone =>
    match e.run with
    | .leading _ => if e.sessionDone then some { e with run := .steppingDown } else none
    | _ => none
  | .observeCancel =>
    match e.run with
    | .leading _ => if e.ctxDone then some { e with run := .resigning .start } else none
    | _ => none
  | .callResign => some { e with resigns := e.resigns ++ [.start] }
  | .resign i ok =>
    match e.resigns[i]? with
    | some r => (r.next e.election e.isLeader ok).map fun p =>
        { e with isLeader := p.2, resigns := e.resigns.set i p.1 }
    | none => none
  | .ownResign ok =>
    match e.run with
    | .resigning r => (r.next e.election e.isLeader ok).map fun p =>
        { e with isLeader := p.2, run := if p.1 = .finished then .returned else .resigning p.1 }
    | _ => none

/-- An elector from `NewElector` on, with `Run` about to start. -/
def elector : Machine Elector Act := ⟨{}, step⟩

/-! ## What a step can do -/

/-- The moves of `Run` that only change its position. -/
inductive RunMove (e : Elector) : Act → Run → Run → Prop
  | exit : e.ctxDone = true → RunMove e .advance .check .returned
  | create : RunMove e .advance .check .creatingSession
  | created (s : SessionId) : RunMove e (.createSession (some s)) .creatingSession (.storing s)
  | notCreated : RunMove e (.createSession none) .creatingSession .sessionFailed
  | sleepSession : RunMove e .advance .sessionFailed .backingOff
  | win (s : SessionId) : RunMove e (.campaign true) (.campaigning s) (.elected s)
  | lose (s : SessionId) : RunMove e (.campaign false) (.campaigning s) .campaignFailed
  | sleepCampaign : RunMove e .advance .campaignFailed .backingOff
  | wake : RunMove e .wake .backingOff .check
  | expire (s : SessionId) : RunMove e .observeDone (.leading s) .steppingDown
  | cancel (s : SessionId) : RunMove e .observeCancel (.leading s) (.resigning .start)

/-- The stored session and election are the same. -/
structure SameTerm (e t : Elector) : Prop where
  session : t.session = e.session
  election : t.election = e.election

/-- What a step does to the leader flag, the stored session and election, and the position of
`Run`. -/
inductive Move (e : Elector) : Act → Elector → Prop
  /-- Nothing of this changes. -/
  | quiet {a : Act} {t : Elector} : SameTerm e t → t.run = e.run → t.isLeader = e.isLeader →
      Move e a t
  /-- A `Resign` call other than that of `Run` clears the flag. -/
  | clear {i : ℕ} {ok : Bool} {t : Elector} : SameTerm e t → e.resigns[i]? = some .clearing →
      t.run = e.run → t.isLeader = false → Move e (.resign i ok) t
  | run {a : Act} {t : Elector} : SameTerm e t → RunMove e a e.run t.run →
      t.isLeader = e.isLeader → Move e a t
  | store {s : SessionId} {t : Elector} : e.run = .storing s → t.run = .electing s →
      t.session = some s → t.election = e.election → t.isLeader = e.isLeader → Move e .advance t
  | elect {s : SessionId} {t : Elector} : e.run = .electing s → t.run = .campaigning s →
      t.session = e.session → t.election = some s → t.isLeader = e.isLeader → Move e .advance t
  | lead {s : SessionId} {t : Elector} : SameTerm e t → e.run = .elected s → t.run = .leading s →
      t.isLeader = true → Move e .advance t
  | stepDown {t : Elector} : SameTerm e t → e.run = .steppingDown → t.run = .check →
      t.isLeader = false → Move e .advance t
  /-- The `resign` of `Run` goes on. -/
  | resign {r r' : Resign} {ok : Bool} {t : Elector} : SameTerm e t → e.run = .resigning r →
      t.run = .resigning r' → t.isLeader = e.isLeader → Move e (.ownResign ok) t
  /-- The `resign` of `Run` returns early: it found no leadership to give up, or etcd failed. -/
  | abandon {r : Resign} {ok : Bool} {t : Elector} : SameTerm e t → e.run = .resigning r →
      t.run = .returned →
      e.isLeader = false ∨ e.election = none ∨ ((∃ el, r = .calling el) ∧ ok = false) →
      t.isLeader = e.isLeader → Move e (.ownResign ok) t
  | resigned {r : Resign} {ok : Bool} {t : Elector} : SameTerm e t → e.run = .resigning r →
      t.run = .returned → t.isLeader = false → Move e (.ownResign ok) t

theorem move_of_advance {e t : Elector} (h : advance e = some t) : Move e .advance t := by
  unfold advance at h
  split at h
  · rename_i hr
    cases h
    refine .run ⟨rfl, rfl⟩ ?_ rfl
    rw [hr]
    dsimp only
    split_ifs with hc
    · exact .exit hc
    · exact .create
  · rename_i hr
    cases h
    exact .run ⟨rfl, rfl⟩ (by rw [hr]; exact .sleepSession) rfl
  · rename_i s hr
    cases h
    exact .store hr rfl rfl rfl rfl
  · rename_i s hr
    cases h
    exact .elect hr rfl rfl rfl rfl
  · rename_i hr
    cases h
    exact .run ⟨rfl, rfl⟩ (by rw [hr]; exact .sleepCampaign) rfl
  · rename_i s hr
    cases h
    exact .lead ⟨rfl, rfl⟩ hr rfl rfl
  · rename_i hr
    cases h
    exact .stepDown ⟨rfl, rfl⟩ hr rfl rfl
  · cases h

theorem move_of_resign {e t : Elector} {i : ℕ} {ok : Bool} (h : step e (.resign i ok) = some t) :
    Move e (.resign i ok) t := by
  simp only [step] at h
  split at h
  · rename_i r hr
    obtain ⟨p, hp, h⟩ := Option.map_eq_some_iff.mp h
    cases h
    cases r with
    | start =>
        simp only [Resign.next] at hp
        split at hp
        · split_ifs at hp <;> cases hp <;> exact .quiet ⟨rfl, rfl⟩ rfl rfl
        · cases hp
          exact .quiet ⟨rfl, rfl⟩ rfl rfl
    | calling el =>
        simp only [Resign.next] at hp
        split_ifs at hp <;> cases hp <;> exact .quiet ⟨rfl, rfl⟩ rfl rfl
    | clearing =>
        cases hp
        exact .clear ⟨rfl, rfl⟩ hr rfl rfl
    | finished => cases hp
  · cases h

theorem move_of_ownResign {e t : Elector} {ok : Bool} (h : step e (.ownResign ok) = some t) :
    Move e (.ownResign ok) t := by
  simp only [step] at h
  split at h
  · rename_i r hr
    obtain ⟨p, hp, h⟩ := Option.map_eq_some_iff.mp h
    cases h
    cases r with
    | start =>
        simp only [Resign.next] at hp
        split at hp
        · split_ifs at hp with hl <;> cases hp
          · exact .resign ⟨rfl, rfl⟩ hr rfl rfl
          · exact .abandon ⟨rfl, rfl⟩ hr rfl (.inl (by simpa using hl)) rfl
        · rename_i he
          cases hp
          exact .abandon ⟨rfl, rfl⟩ hr rfl (.inr (.inl he)) rfl
    | calling el =>
        simp only [Resign.next] at hp
        split_ifs at hp with ho <;> cases hp
        · exact .resign ⟨rfl, rfl⟩ hr rfl rfl
        · exact .abandon ⟨rfl, rfl⟩ hr rfl (.inr (.inr ⟨⟨el, rfl⟩, by simpa using ho⟩)) rfl
    | clearing =>
        cases hp
        exact .resigned ⟨rfl, rfl⟩ hr rfl rfl
    | finished => cases hp
  · cases h

/-- **Everything a step can do.** -/
theorem move_of_step {e t : Elector} {a : Act} (h : elector.step e a = some t) : Move e a t := by
  simp only [elector] at h
  cases a with
  | cancel =>
      cases h
      exact .quiet ⟨rfl, rfl⟩ rfl rfl
  | sessionDone =>
      simp only [step, Option.ite_none_right_eq_some] at h
      obtain ⟨-, h⟩ := h
      cases h
      exact .quiet ⟨rfl, rfl⟩ rfl rfl
  | advance => exact move_of_advance h
  | createSession result =>
      simp only [step] at h
      split at h
      · rename_i hr
        cases h
        refine .run ⟨rfl, rfl⟩ ?_ rfl
        rw [hr]
        cases result with
        | some s => exact .created s
        | none => exact .notCreated
      · cases h
  | campaign ok =>
      simp only [step] at h
      split at h
      · rename_i s hr
        cases h
        refine .run ⟨rfl, rfl⟩ ?_ rfl
        rw [hr]
        cases ok with
        | true => exact .win s
        | false => exact .lose s
      · cases h
  | wake =>
      simp only [step, Option.ite_none_right_eq_some] at h
      obtain ⟨hr, h⟩ := h
      cases h
      exact .run ⟨rfl, rfl⟩ (by rw [hr]; exact .wake) rfl
  | observeDone =>
      simp only [step] at h
      split at h
      · rename_i s hr
        rw [Option.ite_none_right_eq_some] at h
        obtain ⟨-, h⟩ := h
        cases h
        exact .run ⟨rfl, rfl⟩ (by rw [hr]; exact .expire s) rfl
      · cases h
  | observeCancel =>
      simp only [step] at h
      split at h
      · rename_i s hr
        rw [Option.ite_none_right_eq_some] at h
        obtain ⟨-, h⟩ := h
        cases h
        exact .run ⟨rfl, rfl⟩ (by rw [hr]; exact .cancel s) rfl
      · cases h
  | callResign =>
      cases h
      exact .quiet ⟨rfl, rfl⟩ rfl rfl
  | resign i ok => exact move_of_resign h
  | ownResign ok => exact move_of_ownResign h

end AppGate.Leader
