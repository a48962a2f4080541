import AppGate.Leader.Flag

/-!
# How the leader loop ends and recovers

What `Elector.Run` can still do: after the context is cancelled it returns, whatever etcd answers
and whoever calls `Elector.Resign` meanwhile; before, it can win the next election, unless a
`Resign` from outside has cleared the flag of a leader whose session lives on.

* `Act.ofRun`, `Run.left`, `left_step`: the steps of the loop, and how many are left;
* **`run_returns`**: the loop returns within nine of its steps;
* `Run.wayUp`, `Stuck`, **`leads_again_iff`**: from which states the instance can lead again.
-/

set_option autoImplicit false

namespace AppGate.Leader

open Lts Machine

/-! ## The steps of the loop -/

/-- The steps of `Run` itself. -/
def Act.ofRun : Act → Bool
  | .advance | .createSession _ | .campaign _ | .wake | .observeDone | .observeCancel
  | .ownResign _ => true
  | .cancel | .sessionDone | .callResign | .resign _ _ => false

def Resign.left : Resign → ℕ
  | .start => 3
  | .calling _ => 2
  | .clearing => 1
  | .finished => 0

/-- How many steps `Run` takes at most once the context is cancelled. -/
def Run.left : Run → ℕ
  | .returned => 0
  | .check => 1
  | .backingOff | .steppingDown => 2
  | .sessionFailed | .campaignFailed => 3
  | .resigning call => call.left
  | .leading _ => 4
  | .elected _ => 5
  | .campaigning _ => 6
  | .electing _ => 7
  | .storing _ => 8
  | .creatingSession => 9

theorem Run.left_le (r : Run) : r.left ≤ 9 := by
  cases r with
  | resigning call => cases call <;> simp [Run.left, Resign.left]
  | _ => simp [Run.left]

theorem Resign.left_next {election : Option SessionId} {isLeader ok : Bool} {r : Resign}
    {p : Resign × Bool} (h : r.next election isLeader ok = some p) : p.1.left < r.left := by
  cases r with
  | start =>
      cases election with
      | none =>
          cases h
          exact Nat.succ_pos _
      | some el =>
          simp only [Resign.next] at h
          split_ifs at h <;> cases h <;> simp [Resign.left]
  | calling el =>
      simp only [Resign.next] at h
      split_ifs at h <;> cases h <;> simp [Resign.left]
  | clearing =>
      cases h
      decide
  | finished => cases h

/-- A `Resign` call goes on until it is finished. -/
theorem Resign.exists_next (election : Option SessionId) (isLeader ok : Bool) {r : Resign}
    (h : r ≠ .finished) : ∃ p, r.next election isLeader ok = some p := by
  cases r with
  | start =>
      cases election with
      | none => exact ⟨_, rfl⟩
      | some el => cases isLeader <;> exact ⟨_, rfl⟩
  | calling el => cases ok <;> exact ⟨_, rfl⟩
  | clearing => exact ⟨_, rfl⟩
  | finished => exact absurd rfl h

/-! ## What a step leaves -/

/-- `Run` returns or resigns only when the context is cancelled. -/
structure Ending (e : Elector) : Prop where
  returned : e.run = .returned → e.ctxDone = true
  resigning : ∀ call, e.run = .resigning call → e.ctxDone = true ∧ call ≠ .finished

/-- The positions in which nothing has to hold. -/
theorem Ending.of_ne {e : Elector} (hr : e.run ≠ .returned) (hc : ∀ call, e.run ≠ .resigning call) :
    Ending e :=
  ⟨fun h => absurd h hr, fun call h => absurd h (hc call)⟩

/-- Other steps leave `Run` where it is. -/
theorem run_of_not_ofRun {e t : Elector} {a : Act} (ha : a.ofRun = false)
    (h : elector.step e a = some t) : t.run = e.run ∧ (e.ctxDone = true → t.ctxDone = true) := by
  simp only [elector] at h
  cases a with
  | cancel | callResign =>
      cases h
      exact ⟨rfl, fun hc => by simp [hc]⟩
  | sessionDone =>
      simp only [step, Option.ite_none_right_eq_some] at h
      obtain ⟨-, h⟩ := h
      cases h
      exact ⟨rfl, id⟩
  | resign i ok =>
      simp only [step] at h
      split at h
      · obtain ⟨p, -, hp⟩ := Option.map_eq_some_iff.mp h
        cases hp
        exact ⟨rfl, id⟩
      · cases h
  | _ => cases ha

/-- What a step of `Run` does to its end: the context stays, and one step less is left. -/
structure Nears (e t : Elector) : Prop where
  ctxDone : t.ctxDone = e.ctxDone
  left : e.ctxDone = true → t.run.left < e.run.left
  ending : Ending t

/-- A step to a position in which nothing has to hold. -/
theorem Nears.of_ne {e t : Elector} (hc : t.ctxDone = e.ctxDone) (hlt : t.run.left < e.run.left)
    (hr : t.run ≠ .returned) (hcall : ∀ call, t.run ≠ .resigning call) : Nears e t :=
  ⟨hc, fun _ => hlt, .of_ne hr hcall⟩

/-- At the head of the loop, only a cancelled context is nearer to the end. -/
theorem nears_check {e : Elector} (hr : e.run = .check) :
    Nears e { e with run := if e.ctxDone then .returned else .creatingSession } := by
  by_cases hc : e.ctxDone = true
  · rw [if_pos hc]
    have hlt : Run.returned.left < e.run.left := by simp [hr, Run.left]
    exact ⟨rfl, fun _ => hlt, fun _ => hc, fun call h => by cases h⟩
  · rw [if_neg hc]
    exact ⟨rfl, fun h => absurd h hc, .of_ne (fun h => by cases h) fun call h => by cases h⟩

theorem nears_advance {e t : Elector} (h : elector.step e .advance = some t) : Nears e t := by
  simp only [elector, step, advance] at h
  split at h <;> cases h
  case h_1 hr => exact nears_check hr
  all_goals
    rename_i hr
    exact .of_ne rfl (by simp [hr, Run.left]) (fun h => by cases h) fun call h => by cases h

/-- A step of the loop's own `Resign`. -/
theorem nears_ownResign {e t : Elector} {ok : Bool} (he : Ending e)
    (h : elector.step e (.ownResign ok) = some t) : Nears e t := by
  simp only [elector, step] at h
  split at h
  · rename_i r hr
    obtain ⟨p, hp, hpt⟩ := Option.map_eq_some_iff.mp h
    cases hpt
    have hlt := Resign.left_next hp
    have hc := (he.resigning r hr).1
    refine ⟨rfl, fun _ => ?_, fun _ => hc, fun call h => ?_⟩
    · dsimp only
      rw [hr]
      split_ifs
      · exact Nat.zero_lt_of_lt hlt
      · exact hlt
    · dsimp only at h
      split_ifs at h with hp'
      cases h
      exact ⟨hc, hp'⟩
  · cases h

theorem nears_of_ofRun {e t : Elector} {a : Act} (he : Ending e) (ha : a.ofRun = true)
    (h : elector.step e a = some t) : Nears e t := by
  cases a with
  | advance => exact nears_advance h
  | ownResign ok => exact nears_ownResign he h
  | createSession result =>
      simp only [elector, step] at h
      split at h <;> cases h
      rename_i hr
      cases result with
      | none | some s =>
          exact .of_ne rfl (by simp [hr, Run.left]) (fun h => by cases h) fun call h => by cases h
  | campaign ok =>
      simp only [elector, step] at h
      split at h <;> cases h
      rename_i s hr
      cases ok with
      | false | true =>
          exact .of_ne rfl (by simp [hr, Run.left]) (fun h => by cases h) fun call h => by cases h
  | wake =>
      simp only [elector, step, Option.ite_none_right_eq_some] at h
      obtain ⟨hr, h⟩ := h
      cases h
      exact .of_ne rfl (by simp [hr, Run.left]) (fun h => by cases h) fun call h => by cases h
  | observeDone =>
      simp only [elector, step] at h
      split at h
      · rename_i s hr
        split_ifs at h
        cases h
        exact .of_ne rfl (by simp [hr, Run.left]) (fun h => by cases h) fun call h => by cases h
      · cases h
  | observeCancel =>
      simp only [elector, step] at h
      split at h
      · rename_i s hr
        split_ifs at h with hc
        cases h
        have hlt : (Run.resigning .start).left < e.run.left := by
          simp [hr, Run.left, Resign.left]
        refine ⟨rfl, fun _ => hlt, fun h => (by cases h), fun call h => ?_⟩
        cases h
        exact ⟨hc, by decide⟩
      · cases h
  | _ => cases ha

theorem ending_step (e : Elector) (a : Act) (t : Elector) (he : Ending e)
    (h : elector.step e a = some t) : Ending t := by
  cases ha : a.ofRun with
  | true => exact (nears_of_ofRun he ha h).ending
  | false =>
      obtain ⟨hr, hc⟩ := run_of_not_ofRun ha h
      refine ⟨fun ht => hc (he.returned (hr ▸ ht)), fun call ht => ?_⟩
      have hcall := he.resigning call (hr ▸ ht)
      exact ⟨hc hcall.1, hcall.2⟩

theorem ending_of_reach {e : Elector} (h : elector.Reach e) : Ending e :=
  inv_reach (.of_ne (fun h => by cases h) fun _ h => by cases h) ending_step h

/-! ## After cancellation -/

/-- What is kept after cancellation. -/
structure Cancelled (e : Elector) : Prop where
  ctxDone : e.ctxDone = true
  ending : Ending e

theorem cancelled_step (e : Elector) (a : Act) (t : Elector) (he : Cancelled e)
    (h : elector.step e a = some t) : Cancelled t := by
  refine ⟨?_, ending_step e a t he.ending h⟩
  cases ha : a.ofRun with
  | true => exact (nears_of_ofRun he.ending ha h).ctxDone.trans he.ctxDone
  | false => exact (run_of_not_ofRun ha h).2 he.ctxDone

theorem left_step (e : Elector) (a : Act) (t : Elector) (he : Cancelled e)
    (h : elector.step e a = some t) : (if a.ofRun then 1 else 0) + t.run.left ≤ e.run.left := by
  cases ha : a.ofRun with
  | true =>
      have hlt := (nears_of_ofRun he.ending ha h).left he.ctxDone
      rw [if_pos rfl]
      omega
  | false =>
      rw [(run_of_not_ofRun ha h).1]
      simp

/-- The loop waits for nothing but its own calls. -/
theorem exists_ofRun_step {e : Elector} (he : Cancelled e) (hr : e.run ≠ .returned) :
    ∃ a, a.ofRun = true ∧ (elector.step e a).isSome = true := by
  simp only [elector]
  cases hrun : e.run with
  | check | sessionFailed | storing s | electing s | campaignFailed | elected s | steppingDown =>
      exact ⟨.advance, rfl, by simp [step, advance, hrun]⟩
  | creatingSession => exact ⟨.createSession none, rfl, by simp [step, hrun]⟩
  | campaigning s => exact ⟨.campaign false, rfl, by simp [step, hrun]⟩
  | backingOff => exact ⟨.wake, rfl, by simp [step, hrun]⟩
  | leading s => exact ⟨.observeCancel, rfl, by simp [step, hrun, he.ctxDone]⟩
  | resigning call =>
      obtain ⟨p, hp⟩ := Resign.exists_next e.election e.isLeader false
        (he.ending.resigning call hrun).2
      exact ⟨.ownResign false, rfl, by simp [step, hrun, hp]⟩
  | returned => exact absurd hrun hr

theorem step_returned {e : Elector} {a : Act} (hr : e.run = .returned) (ha : a.ofRun = true) :
    elector.step e a = none := by
  simp only [elector]
  cases a with
  | advance => simp only [step, advance, hr]
  | createSession | campaign | wake | observeDone | observeCancel | ownResign => simp [step, hr]
  | _ => cases ha

/-- **The loop returns.** `Run` has returned only if the context is cancelled. Once it is, the loop
takes at most nine more steps in every run, whatever etcd answers and however often sessions end
and `Resign` is called; and it goes on until it has returned. -/
theorem run_returns (e : Elector) (h : elector.Reach e) :
    (e.run = .returned → e.ctxDone = true) ∧
      (e.ctxDone = true → ∀ (as : List Act) (t : Elector), elector.exec e as = some t →
        as.countP Act.ofRun ≤ 9 ∧
          (t.run = .returned ↔ ∀ a, a.ofRun = true → elector.step t a = none)) := by
  have he := ending_of_reach h
  refine ⟨he.returned, fun hc as t ht => ⟨?_, fun hr a => step_returned hr, fun hnone => ?_⟩⟩
  · have hle := countP_add_le cancelled_step left_step ⟨hc, he⟩ ht
    have hbound := e.run.left_le
    omega
  · have hct : Cancelled t :=
      inv_exec (fun s a t hs _ => cancelled_step s a t hs) ⟨hc, he⟩ (meets_true _ as) ht
    by_contra hr
    obtain ⟨a, ha, hsome⟩ := exists_ofRun_step hct hr
    rw [hnone a ha] at hsome
    cases hsome

/-- A leader whose context is cancelled. -/
def cancelledLeader : Elector :=
  { session := some 0, election := some 0, isLeader := true, ctxDone := true, run := .leading 0 }

/-- It returns after its resignation. -/
theorem run_returns_leader :
    ∃ t, elector.exec cancelledLeader
        [.observeCancel, .ownResign true, .ownResign true, .ownResign true] = some t ∧
      t.run = .returned ∧ elector.step t .advance = none := by
  have hreach : elector.Reach cancelledLeader := ⟨elect ++ [.cancel], by decide⟩
  have h := (run_returns cancelledLeader hreach).2 rfl
    [.observeCancel, .ownResign true, .ownResign true, .ownResign true] _ rfl
  exact ⟨_, rfl, rfl, h.2.mp rfl .advance rfl⟩

/-! ## Before cancellation -/

/-- A leader whose flag is cleared, with a session that lives on. -/
def Stuck (e : Elector) : Prop :=
  e.run.isLeading = true ∧ e.isLeader = false ∧ e.sessionDone = false

/-- Steps that neither end the session nor cancel the context. -/
def Act.Quiet (a : Act) : Prop := a ≠ .sessionDone ∧ a ≠ .cancel

/-- The steps that win the next election. -/
def Run.wayUp : Run → List Act
  | .check => elect
  | .creatingSession => elect.drop 1
  | .storing _ => elect.drop 2
  | .electing _ => elect.drop 3
  | .campaigning _ => elect.drop 4
  | .elected _ => elect.drop 5
  | .backingOff => .wake :: elect
  | .steppingDown => .advance :: elect
  | .sessionFailed | .campaignFailed => .advance :: .wake :: elect
  | .leading _ => .observeDone :: .advance :: elect
  | .resigning _ | .returned => []

theorem quiet_wayUp (r : Run) : ∀ a ∈ r.wayUp, a.Quiet := by
  cases r <;> simp [Run.wayUp, elect, Act.Quiet]

theorem exec_wayUp {e : Elector} (he : Ending e) (hc : e.ctxDone = false)
    (hs : e.run.isLeading = true → e.sessionDone = true) :
    ∃ t, elector.exec e e.run.wayUp = some t ∧ t.isLeader = true := by
  cases hr : e.run with
  | returned => exact absurd (he.returned hr) (by simp [hc])
  | resigning call => exact absurd (he.resigning call hr).1 (by simp [hc])
  | leading s =>
      have hdone : e.sessionDone = true := hs (by rw [hr]; rfl)
      simp [Run.wayUp, elect, exec, elector, step, advance, hr, hc, hdone]
  | _ => simp [Run.wayUp, elect, exec, elector, step, advance, hr, hc]

theorem Resign.next_of_clear {election : Option SessionId} {ok : Bool} {r : Resign}
    {p : Resign × Bool} (h : r.next election false ok = some p) : p.2 = false := by
  cases r with
  | start => cases election <;> cases h <;> rfl
  | calling el => cases ok <;> cases h <;> rfl
  | clearing =>
      cases h
      rfl
  | finished => cases h

/-- What a quiet step keeps of a leader that is stuck. -/
theorem stuck_step (e : Elector) (a : Act) (t : Elector) (he : Stuck e ∧ e.ctxDone = false)
    (ha : a.Quiet) (h : elector.step e a = some t) : Stuck t ∧ t.ctxDone = false := by
  obtain ⟨⟨hlead, hflag, hdone⟩, hc⟩ := he
  obtain ⟨s, hr⟩ : ∃ s, e.run = .leading s := by
    cases hr : e.run with
    | leading s => exact ⟨s, rfl⟩
    | _ =>
        rw [hr] at hlead
        cases hlead
  simp only [elector] at h
  cases a with
  | sessionDone => exact absurd rfl ha.1
  | cancel => exact absurd rfl ha.2
  | callResign =>
      cases h
      exact ⟨⟨hlead, hflag, hdone⟩, hc⟩
  | resign i ok =>
      simp only [step, hflag] at h
      split at h
      · obtain ⟨p, hp, hpt⟩ := Option.map_eq_some_iff.mp h
        cases hpt
        exact ⟨⟨hlead, Resign.next_of_clear hp, hdone⟩, hc⟩
      · cases h
  | advance => simp [step, advance, hr] at h
  | createSession | campaign | wake | observeDone | observeCancel | ownResign =>
      simp [step, hr, hdone, hc] at h

/-- **When the instance can lead again.** Before cancellation there is a run without the end of a
session after which the instance is the leader, if and only if it is not stuck. -/
theorem leads_again_iff (e : Elector) (h : elector.Reach e) (hc : e.ctxDone = false) :
    (∃ as t, (∀ a ∈ as, Act.Quiet a) ∧ elector.exec e as = some t ∧ t.isLeader = true) ↔
      ¬ Stuck e := by
  constructor
  · rintro ⟨as, t, hquiet, ht, hleader⟩ hstuck
    have hinv := inv_exec stuck_step ⟨hstuck, hc⟩ (meets_of_forall_mem e hquiet) ht
    rw [hinv.1.2.1] at hleader
    cases hleader
  · intro hstuck
    cases hl : e.isLeader with
    | true => exact ⟨[], e, fun _ ha => absurd ha List.not_mem_nil, rfl, hl⟩
    | false =>
        obtain ⟨t, ht, hleader⟩ := exec_wayUp (ending_of_reach h) hc fun hlead => by
          by_contra hdone
          exact hstuck ⟨hlead, hl, by simpa using hdone⟩
        exact ⟨_, t, quiet_wayUp e.run, ht, hleader⟩

/-- A leader whose flag a `Resign` from outside has cleared. -/
def resignedLeader : Elector :=
  { session := some 0, election := some 0, run := .leading 0, resigns := [.finished] }

/-- It cannot lead again while its session lives. -/
theorem leads_again_iff_resigned :
    elector.exec elector.init
        (elect ++ [.callResign, .resign 0 true, .resign 0 true, .resign 0 true]) =
      some resignedLeader ∧
    ¬ ∃ as t, (∀ a ∈ as, Act.Quiet a) ∧ elector.exec resignedLeader as = some t ∧
      t.isLeader = true := by
  have hrun : elector.exec elector.init
      (elect ++ [.callResign, .resign 0 true, .resign 0 true, .resign 0 true]) =
        some resignedLeader := by
    decide
  exact ⟨hrun, fun h => (leads_again_iff resignedLeader ⟨_, hrun⟩ rfl).mp h ⟨rfl, rfl, rfl⟩⟩

end AppGate.Leader
