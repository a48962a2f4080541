import AppGate.Leader.Model

/-!
# The leader flag and the leader loop

* `FlagFollows`: at rest, `IsLeader()` is true exactly when `Run` waits as leader;
* `Orderly`: no `Resign` clears the flag under a waiting leader, and the `resign` of `Run` does not
  fail with the flag set;
* `follows_step`, **`flag_follows_loop`**: orderly steps keep the flag with the loop;
* `flag_leaves_loop`: each of the two other steps parts them.
-/

set_option autoImplicit false

namespace AppGate.Leader

open Lts

/-- `Run` is in one of its blocking calls or has returned. -/
def Run.blocked : Run → Bool
  | .creatingSession => true
  | .campaigning _ => true
  | .backingOff => true
  | .leading _ => true
  | .returned => true
  | _ => false

/-- `Run` waits as leader. -/
def Run.isLeading : Run → Bool
  | .leading _ => true
  | _ => false

/-- `Run` may still have to clear the flag. -/
def Run.mayHoldFlag : Run → Bool
  | .leading _ => true
  | .steppingDown => true
  | .resigning _ => true
  | _ => false

/-- `Run` waits for etcd in its own `resign`. -/
def Run.inOwnResign : Run → Bool
  | .resigning (.calling _) => true
  | _ => false

/-- `Run` has stored an election. -/
def Run.hasElection : Run → Bool
  | .campaigning _ => true
  | .elected _ => true
  | .leading _ => true
  | .resigning _ => true
  | _ => false

/-- `Run` is at rest and no `Resign` call is in progress. -/
def AtRest (e : Elector) : Prop := e.run.blocked = true ∧ ∀ r ∈ e.resigns, r = .finished

instance (e : Elector) : Decidable (AtRest e) := by unfold AtRest; infer_instance

/-- At rest the flag is set exactly when `Run` waits as leader. -/
def FlagFollows (e : Elector) : Prop :=
  AtRest e → (e.isLeader = true ↔ e.run.isLeading = true)

/-- A `Resign` call clears the flag only while `Run` does not wait as leader, and etcd fails the
`resign` of `Run` only when the flag is already clear. -/
def Orderly (e : Elector) : Act → Prop
  | .resign i _ => e.resigns[i]? = some .clearing → e.run.isLeading = false
  | .ownResign ok => e.run.inOwnResign = true → ok = false → e.isLeader = false
  | _ => True

instance (e : Elector) (a : Act) : Decidable (Orderly e a) := by
  cases a <;> unfold Orderly <;> infer_instance

/-! ## The stored election -/

theorem hasElection_of_move {e : Elector} {a : Act} {r r' : Run} (h : RunMove e a r r')
    (hr : r'.hasElection = true) : r.hasElection = true := by
  cases h <;> first | rfl | cases hr

theorem election_step (e : Elector) (a : Act) (t : Elector)
    (he : e.run.hasElection = true → e.election ≠ none) (h : elector.step e a = some t) :
    t.run.hasElection = true → t.election ≠ none := by
  intro ht
  cases move_of_step h with
  | quiet same hr _ | clear same _ hr _ =>
      rw [same.election]
      exact he (hr ▸ ht)
  | run same hr hl =>
      rw [same.election]
      exact he (hasElection_of_move hr ht)
  | elect hr hr' _ hel _ =>
      rw [hel]
      exact Option.some_ne_none _
  | lead same hr _ _ | resign same hr _ _ =>
      rw [same.election]
      exact he (by rw [hr]; rfl)
  | store _ hr' _ _ _ | stepDown _ _ hr' _ | abandon _ _ hr' _ _ | resigned _ _ hr' _ =>
      -- the loop is back where it has no election
      rw [hr'] at ht
      cases ht

/-! ## The flag under orderly steps -/

/-- The invariant behind `FlagFollows`. -/
structure Follows (e : Elector) : Prop where
  election : e.run.hasElection = true → e.election ≠ none
  leads : e.run.isLeading = true → e.isLeader = true
  flagged : e.isLeader = true → e.run.mayHoldFlag = true

theorem mayHoldFlag_of_move {e : Elector} {a : Act} {r r' : Run} (h : RunMove e a r r')
    (hr : r.mayHoldFlag = true) : r'.mayHoldFlag = true := by
  cases h <;> first | rfl | cases hr

theorem not_isLeading_of_move {e : Elector} {a : Act} {r r' : Run} (h : RunMove e a r r') :
    r'.isLeading = false := by
  cases h <;> rfl

theorem Follows.of_clear {t : Elector} (hel : t.run.hasElection = true → t.election ≠ none)
    (hr : t.run.isLeading = false) (hl : t.isLeader = false) : Follows t := by
  refine ⟨hel, ?_, ?_⟩
  · intro h
    rw [hr] at h
    cases h
  · intro h
    rw [hl] at h
    cases h

theorem Follows.clear_of_not_mayHoldFlag {e : Elector} (he : Follows e)
    (hr : e.run.mayHoldFlag = false) : e.isLeader = false := by
  cases hl : e.isLeader with
  | false => rfl
  | true =>
      have := he.flagged hl
      rw [hr] at this
      cases this

theorem follows_step (e : Elector) (a : Act) (t : Elector) (he : Follows e) (ha : Orderly e a)
    (h : elector.step e a = some t) : Follows t := by
  have hel := election_step e a t he.election h
  cases move_of_step h with
  | quiet same hr hl =>
      refine ⟨hel, ?_, ?_⟩
      · rw [hr, hl]
        exact he.leads
      · rw [hr, hl]
        exact he.flagged
  | clear same hc hr hl => exact .of_clear hel (hr ▸ ha hc) hl
  | run same hr hl =>
      refine ⟨hel, ?_, ?_⟩
      · intro hf
        rw [not_isLeading_of_move hr] at hf
        cases hf
      · intro hf
        rw [hl] at hf
        exact mayHoldFlag_of_move hr (he.flagged hf)
  | store hr hr' hs hel' hl | elect hr hr' hs hel' hl =>
      refine .of_clear hel (by rw [hr']; rfl) ?_
      rw [hl]
      exact he.clear_of_not_mayHoldFlag (by rw [hr]; rfl)
  | lead same hr hr' hl => exact ⟨hel, fun _ => hl, fun _ => by rw [hr']; rfl⟩
  | resign same hr hr' hl =>
      refine ⟨hel, ?_, ?_⟩
      · intro hf
        rw [hr'] at hf
        cases hf
      · intro _
        rw [hr']
        rfl
  | abandon same hr hr' hwhy hl =>
      refine .of_clear hel (by rw [hr']; rfl) ?_
      rw [hl]
      rcases hwhy with hf | hnone | ⟨⟨el, rfl⟩, hok⟩
      · exact hf
      · exact absurd hnone (he.election (by rw [hr]; rfl))
      · exact ha (by rw [hr]; rfl) hok
  | stepDown same hr hr' hl | resigned same hr hr' hl =>
      exact .of_clear hel (by rw [hr']; rfl) hl

theorem follows_init : Follows elector.init where
  election h := by cases h
  leads h := by cases h
  flagged h := by cases h

theorem not_mayHoldFlag_of_blocked {r : Run} (hb : r.blocked = true) (hl : r.isLeading = false) :
    r.mayHoldFlag = false := by
  cases r <;> simp_all [Run.blocked, Run.isLeading, Run.mayHoldFlag]

/-- **The flag follows the loop.** In every state reached by orderly steps in which `Run` is at a
blocking point or has returned and no `Resign` is in progress, `IsLeader()` is true exactly when
`Run` waits as leader. -/
theorem flag_follows_loop (e : Elector) (he : elector.ReachVia Orderly e) : FlagFollows e := by
  have hf : Follows e := Machine.inv_reachVia follows_init follows_step he
  rintro ⟨hb, -⟩
  refine ⟨?_, hf.leads⟩
  intro hl
  have hm := hf.flagged hl
  cases hlead : e.run.isLeading with
  | true => rfl
  | false =>
      rw [not_mayHoldFlag_of_blocked hb hlead] at hm
      cases hm

/-- A leader's life under orderly steps: elected, expired, then elected again. -/
theorem flag_follows_loop_reelected :
    FlagFollows { session := some 1, election := some 1, isLeader := true, run := .leading 1 } :=
  flag_follows_loop _ ⟨[.advance, .createSession (some 0), .advance, .advance, .campaign true,
    .advance, .sessionDone, .observeDone, .advance, .advance, .createSession (some 1), .advance,
    .advance, .campaign true, .advance], by decide, by decide⟩

/-- The run up to the first leader wait. -/
def elect : List Act :=
  [.advance, .createSession (some 0), .advance, .advance, .campaign true, .advance]

/-- **The flag leaves the loop.** A `Resign` from outside clears the flag of a leader that goes on
waiting; a `resign` that fails on cancellation leaves the flag set after `Run` has returned. -/
theorem flag_leaves_loop :
    (∃ e, elector.exec elector.init
        (elect ++ [.callResign, .resign 0 true, .resign 0 true, .resign 0 true]) = some e ∧
      AtRest e ∧ e.run = .leading 0 ∧ e.isLeader = false) ∧
    ∃ e, elector.exec elector.init
        (elect ++ [.cancel, .observeCancel, .ownResign true, .ownResign false]) = some e ∧
      AtRest e ∧ e.run = .returned ∧ e.isLeader = true :=
  ⟨⟨_, rfl, by decide, rfl, rfl⟩, ⟨_, rfl, by decide, rfl, rfl⟩⟩

end AppGate.Leader
