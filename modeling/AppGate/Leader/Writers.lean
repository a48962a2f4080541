import Mathlib.Data.Nat.Basic
import Mathlib.Logic.Function.Basic
import AppGate.Leader.Model
import AppGate.Lib.NetHttp

/-!
# Who accepts policy writes

Several control-plane instances share one etcd. `main` (`control-plane/cmd/server/main.go`) gives an
instance an elector when etcd answers at start-up and lets it run standalone otherwise; the write
handlers (`control-plane/internal/api/api.go`) refuse only when there is an elector that is not
leader. Of etcd it is assumed that `Campaign` returns for a session only when no other session with
an unexpired lease holds the key; expiry reaches the client at any later time.

* `setup`, `writeRefused`, `handleCreatePolicy`, `handleUpdatePolicy`, `handleDeletePolicy`;
* `Etcd`, `World`, `control`: the instances and etcd, interleaved at every step;
* `Safe`, `safe_step`: a leader's session was granted, and at most one grant is live;
* **`writers_unique_or_stale`**, `two_writers`.
-/

set_option autoImplicit false

namespace AppGate.Leader

open Lts
open NetHttp (Response httpError jsonAnswer)

/-! ## Start-up and the write gate -/

/-- The elector `main` sets up; `none` is the standalone mode. -/
def setup (etcdReachable : Bool) (key id : String) : Option Elector :=
  if etcdReachable then (newElector (some ()) key id).toOption else none

/-- `elector != nil && !elector.IsLeader()`. -/
def writeRefused : Option Elector → Bool
  | some e => !e.isLeader
  | none => false

/-- `HandleCreatePolicy`. -/
def handleCreatePolicy (elector : Option Elector) : Response :=
  if writeRefused elector then
    httpError ("\x7b\"error\":\"not_leader\"," ++
      "\"message\":\"Write operations require leader\"\x7d") 503
  else jsonAnswer 201 (.object [("status", .string "created")])

/-- `HandleUpdatePolicy`. -/
def handleUpdatePolicy (elector : Option Elector) : Response :=
  if writeRefused elector then httpError "\x7b\"error\":\"not_leader\"\x7d" 503
  else jsonAnswer 200 (.object [("status", .string "updated")])

/-- `HandleDeletePolicy`. -/
def handleDeletePolicy (elector : Option Elector) : Response :=
  if writeRefused elector then httpError "\x7b\"error\":\"not_leader\"\x7d" 503
  else ⟨204, "", []⟩

/-! ## The instances and etcd -/

/-- What etcd knows of the sessions created so far. -/
structure Etcd where
  next : SessionId := 0
  /-- The instance whose client created the session. -/
  owner : SessionId → ℕ := fun _ => 0
  /-- `Campaign` has returned for the session. -/
  granted : SessionId → Bool := fun _ => false
  /-- A `Resign` has been sent for the session's key. -/
  resignSent : SessionId → Bool := fun _ => false
  /-- The session's key has been deleted. -/
  deleted : SessionId → Bool := fun _ => false
  /-- The session's lease has expired. -/
  expired : SessionId → Bool := fun _ => false

/-- The session holds the key under an unexpired lease. -/
def Etcd.live (c : Etcd) (s : SessionId) : Bool := c.granted s && !c.deleted s && !c.expired s

/-- A control-plane process: not running, or running with an elector or standalone. -/
inductive Instance where
  | down
  | up (elector : Option Elector)
  deriving DecidableEq, Repr

/-- The instances and etcd. -/
structure World where
  inst : ℕ → Instance := fun _ => .down
  etcd : Etcd := {}

/-- A step of an instance, of etcd or of the environment. -/
inductive Event where
  /-- Instance `i` starts, with etcd reachable or not. -/
  | start (i : ℕ) (etcdReachable : Bool) (id : String)
  | stop (i : ℕ)
  /-- The elector of instance `i` takes a step. -/
  | elector (i : ℕ) (a : Act)
  /-- A lease expires inside etcd. -/
  | expire (s : SessionId)
  /-- Etcd executes a `Resign` it was sent. -/
  | deleteKey (s : SessionId)
  deriving DecidableEq, Repr

/-- Etcd can give the answer in the label: session ids are new, and `Campaign` returns only when no
other live session holds the key. -/
def Etcd.answers (c : Etcd) (e : Elector) : Act → Bool
  | .createSession (some s) => s == c.next
  | .campaign true =>
    match e.run with
    | .campaigning s => (List.range c.next).all fun s' => s' == s || !c.live s'
    | _ => true
  | _ => true

/-- The `Resign` at its first position sends its request when it finds leadership to give up. -/
def Etcd.sendResign (c : Etcd) (e : Elector) : Etcd :=
  match e.election with
  | some s => if e.isLeader then { c with resignSent := Function.update c.resignSent s true } else c
  | none => c

/-- What a step of the elector of instance `i` does to etcd. -/
def Etcd.after (c : Etcd) (i : ℕ) (e : Elector) : Act → Etcd
  | .createSession (some s) => { c with next := s + 1, owner := Function.update c.owner s i }
  | .campaign true =>
    match e.run with
    | .campaigning s => { c with granted := Function.update c.granted s true }
    | _ => c
  | .resign k _ => if e.resigns[k]? = some .start then c.sendResign e else c
  | .ownResign _ => if e.run = .resigning .start then c.sendResign e else c
  | _ => c

/-- One step of the control plane; all instances are configured with one election key. -/
def worldStep (key : String) (w : World) : Event → Option World
  | .start i etcdReachable id =>
    if w.inst i = .down then
      some { w with inst := Function.update w.inst i (.up (setup etcdReachable key id)) }
    else none
  | .stop i => some { w with inst := Function.update w.inst i .down }
  | .elector i a =>
    match w.inst i with
    | .up (some e) =>
      if w.etcd.answers e a then
        (step e a).map fun e' =>
          { inst := Function.update w.inst i (.up (some e')), etcd := w.etcd.after i e a }
      else none
    | _ => none
  | .expire s =>
    some { w with etcd := { w.etcd with expired := Function.update w.etcd.expired s true } }
  | .deleteKey s =>
    if w.etcd.resignSent s then
      some { w with etcd := { w.etcd with deleted := Function.update w.etcd.deleted s true } }
    else none

/-- The control plane before any instance has started. -/
def control (key : String) : Machine World Event := ⟨{}, worldStep key⟩

/-- Instance `i` would accept a policy write. -/
def World.accepts (w : World) (i : ℕ) : Bool :=
  match w.inst i with
  | .up elector => !writeRefused elector
  | .down => false

/-- The three write handlers share one gate. -/
theorem accepts_iff {w : World} {i : ℕ} {elector : Option Elector} (h : w.inst i = .up elector) :
    w.accepts i = true ↔ (handleCreatePolicy elector).status = 201 ∧
      (handleUpdatePolicy elector).status = 200 ∧ (handleDeletePolicy elector).status = 204 := by
  unfold World.accepts handleCreatePolicy handleUpdatePolicy handleDeletePolicy
  rw [h]
  cases hr : writeRefused elector <;> simp [hr]

/-- Instance `i` runs without an elector. -/
def World.standalone (w : World) (i : ℕ) : Prop := w.inst i = .up none

/-- Instance `i` still has its leader flag set although the lease of its session has expired or its
key has been deleted in etcd. -/
def World.stale (w : World) (i : ℕ) : Prop :=
  ∃ e s, w.inst i = .up (some e) ∧ e.isLeader = true ∧ e.session = some s ∧
    (w.etcd.expired s = true ∨ w.etcd.deleted s = true)

/-! ## One elector -/

/-- The session `Run` has stored and not yet won or lost with. -/
def Run.candidate : Run → Option SessionId
  | .electing s => some s
  | .campaigning s => some s
  | .elected s => some s
  | _ => none

/-- The session `Run` works with up to its election. -/
def Run.working : Run → Option SessionId
  | .storing s => some s
  | r => r.candidate

/-- `Run` has won an election and not yet cleared the flag. -/
def Run.hasWon : Run → Bool
  | .leading _ => true
  | .steppingDown => true
  | .resigning _ => true
  | .returned => true
  | _ => false

/-- The elector refers to session `s`. -/
def Elector.mentions (e : Elector) (s : SessionId) : Prop :=
  e.session = some s ∨ e.run.working = some s

/-- What holds of the elector in every run. -/
structure Term (e : Elector) : Prop where
  candidate : ∀ s, e.run.candidate = some s → e.session = some s
  flagged : e.isLeader = true → e.run.hasWon = true

theorem candidate_of_move {e : Elector} {a : Act} {r r' : Run} {s : SessionId}
    (h : RunMove e a r r') (hr : r'.candidate = some s) : r.candidate = some s := by
  cases h <;> first | exact hr | cases hr

theorem hasWon_of_move {e : Elector} {a : Act} {r r' : Run} (h : RunMove e a r r')
    (hr : r.hasWon = true) : r'.hasWon = true := by
  cases h <;> first | rfl | cases hr

theorem working_of_move {e : Elector} {a : Act} {r r' : Run} {s : SessionId}
    (h : RunMove e a r r') (hr : r'.working = some s) :
    r.working = some s ∨ a = .createSession (some s) := by
  cases h with
  | created s' =>
      cases hr
      exact .inr rfl
  | win s' => exact .inl hr
  | exit | create | notCreated | sleepSession | lose | sleepCampaign | wake | expire | cancel =>
      cases hr

theorem term_step (e : Elector) (a : Act) (t : Elector) (he : Term e)
    (h : elector.step e a = some t) : Term t := by
  cases move_of_step h with
  | quiet same hr hl =>
      refine ⟨?_, ?_⟩
      · rw [hr, same.session]
        exact he.candidate
      · rw [hr, hl]
        exact he.flagged
  | clear same hc hr hl =>
      refine ⟨?_, ?_⟩
      · rw [hr, same.session]
        exact he.candidate
      · intro hf
        rw [hl] at hf
        cases hf
  | run same hr hl =>
      refine ⟨?_, ?_⟩
      · intro s hs
        rw [same.session]
        exact he.candidate s (candidate_of_move hr hs)
      · intro hf
        rw [hl] at hf
        exact hasWon_of_move hr (he.flagged hf)
  | store hr hr' hs hel hl =>
      refine ⟨?_, ?_⟩
      · intro s' hs'
        rw [hr'] at hs'
        rw [hs]
        exact hs'
      · intro hf
        rw [hl] at hf
        have := he.flagged hf
        rw [hr] at this
        cases this
  | elect hr hr' hs hel hl =>
      refine ⟨?_, ?_⟩
      · intro s' hs'
        rw [hr'] at hs'
        rw [hs]
        exact he.candidate s' (by rw [hr]; exact hs')
      · intro hf
        rw [hl] at hf
        have := he.flagged hf
        rw [hr] at this
        cases this
  | stepDown same hr hr' hl =>
      refine ⟨?_, ?_⟩
      · intro s hs
        rw [hr'] at hs
        cases hs
      · intro hf
        rw [hl] at hf
        cases hf
  | lead same hr hr' hl | resign same hr hr' hl | abandon same hr hr' _ hl
  | resigned same hr hr' hl =>
      refine ⟨?_, ?_⟩
      · intro s hs
        rw [hr'] at hs
        cases hs
      · intro _
        rw [hr']
        rfl

theorem mentions_step {e t : Elector} {a : Act} (h : elector.step e a = some t) {s : SessionId}
    (hm : t.mentions s) : e.mentions s ∨ a = .createSession (some s) := by
  cases move_of_step h with
  | quiet same hr _ | clear same _ hr _ =>
      refine .inl ?_
      unfold Elector.mentions at hm ⊢
      rwa [same.session, hr] at hm
  | run same hr _ =>
      rcases hm with hm | hm
      · exact .inl (.inl (same.session ▸ hm))
      · rcases working_of_move hr hm with h | h
        · exact .inl (.inr h)
        · exact .inr h
  | store hr hr' hs _ _ =>
      refine .inl (.inr ?_)
      rw [hr]
      rcases hm with hm | hm
      · rw [hs] at hm
        exact hm
      · rw [hr'] at hm
        exact hm
  | elect hr hr' hs _ _ =>
      rcases hm with hm | hm
      · exact .inl (.inl (hs ▸ hm))
      · refine .inl (.inr ?_)
        rw [hr]
        rw [hr'] at hm
        exact hm
  | lead same _ hr' _ | stepDown same _ hr' _ | resign same _ hr' _ | abandon same _ hr' _ _
  | resigned same _ hr' _ =>
      rcases hm with hm | hm
      · exact .inl (.inl (same.session ▸ hm))
      · rw [hr'] at hm
        cases hm

theorem elected_of_move {e : Elector} {a : Act} {r r' : Run} {s : SessionId}
    (h : RunMove e a r r') (hr : r' = .elected s) : a = .campaign true ∧ r = .campaigning s := by
  cases h <;> cases hr
  exact ⟨rfl, rfl⟩

theorem elected_step {e t : Elector} {a : Act} (h : elector.step e a = some t) {s : SessionId}
    (ht : t.run = .elected s) :
    e.run = .elected s ∨ (a = .campaign true ∧ e.run = .campaigning s) := by
  cases move_of_step h with
  | quiet _ hr _ | clear _ _ hr _ => exact .inl (hr ▸ ht)
  | run _ hr _ => exact .inr (elected_of_move hr ht)
  | store _ hr' _ _ _ | elect _ hr' _ _ _ | lead _ _ hr' _ | stepDown _ _ hr' _
  | resign _ _ hr' _ | abandon _ _ hr' _ _ | resigned _ _ hr' _ =>
      rw [hr'] at ht
      cases ht

/-- A flag that is set was set before for the same session, or is set now for the session that
won. -/
theorem isLeader_step {e t : Elector} {a : Act} (he : Term e) (h : elector.step e a = some t)
    (ht : t.isLeader = true) :
    (e.isLeader = true ∧ t.session = e.session) ∨
      ∃ s, e.run = .elected s ∧ t.session = some s := by
  cases move_of_step h with
  | quiet same _ hl | run same _ hl | resign same _ _ hl | abandon same _ _ _ hl =>
      exact .inl ⟨hl ▸ ht, same.session⟩
  | store hr _ _ _ hl =>
      have hw := he.flagged (hl ▸ ht)
      rw [hr] at hw
      cases hw
  | elect _ _ hs _ hl => exact .inl ⟨hl ▸ ht, hs⟩
  | lead same hr _ _ =>
      refine .inr ⟨_, hr, ?_⟩
      rw [same.session]
      exact he.candidate _ (by rw [hr]; rfl)
  | clear _ _ _ hl | stepDown _ _ _ hl | resigned _ _ _ hl =>
      rw [hl] at ht
      cases ht

/-! ## Etcd -/

theorem Etcd.sendResign_eq (c : Etcd) (e : Elector) :
    ∃ f, c.sendResign e = { c with resignSent := f } := by
  unfold Etcd.sendResign
  split
  · split_ifs
    · exact ⟨_, rfl⟩
    · exact ⟨_, rfl⟩
  · exact ⟨_, rfl⟩

/-- What a step of an elector can do to etcd. -/
inductive Etcd.Change (c : Etcd) (i : ℕ) (e : Elector) : Act → Etcd → Prop
  | resignSent {a : Act} (f : SessionId → Bool) : (∀ s, a ≠ .createSession (some s)) →
      (a = .campaign true → ∀ s, e.run ≠ .campaigning s) →
      Change c i e a { c with resignSent := f }
  | created : Change c i e (.createSession (some c.next))
      { c with next := c.next + 1, owner := Function.update c.owner c.next i }
  | granted {s : SessionId} : e.run = .campaigning s →
      (∀ s' < c.next, s' ≠ s → c.live s' = false) →
      Change c i e (.campaign true) { c with granted := Function.update c.granted s true }

theorem Etcd.change_after (c : Etcd) (i : ℕ) (e : Elector) {a : Act}
    (h : c.answers e a = true) : c.Change i e a (c.after i e a) := by
  unfold Etcd.after
  split
  · rename_i s
    obtain rfl : s = c.next := by simpa [Etcd.answers] using h
    exact .created
  · split
    · rename_i s hr
      refine .granted hr ?_
      intro s' hs' hne
      simp only [Etcd.answers, hr, List.all_eq_true, List.mem_range] at h
      simpa [hne] using h s' hs'
    · rename_i hr
      exact .resignSent c.resignSent (by simp) fun _ => hr
  · split_ifs
    · obtain ⟨f, hf⟩ := c.sendResign_eq e
      rw [hf]
      exact .resignSent f (by simp) (by simp)
    · exact .resignSent c.resignSent (by simp) (by simp)
  · split_ifs
    · obtain ⟨f, hf⟩ := c.sendResign_eq e
      rw [hf]
      exact .resignSent f (by simp) (by simp)
    · exact .resignSent c.resignSent (by simp) (by simp)
  · rename_i hcreate hcampaign _ _
    exact .resignSent c.resignSent hcreate fun ha => absurd ha hcampaign

/-! ## All instances -/

/-- What holds of instance `i` with elector `e`. -/
structure SafeAt (c : Etcd) (i : ℕ) (e : Elector) : Prop where
  term : Term e
  owned : ∀ s, e.mentions s → s < c.next ∧ c.owner s = i
  elected : ∀ s, e.run = .elected s → c.granted s = true
  leader : e.isLeader = true → ∃ s, e.session = some s ∧ c.granted s = true

/-- Every leader's session was granted, sessions belong to one instance, and at most one of the
granted sessions is live. -/
structure Safe (w : World) : Prop where
  electors : ∀ i e, w.inst i = .up (some e) → SafeAt w.etcd i e
  bounded : ∀ s, w.etcd.granted s = true → s < w.etcd.next
  unique : ∀ s s', w.etcd.live s = true → w.etcd.live s' = true → s = s'

theorem Etcd.granted_of_live {c : Etcd} {s : SessionId} (h : c.live s = true) :
    c.granted s = true := by
  simp only [Etcd.live, Bool.and_eq_true] at h
  exact h.1.1

/-- Etcd went on from `c` to `c'` without taking back a grant or a session. -/
structure Etcd.Extends (c c' : Etcd) : Prop where
  next : c.next ≤ c'.next
  owner : ∀ s < c.next, c'.owner s = c.owner s
  granted : ∀ s, c.granted s = true → c'.granted s = true

theorem Etcd.Change.extends {c c' : Etcd} {i : ℕ} {e : Elector} {a : Act}
    (h : c.Change i e a c') : c.Extends c' := by
  cases h with
  | resignSent f _ _ => exact ⟨le_rfl, fun _ _ => rfl, fun _ h => h⟩
  | created =>
      refine ⟨Nat.le_succ _, ?_, fun _ h => h⟩
      intro s hs
      exact Function.update_of_ne (Nat.ne_of_lt hs) _ _
  | @granted s hr hlive =>
      refine ⟨le_rfl, fun _ _ => rfl, ?_⟩
      intro s' hs'
      by_cases hss : s' = s
      · rw [hss]
        exact Function.update_self _ _ _
      · rw [← hs']
        exact Function.update_of_ne hss _ _

theorem SafeAt.mono {c c' : Etcd} {i : ℕ} {e : Elector} (h : SafeAt c i e) (hc : c.Extends c') :
    SafeAt c' i e := by
  refine ⟨h.term, ?_, ?_, ?_⟩
  · intro s hs
    obtain ⟨hlt, ho⟩ := h.owned s hs
    exact ⟨lt_of_lt_of_le hlt hc.next, (hc.owner s hlt).trans ho⟩
  · intro s hs
    exact hc.granted s (h.elected s hs)
  · intro hl
    obtain ⟨s, hs, hg⟩ := h.leader hl
    exact ⟨s, hs, hc.granted s hg⟩

theorem safeAt_step {c c' : Etcd} {i : ℕ} {e t : Elector} {a : Act} (he : SafeAt c i e)
    (hc : c.Change i e a c') (h : elector.step e a = some t) : SafeAt c' i t := by
  have hext := hc.extends
  refine ⟨term_step e a t he.term h, ?_, ?_, ?_⟩
  · intro s hs
    rcases mentions_step h hs with hm | rfl
    · exact (he.mono hext).owned s hm
    · cases hc with
      | resignSent f hcreate _ => exact absurd rfl (hcreate s)
      | created => exact ⟨Nat.lt_succ_self _, Function.update_self _ _ _⟩
  · intro s hs
    rcases elected_step h hs with hr | ⟨rfl, hr⟩
    · exact hext.granted s (he.elected s hr)
    · cases hc with
      | resignSent f _ hcampaign => exact absurd hr (hcampaign rfl s)
      | granted hr' hlive =>
          rw [hr] at hr'
          cases hr'
          exact Function.update_self _ _ _
  · intro hl
    rcases isLeader_step he.term h hl with ⟨hl, hs⟩ | ⟨s, hr, hs⟩
    · rw [hs]
      exact (he.mono hext).leader hl
    · exact ⟨s, hs, hext.granted s (he.elected s hr)⟩

theorem Etcd.Change.bounded {c c' : Etcd} {i : ℕ} {e : Elector} {a : Act} (he : SafeAt c i e)
    (hb : ∀ s, c.granted s = true → s < c.next) (h : c.Change i e a c') :
    ∀ s, c'.granted s = true → s < c'.next := by
  cases h with
  | resignSent f _ _ => exact hb
  | created =>
      intro s hs
      exact Nat.lt_succ_of_lt (hb s hs)
  | @granted s hr _ =>
      intro s' hs'
      by_cases hss : s' = s
      · rw [hss]
        exact (he.owned s (.inr (by rw [hr]; rfl))).1
      · exact hb s' (by simpa [Function.update_of_ne hss] using hs')

theorem Etcd.Change.unique {c c' : Etcd} {i : ℕ} {e : Elector} {a : Act}
    (hb : ∀ s, c.granted s = true → s < c.next)
    (hu : ∀ s s', c.live s = true → c.live s' = true → s = s') (h : c.Change i e a c') :
    ∀ s s', c'.live s = true → c'.live s' = true → s = s' := by
  cases h with
  | resignSent f _ _ => exact hu
  | created => exact hu
  | @granted s₀ hr hlive =>
      -- the winner is the only live session left
      have heq : ∀ s, { c with granted := Function.update c.granted s₀ true }.live s = true →
          s = s₀ := by
        intro s hs
        by_contra hne
        have hs' : c.live s = true := by
          simpa [Etcd.live, Function.update_of_ne hne] using hs
        rw [hlive s (hb s (Etcd.granted_of_live hs')) hne] at hs'
        cases hs'
      intro s s' hs hs'
      rw [heq s hs, heq s' hs']

theorem Etcd.live_of_expire {c : Etcd} {s s' : SessionId}
    (h : { c with expired := Function.update c.expired s true }.live s' = true) :
    c.live s' = true := by
  by_cases hss : s' = s
  · rw [hss] at h
    simp [Etcd.live] at h
  · simpa [Etcd.live, Function.update_of_ne hss] using h

theorem Etcd.live_of_delete {c : Etcd} {s s' : SessionId}
    (h : { c with deleted := Function.update c.deleted s true }.live s' = true) :
    c.live s' = true := by
  by_cases hss : s' = s
  · rw [hss] at h
    simp [Etcd.live] at h
  · simpa [Etcd.live, Function.update_of_ne hss] using h

theorem safeAt_setup (c : Etcd) (i : ℕ) {r : Bool} {key id : String} {e : Elector}
    (h : setup r key id = some e) : SafeAt c i e := by
  have he : e = {} := by
    unfold setup newElector at h
    split_ifs at h <;> cases h
    rfl
  rw [he]
  refine ⟨⟨?_, ?_⟩, ?_, ?_, ?_⟩
  · intro s hs
    cases hs
  · intro hl
    cases hl
  · rintro s (hs | hs) <;> cases hs
  · intro s hs
    cases hs
  · intro hl
    cases hl

theorem Safe.update {w : World} (hw : Safe w) {c : Etcd} {i : ℕ} {x : Instance}
    (hext : w.etcd.Extends c) (hx : ∀ e, x = .up (some e) → SafeAt c i e)
    (hb : ∀ s, c.granted s = true → s < c.next)
    (hu : ∀ s s', c.live s = true → c.live s' = true → s = s') :
    Safe ⟨Function.update w.inst i x, c⟩ := by
  refine ⟨?_, hb, hu⟩
  intro j e hj
  by_cases hji : j = i
  · subst hji
    exact hx e (by simpa using hj)
  · exact (hw.electors j e (by simpa [Function.update_of_ne hji] using hj)).mono hext

theorem Etcd.Extends.refl (c : Etcd) : c.Extends c := ⟨le_rfl, fun _ _ => rfl, fun _ h => h⟩

theorem safe_step (key : String) (w : World) (a : Event) (v : World) (hw : Safe w)
    (h : (control key).step w a = some v) : Safe v := by
  cases a with
  | start i r id =>
      obtain ⟨-, h⟩ := Option.ite_none_right_eq_some.mp h
      cases h
      refine hw.update (Etcd.Extends.refl _) ?_ hw.bounded hw.unique
      intro e he
      exact safeAt_setup _ i (by simpa using he)
  | stop i =>
      cases h
      exact hw.update (Etcd.Extends.refl _) (fun e he => by cases he) hw.bounded hw.unique
  | elector i a =>
      simp only [control, worldStep] at h
      split at h
      · rename_i e hi
        obtain ⟨hans, h⟩ := Option.ite_none_right_eq_some.mp h
        obtain ⟨t, ht, h⟩ := Option.map_eq_some_iff.mp h
        cases h
        have he := hw.electors i e hi
        have hc := w.etcd.change_after i e hans
        refine hw.update hc.extends ?_ (hc.bounded he hw.bounded) (hc.unique hw.bounded hw.unique)
        intro e' he'
        cases he'
        exact safeAt_step he hc ht
      · cases h
  | expire s =>
      cases h
      refine ⟨?_, hw.bounded, ?_⟩
      · intro i e hi
        exact (hw.electors i e hi).mono ⟨le_rfl, fun _ _ => rfl, fun _ h => h⟩
      · intro s₁ s₂ h₁ h₂
        exact hw.unique s₁ s₂ (Etcd.live_of_expire h₁) (Etcd.live_of_expire h₂)
  | deleteKey s =>
      obtain ⟨-, h⟩ := Option.ite_none_right_eq_some.mp h
      cases h
      refine ⟨?_, hw.bounded, ?_⟩
      · intro i e hi
        exact (hw.electors i e hi).mono ⟨le_rfl, fun _ _ => rfl, fun _ h => h⟩
      · intro s₁ s₂ h₁ h₂
        exact hw.unique s₁ s₂ (Etcd.live_of_delete h₁) (Etcd.live_of_delete h₂)

theorem safe_init (key : String) : Safe (control key).init where
  electors i e h := by cases h
  bounded s h := by cases h
  unique s s' h := by cases h

theorem Safe.granted_of_accepts {w : World} (hw : Safe w) {i : ℕ} (h : w.accepts i = true)
    (hs : ¬ w.standalone i) : ∃ e s, w.inst i = .up (some e) ∧ e.isLeader = true ∧
      e.session = some s ∧ w.etcd.owner s = i ∧ w.etcd.granted s = true := by
  unfold World.accepts at h
  split at h
  · rename_i elector hi
    cases elector with
    | none => exact absurd hi hs
    | some e =>
        have hl : e.isLeader = true := by simpa [writeRefused] using h
        obtain ⟨s, hse, hg⟩ := (hw.electors i e hi).leader hl
        exact ⟨e, s, hi, hl, hse, ((hw.electors i e hi).owned s (.inl hse)).2, hg⟩
  · cases h

theorem stale_of_not_live {c : Etcd} {s : SessionId} (hg : c.granted s = true)
    (h : c.live s ≠ true) : c.expired s = true ∨ c.deleted s = true := by
  unfold Etcd.live at h
  rw [hg] at h
  cases hd : c.deleted s <;> cases he : c.expired s <;> simp_all

/-- **Two writers.** Two different instances accept policy writes at once only when one of them runs
standalone or is a leader that has not yet seen the loss of its session. -/
theorem writers_unique_or_stale (key : String) (w : World) (hw : (control key).Reach w) (i j : ℕ)
    (hij : i ≠ j) (hi : w.accepts i = true) (hj : w.accepts j = true) :
    w.standalone i ∨ w.standalone j ∨ w.stale i ∨ w.stale j := by
  have hsafe : Safe w := Machine.inv_reach (safe_init key) (safe_step key) hw
  by_cases hsi : w.standalone i
  · exact .inl hsi
  by_cases hsj : w.standalone j
  · exact .inr (.inl hsj)
  obtain ⟨e, s, hie, hle, hes, hos, hgs⟩ := hsafe.granted_of_accepts hi hsi
  obtain ⟨e', s', hje, hle', hes', hos', hgs'⟩ := hsafe.granted_of_accepts hj hsj
  have hne : s ≠ s' := by
    rintro rfl
    exact hij (hos.symm.trans hos')
  by_cases hlive : w.etcd.live s = true
  · have hdead : w.etcd.live s' ≠ true := fun h => hne (hsafe.unique s s' hlive h)
    exact .inr (.inr (.inr ⟨e', s', hje, hle', hes', stale_of_not_live hgs' hdead⟩))
  · exact .inr (.inr (.inl ⟨e, s, hie, hle, hes, stale_of_not_live hgs hlive⟩))

/-- The events by which instance `i` starts with etcd reachable and wins with session `s`. -/
def winElection (i : ℕ) (id : String) (s : SessionId) : List Event :=
  [.start i true id, .elector i .advance, .elector i (.createSession (some s)),
    .elector i .advance, .elector i .advance, .elector i (.campaign true), .elector i .advance]

/-- The lease of a leader expires, and another instance wins before `Done` reaches the first. -/
def expireUnseen : List Event := winElection 0 "a" 0 ++ [.expire 0] ++ winElection 1 "b" 1

/-- Etcd executes the `Resign` of a leader, and another instance wins before the answer reaches the
first. -/
def resignUnanswered : List Event :=
  winElection 0 "a" 0 ++ [.elector 0 .callResign, .elector 0 (.resign 0 true), .deleteKey 0] ++
    winElection 1 "b" 1

/-- **Two writers exist**: two instances started without etcd, and a leader that has not yet seen
the loss of its session beside its successor. -/
theorem two_writers :
    (∃ w, (control "/appgate/leader").exec {} [.start 0 false "a", .start 1 false "b"] = some w ∧
      w.accepts 0 = true ∧ w.accepts 1 = true) ∧
    (∃ w, (control "/appgate/leader").exec {} expireUnseen = some w ∧
      w.accepts 0 = true ∧ w.accepts 1 = true) ∧
    ∃ w, (control "/appgate/leader").exec {} resignUnanswered = some w ∧
      w.accepts 0 = true ∧ w.accepts 1 = true :=
  ⟨⟨_, rfl, rfl, rfl⟩, ⟨_, rfl, rfl, rfl⟩, ⟨_, rfl, rfl, rfl⟩⟩

/-- The gap between the expiry of a lease and `Done`. -/
theorem writers_unique_or_stale_expired :
    ∃ w, (control "/appgate/leader").exec {} expireUnseen = some w ∧
      (w.standalone 0 ∨ w.standalone 1 ∨ w.stale 0 ∨ w.stale 1) :=
  ⟨_, rfl, writers_unique_or_stale "/appgate/leader" _ ⟨expireUnseen, rfl⟩ 0 1 (by decide) rfl rfl⟩

end AppGate.Leader
