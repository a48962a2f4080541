import Mathlib.Data.List.Flatten
import AppGate.Audit.Logger
import AppGate.Store.Migrate

/-!
# The rows of the audit table

`Logger.insertBatch` in `internal/audit/logger.go` copies a batch into `audit_events` in one
transaction. The statement that creates a table of this name is one of the migrations of the control
plane. Any number of proxies and of control planes share a database.

* `columns`, `cells`, `Tx`, `insertBatch`: the code, and where a transaction may fail;
* `State`, `step`, `shared`: the loggers, the migrations and the transactions;
* `Stored`, `stored_step`: what a step keeps;
* **`rows_of_reach`**: each batch is stored as a whole or reported, and none is stored unless a
  table with its columns was there before the migrations.
-/

set_option autoImplicit false

namespace AppGate.AuditStorage

open Lts Sql

/-! ## A transaction -/

/-- The columns that `insertBatch` copies. -/
def columns : List String :=
  ["timestamp", "project_id", "user_id", "request_id", "model", "upstream", "status_code",
    "latency_ms", "input_tokens", "output_tokens", "cost_usd", "prompt_hash", "response_hash",
    "violation"]

/-- A value of a row. -/
inductive Cell where
  | time (t : ℤ)
  | text (s : String)
  | int (n : ℤ)
  /-- In units of `2 ^ -70`. -/
  | float64 (units : ℤ)
  deriving DecidableEq, Repr

/-- The row of an event. -/
def cells (e : Audit.Event) : List Cell :=
  [.time e.timestamp, .text e.projectID, .text e.userID, .text e.requestID, .text e.model,
    .text e.upstream, .int e.statusCode, .int e.latencyMs, .int e.inputTokens,
    .int e.outputTokens, .float64 e.costUSD, .text e.promptHash, .text e.responseHash,
    .text e.violation]

/-- How a transaction fares, as far as the server does not decide it. A `Commit` that returns an
error may have taken effect. -/
inductive Tx where
  | beginFails
  | copyFails
  | commitFails (stored : Bool)
  | commits
  deriving DecidableEq, Repr

/-- What became of a batch: whether its copy has been committed, and the message that was logged. -/
structure Result where
  stored : Bool
  message : Option String
  deriving DecidableEq, Repr

section

variable {Db : Type} (S : Server Db) (copy : CopyFrom Db (List Cell))

/-- `insertBatch`: the database it leaves. -/
def insertBatch (d : Db) (tx : Tx) (events : List Audit.Event) : Db × Result :=
  match tx with
  | .beginFails => (d, ⟨false, some "audit batch begin failed"⟩)
  | .copyFails => (d, ⟨false, some "audit batch insert failed"⟩)
  | .commitFails stored =>
    match copy d "audit_events" columns (events.map cells) with
    | .error _ => (d, ⟨false, some "audit batch insert failed"⟩)
    | .ok d' => (if stored then d' else d, ⟨stored, some "audit batch commit failed"⟩)
  | .commits =>
    match copy d "audit_events" columns (events.map cells) with
    | .error _ => (d, ⟨false, some "audit batch insert failed"⟩)
    | .ok d' => (d', ⟨true, none⟩)

/-! ## The system -/

/-- A batch that a logger has handed to `insertBatch`. -/
structure Insert where
  logger : ℕ
  batch : List Audit.Event
  result : Result
  deriving DecidableEq, Repr

/-- The database with the migrations, and the loggers that write to it. -/
structure State (Db : Type) where
  database : Database.State Db
  loggers : List Audit.State
  inserts : List Insert

inductive Act where
  /-- A step of the migrations. -/
  | migrate (a : Database.Act)
  /-- `New` with a DSN. -/
  | new
  /-- A step of a logger; if it flushes a batch, the transaction fares so. -/
  | log (logger : ℕ) (a : Audit.Act) (tx : Tx)

/-- The batches that a step of a logger flushed. -/
def newBatches (l l' : Audit.State) : List (List Audit.Event) := l'.flushed.drop l.flushed.length

/-- Batches of a logger are inserted one after the other. -/
def insertAll (d : Db) (logger : ℕ) (tx : Tx) : List (List Audit.Event) → Db × List Insert
  | [] => (d, [])
  | batch :: batches =>
    let (d', result) := insertBatch copy d tx batch
    let (d'', inserts) := insertAll d' logger tx batches
    (d'', ⟨logger, batch, result⟩ :: inserts)

def step (s : State Db) : Act → Option (State Db)
  | .migrate a => (Database.step S s.database a).map fun db => { s with database := db }
  | .new => some { s with loggers := s.loggers ++ [Audit.logger.init] }
  | .log i a tx =>
    match s.loggers[i]? with
    | some l =>
      (Audit.logger.step l a).map fun l' =>
        let (d, inserts) := insertAll copy s.database.database i tx (newBatches l l')
        ⟨{ s.database with database := d }, s.loggers.set i l', s.inserts ++ inserts⟩
    | none => none

/-- The loggers and the control planes, on a database. -/
def shared (d₀ : Db) : Machine (State Db) Act := ⟨⟨⟨d₀, []⟩, [], []⟩, step S copy⟩

/-- The transactions of a logger. -/
def State.insertsOf (s : State Db) (i : ℕ) : List Insert := s.inserts.filter fun x => x.logger = i

/-- The events of a logger whose rows have been committed. -/
def State.rowsOf (s : State Db) (i : ℕ) : List Audit.Event :=
  ((s.insertsOf i).filter fun x => x.result.stored).flatMap Insert.batch

/-- A table with the columns of a row. -/
def Takes (d : Db) : Prop := ∃ cs, S.columns d "audit_events" = some cs ∧ columns ⊆ cs

/-! ## One transaction -/

variable {S copy}

/-- A batch is stored as a whole, or an error is logged; and only a table that has the columns takes
it. -/
structure Fair (S : Server Db) (d d' : Db) (r : Result) : Prop where
  columns : S.columns d' = S.columns d
  reported : r.stored = false → r.message.isSome
  takes : r.stored = true → Takes S d

theorem fair_insertBatch (hcopy : S.Copies copy) (d : Db) (tx : Tx) (events : List Audit.Event) :
    Fair S d (insertBatch copy d tx events).1 (insertBatch copy d tx events).2 := by
  unfold insertBatch
  cases tx with
  | beginFails | copyFails => exact ⟨rfl, fun _ => rfl, nofun⟩
  | commitFails stored =>
      cases hc : copy d "audit_events" columns (events.map cells) with
      | error e => exact ⟨rfl, fun _ => rfl, nofun⟩
      | ok d' =>
          refine ⟨?_, fun _ => rfl, fun _ => hcopy.undefined hc⟩
          cases stored with
          | false => rfl
          | true => exact hcopy.kept hc
  | commits =>
      cases hc : copy d "audit_events" columns (events.map cells) with
      | error e => exact ⟨rfl, fun _ => rfl, nofun⟩
      | ok d' => exact ⟨hcopy.kept hc, nofun, fun _ => hcopy.undefined hc⟩

/-- So it is with several batches. -/
theorem fair_insertAll (hcopy : S.Copies copy) (i : ℕ) (tx : Tx)
    (batches : List (List Audit.Event)) (d : Db) :
    S.columns (insertAll copy d i tx batches).1 = S.columns d ∧
      (insertAll copy d i tx batches).2.map Insert.batch = batches ∧
      ∀ x ∈ (insertAll copy d i tx batches).2, x.logger = i ∧
        (x.result.stored = false → x.result.message.isSome) ∧
        (x.result.stored = true → Takes S d) := by
  induction batches generalizing d with
  | nil => exact ⟨rfl, rfl, fun x hx => absurd hx List.not_mem_nil⟩
  | cons batch batches ih =>
      have hfirst := fair_insertBatch hcopy d tx batch
      obtain ⟨hcols, hbatches, hall⟩ := ih (insertBatch copy d tx batch).1
      have htakes : Takes S (insertBatch copy d tx batch).1 → Takes S d := by
        unfold Takes
        rw [hfirst.columns]
        exact id
      refine ⟨hcols.trans hfirst.columns, congrArg (batch :: ·) hbatches, fun x hx => ?_⟩
      rcases List.mem_cons.mp hx with rfl | hx
      · exact ⟨rfl, hfirst.reported, hfirst.takes⟩
      · exact ⟨(hall x hx).1, (hall x hx).2.1, fun h => htakes ((hall x hx).2.2 h)⟩

/-! ## What a step keeps -/

/-- What relates the transactions to the loggers and to the database before the migrations. -/
structure Stored (S : Server Db) (d₀ : Db) (s : State Db) : Prop where
  grown : S.Grown Database.statements d₀ s.database.database
  loggers : ∀ (i : ℕ) (l : Audit.State), s.loggers[i]? = some l →
    Audit.logger.Reach l ∧ (s.insertsOf i).map Insert.batch = l.flushed
  others : ∀ i, s.loggers.length ≤ i → s.insertsOf i = []
  reported : ∀ x ∈ s.inserts, x.result.stored = false → x.result.message.isSome
  takes : ∀ x ∈ s.inserts, x.result.stored = true → Takes S d₀

theorem flushed_eq {l l' : Audit.State} {a : Audit.Act} (h : Audit.logger.step l a = some l') :
    l'.flushed = l.flushed ++ newBatches l l' := by
  have hprefix : l.flushed <+: l'.flushed := by
    cases Audit.move_of_step h with
    | flush | flushLast =>
        unfold Audit.flush
        split_ifs
        · exact List.prefix_rfl
        · exact List.prefix_append _ _
    | _ => exact List.prefix_rfl
  exact (List.prefix_iff_eq_append.mp hprefix).symm

/-- The table of the migrations has no column `project_id`. -/
theorem takes_of_grown {d₀ d : Db} (h : S.Grown Database.statements d₀ d) (ht : Takes S d) :
    Takes S d₀ := by
  obtain ⟨cs, hcs, hsub⟩ := ht
  rcases h.new _ _ hcs with hold | ⟨table, hmem, rfl⟩
  · exact ⟨cs, hold, hsub⟩
  · rw [Database.eq_auditEventsTable hmem] at hsub
    have hproject : "project_id" ∈ columns := by decide
    exact absurd (hsub hproject) (by decide)

variable {d₀ : Db} {s : State Db}

/-- A step of a logger that flushes some batches, with a transaction for each of them. -/
theorem Stored.log (h : Stored S d₀ s) {i : ℕ} {l l' : Audit.State} (hl : s.loggers[i]? = some l)
    {a : Audit.Act} (hstep : Audit.logger.step l a = some l') {d : Db} {inserts : List Insert}
    (hcols : S.columns d = S.columns s.database.database)
    (hbatches : inserts.map Insert.batch = newBatches l l')
    (hall : ∀ x ∈ inserts, x.logger = i ∧ (x.result.stored = false → x.result.message.isSome) ∧
      (x.result.stored = true → Takes S s.database.database)) :
    Stored S d₀ ⟨{ s.database with database := d }, s.loggers.set i l', s.inserts ++ inserts⟩ := by
  have hi : i < s.loggers.length := (List.getElem?_eq_some_iff.mp hl).1
  -- the new transactions are those of the logger `i`
  have hmine : inserts.filter (fun x => x.logger = i) = inserts :=
    List.filter_eq_self.mpr fun x hx => decide_eq_true (hall x hx).1
  have hnot {j : ℕ} (hj : i ≠ j) : inserts.filter (fun x => x.logger = j) = [] :=
    List.filter_eq_nil_iff.mpr fun x hx => by simp [(hall x hx).1, hj]
  refine ⟨⟨fun n cs hn => ?_, fun n cs hn => ?_⟩, fun j m hm => ?_, fun j hj => ?_,
    fun x hx => ?_, fun x hx => ?_⟩
  · exact (congrFun hcols n).trans (h.grown.kept n cs hn)
  · exact h.grown.new n cs ((congrFun hcols n).symm.trans hn)
  · simp only [State.insertsOf, List.filter_append]
    rw [List.getElem?_set] at hm
    split_ifs at hm with hij
    · cases hm
      subst hij
      obtain ⟨hreach, hflushed⟩ := h.loggers i l hl
      refine ⟨hreach.step hstep, ?_⟩
      rw [hmine, List.map_append, hbatches, flushed_eq hstep, ← hflushed]
      rfl
    · rw [hnot hij, List.append_nil]
      exact h.loggers j m hm
  · rw [List.length_set] at hj
    simp only [State.insertsOf, List.filter_append]
    rw [hnot (by omega), List.append_nil]
    exact h.others j hj
  · rcases List.mem_append.mp hx with hx | hx
    · exact h.reported x hx
    · exact (hall x hx).2.1
  · rcases List.mem_append.mp hx with hx | hx
    · exact h.takes x hx
    · exact fun hstored => takes_of_grown h.grown ((hall x hx).2.2 hstored)

theorem stored_step (hS : S.IfNotExists) (hcopy : S.Copies copy) (s : State Db) (a : Act)
    (t : State Db) (h : Stored S d₀ s) (hst : (shared S copy d₀).step s a = some t) :
    Stored S d₀ t := by
  cases a with
  | migrate a =>
      simp only [shared, step, Option.map_eq_some_iff] at hst
      obtain ⟨db, hdb, rfl⟩ := hst
      exact ⟨h.grown.trans (Database.grown_of_step hS hdb), h.loggers, h.others, h.reported,
        h.takes⟩
  | new =>
      cases hst
      refine ⟨h.grown, fun i l hl => ?_, fun i hi => ?_, h.reported, h.takes⟩
      · rw [List.getElem?_append] at hl
        split_ifs at hl with hi
        · exact h.loggers i l hl
        · obtain ⟨hlt, rfl⟩ := List.getElem?_eq_some_iff.mp hl
          have hnone : s.insertsOf i = [] := h.others i (by omega)
          simp only [List.getElem_singleton]
          refine ⟨⟨[], rfl⟩, ?_⟩
          exact congrArg (List.map Insert.batch) hnone
      · rw [List.length_append] at hi
        exact h.others i (by omega)
  | log i a tx =>
      simp only [shared, step] at hst
      split at hst
      next l hl =>
        rw [Option.map_eq_some_iff] at hst
        obtain ⟨l', hstep, rfl⟩ := hst
        obtain ⟨hcols, hbatches, hall⟩ :=
          fair_insertAll hcopy i tx (newBatches l l') s.database.database
        exact h.log hl hstep hcols hbatches hall
      next => cases hst

theorem stored_init (d₀ : Db) : Stored S d₀ (shared S copy d₀).init where
  grown := .refl _ _
  loggers i l hl := by cases hl
  others i _ := rfl
  reported x hx := absurd hx List.not_mem_nil
  takes x hx := absurd hx List.not_mem_nil

/-! ## Every run -/

theorem filter_sublist_flatten (inserts : List Insert) :
    ((inserts.filter fun x => x.result.stored).flatMap Insert.batch).Sublist
      (inserts.map Insert.batch).flatten := by
  rw [← List.flatMap_def]
  exact (List.filter_sublist).flatMap Insert.batch

/-- **Which rows there are.** With any number of proxies and control planes on one database, any
interleaving of their steps and any transaction failing at any point, on a server that executes
`IF NOT EXISTS` and `COPY` as documented: the transactions of a logger are the batches it flushed,
in order, and the rows a part of what it accepted; a batch that is not stored is reported; and none
is stored unless the database had a table `audit_events` with the columns of the proxy before: the
one that the migrations create has not. -/
theorem rows_of_reach (hS : S.IfNotExists) (hcopy : S.Copies copy)
    (hs : (shared S copy d₀).Reach s) :
    (∀ (i : ℕ) (l : Audit.State), s.loggers[i]? = some l →
      (s.insertsOf i).map Insert.batch = l.flushed ∧ (s.rowsOf i).Sublist l.accepted) ∧
      (∀ x ∈ s.inserts, x.result.stored = false → x.result.message.isSome) ∧
      ∀ x ∈ s.inserts, x.result.stored = true →
        ∃ cs, S.columns d₀ "audit_events" = some cs ∧ columns ⊆ cs := by
  have h : Stored S d₀ s := Machine.inv_reach (stored_init d₀) (stored_step hS hcopy) hs
  refine ⟨fun i l hl => ?_, h.reported, h.takes⟩
  obtain ⟨hreach, hflushed⟩ := h.loggers i l hl
  have hconserved := Machine.inv_reach Audit.conserved_init Audit.conserved_step hreach
  refine ⟨hflushed, (filter_sublist_flatten _).trans ?_⟩
  rw [hflushed, ← hconserved.events, List.append_assoc]
  exact List.sublist_append_left _ _

end

/-- A control plane migrates an empty database; a proxy then logs an event, which the ticker
flushes. -/
def firstEvent : List Act :=
  (Database.Act.start :: List.replicate 8 (.exec 0)).map .migrate ++
    [.new, .log 0 (.log Audit.Event.zero 7) .commits, .log 0 .recv .commits,
      .log 0 .tick .commits, .log 0 .flush .commits]

/-- The event is not stored. -/
theorem rows_of_reach_migrated :
    ∃ s, (shared catalog Catalog.copy fun _ => none).exec
        (shared catalog Catalog.copy fun _ => none).init firstEvent = some s ∧
      s.database.runs = [.finished] ∧
      s.inserts.map Insert.batch = [[Audit.Event.zero.stamp 7]] ∧
      ∀ x ∈ s.inserts, x.result.stored = false := by
  obtain ⟨s, hs, hruns, hinserts⟩ : ∃ s, (shared catalog Catalog.copy fun _ => none).exec
      (shared catalog Catalog.copy fun _ => none).init firstEvent = some s ∧
      s.database.runs = [.finished] ∧
      s.inserts.map Insert.batch = [[Audit.Event.zero.stamp 7]] :=
    ⟨_, rfl, rfl, rfl⟩
  refine ⟨s, hs, hruns, hinserts, fun x hx => Bool.eq_false_iff.mpr fun hstored => ?_⟩
  obtain ⟨-, -, htakes⟩ := rows_of_reach catalog_ifNotExists catalog_copies ⟨firstEvent, hs⟩
  obtain ⟨cs, hcs, -⟩ := htakes x hx hstored
  cases hcs

end AppGate.AuditStorage
