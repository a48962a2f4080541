import AppGate.Lib.Machine
import AppGate.Lib.Sql

/-!
# The migrations of the control plane

`Postgres.Migrate` in `control-plane/internal/database/postgres.go` executes seven blocks of
statements, one after the other, and returns the first error. Every instance of the control plane
migrates when it starts; instances may share a database.

* `migrations`: the blocks, as the code has them;
* `migrate`: a call of `Migrate` that is alone;
* `Run`, `step`, `migrating`: any number of instances that migrate at the same time, with
  connections that fail;
* `Sound`, `Sound.step`: what a step keeps; `exec_alone`: a run of one instance;
* **`migrations_of_reach`**: together they do what one of them does alone.
-/

set_option autoImplicit false

namespace AppGate.Database

open Lts Sql Replay Fallible

/-! ## The blocks -/

/-- `id TEXT PRIMARY KEY`. -/
def idColumn : Column := ⟨"id", "TEXT", true, true, none, none⟩

/-- A column that may be NULL. -/
def nullable (name type : String) : Column := ⟨name, type, false, false, none, none⟩

/-- A `NOT NULL` column. -/
def notNull (name type : String) : Column := ⟨name, type, true, false, none, none⟩

/-- A `NOT NULL` column with a default. -/
def withDefault (name type default : String) : Column :=
  ⟨name, type, true, false, some default, none⟩

/-- `name TEXT UNIQUE NOT NULL`. -/
def uniqueText (name : String) : Column := ⟨name, "TEXT", true, true, none, none⟩

/-- `name TEXT NOT NULL REFERENCES table(id)`. -/
def referring (name table : String) (cascade : Bool) : Column :=
  ⟨name, "TEXT", true, false, none, some ⟨table, "id", cascade⟩⟩

def createIdentitiesTable : List Statement :=
  [.createTable "identities"
    ⟨[idColumn, uniqueText "email", withDefault "client_secret" "TEXT" "''",
      withDefault "roles" "TEXT[]" "'\x7b\x7d'", withDefault "enabled" "BOOLEAN" "true",
      withDefault "created_at" "TIMESTAMPTZ" "NOW()",
      withDefault "updated_at" "TIMESTAMPTZ" "NOW()"], []⟩]

def createPoliciesTable : List Statement :=
  [.createTable "policies"
    ⟨[idColumn, uniqueText "name", withDefault "version" "INTEGER" "1", notNull "spec" "JSONB",
      withDefault "created_at" "TIMESTAMPTZ" "NOW()",
      withDefault "updated_at" "TIMESTAMPTZ" "NOW()",
      referring "created_by" "identities" false], []⟩]

def createPolicyVersionsTable : List Statement :=
  [.createTable "policy_versions"
    ⟨[idColumn, referring "policy_id" "policies" true, notNull "version" "INTEGER",
      notNull "spec" "JSONB", withDefault "created_at" "TIMESTAMPTZ" "NOW()",
      notNull "created_by" "TEXT"], [["policy_id", "version"]]⟩]

def createGatewaysTable : List Statement :=
  [.createTable "gateways"
    ⟨[idColumn, uniqueText "name", notNull "version" "TEXT", notNull "public_key" "TEXT",
      withDefault "status" "TEXT" "'active'", nullable "last_seen_at" "TIMESTAMPTZ",
      withDefault "registered_at" "TIMESTAMPTZ" "NOW()",
      withDefault "metadata" "JSONB" "'\x7b\x7d'"], []⟩]

def createProvidersTable : List Statement :=
  [.createTable "providers"
    ⟨[idColumn, uniqueText "name", notNull "base_url" "TEXT",
      withDefault "auth_type" "TEXT" "'api_key'", withDefault "models" "TEXT[]" "'\x7b\x7d'",
      withDefault "enabled" "BOOLEAN" "true", withDefault "created_at" "TIMESTAMPTZ" "NOW()"], []⟩]

def createRoutesTable : List Statement :=
  [.createTable "routes"
    ⟨[idColumn, referring "provider_id" "providers" true, notNull "path" "TEXT",
      withDefault "methods" "TEXT[]" "'\x7b\"POST\"\x7d'", withDefault "rate_limit" "INTEGER" "60",
      withDefault "enabled" "BOOLEAN" "true"], [["provider_id", "path"]]⟩]

def auditEventsTable : Table :=
  ⟨[idColumn, withDefault "timestamp" "TIMESTAMPTZ" "NOW()", notNull "event_type" "TEXT",
    notNull "actor_id" "TEXT", nullable "actor_ip" "TEXT", notNull "action" "TEXT",
    nullable "resource" "TEXT", notNull "result" "TEXT", nullable "correlation_id" "TEXT",
    withDefault "metadata" "JSONB" "'\x7b\x7d'", nullable "source" "TEXT"], []⟩

def createAuditEventsTable : List Statement :=
  [.createTable "audit_events" auditEventsTable,
    .createIndex "idx_audit_events_timestamp" "audit_events" "timestamp" true,
    .createIndex "idx_audit_events_event_type" "audit_events" "event_type" false,
    .createIndex "idx_audit_events_actor_id" "audit_events" "actor_id" false]

/-- The list in `Migrate`. A block is sent in one message, so it takes effect as a whole or not at
all. -/
def migrations : List (List Statement) :=
  [createIdentitiesTable, createPoliciesTable, createPolicyVersionsTable, createGatewaysTable,
    createProvidersTable, createRoutesTable, createAuditEventsTable]

/-- All statements, in their order. -/
def statements : List Statement := migrations.flatten

theorem block_subset {i : ℕ} {block : List Statement} (h : migrations[i]? = some block) :
    block ⊆ statements :=
  fun _ hs => List.mem_flatten.mpr ⟨block, List.mem_of_getElem? h, hs⟩

/-- The only table with the name of the audit table. -/
theorem eq_auditEventsTable {table : Table} (h : .createTable "audit_events" table ∈ statements) :
    table = auditEventsTable := by
  simpa [statements, migrations, createIdentitiesTable, createPoliciesTable,
    createPolicyVersionsTable, createGatewaysTable, createProvidersTable, createRoutesTable,
    createAuditEventsTable] using h

/-! ## One instance alone -/

section

variable {Db : Type} (S : Server Db)

/-- The loop of `Migrate` at the block with this index: the database it leaves and, for an error,
the number of the migration and the error. -/
def migrateFrom (d : Db) (i : ℕ) : List (List Statement) → Db × Option (ℕ × String)
  | [] => (d, none)
  | block :: blocks =>
    match execAll S.exec d block with
    | .ok d' => migrateFrom d' (i + 1) blocks
    | .error e => (d, some (i + 1, e))

def migrate (d : Db) : Db × Option (ℕ × String) := migrateFrom S d 0 migrations

/-! ## The instances -/

/-- Why a migration fails. -/
inductive Failure where
  | refused (e : String)
  /-- The connection failed, before or after the block took effect, or the server aborted the block
  since another session was creating the same table. -/
  | lost
  deriving DecidableEq, Repr

/-- A call of `Migrate`. -/
inductive Run where
  /-- In the loop, at the block with this index. -/
  | running (i : ℕ)
  /-- It returned `nil`. -/
  | finished
  /-- It returned `migration %d failed`. -/
  | failed (migration : ℕ) (e : Failure)
  deriving DecidableEq, Repr

structure State (Db : Type) where
  database : Db
  runs : List Run

inductive Act where
  /-- An instance calls `Migrate`. -/
  | start
  /-- The next block of an instance is executed or refused; after the last one it returns. -/
  | exec (run : ℕ)
  /-- An instance gets no answer to its block, or one that it was aborted. -/
  | lose (run : ℕ) (applied : Bool)
  deriving DecidableEq, Repr

def step (s : State Db) : Act → Option (State Db)
  | .start => some { s with runs := s.runs ++ [.running 0] }
  | .exec run =>
    match s.runs[run]? with
    | some (.running i) =>
      match migrations[i]? with
      | some block =>
        match execAll S.exec s.database block with
        | .ok d => some ⟨d, s.runs.set run (.running (i + 1))⟩
        | .error e => some { s with runs := s.runs.set run (.failed (i + 1) (.refused e)) }
      | none => some { s with runs := s.runs.set run .finished }
    | _ => none
  | .lose run applied =>
    match s.runs[run]? with
    | some (.running i) =>
      match migrations[i]? with
      | some block =>
        match applied, execAll S.exec s.database block with
        | true, .ok d => some ⟨d, s.runs.set run (.failed (i + 1) .lost)⟩
        | _, _ => some { s with runs := s.runs.set run (.failed (i + 1) .lost) }
      | none => none
    | _ => none

/-- The instances, on a database. -/
def migrating (d₀ : Db) : Machine (State Db) Act := ⟨⟨d₀, []⟩, step S⟩

/-! ## What a step does -/

/-- The calls after the step of one of them. -/
inductive Move (s : State Db) : State Db → Prop
  | start : Move s { s with runs := s.runs ++ [.running 0] }
  | executed {run i : ℕ} {block : List Statement} {d : Db} {r : Run} :
      .running i ∈ s.runs → migrations[i]? = some block →
      execAll S.exec s.database block = .ok d → r = .running (i + 1) ∨ r = .failed (i + 1) .lost →
      Move s ⟨d, s.runs.set run r⟩
  | refused {run i : ℕ} {block : List Statement} {e : String} :
      .running i ∈ s.runs → migrations[i]? = some block →
      execAll S.exec s.database block = .error e →
      Move s { s with runs := s.runs.set run (.failed (i + 1) (.refused e)) }
  | finished {run i : ℕ} : .running i ∈ s.runs → migrations[i]? = none →
      Move s { s with runs := s.runs.set run .finished }
  | lost {run i : ℕ} : Move s { s with runs := s.runs.set run (.failed (i + 1) .lost) }

variable {S}

theorem move_of_step {s t : State Db} {a : Act} (h : step S s a = some t) : Move S s t := by
  cases a with
  | start =>
      cases h
      exact .start
  | exec run =>
      simp only [step] at h
      split at h
      next i hrun =>
        have hmem := List.mem_of_getElem? hrun
        split at h
        next block hb =>
          split at h
          next d hd =>
            cases h
            exact .executed hmem hb hd (.inl rfl)
          next e he =>
            cases h
            exact .refused hmem hb he
        next hb =>
          cases h
          exact .finished hmem hb
      next => cases h
  | lose run applied =>
      simp only [step] at h
      split at h
      next i hrun =>
        split at h
        next block hb =>
          split at h
          next d hd =>
            cases h
            exact .executed (List.mem_of_getElem? hrun) hb hd (.inr rfl)
          next =>
            cases h
            exact .lost
        next => cases h
      next => cases h

/-- A step adds only tables of the migrations. -/
theorem grown_of_step (hS : S.IfNotExists) {s t : State Db} {a : Act} (h : step S s a = some t) :
    S.Grown statements s.database t.database := by
  cases move_of_step h with
  | executed _ hb hd _ => exact hS.grown_execAll (block_subset hb) hd
  | _ => exact .refl _ _

/-! ## What a step keeps -/

/-- How many blocks the call has behind it. -/
def Run.executed : Run → ℕ
  | .running i => i
  | .finished => migrations.length
  | .failed _ _ => 0

/-- The first `n` blocks have been executed, and the calls are not further; the one that is refused
is the next. -/
structure Sound (S : Server Db) (d₀ : Db) (s : State Db) (n : ℕ) : Prop where
  bound : n ≤ migrations.length
  upto : Upto S.exec d₀ migrations n s.database
  behind : ∀ r ∈ s.runs, r.executed ≤ n
  refused : ∀ k e, .failed k (.refused e) ∈ s.runs → k = n + 1 ∧
    ∃ block, migrations[n]? = some block ∧ execAll S.exec s.database block = .error e

variable {d₀ : Db} {s : State Db} {n : ℕ}

/-- One of the calls goes on, and nothing else happens. -/
theorem Sound.set (h : Sound S d₀ s n) (run : ℕ) {r : Run} (hr : r.executed ≤ n)
    (hrefused : ∀ k e, r = .failed k (.refused e) → k = n + 1 ∧
      ∃ block, migrations[n]? = some block ∧ execAll S.exec s.database block = .error e) :
    Sound S d₀ { s with runs := s.runs.set run r } n := by
  refine ⟨h.bound, h.upto, fun r' hmem => ?_, fun k e hmem => ?_⟩
  · rcases List.mem_or_eq_of_mem_set hmem with hmem | rfl
    · exact h.behind r' hmem
    · exact hr
  · rcases List.mem_or_eq_of_mem_set hmem with hmem | heq
    · exact h.refused k e hmem
    · exact hrefused k e heq.symm

/-- A block that is executed is behind, or it is the next one. -/
theorem Sound.executed (hS : S.IfNotExists) (h : Sound S d₀ s n) {i : ℕ} (hi : .running i ∈ s.runs)
    {block : List Statement} (hb : migrations[i]? = some block) {d : Db}
    (hd : execAll S.exec s.database block = .ok d) (run : ℕ) {r : Run}
    (hr : r = .running (i + 1) ∨ r = .failed (i + 1) .lost) :
    ∃ m, Sound S d₀ ⟨d, s.runs.set run r⟩ m := by
  have hexecuted : r.executed ≤ i + 1 := by
    rcases hr with rfl | rfl
    · exact Nat.le_refl _
    · exact Nat.zero_le _
  have hne : ∀ k e, r ≠ .failed k (.refused e) := by
    rcases hr with rfl | rfl <;> exact nofun
  rcases Nat.lt_or_eq_of_le (h.behind _ hi) with hlt | rfl
  · -- executed again, without effect
    rw [hS.idempotent.execAll_of_lt h.upto hlt hb] at hd
    obtain rfl := Except.ok.inj hd
    exact ⟨n, h.set run (Nat.le_trans hexecuted hlt) fun k e he => absurd he (hne k e)⟩
  · -- no call was refused at this block, since it is executed
    have hnone : ∀ k e, .failed k (.refused e) ∉ s.runs := by
      intro k e hmem
      obtain ⟨-, block', hb', herror⟩ := h.refused k e hmem
      obtain rfl := Option.some.inj (hb.symm.trans hb')
      rw [hd] at herror
      cases herror
    refine ⟨i + 1, ?_, h.upto.next hb hd, fun r' hmem => ?_, fun k e hmem => ?_⟩
    · exact (List.getElem?_eq_some_iff.mp hb).1
    · rcases List.mem_or_eq_of_mem_set hmem with hmem | rfl
      · exact Nat.le_succ_of_le (h.behind r' hmem)
      · exact hexecuted
    · rcases List.mem_or_eq_of_mem_set hmem with hmem | heq
      · exact absurd hmem (hnone k e)
      · exact absurd heq.symm (hne k e)

theorem Sound.step (hS : S.IfNotExists) {t : State Db} {a : Act} (h : Sound S d₀ s n)
    (hst : step S s a = some t) : ∃ m, Sound S d₀ t m := by
  cases move_of_step hst with
  | start =>
      refine ⟨n, h.bound, h.upto, fun r hmem => ?_, fun k e hmem => ?_⟩
      · rcases List.mem_append.mp hmem with hmem | hmem
        · exact h.behind r hmem
        · rw [List.mem_singleton.mp hmem]
          exact Nat.zero_le _
      · rcases List.mem_append.mp hmem with hmem | hmem
        · exact h.refused k e hmem
        · cases List.mem_singleton.mp hmem
  | executed hi hb hd hr => exact h.executed hS hi hb hd _ hr
  | @refused _ i _ e hi hb he =>
      -- a block that is behind is not refused
      have heq : i = n := by
        rcases Nat.lt_or_eq_of_le (h.behind _ hi) with hlt | heq
        · rw [hS.idempotent.execAll_of_lt h.upto hlt hb] at he
          cases he
        · exact heq
      subst heq
      refine ⟨_, h.set _ (Nat.zero_le _) fun k e' hk => ?_⟩
      cases hk
      exact ⟨rfl, _, hb, he⟩
  | finished hi hb =>
      have hlen : migrations.length ≤ n :=
        Nat.le_trans (List.getElem?_eq_none_iff.mp hb) (h.behind _ hi)
      exact ⟨n, h.set _ hlen nofun⟩
  | lost => exact ⟨n, h.set _ (Nat.zero_le _) nofun⟩

theorem sound_of_reach (hS : S.IfNotExists) (hs : (migrating S d₀).Reach s) :
    ∃ n, Sound S d₀ s n := by
  refine Machine.inv_reach (I := fun s => ∃ n, Sound S d₀ s n) ⟨0, ?_⟩ ?_ hs
  · exact ⟨Nat.zero_le _, upto_zero _ _, fun _ h => absurd h List.not_mem_nil,
      fun _ _ h => absurd h List.not_mem_nil⟩
  · rintro s a t ⟨n, h⟩ hst
    exact h.step hS hst

theorem grown_of_reach (hS : S.IfNotExists) (hs : (migrating S d₀).Reach s) :
    S.Grown statements d₀ s.database :=
  Machine.inv_reach (I := fun s => S.Grown statements d₀ s.database) (.refl _ _)
    (fun _ _ _ h hst => h.trans (grown_of_step hS hst)) hs

/-! ## One instance alone and many -/

/-- The loop goes on after the blocks that have been executed. -/
theorem migrateFrom_of_upto {d₀ d : Db} {blocks : List (List Statement)} {n : ℕ}
    (h : Upto S.exec d₀ blocks n d) (i : ℕ) :
    migrateFrom S d₀ i blocks = migrateFrom S d (i + n) (blocks.drop n) := by
  induction blocks generalizing d₀ i n with
  | nil =>
      rw [Upto, List.take_nil] at h
      cases h
      rw [List.drop_nil]
      rfl
  | cons block blocks ih =>
      cases n with
      | zero =>
          cases h
          rfl
      | succ n =>
          rw [Upto, List.take_succ_cons, List.flatten_cons, execAll_append] at h
          obtain ⟨u, hu, hd⟩ := bind_eq_ok.mp h
          rw [migrateFrom, hu, List.drop_succ_cons, Nat.add_comm n 1, ← Nat.add_assoc]
          exact ih hd (i + 1)

/-- How a call ends that gets its answers. -/
def outcome : Option (ℕ × String) → Run
  | none => .finished
  | some (k, e) => .failed k (.refused e)

/-- Such a call has ended as one that is alone ends. -/
theorem Sound.migrate_eq (h : Sound S d₀ s n) {o : Option (ℕ × String)}
    (ho : outcome o ∈ s.runs) : migrate S d₀ = (s.database, o) := by
  rw [migrate, migrateFrom_of_upto h.upto, Nat.zero_add]
  cases o with
  | none =>
      rw [List.drop_of_length_le (h.behind _ ho)]
      rfl
  | some ke =>
      obtain ⟨k, e⟩ := ke
      obtain ⟨rfl, block, hb, he⟩ := h.refused k e ho
      obtain ⟨hn, rfl⟩ := List.getElem?_eq_some_iff.mp hb
      rw [List.drop_eq_getElem_cons hn, migrateFrom, he]

/-- A call that is alone, as a run. -/
theorem exec_alone (d₀ d : Db) {blocks : List (List Statement)} {i : ℕ}
    (hb : migrations.drop i = blocks) :
    ∃ as, (migrating S d₀).exec ⟨d, [.running i]⟩ as =
      some ⟨(migrateFrom S d i blocks).1, [outcome (migrateFrom S d i blocks).2]⟩ := by
  induction blocks generalizing i d with
  | nil =>
      have hi : migrations[i]? = none := by rw [← List.head?_drop, hb, List.head?_nil]
      refine ⟨[.exec 0], ?_⟩
      simp [Machine.exec, migrating, step, hi, migrateFrom, outcome]
  | cons block blocks ih =>
      have hi : migrations[i]? = some block := by rw [← List.head?_drop, hb, List.head?_cons]
      have hdrop : migrations.drop (i + 1) = blocks := by rw [← List.tail_drop, hb, List.tail_cons]
      cases hu : execAll S.exec d block with
      | error e =>
          refine ⟨[.exec 0], ?_⟩
          simp [Machine.exec, migrating, step, hi, hu, migrateFrom, outcome]
      | ok u =>
          obtain ⟨as, has⟩ := ih u hdrop
          have hstep : (migrating S d₀).step ⟨d, [.running i]⟩ (.exec 0) =
              some ⟨u, [.running (i + 1)]⟩ := by
            simp [migrating, step, hi, hu]
          refine ⟨.exec 0 :: as, ?_⟩
          rw [Machine.exec, hstep, Option.bind_some, has, migrateFrom, hu]

/-- **Any number of migrations.** With instances that migrate one database at the same time and
connections that fail at any moment, on a server that executes `IF NOT EXISTS` as documented: the
database is always one that a single call passes through, with its old tables and declared ones; a
call that gets its answers returns what a single call returns, and the database is then the one that
a single call leaves; and that outcome is reached. -/
theorem migrations_of_reach (hS : S.IfNotExists) (d₀ : Db) :
    (∀ s, (migrating S d₀).Reach s →
      (∃ n, Upto S.exec d₀ migrations n s.database) ∧ S.Grown statements d₀ s.database ∧
        ∀ o, outcome o ∈ s.runs → migrate S d₀ = (s.database, o)) ∧
      (migrating S d₀).Reach ⟨(migrate S d₀).1, [outcome (migrate S d₀).2]⟩ := by
  refine ⟨fun s hs => ?_, ?_⟩
  · obtain ⟨n, h⟩ := sound_of_reach hS hs
    exact ⟨⟨n, h.upto⟩, grown_of_reach hS hs, fun o ho => h.migrate_eq ho⟩
  · obtain ⟨as, has⟩ := exec_alone (S := S) d₀ d₀ (i := 0) rfl
    exact ⟨.start :: as, has⟩

end

/-- The first of two instances loses its connection after its second block, which took effect, and
the other one executes all blocks. -/
def twoInstances : List Act :=
  [.start, .exec 0, .start, .lose 0 true] ++ List.replicate 8 (.exec 1)

theorem migrations_of_reach_two :
    ∃ s, (migrating catalog fun _ => none).exec (migrating catalog fun _ => none).init
        twoInstances = some s ∧
      s.runs = [.failed 2 .lost, .finished] ∧
      migrate catalog (fun _ => none) = (s.database, none) := by
  obtain ⟨s, hs, hruns⟩ : ∃ s, (migrating catalog fun _ => none).exec
      (migrating catalog fun _ => none).init twoInstances = some s ∧
      s.runs = [.failed 2 .lost, .finished] := ⟨_, rfl, rfl⟩
  refine ⟨s, hs, hruns, ?_⟩
  exact ((migrations_of_reach catalog_ifNotExists fun _ => none).1 s ⟨_, hs⟩).2.2 none
    (by rw [hruns]; exact List.mem_cons_of_mem _ List.mem_cons_self)

/-- An older `audit_events` table may have no column for one of the indexes. -/
example : (migrate catalog fun n => if n = "audit_events" then some (some ["id"]) else none).2 =
    some (7, "relation or column does not exist") := by
  decide

end AppGate.Database
