import AppGate.Lib.Replay
import Mathlib.Tactic.Common

/-!
# Statements for a database server

The statements `CREATE TABLE IF NOT EXISTS` and `CREATE INDEX IF NOT EXISTS`, and `COPY`. The server
that executes them is a parameter, of which one sees the columns of its tables.

* `Table`, `Statement`: the statements;
* `Server`, `CopyFrom`: a server;
* `Server.IfNotExists`, `Server.Copies`: what its documentation says of the statements;
* `Server.Grown`, **`Server.IfNotExists.grown_execAll`**: the tables after a block of statements;
* `Catalog`, `catalog`, **`catalog_ifNotExists`**, `catalog_copies`: a server that refuses a
  statement only for what is not there.
-/

set_option autoImplicit false

namespace Sql

/-! ## Statements -/

/-- `REFERENCES table(column)`, with or without `ON DELETE CASCADE`. -/
structure Reference where
  table : String
  column : String
  cascade : Bool
  deriving DecidableEq, Repr

structure Column where
  name : String
  type : String
  notNull : Bool
  /-- `PRIMARY KEY` or `UNIQUE`. -/
  key : Bool
  default : Option String
  references : Option Reference
  deriving DecidableEq, Repr

structure Table where
  columns : List Column
  /-- The uniqueness constraints over several columns. -/
  unique : List (List String)
  deriving DecidableEq, Repr

def Table.names (t : Table) : List String := t.columns.map Column.name

/-- The statements, all of them `IF NOT EXISTS`. -/
inductive Statement where
  | createTable (name : String) (table : Table)
  | createIndex (name table column : String) (descending : Bool)
  deriving DecidableEq, Repr

/-! ## Servers -/

/-- A server: how it executes a statement, and the columns of the tables and views it has. -/
structure Server (Db : Type) where
  exec : Db → Statement → Except String Db
  columns : Db → String → Option (List String)

/-- `COPY table (columns) FROM` some rows, in a transaction that is committed. -/
abbrev CopyFrom (Db Row : Type) := Db → String → List String → List Row → Except String Db

section

variable {Db Row : Type}

/-- `IF NOT EXISTS`, as it is documented: a statement whose relation exists does nothing, and no
statement removes or changes a relation. A new table has the columns of its statement. -/
structure Server.IfNotExists (S : Server Db) : Prop where
  idempotent : Replay.Idempotent S.exec
  kept : ∀ {d d' : Db} {stmt : Statement} {n : String} {cs : List String},
    S.exec d stmt = .ok d' → S.columns d n = some cs → S.columns d' n = some cs
  new : ∀ {d d' : Db} {stmt : Statement} {n : String} {cs : List String},
    S.exec d stmt = .ok d' → S.columns d' n = some cs →
      S.columns d n = some cs ∨ ∃ table, stmt = .createTable n table ∧ cs = table.names

/-- `COPY` is refused for a table or a column that does not exist, and it changes no table. -/
structure Server.Copies (S : Server Db) (copy : CopyFrom Db Row) : Prop where
  undefined : ∀ {d d' : Db} {table : String} {names : List String} {rows : List Row},
    copy d table names rows = .ok d' → ∃ cs, S.columns d table = some cs ∧ names ⊆ cs
  kept : ∀ {d d' : Db} {table : String} {names : List String} {rows : List Row},
    copy d table names rows = .ok d' → S.columns d' = S.columns d

/-- The tables of `d'` are those of `d`, with the same columns, and some that are declared. -/
structure Server.Grown (S : Server Db) (stmts : List Statement) (d d' : Db) : Prop where
  kept : ∀ n cs, S.columns d n = some cs → S.columns d' n = some cs
  new : ∀ n cs, S.columns d' n = some cs →
    S.columns d n = some cs ∨ ∃ table, .createTable n table ∈ stmts ∧ cs = table.names

variable {S : Server Db}

theorem Server.Grown.refl (stmts : List Statement) (d : Db) : S.Grown stmts d d :=
  ⟨fun _ _ h => h, fun _ _ h => .inl h⟩

theorem Server.Grown.trans {stmts : List Statement} {d d' d'' : Db} (h : S.Grown stmts d d')
    (h' : S.Grown stmts d' d'') : S.Grown stmts d d'' := by
  refine ⟨fun n cs hn => h'.kept n cs (h.kept n cs hn), fun n cs hn => ?_⟩
  rcases h'.new n cs hn with hn | hnew
  · exact h.new n cs hn
  · exact .inr hnew

/-- The tables after a block of statements. -/
theorem Server.IfNotExists.grown_execAll (hS : S.IfNotExists) {stmts block : List Statement}
    (hsub : block ⊆ stmts) {d d' : Db} (h : Replay.execAll S.exec d block = .ok d') :
    S.Grown stmts d d' := by
  refine Replay.inv_execAll (P := fun t => S.Grown stmts d t) (fun t u stmt hmem ht hu => ?_)
    (.refl _ _) h
  refine ht.trans ⟨fun n cs hn => hS.kept hu hn, fun n cs hn => ?_⟩
  rcases hS.new hu hn with hn | ⟨table, rfl, hcs⟩
  · exact .inl hn
  · exact .inr ⟨table, hsub hmem, hcs⟩

end

/-! ## A server with nothing but tables and indexes -/

/-- The names that are taken, with the columns of the tables; an index has none. -/
abbrev Catalog := String → Option (Option (List String))

namespace Catalog

def columns (c : Catalog) (n : String) : Option (List String) := (c n).join

def hasColumn (c : Catalog) (table column : String) : Bool :=
  (c.columns table).any fun cs => cs.contains column

def add (c : Catalog) (name : String) (r : Option (List String)) : Catalog :=
  fun n => if n = name then c n <|> some r else c n

/-- The references of a table are to columns that exist. -/
def referable (c : Catalog) (table : Table) : Bool :=
  table.columns.all fun col => col.references.all fun r => c.hasColumn r.table r.column

def exec (c : Catalog) : Statement → Except String Catalog
  | .createTable name table =>
    if (c name).isSome then .ok c
    else if c.referable table then .ok (c.add name (some table.names))
    else .error "relation or column does not exist"
  | .createIndex name table column _ =>
    if c.hasColumn table column then .ok (c.add name none)
    else .error "relation or column does not exist"

/-- The rows are not in the catalog. -/
def copy {Row : Type} : CopyFrom Catalog Row := fun c table names _ =>
  if names.all (c.hasColumn table) then
    if (c.columns table).isSome then .ok c else .error "relation does not exist"
  else .error "column does not exist"

theorem add_of_isSome {c : Catalog} {name : String} (h : (c name).isSome) (r : Option (List String)) :
    c.add name r = c := by
  obtain ⟨r', hr⟩ := Option.isSome_iff_exists.mp h
  funext n
  unfold add
  split_ifs with hn
  · rw [hn, hr]
    rfl
  · rfl

theorem isSome_add (c : Catalog) (name : String) (r : Option (List String)) :
    (c.add name r name).isSome := by
  unfold add
  rw [if_pos rfl]
  cases c name <;> rfl

/-- A name that is taken stays what it is. -/
theorem add_eq {c : Catalog} {n : String} {r : Option (List String)} (hn : c n = some r)
    (name : String) (r' : Option (List String)) : c.add name r' n = some r := by
  unfold add
  split_ifs
  · rw [hn]
    rfl
  · exact hn

/-- A statement that is executed adds a name, which does nothing to one that is taken. -/
theorem exec_eq_ok {c d : Catalog} {stmt : Statement} (h : c.exec stmt = .ok d) :
    ∃ name r, d = c.add name r ∧
      ∀ cs, r = some cs → ∃ table, stmt = .createTable name table ∧ cs = table.names := by
  cases stmt with
  | createTable name table =>
      have hadd : d = c.add name (some table.names) := by
        simp only [exec] at h
        split_ifs at h with hname
        · cases h
          exact (add_of_isSome hname _).symm
        · cases h
          rfl
      exact ⟨name, some table.names, hadd, fun cs hcs => ⟨table, rfl, (Option.some.inj hcs).symm⟩⟩
  | createIndex name table column descending =>
      simp only [exec] at h
      split_ifs at h
      cases h
      exact ⟨name, none, rfl, nofun⟩

theorem isSome_kept {c d : Catalog} {stmt : Statement} (h : c.exec stmt = .ok d) {n : String}
    (hn : (c n).isSome) : (d n).isSome := by
  obtain ⟨name, r, rfl, -⟩ := exec_eq_ok h
  obtain ⟨r', hr⟩ := Option.isSome_iff_exists.mp hn
  rw [add_eq hr]
  rfl

theorem columns_kept {c d : Catalog} {stmt : Statement} (h : c.exec stmt = .ok d) {n : String}
    {cs : List String} (hn : c.columns n = some cs) : d.columns n = some cs := by
  obtain ⟨name, r, rfl, -⟩ := exec_eq_ok h
  have hcn : c n = some (some cs) := Option.join_eq_some_iff.mp hn
  rw [columns, add_eq hcn]
  rfl

theorem hasColumn_kept {c d : Catalog} {stmt : Statement} (h : c.exec stmt = .ok d)
    {table column : String} (hcol : c.hasColumn table column = true) :
    d.hasColumn table column = true := by
  unfold hasColumn at hcol ⊢
  obtain ⟨cs, hcs, hmem⟩ := (Option.any_eq_true _ _).mp hcol
  rw [columns_kept h hcs]
  exact hmem

/-- The statement has nothing to do. -/
def Ready (c : Catalog) : Statement → Prop
  | .createTable name _ => (c name).isSome
  | .createIndex name table column _ => c.hasColumn table column = true ∧ (c name).isSome

theorem ready_of_exec {c d : Catalog} {stmt : Statement} (h : c.exec stmt = .ok d) :
    d.Ready stmt := by
  have hexec := h
  cases stmt with
  | createTable name table =>
      simp only [exec] at h
      split_ifs at h with hname
      · cases h
        exact hname
      · cases h
        exact isSome_add _ _ _
  | createIndex name table column descending =>
      simp only [exec] at h
      split_ifs at h with hcol
      cases h
      exact ⟨hasColumn_kept hexec hcol, isSome_add _ _ _⟩

theorem exec_of_ready {c : Catalog} {stmt : Statement} (h : c.Ready stmt) :
    c.exec stmt = .ok c := by
  cases stmt with
  | createTable name table => exact if_pos h
  | createIndex name table column descending =>
      simp only [exec]
      rw [if_pos h.1, add_of_isSome h.2]

theorem Ready.mono {c d : Catalog} {stmt other : Statement} (h : c.Ready stmt)
    (hd : c.exec other = .ok d) : d.Ready stmt := by
  cases stmt with
  | createTable name table => exact isSome_kept hd h
  | createIndex name table column descending => exact ⟨hasColumn_kept hd h.1, isSome_kept hd h.2⟩

end Catalog

def catalog : Server Catalog := ⟨Catalog.exec, Catalog.columns⟩

/-- **The catalog** is such a server. -/
theorem catalog_ifNotExists : catalog.IfNotExists where
  idempotent :=
    ⟨fun h => Catalog.exec_of_ready (Catalog.ready_of_exec h),
      fun h h' => Catalog.exec_of_ready ((Catalog.ready_of_exec h).mono h')⟩
  kept h hn := Catalog.columns_kept h hn
  new := by
    intro c d stmt n cs h hn
    obtain ⟨name, r, rfl, hr⟩ := Catalog.exec_eq_ok h
    have hdn : c.add name r n = some (some cs) := Option.join_eq_some_iff.mp hn
    unfold Catalog.add at hdn
    split_ifs at hdn with hname
    · cases hcn : c n with
      | some r' =>
          rw [hcn] at hdn
          exact .inl (Option.join_eq_some_iff.mpr (hcn.trans hdn))
      | none =>
          rw [hcn] at hdn
          obtain ⟨table, hstmt, hcs⟩ := hr cs (Option.some.inj hdn)
          exact .inr ⟨table, hname ▸ hstmt, hcs⟩
    · exact .inl (Option.join_eq_some_iff.mpr hdn)

theorem catalog_copies {Row : Type} : catalog.Copies (Catalog.copy : CopyFrom Catalog Row) where
  undefined := by
    intro c d table names rows h
    unfold Catalog.copy at h
    split_ifs at h with hnames htable
    obtain ⟨cs, hcs⟩ := Option.isSome_iff_exists.mp htable
    refine ⟨cs, hcs, fun name hname => ?_⟩
    have hcol := List.all_eq_true.mp hnames name hname
    rw [Catalog.hasColumn, hcs] at hcol
    exact List.contains_iff_mem.mp hcol
  kept := by
    intro c d table names rows h
    unfold Catalog.copy at h
    split_ifs at h
    cases h
    rfl

end Sql
