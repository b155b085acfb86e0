import PgRaggraph.Library.Interaction
import Mathlib.Data.List.Count

/-! The schema bootstrap of the sidecar beside the installation of the extension, over what both
change of the catalog. -/

namespace PgRaggraph

open Interaction

/-- The part of the catalog the scripts change, and the versions of those that took effect. -/
structure Catalog where
  extensions : List String
  schema : Bool := false
  tables : List String := []
  indexes : List String := []
  checks : List String := []
  functions : List String := []
  namespaces : List String := []
  migrations : List Int := []
  effects : List Int := []
  deriving DecidableEq, Repr

inductive Statement where
  | requireExtension (name : String)
  | createTable (name : String) (references : List String)
  | createIndex (name table : String)
  | addCheck (name table : String)
  | createOrReplaceFunction (name : String)
  | insertNamespace (name : String)
  | insertVersion (version : Int)
  deriving DecidableEq, Repr

namespace Catalog

def missingTable (c : Catalog) (tables : List String) : Option String :=
  tables.find? (fun table => !c.tables.contains table)

def admits (c : Catalog) (name : String) (tables : List String) : Except String Unit :=
  if !c.schema then .error "schema \"pgrg\" does not exist"
  else if c.tables.contains name || c.indexes.contains name then
    .error s!"relation \"{name}\" already exists"
  else
    match c.missingTable tables with
    | some table => .error s!"relation \"pgrg.{table}\" does not exist"
    | none => .ok ()

end Catalog

def Statement.execute (c : Catalog) : Statement → Except String Catalog
  | .requireExtension name =>
      if c.extensions.contains name then .ok c
      else .error s!"pg_raggraph requires the {name} extension; CREATE EXTENSION {name} first"
  | .createTable name references =>
      (c.admits name references).map (fun _ => { c with tables := c.tables ++ [name] })
  | .createIndex name table =>
      (c.admits name [table]).map (fun _ => { c with indexes := c.indexes ++ [name] })
  | .addCheck name table =>
      if !c.tables.contains table then .error s!"relation \"pgrg.{table}\" does not exist"
      else if c.checks.contains name then
        .error s!"constraint \"{name}\" for relation \"{table}\" already exists"
      else .ok { c with checks := c.checks ++ [name] }
  | .createOrReplaceFunction name =>
      if !c.schema then .error "schema \"pgrg\" does not exist"
      else if c.functions.contains name then .ok c
      else .ok { c with functions := c.functions ++ [name] }
  | .insertNamespace name =>
      if !c.tables.contains "namespaces" then
        .error "relation \"pgrg.namespaces\" does not exist"
      else if c.namespaces.contains name then .ok c
      else .ok { c with namespaces := c.namespaces ++ [name] }
  | .insertVersion version =>
      if !c.tables.contains "migrations" then
        .error "relation \"pgrg.migrations\" does not exist"
      else if c.migrations.contains version then
        .error "duplicate key value violates unique constraint \"migrations_pkey\""
      else .ok { c with migrations := c.migrations ++ [version] }

structure Migration where
  version : Int
  name : String
  sql : List Statement

/-- The script as one batch, which either takes effect as a whole or fails. -/
def Migration.batch (m : Migration) (c : Catalog) : Except String Catalog :=
  (m.sql.foldlM Statement.execute c).map (fun after =>
    { after with effects := after.effects ++ [m.version] })

section Scripts

def schema000 : Migration where
  version := 0
  name := "000_schema"
  sql := [.requireExtension "vector", .requireExtension "pg_trgm"]

def tables001 : Migration where
  version := 1
  name := "001_tables"
  sql :=
    [.createTable "namespaces" [], .createTable "documents" ["namespaces"],
      .createTable "chunks" ["documents"], .createTable "entities" [],
      .createTable "relationships" ["entities"],
      .createTable "chunk_entities" ["chunks", "entities"], .createTable "ingest_jobs" [],
      .createTable "providers" [], .insertNamespace "default"]

def indexes002 : Migration where
  version := 2
  name := "002_indexes"
  sql :=
    [.createIndex "chunks_ns_doc_idx" "chunks", .createIndex "chunks_text_search_idx" "chunks",
      .createIndex "chunks_metadata_idx" "chunks", .createIndex "chunks_embedding_hnsw" "chunks",
      .createIndex "entities_ns_name_idx" "entities",
      .createIndex "entities_name_trgm_idx" "entities",
      .createIndex "entities_name_emb_hnsw" "entities",
      .createIndex "relationships_src_idx" "relationships",
      .createIndex "relationships_dst_idx" "relationships",
      .createIndex "relationships_ns_kind" "relationships",
      .createIndex "chunk_entities_eid_idx" "chunk_entities",
      .createIndex "ingest_jobs_active_idx" "ingest_jobs"]

def migrationsTable003 : Migration where
  version := 3
  name := "003_migrations_table"
  sql := [.createTable "migrations" [], .insertVersion 1]

def retrievalIndexes004 : Migration where
  version := 4
  name := "004_retrieval_indexes"
  sql := [.createOrReplaceFunction "_maybe_apply_parity_indexes"]

def statusCheckAtomicity005 : Migration where
  version := 5
  name := "005_status_check_atomicity"
  sql :=
    [.addCheck "ingest_jobs_status_check" "ingest_jobs",
      .createOrReplaceFunction "_maybe_apply_parity_indexes"]

def embeddedMigrations : List Migration :=
  [schema000, tables001, indexes002, migrationsTable003, retrievalIndexes004,
    statusCheckAtomicity005]

def baseBootstrapMaxVersion : Int := 3

end Scripts

/-- The calls of `run_migrations` on its connection. The two batches differ in the text put before
an error. -/
inductive BootstrapCall where
  | transaction
  | createSchemaIfNotExists
  | migrationsTableMissing
  | batchExecute (stage : String) (m : Migration)
  | appliedVersions
  | recordVersion (version : Int)
  | commit

@[reducible] def BootstrapCall.Answer : BootstrapCall → Type
  | .migrationsTableMissing => Bool
  | .appliedVersions => List Int
  | _ => Unit

def bootstrapCalls : Signature := ⟨BootstrapCall, BootstrapCall.Answer⟩

inductive BootstrapError where
  | environment (message : String)
  | refused (message : String)
  deriving DecidableEq, Repr

def bootstrapServer : Handler bootstrapCalls Catalog BootstrapError
  | .transaction, c => .ok ((), c)
  | .createSchemaIfNotExists, c => .ok ((), { c with schema := true })
  | .migrationsTableMissing, c => .ok (!c.tables.contains "migrations", c)
  | .batchExecute stage m, c =>
      match m.batch c with
      | .ok after => .ok ((), after)
      | .error e => .error (.refused s!"{stage} {m.name}: {e}")
  | .appliedVersions, c =>
      if c.tables.contains "migrations" then .ok (c.migrations, c)
      else .error (.refused "relation \"pgrg.migrations\" does not exist")
  | .recordVersion version, c =>
      if c.migrations.contains version then .ok ((), c)
      else .ok ((), { c with migrations := c.migrations ++ [version] })
  | .commit, c => .ok ((), c)

def bootstrap (request : BootstrapCall) : Program bootstrapCalls (BootstrapCall.Answer request) :=
  Program.perform (S := bootstrapCalls) request

def migrate : Program bootstrapCalls Nat := do
  bootstrap .transaction
  bootstrap .createSchemaIfNotExists
  let needsBase ← bootstrap .migrationsTableMissing
  let base := embeddedMigrations.filter (fun m => m.version ≤ baseBootstrapMaxVersion)
  if needsBase then
    base.forM (fun m => bootstrap (.batchExecute "base bootstrap" m))
  let applied ← bootstrap .appliedVersions
  let incremental := embeddedMigrations.filter (fun m => baseBootstrapMaxVersion < m.version)
  let newly ← incremental.foldlM (fun newly m => do
    if applied.contains m.version then
      return newly
    bootstrap (.batchExecute "migration" m)
    bootstrap (.recordVersion m.version)
    return newly + 1) (if needsBase then 1 else 0)
  bootstrap .commit
  return newly

/-- The answer and what is committed, where `fails` says which call the environment fails. -/
def runMigrations (fails : Nat → Option String) (committed : Catalog) :
    Except BootstrapError Nat × Catalog :=
  match Program.run (Program.interrupted bootstrapServer (fun n => (fails n).map .environment))
    migrate (committed, 0) with
  | .ok (newly, after) => (.ok newly, after.1)
  | .error e => (.error e, committed)

/-- `CREATE EXTENSION pg_raggraph`: the same scripts in the order of their `requires`, in the schema
of the control file. -/
def createExtension (committed : Catalog) : Except String Catalog :=
  if committed.extensions.contains "pg_raggraph" then
    .error "extension \"pg_raggraph\" already exists"
  else
    (embeddedMigrations.foldlM (fun c (m : Migration) => m.batch c)
      { committed with schema := true }).map
      (fun after => { after with extensions := after.extensions ++ ["pg_raggraph"] })

def freshDatabase (others : List String) : Catalog :=
  { extensions := "vector" :: "pg_trgm" :: others }

inductive Produced : Catalog → Prop where
  | fresh (others : List String) (absent : "pg_raggraph" ∉ others) :
      Produced (freshDatabase others)
  | installed {c after : Catalog} (before : Produced c) (installs : createExtension c = .ok after) :
      Produced after
  | migrated {c : Catalog} (before : Produced c) (fails : Nat → Option String) :
      Produced (runMigrations fails c).2

section Runs

def populated (c : Catalog) : Catalog :=
  { c with
    schema := true
    tables := ["namespaces", "documents", "chunks", "entities", "relationships", "chunk_entities",
      "ingest_jobs", "providers", "migrations"]
    indexes := indexes002.sql.filterMap (fun
      | .createIndex name _ => some name
      | _ => none)
    checks := ["ingest_jobs_status_check"]
    functions := ["_maybe_apply_parity_indexes"]
    namespaces := ["default"]
    effects := [0, 1, 2, 3, 4, 5] }

def installedDatabase (others : List String) : Catalog :=
  { populated (freshDatabase others) with
    extensions := "vector" :: "pg_trgm" :: others ++ ["pg_raggraph"]
    migrations := [1] }

def migratedDatabase (others : List String) : Catalog :=
  { populated (freshDatabase others) with migrations := [1, 4, 5] }

theorem fresh_migrates (others : List String) :
    Program.run bootstrapServer migrate (freshDatabase others) =
      .ok (3, migratedDatabase others) := by
  rfl

theorem migrated_migrates (others : List String) :
    Program.run bootstrapServer migrate (migratedDatabase others) =
      .ok (0, migratedDatabase others) := by
  rfl

/-- The version rows of `004` and `005` are missing, so both run a second time. -/
theorem installed_migrates (others : List String) :
    Program.run bootstrapServer migrate (installedDatabase others) =
      .error (.refused ("migration 005_status_check_atomicity: constraint " ++
        "\"ingest_jobs_status_check\" for relation \"ingest_jobs\" already exists")) := by
  rfl

theorem fresh_installs {others : List String} (absent : "pg_raggraph" ∉ others) :
    createExtension (freshDatabase others) = .ok (installedDatabase others) := by
  rw [createExtension, if_neg (by simp [freshDatabase, absent])]
  rfl

theorem installed_installs (others : List String) (after : Catalog) :
    createExtension (installedDatabase others) ≠ .ok after := by
  rw [createExtension, if_pos (by simp [installedDatabase])]
  exact fun same => by cases same

theorem migrated_installs {others : List String} (absent : "pg_raggraph" ∉ others)
    (after : Catalog) : createExtension (migratedDatabase others) ≠ .ok after := by
  rw [createExtension, if_neg (by simp [migratedDatabase, populated, freshDatabase, absent])]
  exact fun same => by cases same

theorem runMigrations_cases (fails : Nat → Option String) (c : Catalog) :
    (∃ k message, fails k = some message ∧
        runMigrations fails c = (.error (.environment message), c)) ∨
      runMigrations fails c =
        match Program.run bootstrapServer migrate c with
        | .ok (newly, after) => (.ok newly, after)
        | .error e => (.error e, c) := by
  rcases Program.run_interrupted bootstrapServer (fun n => (fails n).map BootstrapError.environment)
    migrate c 0 with ⟨k, failure, failed, cut⟩ | same
  · rcases Option.map_eq_some_iff.mp failed with ⟨message, said, rfl⟩
    exact .inl ⟨k, message, said, by rw [runMigrations, cut]⟩
  · right
    rw [runMigrations, ← same]
    cases Program.run (Program.interrupted bootstrapServer
      (fun n => (fails n).map BootstrapError.environment)) migrate (c, 0) with
    | ok ended => rfl
    | error e => rfl

theorem Produced.forms {c : Catalog} (produced : Produced c) :
    ∃ others, "pg_raggraph" ∉ others ∧
      (c = freshDatabase others ∨ c = installedDatabase others ∨ c = migratedDatabase others) := by
  induction produced with
  | fresh others absent => exact ⟨others, absent, .inl rfl⟩
  | installed before installs ih =>
      rcases ih with ⟨others, absent, rfl | rfl | rfl⟩
      · rw [fresh_installs absent] at installs
        cases installs
        exact ⟨others, absent, .inr (.inl rfl)⟩
      · exact absurd installs (installed_installs others _)
      · exact absurd installs (migrated_installs absent _)
  | migrated before fails ih =>
      rcases ih with ⟨others, absent, form⟩
      refine ⟨others, absent, ?_⟩
      rcases runMigrations_cases fails _ with ⟨k, message, -, cut⟩ | calm
      · rw [cut]
        exact form
      · rw [calm]
        rcases form with rfl | rfl | rfl
        · rw [fresh_migrates]
          exact .inr (.inr rfl)
        · rw [installed_migrates]
          exact .inr (.inl rfl)
        · rw [migrated_migrates]
          exact .inr (.inr rfl)

end Runs

/-- Up to date: 4 and 5 are recorded, each script that may run once has run once, and a further call
changes nothing. -/
structure UpToDate (c : Catalog) : Prop where
  recorded : 4 ∈ c.migrations ∧ 5 ∈ c.migrations
  once : ∀ version ∈ [0, 1, 2, 3, 5], c.effects.count version = 1
  settled : ∀ fails, (∃ k message, fails k = some message ∧
      runMigrations fails c = (.error (.environment message), c)) ∨
    runMigrations fails c = (.ok 0, c)

/-- Whatever the environment does, a call fails for it and leaves the database as it was, or it
brings the database up to date. -/
def Converges (c : Catalog) : Prop :=
  (∀ fails, (∃ k message, fails k = some message ∧
      runMigrations fails c = (.error (.environment message), c)) ∨
    ∃ newly after, runMigrations fails c = (.ok newly, after) ∧ UpToDate after) ∧
  ∃ newly after, runMigrations (fun _ => none) c = (.ok newly, after)

section Convergence

variable {c : Catalog}

theorem calm_migrates : runMigrations (fun _ => none) c =
    match Program.run bootstrapServer migrate c with
    | .ok (newly, after) => (.ok newly, after)
    | .error e => (.error e, c) := by
  rcases runMigrations_cases (fun _ => none) c with ⟨k, message, failed, -⟩ | calm
  · cases failed
  · exact calm

theorem migrated_upToDate (others : List String) : UpToDate (migratedDatabase others) where
  recorded := by
    refine ⟨?_, ?_⟩
    · exact List.mem_cons_of_mem _ List.mem_cons_self
    · exact List.mem_cons_of_mem _ (List.mem_cons_of_mem _ List.mem_cons_self)
  once := by
    rw [show (migratedDatabase others).effects = [0, 1, 2, 3, 4, 5] from rfl]
    decide
  settled := by
    intro fails
    have ended := runMigrations_cases fails (migratedDatabase others)
    rw [migrated_migrates] at ended
    exact ended

theorem converges_of_run {newly : Nat} {others : List String}
    (runs : Program.run bootstrapServer migrate c = .ok (newly, migratedDatabase others)) :
    Converges c := by
  constructor
  · intro fails
    rcases runMigrations_cases fails c with cut | calm
    · exact .inl cut
    · rw [runs] at calm
      exact .inr ⟨newly, _, calm, migrated_upToDate others⟩
  · exact ⟨newly, _, by rw [calm_migrates, runs]⟩

/-- The bootstrap converges from a produced state exactly where the extension is not installed. -/
theorem bootstrap_converges_iff (produced : Produced c) :
    Converges c ↔ "pg_raggraph" ∉ c.extensions := by
  rcases produced.forms with ⟨others, absent, rfl | rfl | rfl⟩
  · refine iff_of_true (converges_of_run (fresh_migrates others)) ?_
    simp [freshDatabase, absent]
  · refine iff_of_false ?_ ?_
    · rintro ⟨-, newly, after, returned⟩
      rw [calm_migrates, installed_migrates] at returned
      cases returned
    · simp [installedDatabase]
  · refine iff_of_true (converges_of_run (migrated_migrates others)) ?_
    simp [migratedDatabase, populated, freshDatabase, absent]

theorem bootstrap_converges_fresh : Converges (freshDatabase []) :=
  (bootstrap_converges_iff (.fresh [] (by decide))).mpr (by decide)

/-- After an installation of the extension every call fails, though nothing in its environment
does. -/
theorem installed_fails : Produced (installedDatabase []) ∧
    runMigrations (fun _ => none) (installedDatabase []) =
      (.error (.refused ("migration 005_status_check_atomicity: constraint " ++
        "\"ingest_jobs_status_check\" for relation \"ingest_jobs\" already exists")),
      installedDatabase []) := by
  have absent : "pg_raggraph" ∉ ([] : List String) := List.not_mem_nil
  refine ⟨.installed (.fresh [] absent) (fresh_installs absent), ?_⟩
  rw [calm_migrates, installed_migrates]

end Convergence

end PgRaggraph
