import PgRaggraph.Core.Embedding
import PgRaggraph.Core.RunRules
import PgRaggraph.Core.Samples
import PgRaggraph.Sidecar.Bootstrap

/-! The dimension of the vector columns beside the dimension of the sidecar's vectors. -/

namespace PgRaggraph

open Interaction Interaction.Fallible

variable {R : Type}

structure VectorColumn where
  table : String
  column : String
  dim : Nat
  deriving DecidableEq, Repr

/-- `pg_raggraph.embed_dim` of the server, which no statement of the sidecar sets. Beyond these bounds
pgvector refuses the columns or their HNSW indexes, and the bootstrap fails. -/
structure ServerSetting where
  value : Option Nat
  admitted : ∀ dim ∈ value, 1 ≤ dim ∧ dim ≤ 2000

def ServerSetting.unset : ServerSetting := ⟨none, nofun⟩

/-- The variable `embed_dim` of `001_tables.sql`. -/
def ServerSetting.embedDim (setting : ServerSetting) : Nat := setting.value.getD 384

def Statement.vectorColumns (embedDim : Nat) : Statement → List VectorColumn
  | .createTable name _ =>
      if name = "chunks" then [⟨name, "embedding", embedDim⟩]
      else if name = "entities" then [⟨name, "name_emb", embedDim⟩]
      else []
  | _ => []

def Catalog.vectorColumns (setting : ServerSetting) (c : Catalog) : List VectorColumn :=
  c.effects.flatMap (fun version =>
    (embeddedMigrations.filter (fun m => m.version = version)).flatMap (fun m =>
      m.sql.flatMap (Statement.vectorColumns setting.embedDim)))

/-- `build_embedder`: `usize::try_from(embed_dim).unwrap_or(384)`. -/
def buildEmbedder (embedDim : Int) : DeterministicEmbedder where
  dim := if 0 ≤ embedDim then embedDim.toNat else 384

def VectorColumn.store (column : VectorColumn) (v : List R) : Except String Unit :=
  if v.length = column.dim then .ok ()
  else .error s!"expected {column.dim} dimensions, not {v.length}"

def cosineDistance (a b : List R) : Except String Unit :=
  if a.length = b.length then .ok ()
  else .error s!"different vector dimensions {a.length} and {b.length}"

section Job

variable [F32 R]

def Fitting (columns : List VectorColumn) : Call R → Unit → Prop
  | .client (.insertChunk chunk), _ =>
      ∀ column ∈ columns, column.table = "chunks" → column.store chunk.embedding = .ok ()
  | .client (.insertEntity row), _ =>
      ∀ column ∈ columns, column.table = "entities" → ∀ v ∈ row.nameEmb, column.store v = .ok ()
  | _, _ => True

def EmbeddedBy (hashing : Hashing R) (embedder : DeterministicEmbedder) :
    (request : Call R) → Unit → request.Answer → Unit → Prop
  | .env (.embedBatch texts), _, answer, _ => answer = embedder.embedBatch hashing texts
  | _, _, _, _ => True

/-- Every vector of the embedder has the dimension of the columns, every job inserts only such
vectors, and a question can be compared with every stored vector. -/
structure WellDimensioned (hashing : Hashing R) (rt : Runtime) (columns : List VectorColumn)
    (embedder : DeterministicEmbedder) : Prop where
  produced : ∀ text, ∀ column ∈ columns,
    (deterministicEmbed hashing text embedder.dim).length = column.dim
  stored : ∀ req, Program.wp (Spec.discipline (Fitting columns) (EmbeddedBy hashing embedder))
    (runJob (R := R) rt req).run () (fun _ _ => True)
  asked : ∀ q, ∀ column ∈ columns, ∀ v : List R, column.store v = .ok () →
    cosineDistance v (deterministicEmbed hashing q embedder.dim) = .ok ()

end Job

section Columns

theorem fresh_columns (others : List String) (setting : ServerSetting) :
    (runMigrations (fun _ => none) (freshDatabase others)).2.vectorColumns setting =
      [⟨"chunks", "embedding", setting.embedDim⟩, ⟨"entities", "name_emb", setting.embedDim⟩] := by
  rw [calm_migrates, fresh_migrates]
  rfl

theorem store_iff (column : VectorColumn) (v : List R) :
    column.store v = .ok () ↔ v.length = column.dim := by
  rw [VectorColumn.store]
  split
  · exact iff_of_true rfl ‹_›
  · exact iff_of_false nofun ‹_›

theorem cosineDistance_iff (a b : List R) : cosineDistance a b = .ok () ↔ a.length = b.length := by
  rw [cosineDistance]
  split
  · exact iff_of_true rfl ‹_›
  · exact iff_of_false nofun ‹_›

end Columns

section Jobs

variable [F32 R] {hashing : Hashing R} {rt : Runtime} {columns : List VectorColumn}
  {embedder : DeterministicEmbedder}

abbrev jobSpec (hashing : Hashing R) (columns : List VectorColumn)
    (embedder : DeterministicEmbedder) : Spec (Ingest R) Unit :=
  Spec.discipline (Fitting columns) (EmbeddedBy hashing embedder)

theorem jobSpec_monotone : (jobSpec hashing columns embedder).Monotone :=
  Spec.discipline_monotone _ _

theorem settled_always {α : Type} {after : Unit} (result : CoreResult α) :
    Settles (fun _ _ => True) (fun _ _ => True) result after := by
  cases result <;> trivial

variable (fits : ∀ column ∈ columns, embedder.dim = column.dim)

include fits

theorem stored_fitting {column : VectorColumn} (member : column ∈ columns) (text : String) :
    column.store (deterministicEmbed hashing text embedder.dim) = .ok () := by
  rw [store_iff, deterministicEmbed_length]
  exact fits column member

theorem resolve_fitting (ns name : String) (kind description : Option String) (text : String) :
    Program.wp (jobSpec hashing columns embedder) (resolveOrInsertEntity ns name kind
        (deterministicEmbed hashing text embedder.dim) description).run ()
      (Settles (fun _ _ => True) (fun _ _ => True)) := by
  rw [resolveOrInsertEntity, Fallible.wp_bind, wp_fuzzyMatchEntity]
  refine ⟨trivial, ?_⟩
  rintro (e | cands) ⟨⟩ -
  · trivial
  dsimp only
  split
  · trivial
  rw [Fallible.wp_bind, wp_lift, wp_newUuid]
  refine ⟨trivial, ?_⟩
  rintro id ⟨⟩ -
  dsimp only
  rw [Fallible.wp_bind, wp_insertEntity]
  refine ⟨?_, ?_⟩
  · intro column member _ v same
    cases same
    exact stored_fitting fits member text
  · rintro (e | _) ⟨⟩ -
    · trivial
    · trivial

theorem entity_fitting (ns : String) (chunkId : Uuid) (names : List (String × Uuid))
    (ent : ExtractedEntity R) :
    Program.wp (jobSpec hashing columns embedder) (persistEntity ns chunkId names ent).run ()
      (Settles (fun _ _ => True) (fun _ _ => True)) := by
  rw [persistEntity, Fallible.wp_bind, wp_embedBatch]
  refine ⟨trivial, ?_⟩
  rintro answer ⟨⟩ answered
  have vectors : answer = .ok [deterministicEmbed hashing ent.name embedder.dim] :=
    answered.trans (embedBatch_eq embedder [ent.name])
  rw [vectors]
  refine wp_seq jobSpec_monotone
    (resolve_fitting fits ns ent.name ent.kind ent.description ent.name) ?_ (fun _ _ _ => trivial)
  rintro entityId ⟨⟩ -
  rw [Fallible.wp_bind, wp_insertChunkEntity]
  refine ⟨trivial, ?_⟩
  rintro (e | _) ⟨⟩ -
  · trivial
  · trivial

omit fits in
theorem relationship_fitting (ns : String) (names : List (String × Uuid))
    (rel : ExtractedRelationship R) :
    Program.wp (jobSpec hashing columns embedder) (persistRelationship ns names () rel).run ()
      (Settles (fun _ _ => True) (fun _ _ => True)) := by
  rw [persistRelationship]
  split
  · rw [Fallible.wp_bind, wp_lift, wp_newUuid]
    refine ⟨trivial, ?_⟩
    rintro id ⟨⟩ -
    exact ⟨trivial, fun result after _ => settled_always result⟩
  · trivial

theorem extraction_fitting (ns : String) (chunkId : Uuid) (text : String) :
    Program.wp (jobSpec hashing columns embedder) (persistChunkExtraction ns chunkId text).run ()
      (Settles (fun _ _ => True) (fun _ _ => True)) := by
  rw [persistChunkExtraction, Fallible.wp_bind, wp_extract]
  refine ⟨trivial, ?_⟩
  rintro (e | extraction) ⟨⟩ -
  · trivial
  refine wp_seq jobSpec_monotone (wp_foldlM jobSpec_monotone (fun _ _ _ => True)
    (fun ent _ names _ _ => entity_fitting fits ns chunkId names ent) _ [] () trivial) ?_
    (fun _ _ _ => trivial)
  rintro names ⟨⟩ -
  exact wp_foldlM jobSpec_monotone (fun _ _ _ => True)
    (fun rel _ _ _ _ => relationship_fitting ns names rel) _ () () trivial

def Embeds (hashing : Hashing R) (embedder : DeterministicEmbedder) (v : List R) : Prop :=
  ∃ text, v = deterministicEmbed hashing text embedder.dim

theorem persistence_fitting (docId : Uuid) (ns : String) :
    PersistRule (jobSpec hashing columns embedder) docId ns
      (fun rest _ => ∀ item ∈ rest, Embeds hashing embedder item.1.2)
      (fun _ rest _ => ∀ item ∈ rest, Embeds hashing embedder item.1.2) (fun _ _ => True) where
  monotone := jobSpec_monotone
  stored := by
    rintro item rest ⟨⟩ embeds
    refine ⟨?_, ?_⟩
    · intro column member _
      rcases embeds item List.mem_cons_self with ⟨text, embedded⟩
      rw [chunkRow, embedded]
      exact stored_fitting fits member text
    · rintro (e | _) ⟨⟩ -
      · trivial
      · exact fun other later => embeds other (List.mem_cons_of_mem _ later)
  extracted := by
    rintro item rest ⟨⟩ embeds
    refine Program.wp_mono jobSpec_monotone _ _ ?_ (extraction_fitting fits ns item.2 item.1.1.text)
    exact Settles.mono (fun _ _ _ => embeds) (fun _ _ stop => stop)

omit fits in
theorem preparation_fitting (req : IngestRequest) :
    PreparationRule (jobSpec hashing columns embedder) rt req (fun _ => True) (fun _ _ _ => True)
      (fun _ _ _ => True) (fun _ _ _ embeddings _ _ => ∀ v ∈ embeddings, Embeds hashing embedder v)
      (fun _ _ => True) where
  monotone := jobSpec_monotone
  read := by
    intro path state _ _
    refine ⟨trivial, ?_⟩
    rintro (e | bytes) after -
    · trivial
    · trivial
  carried := fun _ _ _ _ _ => trivial
  checked := by
    intro sourceName bytes state _
    refine ⟨trivial, ?_⟩
    rintro (e | found) after -
    · trivial
    · cases found <;> trivial
  unchunked := fun _ _ _ _ _ _ => trivial
  embedded := by
    intro sourceName bytes chunks state _ _
    refine ⟨trivial, ?_⟩
    intro answer after answered
    have vectors : answer = .ok ((chunks.map (·.text)).map (fun text =>
        deterministicEmbed hashing text embedder.dim)) :=
      answered.trans (embedBatch_eq embedder _)
    rw [vectors, Settles]
    split
    · trivial
    · intro v member
      rcases List.mem_map.mp member with ⟨text, -, rfl⟩
      exact ⟨text, rfl⟩
  minted := fun _ _ _ _ _ _ embeds => ⟨trivial, fun _ _ _ => embeds⟩

theorem job_fitting (req : IngestRequest) :
    Program.wp (jobSpec hashing columns embedder) (runJob (R := R) rt req).run ()
      (fun _ _ => True) := by
  refine wp_runJob (preparation_fitting req) () trivial ?_
  rintro doc bytes chunks embeddings chunkIds ⟨⟩ ready embeds
  refine Program.wp_mono jobSpec_monotone _ _ ?_
    (wp_persistDocument doc (persistence_fitting fits doc.id doc.ns) chunks embeddings chunkIds ()
      ⟨trivial, ?_⟩)
  · rintro (e | n) ⟨⟩ -
    · rw [finishJob, Fallible.wp_bind, wp_lift, wp_rollback]
      exact ⟨trivial, fun _ _ _ => trivial⟩
    · rw [finishJob, Fallible.wp_bind, wp_commit]
      refine ⟨trivial, ?_⟩
      rintro (e | _) ⟨⟩ -
      · trivial
      · trivial
  · rintro (e | _) ⟨⟩ -
    · trivial
    · intro item member
      exact embeds _ (List.of_mem_zip (List.of_mem_zip member).1).2

end Jobs

section Sidecar

variable [F32 R]

theorem wellDimensioned_iff (hashing : Hashing R) (rt : Runtime) {columns : List VectorColumn}
    (embedder : DeterministicEmbedder) :
    WellDimensioned hashing rt columns embedder ↔
      ∀ column ∈ columns, embedder.dim = column.dim := by
  constructor
  · intro dimensioned column member
    rw [← dimensioned.produced "" column member, deterministicEmbed_length]
  · intro fits
    refine ⟨?_, ?_, ?_⟩
    · intro text column member
      rw [deterministicEmbed_length]
      exact fits column member
    · exact job_fitting fits
    · intro q column member v stored
      rw [cosineDistance_iff, deterministicEmbed_length, fits column member]
      exact (store_iff column v).mp stored

/-- On a fresh database the sidecar's vectors fit its columns exactly where its flag is the setting
of the server, which is 384 unless somebody has set it there. -/
theorem sidecar_dimensions_iff (hashing : Hashing R) (rt : Runtime) (others : List String)
    (setting : ServerSetting) (embedDim : Int) (range : 64 ≤ embedDim ∧ embedDim ≤ 4096) :
    WellDimensioned hashing rt
        ((runMigrations (fun _ => none) (freshDatabase others)).2.vectorColumns setting)
        (buildEmbedder embedDim) ↔
      embedDim = setting.embedDim := by
  have dim : (buildEmbedder embedDim).dim = embedDim.toNat := if_pos (by omega)
  rw [wellDimensioned_iff, fresh_columns, List.forall_mem_cons, List.forall_mem_singleton, dim]
  constructor
  · rintro ⟨fits, -⟩
    have same : embedDim.toNat = setting.embedDim := fits
    omega
  · intro same
    have fits : embedDim.toNat = setting.embedDim := by omega
    exact ⟨fits, fits⟩

end Sidecar

def zeroHashing : Hashing Milli where
  sha256 _ := Vector.replicate 32 0
  sub a b := ⟨a.value - b.value⟩
  floor := ⟨0⟩

theorem default_dimensions_fit : WellDimensioned zeroHashing Runtime.plain
    ((runMigrations (fun _ => none) (freshDatabase [])).2.vectorColumns .unset)
    (buildEmbedder 384) :=
  (sidecar_dimensions_iff zeroHashing Runtime.plain [] .unset 384 (by decide)).mpr rfl

/-- With `PGRG_EMBED_DIM=768` the columns still have 384 dimensions. -/
theorem configured_dimension_ignored : ¬ WellDimensioned zeroHashing Runtime.plain
    ((runMigrations (fun _ => none) (freshDatabase [])).2.vectorColumns .unset)
    (buildEmbedder 768) := by
  intro dimensioned
  rw [fresh_columns] at dimensioned
  have length := dimensioned.produced "" _ List.mem_cons_self
  rw [deterministicEmbed_length] at length
  exact absurd length (by decide)

end PgRaggraph
