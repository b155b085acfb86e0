import PgRaggraph.Core.Fixture
import PgRaggraph.Retrieval.Reachable

/-! `pgrg.ingest_extracted`: the fixture loader, and what a second load of the same file does. -/

namespace PgRaggraph

variable {N R : Type}

/-- The tables with the columns that only the loader writes: `metadata` of `pgrg.documents` and
`classification` of `pgrg.chunk_entities`, by primary key. -/
structure Archive (N R : Type) extends Stored R (Json N) where
  documentMetadata : Uuid → Json N
  classification : Uuid → Uuid → String

namespace Fixture

def Document.row (ns : String) (d : Document N) : DocRow :=
  { id := d.id, ns := ns, source := d.source, contentHash := d.contentHash, title := d.title }

def Chunk.row (ns : String) (c : Chunk N R) : ChunkRow R :=
  { id := c.id, documentId := c.documentId, ns := ns, ord := c.ord, text := c.text,
    tokenCount := c.tokenCount, embedding := c.embedding }

def Entity.row (ns : String) (e : Entity R) : EntityRow R :=
  { id := e.id, ns := ns, name := e.name, kind := e.kindLabel, nameEmb := some e.nameEmb,
    description := e.description }

def Relationship.row (ns : String) (r : Relationship R) : RelRow R :=
  { id := r.id, ns := ns, srcId := r.srcId, dstId := r.dstId, kind := r.kind, weight := r.weight,
    description := none }

def ChunkEntity.row (ce : ChunkEntity R) : ChunkEntityRow R :=
  { chunkId := ce.chunkId, entityId := ce.entityId, confidence := ce.confidence }

def Record.insert (ns : String) (tables : Tables R) : Record N R → Except PgError (Unit × Tables R)
  | .document d => insertDocumentInto tables (d.row ns)
  | .chunk c => insertChunkInto tables (c.row ns)
  | .entity e => insertEntityInto tables (e.row ns)
  | .relationship r => insertRelationshipInto tables (r.row ns)
  | .chunkEntity ce => insertChunkEntityInto tables ce.row

def Record.columns (a : Archive N R) : Record N R → Archive N R
  | .document d =>
      { a with documentMetadata := fun id => if id = d.id then d.metadata else a.documentMetadata id }
  | .chunk c => { a with metadata := fun id => if id = c.id then c.metadata else a.metadata id }
  | .entity _ => a
  | .relationship _ => a
  | .chunkEntity ce =>
      { a with
        classification := fun chunkId entityId =>
          if chunkId = ce.chunkId ∧ entityId = ce.entityId then ce.classification
          else a.classification chunkId entityId }

end Fixture

def Tables.size (tables : Tables R) : Nat :=
  tables.documents.length + tables.chunks.length + tables.entities.length +
    tables.relationships.length + tables.chunkEntities.length

def Archive.grown (a : Archive N R) (record : Fixture.Record N R) (outcome : Unit × Tables R) :
    Archive N R :=
  if outcome.2.size = 0 then a
  else record.columns { a with tables := a.tables ++ outcome.2 }

inductive LoadError where
  | io (message : String)
  | invalidTextRepresentation (message : String)
  | statement (e : PgError)
  deriving DecidableEq, Repr

abbrev FixtureFile := Except String (List (Except String String))

namespace Extension

section Load

variable [NatCast R] (serde : Serde N R) (refuses : Fixture.Record N R → Option String) (ns : String)

/-- `refuses` is what PostgreSQL says of the values of a record: a vector of another dimension, a
NUL byte. -/
def loadRecord (a : Archive N R) (record : Fixture.Record N R) : Except PgError (Archive N R) :=
  match refuses record with
  | some message => .error (.dataException message)
  | none => (record.insert ns a.tables).map (a.grown record)

def readRecord (line : Except String String × Nat) :
    Except LoadError (Option (Fixture.Record N R)) :=
  match line.1 with
  | .error e => .error (.io s!"ingest_extracted: read line {line.2}: {e}")
  | .ok text =>
      if (trim isWhiteSpace text).isEmpty then .ok none
      else
        match Fixture.parseJsonlLine serde text with
        | .error e => .error (.invalidTextRepresentation
            s!"ingest_extracted: parse line {line.2}: {e.display}")
        | .ok record => .ok (some record)

def loadLine (loaded : Archive N R × Nat) (line : Except String String × Nat) :
    Except LoadError (Archive N R × Nat) :=
  match readRecord serde line with
  | .error e => .error e
  | .ok none => .ok loaded
  | .ok (some record) =>
      match loadRecord refuses ns loaded.1 record with
      | .error e => .error (.statement e)
      | .ok a => .ok (a, loaded.2 + 1)

def ingestExtracted (files : String → FixtureFile) (path : String) (a : Archive N R) :
    Except LoadError (Archive N R × Nat) :=
  match files path with
  | .error e => .error (.io s!"ingest_extracted: cannot open {path}: {e}")
  | .ok lines => lines.zipIdx.foldlM (loadLine serde refuses ns) (a, 0)

end Load

/-- What is committed of a call: PostgreSQL aborts the transaction on ERROR. -/
def committed (a : Archive N R) (result : Except LoadError (Archive N R × Nat)) : Archive N R :=
  match result with
  | .ok (loaded, _) => loaded
  | .error _ => a

end Extension

namespace Fixture

def Record.settled (ns : String) (tables : Tables R) : Record N R → Bool
  | .document d => tables.documents.any (fun row => row.contentHash = d.contentHash)
  | .chunk c => tables.chunks.any (fun row => row.documentId = c.documentId ∧ row.ord = c.ord)
  | .entity e => tables.entities.any
      (fun row => row.ns = ns ∧ row.name = e.name ∧ row.kind = e.kindLabel ∧ e.kindLabel.isSome)
  | .relationship r => tables.relationships.any
      (fun row => row.ns = ns ∧ row.srcId = r.srcId ∧ row.dstId = r.dstId ∧ row.kind = r.kind)
  | .chunkEntity ce => tables.chunkEntities.any
      (fun row => row.chunkId = ce.chunkId ∧ row.entityId = ce.entityId)

def Record.unlabelled : Record N R → Bool
  | .entity e => e.kindLabel.isNone
  | _ => false

theorem any_grown {α : Type} {p : α → Bool} {rows more : List α} (met : rows.any p = true) :
    (rows ++ more).any p = true := by
  rw [List.any_append, met, Bool.true_or]

theorem insertInto_settles (settled : Tables R → Bool) {labelled : Prop} {tables row : Tables R}
    {duplicateKey : Bool × Constraint} {references : List (Bool × Constraint)}
    {outcome : Unit × Tables R} (single : row.size = 1)
    (settles : labelled → settled (tables ++ row) = true)
    (inserts : insertInto (settled tables) duplicateKey references row = .ok outcome) :
    (settled tables = true ∧ outcome.2 = {}) ∨
      (settled tables = false ∧ outcome.2.size = 1 ∧
        (labelled → settled (tables ++ outcome.2) = true)) := by
  rcases insertInto_added inserts with ⟨met, dropped⟩ | ⟨unmet, -, -, stored⟩
  · exact .inl ⟨met, dropped⟩
  · rw [stored]
    exact .inr ⟨unmet, single, settles⟩

theorem Record.inserted {ns : String} {tables : Tables R} {record : Record N R}
    {outcome : Unit × Tables R} (inserts : record.insert ns tables = .ok outcome) :
    (record.settled ns tables = true ∧ outcome.2 = {}) ∨
      (record.settled ns tables = false ∧ outcome.2.size = 1 ∧
        (record.unlabelled = false → record.settled ns (tables ++ outcome.2) = true)) := by
  cases record with
  | document d =>
      exact insertInto_settles (fun t => Record.settled ns t (.document d)) rfl
        (fun _ => by simp [Record.settled, Document.row]) inserts
  | chunk c =>
      exact insertInto_settles (fun t => Record.settled ns t (.chunk c)) rfl
        (fun _ => by simp [Record.settled, Chunk.row]) inserts
  | entity e =>
      rw [Record.insert, insertEntityInto] at inserts
      apply insertInto_settles (fun t => Record.settled ns t (.entity e)) rfl _ inserts
      intro labelled
      rw [Record.unlabelled, Option.isNone_eq_false_iff] at labelled
      simp [Record.settled, Entity.row, labelled]
  | relationship r =>
      exact insertInto_settles (fun t => Record.settled ns t (.relationship r)) rfl
        (fun _ => by simp [Record.settled, Relationship.row]) inserts
  | chunkEntity ce =>
      exact insertInto_settles (fun t => Record.settled ns t (.chunkEntity ce)) rfl
        (fun _ => by simp [Record.settled, ChunkEntity.row]) inserts

theorem Record.settled_grown {ns : String} {tables : Tables R} {record : Record N R}
    (settled : record.settled ns tables = true) (delta : Tables R) :
    record.settled ns (tables ++ delta) = true := by
  cases record with
  | document d => exact any_grown settled
  | chunk c => exact any_grown settled
  | entity e => exact any_grown settled
  | relationship r => exact any_grown settled
  | chunkEntity ce => exact any_grown settled

theorem Record.insert_settled {ns : String} {tables : Tables R} {record : Record N R}
    (settled : record.settled ns tables = true) : record.insert ns tables = .ok ((), {}) := by
  cases record with
  | document d => exact if_pos settled
  | chunk c => exact if_pos settled
  | entity e => exact if_pos settled
  | relationship r => exact if_pos settled
  | chunkEntity ce => exact if_pos settled

theorem Record.unlabelled_inserted {ns : String} {tables : Tables R} {e : Entity R}
    {outcome : Unit × Tables R} (unlabelled : e.kindLabel = none)
    (inserts : (Record.entity e : Record N R).insert ns tables = .ok outcome) :
    (∀ row ∈ tables.entities, row.id ≠ e.id) ∧ ∃ row ∈ outcome.2.entities, row.id = e.id := by
  rw [Record.insert, insertEntityInto] at inserts
  rcases insertInto_added inserts with ⟨met, -⟩ | ⟨-, distinct, -, stored⟩
  · rw [List.any_eq_true] at met
    rcases met with ⟨row, -, same⟩
    rw [decide_eq_true_iff, Entity.row, unlabelled] at same
    exact absurd same.2.2.2 Bool.false_ne_true
  · rw [List.any_eq_false] at distinct
    rw [stored]
    refine ⟨?_, e.row ns, List.mem_singleton.mpr rfl, rfl⟩
    intro row member same
    exact distinct row member (decide_eq_true same)

theorem Record.columns_tables (a : Archive N R) (record : Record N R) :
    (record.columns a).tables = a.tables := by
  cases record <;> rfl

end Fixture

namespace Extension

section Reload

variable {refuses : Fixture.Record N R → Option String} {ns : String} {a b : Archive N R}
  {record : Fixture.Record N R}

theorem loadRecord_ok (loads : loadRecord refuses ns a record = .ok b) :
    refuses record = none ∧ ∃ outcome, record.insert ns a.tables = .ok outcome ∧
      b = a.grown record outcome := by
  rw [loadRecord] at loads
  cases refused : refuses record with
  | some message =>
      rw [refused] at loads
      cases loads
  | none =>
      rw [refused] at loads
      rcases map_ok loads with ⟨outcome, inserts, same⟩
      exact ⟨rfl, outcome, inserts, same.symm⟩

theorem grown_tables {outcome : Unit × Tables R}
    (inserts : record.insert ns a.tables = .ok outcome) :
    (a.grown record outcome).tables = a.tables ++ outcome.2 := by
  rw [Archive.grown]
  rcases record.inserted inserts with ⟨-, dropped⟩ | ⟨-, single, -⟩
  · rw [dropped, if_pos (by rfl), Tables.append_empty]
  · rw [if_neg (by rw [single]; decide), Fixture.Record.columns_tables]

theorem loadRecord_settled (accepted : refuses record = none)
    (settled : record.settled ns a.tables = true) : loadRecord refuses ns a record = .ok a := by
  rw [loadRecord, accepted]
  dsimp only
  rw [record.insert_settled settled]
  rfl

structure Kept (refuses : Fixture.Record N R → Option String) (ns : String) (tables : Tables R)
    (record : Fixture.Record N R) : Prop where
  accepted : refuses record = none
  settled : record.unlabelled = false → record.settled ns tables = true
  taken : ∀ e, record = .entity e → e.kindLabel = none → ∃ row ∈ tables.entities, row.id = e.id

theorem Kept.grow {tables : Tables R} (kept : Kept refuses ns tables record) (delta : Tables R) :
    Kept refuses ns (tables ++ delta) record where
  accepted := kept.accepted
  settled := by
    intro labelled
    exact Fixture.Record.settled_grown (kept.settled labelled) delta
  taken := by
    intro e same unlabelled
    rcases kept.taken e same unlabelled with ⟨row, member, id⟩
    exact ⟨row, List.mem_append_left _ member, id⟩

theorem loadRecord_kept (loads : loadRecord refuses ns a record = .ok b) :
    (∃ delta, b.tables = a.tables ++ delta) ∧ Kept refuses ns b.tables record ∧
      ∀ e, record = .entity e → e.kindLabel = none → ∀ row ∈ a.tables.entities, row.id ≠ e.id := by
  rcases loadRecord_ok loads with ⟨accepted, outcome, inserts, rfl⟩
  rw [grown_tables inserts]
  refine ⟨⟨outcome.2, rfl⟩, ⟨accepted, ?_, ?_⟩, ?_⟩
  · intro labelled
    rcases record.inserted inserts with ⟨met, -⟩ | ⟨-, -, settles⟩
    · exact Fixture.Record.settled_grown met _
    · exact settles labelled
  · rintro e rfl unlabelled
    rcases Fixture.Record.unlabelled_inserted unlabelled inserts with ⟨-, row, member, id⟩
    exact ⟨row, List.mem_append_right _ member, id⟩
  · rintro e rfl unlabelled
    exact (Fixture.Record.unlabelled_inserted unlabelled inserts).1

end Reload

section Lines

variable [NatCast R] {serde : Serde N R} {refuses : Fixture.Record N R → Option String}
  {ns : String} {a b : Archive N R} {n m : Nat} {line : Except String String × Nat}
  {lines : List (Except String String × Nat)}

def LinesKept (serde : Serde N R) (refuses : Fixture.Record N R → Option String) (ns : String)
    (tables : Tables R) (lines : List (Except String String × Nat)) : Prop :=
  ∀ line ∈ lines, ∃ found, readRecord serde line = .ok found ∧
    ∀ record, found = some record → Kept refuses ns tables record

def Labelled (serde : Serde N R) (lines : List (Except String String × Nat)) : Prop :=
  ∀ line ∈ lines, ∀ e, readRecord serde line = .ok (some (.entity e)) → e.kindLabel ≠ none

theorem loadLine_ok (loads : loadLine serde refuses ns (a, n) line = .ok (b, m)) :
    (readRecord serde line = .ok none ∧ b = a) ∨
      ∃ record, readRecord serde line = .ok (some record) ∧
        loadRecord refuses ns a record = .ok b := by
  rw [loadLine] at loads
  cases read : readRecord serde line with
  | error e =>
      rw [read] at loads
      cases loads
  | ok found =>
      rw [read] at loads
      cases found with
      | none =>
          cases loads
          exact .inl ⟨rfl, rfl⟩
      | some record =>
          dsimp only at loads
          cases loaded : loadRecord refuses ns a record with
          | error e =>
              rw [loaded] at loads
              cases loads
          | ok after =>
              rw [loaded] at loads
              cases loads
              exact .inr ⟨record, rfl, loaded⟩

theorem ingestExtracted_ok {files : String → FixtureFile} {path : String} {count : Nat}
    (loads : ingestExtracted serde refuses ns files path a = .ok (b, count)) :
    ∃ file, files path = .ok file ∧
      file.zipIdx.foldlM (loadLine serde refuses ns) (a, 0) = .ok (b, count) := by
  rw [ingestExtracted] at loads
  cases opened : files path with
  | error e =>
      rw [opened] at loads
      cases loads
  | ok file =>
      rw [opened] at loads
      exact ⟨file, rfl, loads⟩

theorem loads_kept (loads : lines.foldlM (loadLine serde refuses ns) (a, n) = .ok (b, m)) :
    (∃ delta, b.tables = a.tables ++ delta) ∧ LinesKept serde refuses ns b.tables lines ∧
      ∀ line ∈ lines, ∀ e, readRecord serde line = .ok (some (.entity e)) → e.kindLabel = none →
        ∀ row ∈ a.tables.entities, row.id ≠ e.id := by
  induction lines generalizing a n with
  | nil =>
      cases loads
      refine ⟨⟨{}, (Tables.append_empty _).symm⟩, ?_, ?_⟩
      · intro line member
        cases member
      · intro line member
        cases member
  | cons line lines ih =>
      rcases foldlM_cons_ok loads with ⟨⟨middle, k⟩, first, loads⟩
      rcases ih loads with ⟨⟨rest, grown⟩, kept, fresh⟩
      rcases loadLine_ok first with ⟨read, rfl⟩ | ⟨record, read, loaded⟩
      · refine ⟨⟨rest, grown⟩, ?_, ?_⟩
        · intro other member
          rcases List.mem_cons.mp member with rfl | later
          · exact ⟨none, read, fun record none_ => by cases none_⟩
          · exact kept other later
        · intro other member e found
          rcases List.mem_cons.mp member with rfl | later
          · rw [read] at found
            cases found
          · exact fresh other later e found
      · rcases loadRecord_kept loaded with ⟨⟨delta, own⟩, stays, clear⟩
        refine ⟨⟨delta ++ rest, by rw [grown, own, Tables.append_assoc]⟩, ?_, ?_⟩
        · intro other member
          rcases List.mem_cons.mp member with rfl | later
          · refine ⟨some record, read, ?_⟩
            intro same found
            cases found
            rw [grown]
            exact stays.grow rest
          · exact kept other later
        · intro other member e found unlabelled row stored
          rcases List.mem_cons.mp member with rfl | later
          · rw [read] at found
            cases found
            exact clear e rfl unlabelled row stored
          · refine fresh other later e found unlabelled row ?_
            rw [own]
            exact List.mem_append_left _ stored

theorem loads_again (kept : LinesKept serde refuses ns a.tables lines)
    (labelled : Labelled serde lines) :
    ∃ k, lines.foldlM (loadLine serde refuses ns) (a, n) = .ok (a, k) := by
  induction lines generalizing n with
  | nil => exact ⟨n, rfl⟩
  | cons line lines ih =>
      have later (k : Nat) := ih (n := k)
        (fun other member => kept other (List.mem_cons_of_mem _ member))
        (fun other member => labelled other (List.mem_cons_of_mem _ member))
      rw [List.foldlM_cons]
      rcases kept line List.mem_cons_self with ⟨found, read, stays⟩
      cases found with
      | none =>
          have stepped : loadLine serde refuses ns (a, n) line = .ok (a, n) := by
            rw [loadLine, read]
          rw [stepped]
          exact later n
      | some record =>
          have unlabelled : record.unlabelled = false := by
            cases record with
            | entity e =>
                have some_ := labelled line List.mem_cons_self e read
                rw [Fixture.Record.unlabelled, Option.isNone_eq_false_iff]
                exact Option.isSome_iff_ne_none.mpr some_
            | _ => rfl
          have again := loadRecord_settled (stays record rfl).accepted
            ((stays record rfl).settled unlabelled)
          have stepped : loadLine serde refuses ns (a, n) line = .ok (a, n + 1) := by
            rw [loadLine, read]
            dsimp only
            rw [again]
          rw [stepped]
          exact later (n + 1)

theorem readRecord_parsed {text : String} {i : Nat} {record : Fixture.Record N R} :
    readRecord serde (.ok text, i) = .ok (some record) ↔
      Fixture.parseJsonlLine serde text = .ok record := by
  rw [readRecord]
  by_cases blank : (trim isWhiteSpace text).isEmpty = true
  · have failed : Fixture.parseJsonlLine (R := R) serde text =
        .error (.invalidConfig "empty line") := by
      rw [Fixture.parseJsonlLine]
      exact if_pos blank
    dsimp only
    rw [if_pos blank, failed]
    exact iff_of_false (fun same => by cases same) (fun same => by cases same)
  · dsimp only
    rw [if_neg blank]
    cases Fixture.parseJsonlLine (R := R) serde text with
    | error e => exact iff_of_false (fun same => by cases same) (fun same => by cases same)
    | ok parsed => simp

theorem labelled_iff {file : List (Except String String)} :
    Labelled (R := R) serde file.zipIdx ↔ ∀ text, .ok text ∈ file →
      ∀ e, Fixture.parseJsonlLine (R := R) serde text = .ok (.entity e) → e.kindLabel ≠ none := by
  constructor
  · intro labelled text listed e parsed
    rw [← List.zipIdx_map_fst 0 file, List.mem_map] at listed
    rcases listed with ⟨⟨line, i⟩, member, rfl⟩
    exact labelled _ member e (readRecord_parsed.mpr parsed)
  · rintro labelled ⟨line, i⟩ member e read
    have listed : line ∈ file := by
      rw [← List.zipIdx_map_fst 0 file]
      exact List.mem_map_of_mem member
    cases line with
    | error message => cases read
    | ok text => exact labelled text listed e (readRecord_parsed.mp read)

/-- A load that succeeded succeeds again without effect exactly where every entity of the file has a
kind, and one that fails leaves the tables as they were. -/
theorem reload_iff {files : String → FixtureFile} {path : String} {count : Nat}
    (loads : ingestExtracted serde refuses ns files path a = .ok (b, count)) :
    ((∃ again, ingestExtracted serde refuses ns files path b = .ok (b, again)) ↔
      ∀ file, files path = .ok file → ∀ text, .ok text ∈ file →
        ∀ e, Fixture.parseJsonlLine (R := R) serde text = .ok (.entity e) → e.kindLabel ≠ none) ∧
      ∀ (before : Archive N R) (e : LoadError),
        ingestExtracted serde refuses ns files path before = .error e →
          committed before (ingestExtracted serde refuses ns files path before) = before := by
  constructor
  · rcases ingestExtracted_ok loads with ⟨file, opened, loads⟩
    rcases loads_kept loads with ⟨-, kept, -⟩
    constructor
    · rintro ⟨again, reloads⟩ other same
      rcases ingestExtracted_ok reloads with ⟨reopened, same', reloads⟩
      rw [opened] at same same'
      cases same
      cases same'
      rw [← labelled_iff]
      intro line member e read unlabelled
      rcases kept line member with ⟨found, read', stays⟩
      rw [read] at read'
      cases read'
      rcases (stays _ rfl).taken e rfl unlabelled with ⟨row, stored, id⟩
      exact (loads_kept reloads).2.2 line member e read unlabelled row stored id
    · intro labelled
      rw [ingestExtracted, opened]
      exact loads_again kept (labelled_iff.mpr (labelled file opened))
  · intro before e failed
    rw [failed]
    rfl

end Lines

section Stored

variable {refuses : Fixture.Record N R → Option String} {ns : String} {a b : Archive N R}

def stored : Fixture.Record N R → FixtureRecord R (Json N)
  | .document d => .document (d.row d.ns)
  | .chunk c => .chunk (c.row c.ns) c.metadata
  | .entity e => .entity (e.row e.ns)
  | .relationship r => .relationship (r.row r.ns)
  | .chunkEntity ce => .chunkEntity ce.row

theorem grown_stored {record : Fixture.Record N R} {outcome : Unit × Tables R}
    (inserts : record.insert ns a.tables = .ok outcome) :
    (a.grown record outcome).toStored =
      ⟨a.tables ++ outcome.2, (a.grown record outcome).metadata⟩ := by
  rw [← grown_tables inserts]

theorem loadRecord_stored {record : Fixture.Record N R}
    (loads : loadRecord refuses ns a record = .ok b) :
    PgRaggraph.loadRecord ns a.toStored (stored record) = .ok b.toStored := by
  rcases loadRecord_ok loads with ⟨-, outcome, inserts, rfl⟩
  rw [grown_stored inserts, Archive.grown]
  have mapped {f : Unit × Tables R → Stored R (Json N)} {result : Except PgError (Unit × Tables R)}
      (same : result = .ok outcome) : result.map f = .ok (f outcome) := by
    rw [same]
    rfl
  cases record with
  | document d =>
      refine (mapped inserts).trans ?_
      split <;> rfl
  | chunk c =>
      refine (mapped inserts).trans ?_
      rcases insertInto_added inserts with ⟨-, dropped⟩ | ⟨-, -, -, added⟩
      · rw [Stored.addedChunk, dropped, if_pos (by rfl)]
        congr
        funext id
        exact if_neg (fun both => both.2 rfl)
      · have single : outcome.2.size ≠ 0 := by
          rw [added]
          exact Nat.one_ne_zero
        rw [if_neg single, Stored.addedChunk, added]
        congr
        funext id
        exact if_congr (and_iff_left (List.cons_ne_nil _ _)) rfl rfl
  | entity e =>
      refine (mapped inserts).trans ?_
      split <;> rfl
  | relationship r =>
      refine (mapped inserts).trans ?_
      split <;> rfl
  | chunkEntity ce =>
      refine (mapped inserts).trans ?_
      split <;> rfl

end Stored

section Reached

variable [F32 R] {serde : Serde N R} {refuses : Fixture.Record N R → Option String} {ns : String}
  {a b : Archive N R} {n m : Nat} {emptyObject : Json N}

theorem loadLine_reachable {line : Except String String × Nat}
    (before : Reachable emptyObject a.toStored)
    (loads : loadLine serde refuses ns (a, n) line = .ok (b, m)) :
    Reachable emptyObject b.toStored := by
  rcases loadLine_ok loads with ⟨-, rfl⟩ | ⟨record, -, loaded⟩
  · exact before
  · have single : PgRaggraph.loadLine (fun _ => none) ns a.toStored (stored record) =
        .ok b.toStored := loadRecord_stored loaded
    have lone : PgRaggraph.ingestExtracted (fun _ => none) [stored record] ns a.toStored =
        .ok (b.toStored, 1) := by
      rw [PgRaggraph.ingestExtracted, List.foldlM_cons, single]
      rfl
    exact .loaded before _ _ ns lone

theorem loads_reachable {lines : List (Except String String × Nat)}
    (before : Reachable emptyObject a.toStored)
    (loads : lines.foldlM (loadLine serde refuses ns) (a, n) = .ok (b, m)) :
    Reachable emptyObject b.toStored :=
  foldlM_invariant (fun s : Archive N R × Nat => Reachable emptyObject s.1.toStored)
    (fun _ _ _ before line => loadLine_reachable before line) before loads

theorem ingest_reachable {files : String → FixtureFile} {path : String} {count : Nat}
    (before : Reachable emptyObject a.toStored)
    (loads : ingestExtracted serde refuses ns files path a = .ok (b, count)) :
    Reachable emptyObject b.toStored := by
  rcases ingestExtracted_ok loads with ⟨file, -, loads⟩
  exact loads_reachable before loads

end Reached

end Extension

section Unlabelled

def unlabelledLine : String :=
  "\x7b\"kind\":\"entity\",\"id\":\"e1111111-1111-1111-1111-111111111111\"," ++
    "\"namespace\":\"ns\",\"name\":\"Ann\",\"name_emb\":[1" ++
    String.join (List.replicate 63 ",1") ++ "]\x7d"

def unlabelledValue : Json Milli :=
  .object [("kind", .string "entity"), ("id", .string "e1111111-1111-1111-1111-111111111111"),
    ("namespace", .string "ns"), ("name", .string "Ann"),
    ("name_emb", .array (List.replicate 64 (.number ⟨1000⟩)))]

def Serde.sample : Serde Milli Milli where
  fromStr _ := .ok unlabelledValue
  uuid v := v.asStr.map String.length
  i32 v := v.asNumber.map (fun n => n.value / 1000)
  f32 := Json.asNumber
  f64 := Json.asNumber
  fromValueError _ _ := "missing field"

def unlabelledEntity : Fixture.Entity Milli where
  id := 36
  ns := "ns"
  name := "Ann"
  kindLabel := none
  nameEmb := List.replicate 64 ⟨1000⟩
  description := none

def unlabelledFile : String → FixtureFile := fun _ => .ok [.ok unlabelledLine]

def Archive.fresh : Archive Milli Milli where
  tables := { namespaces := ["default"] }
  metadata _ := .object []
  documentMetadata _ := .object []
  classification _ _ := "extracted"

def Archive.unlabelled : Archive Milli Milli :=
  { Archive.fresh with
    tables := { namespaces := ["default"], entities := [unlabelledEntity.row "default"] } }

theorem trim_nonempty {isSpace : Char → Bool} {s : String} {c : Char}
    (first : s.toList.head? = some c) (solid : isSpace c = false) :
    (trim isSpace s).isEmpty = false := by
  rcases List.head?_eq_some_iff.mp first with ⟨rest, whole⟩
  rw [Bool.eq_false_iff]
  intro blank
  rw [trim, whole, List.dropWhile_cons_of_neg (by rw [solid]; exact Bool.false_ne_true),
    String.isEmpty_iff, String.ofList_eq_empty_iff, List.reverse_eq_nil_iff,
    List.dropWhile_eq_nil_iff] at blank
  have spaced := blank c (List.mem_reverse.mpr List.mem_cons_self)
  rw [solid] at spaced
  cases spaced

theorem append_first {s : String} {c : Char} (first : s.toList.head? = some c) (t : String) :
    (s ++ t).toList.head? = some c := by
  rw [String.toList_append, List.head?_append, first, Option.some_or]

theorem unlabelled_nonblank : (trim isWhiteSpace unlabelledLine).isEmpty = false := by
  have solid : isWhiteSpace '\x7b' = false := by decide
  have first : unlabelledLine.toList.head? = some '\x7b' :=
    append_first (append_first (append_first (by decide) _) _) _
  exact trim_nonempty first solid

theorem unlabelled_parsed :
    Fixture.parseJsonlLine Serde.sample unlabelledLine = .ok (.entity unlabelledEntity) := by
  rw [Fixture.parseJsonlLine, unlabelled_nonblank]
  rfl

theorem unlabelled_ingest (a : Archive Milli Milli) :
    Extension.ingestExtracted Serde.sample (fun _ => none) "default" unlabelledFile "fixture.jsonl"
        a =
      match Extension.loadRecord (fun _ => none) "default" a (.entity unlabelledEntity) with
      | .error e => .error (.statement e)
      | .ok b => .ok (b, 1) := by
  have read := (Extension.readRecord_parsed (i := 0)).mpr unlabelled_parsed
  rw [Extension.ingestExtracted, unlabelledFile]
  dsimp only
  rw [List.zipIdx_cons, List.foldlM_cons, Extension.loadLine, read]
  dsimp only
  cases Extension.loadRecord (fun _ => none) "default" a (.entity unlabelledEntity) with
  | error e => rfl
  | ok b => rfl

theorem unlabelled_loads : Extension.ingestExtracted Serde.sample (fun _ => none) "default"
    unlabelledFile "fixture.jsonl" .fresh = .ok (.unlabelled, 1) := by
  rw [unlabelled_ingest]
  rfl

/-- The second load of an entity without a kind meets the first one's primary key. -/
theorem unlabelled_reload :
    Extension.ingestExtracted Serde.sample (fun _ => none) "default" unlabelledFile "fixture.jsonl"
        .fresh = .ok (.unlabelled, 1) ∧
      Extension.ingestExtracted Serde.sample (fun _ => none) "default" unlabelledFile
        "fixture.jsonl" .unlabelled = .error (.statement (.uniqueViolation .entitiesPkey)) := by
  refine ⟨unlabelled_loads, ?_⟩
  rw [unlabelled_ingest]
  rfl

theorem reload_unlabelled : ¬ ∃ again, Extension.ingestExtracted Serde.sample (fun _ => none)
    "default" unlabelledFile "fixture.jsonl" .unlabelled = .ok (.unlabelled, again) := by
  intro reloads
  have labelled := (Extension.reload_iff unlabelled_loads).1.mp reloads
  exact labelled _ rfl _ List.mem_cons_self _ unlabelled_parsed rfl

end Unlabelled

end PgRaggraph
