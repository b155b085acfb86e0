import PgRaggraph.Extension.Query
import PgRaggraph.Retrieval.Reachable
import PgRaggraph.Sidecar.Completeness

/-! What the fleet of the sidecar has stored is found by `pgrg.query`. -/

namespace PgRaggraph.Sidecar

variable {R J : Type} [F32 R]

section Keys

variable {d : Deployment R} {base : Tables R} {s : System R}

theorem Sound.empty (d : Deployment R) (now : Int) (namespaces : List String) :
    Sound d { namespaces := namespaces }
      { queue := { now := now }, tables := { namespaces := namespaces } } := by
  apply Sound.initial (.initial now)
  · exact fun _ stored => absurd stored List.not_mem_nil
  · exact fun _ => rfl
  · exact fun _ stored => absurd stored List.not_mem_nil
  · exact fun _ _ => ⟨nofun, nofun, nofun⟩

omit [F32 R] in
theorem Assembled.keyed {env : Environment R} {rt : Runtime} {req : IngestRequest} {payload : Bytes}
    {doc : DocRow} {chunks : List Chunk} {embeddings : List (List R)} {chunkIds : List Uuid}
    (assembled : Assembled rt env req payload doc chunks embeddings chunkIds) {tables : Tables R}
    (fresh : FreshFor env tables) (keyed : tables.Keyed) :
    (tables ++ documentRows doc ((chunks.zip embeddings).zip chunkIds)).Keyed where
  chunks := by
    have added : (documentRows doc ((chunks.zip embeddings).zip chunkIds)).chunks.map (·.id) =
        chunkIds := by
      rw [documentRows, List.map_map]
      exact assembled.item_ids
    rw [Tables.append_chunks, List.map_append, added]
    refine List.nodup_append.mpr ⟨keyed.chunks, assembled.distinct, ?_⟩
    intro old stored new drawn same
    rcases List.mem_map.mp stored with ⟨chunk, present, rfl⟩
    rcases assembled.drawn new (List.mem_append_left _ drawn) with ⟨k, minted⟩
    exact fresh.chunks chunk present k (same.trans minted.symm)
  entities := by
    rw [Tables.append_entities, documentRows, List.append_nil]
    exact keyed.entities

theorem keyed_step (sound : Sound d base s) (keyed : s.tables.Keyed) {after : System R}
    {action : Action} (stepped : step d s action = some after) : after.tables.Keyed := by
  cases step_moves stepped with
  | commit w run job env session outcome held =>
      rcases sound.progress w _ held with ⟨submission, payload, progress⟩
      rcases progress.stage with ⟨-, fresh, delivered⟩
      dsimp only
      rcases delivered with ⟨doc, chunks, embeddings, chunkIds, assembled, -, own⟩ | ⟨own, -⟩
      · rw [own]
        exact assembled.keyed fresh keyed
      · rw [own, Tables.append_empty]
        exact keyed
  | queue _ sent queue outside moved => exact keyed
  | claim w locked id queue row _ moved stored same => exact keyed
  | beginJob w run job held => exact keyed
  | call w run job r next held _ advanced => exact keyed
  | rollback w run job env session e held => exact keyed
  | complete w run job queue held moved => exact keyed
  | fail w run job error queue held moved => exact keyed
  | crash w queue moved => exact keyed

theorem keyed_run (numbering : d.rt.chunkshop.Numbering) (sound : Sound d base s)
    (keyed : s.tables.Keyed) {last : System R} {actions : List Action}
    (finished : Transition.run (step d) s actions = some last) : last.tables.Keyed := by
  have preserved : ∀ (s : System R) (action : Action) (after : System R),
      Sound d base s ∧ s.tables.Keyed → True → step d s action = some after →
        Sound d base after ∧ after.tables.Keyed :=
    fun s action after holds _ stepped =>
      ⟨sound_step numbering holds.1 stepped, keyed_step holds.1 holds.2 stepped⟩
  exact (Transition.run_invariant preserved ⟨sound, keyed⟩
    (Transition.meets_always (step d) (fun _ _ => trivial) s actions) finished).2

end Keys

section Found

variable {d : Deployment R}

def Finds (tables : Tables R) (doc : DocRow) (rows : List (ResultRow R)) : Prop :=
  ∀ chunk ∈ tables.chunks, chunk.documentId = doc.id →
    ∃ row ∈ rows, row.id = chunk.id ∧ row.documentId = doc.id ∧ row.text = chunk.text

omit [F32 R] in
theorem unfiltered_visible {stored : Stored R J} {keyed : stored.tables.Keyed} {engine : Engine R J}
    {p : QueryArgs R J} (unfiltered : p.filter = none) :
    visible engine (stored.database keyed) p =
      (stored.tables.chunks.filter (fun c => c.ns = p.ns)).map (fun c =>
        { id := c.id, documentId := c.documentId, ns := c.ns, text := c.text,
          embedding := some c.embedding, metadata := stored.metadata c.id }) := by
  have all : ∀ c : StoredChunk R J, passes engine p c = true := by
    intro c
    rw [passes, unfiltered]
  simp only [visible, all, Bool.and_true, Stored.database, List.filter_map]
  congr 1

omit [F32 R] in
theorem Whole.placed {tables : Tables R} {submission : Submission} {doc : DocRow}
    (whole : Whole d tables submission doc) {chunk : ChunkRow R} (stored : chunk ∈ tables.chunks)
    (same : chunk.documentId = doc.id) : chunk.ns = doc.ns := by
  rcases whole.contents with ⟨_, _, _, _, -, -, -, -, -, -, -, rows⟩
  have listed : chunk ∈ tables.chunks.filter (fun chunk => chunk.documentId = doc.id) :=
    List.mem_filter.mpr ⟨stored, decide_eq_true same⟩
  rw [rows] at listed
  rcases List.mem_map.mp listed with ⟨item, -, rfl⟩
  rfl

variable [LinearOrder R] [IntCast R]

/-- In every state that a fleet reaches: a query of a namespace of at most 50 chunks, with room for
them, whose scan of the chunks by distance is exact, returns each of its chunks once, so all the
chunks of every document of the namespace. A completed job has such a document, with chunks. -/
theorem completed_searchable (d : Deployment R) (numbering : d.rt.chunkshop.Numbering) (now : Int)
    (namespaces : List String) (actions : List Action) (s : System R)
    (finished : Transition.run (step d)
      { queue := { now := now }, tables := { namespaces := namespaces } } actions = some s)
    (metadata : Uuid → J) (engine : Engine R J) (mode : Mode) (uses : mode.usesVector = true)
    (p : QueryArgs R J) (unfiltered : p.filter = none)
    (small : (s.tables.chunks.filter (fun c => c.ns = p.ns)).length ≤ laneLimit)
    (room : ((s.tables.chunks.filter (fun c => c.ns = p.ns)).length : Int) ≤ p.topK) :
    ∃ keyed, ∀ scans : Scans,
      scans.vec = vecLane engine (Stored.database ⟨s.tables, metadata⟩ keyed) mode p → ∃ rows,
      queryOver engine (Stored.database ⟨s.tables, metadata⟩ keyed) mode p scans = .ok rows ∧
      rows.length = (s.tables.chunks.filter (fun c => c.ns = p.ns)).length ∧
      (∀ doc ∈ s.tables.documents, doc.ns = p.ns → Finds s.tables doc rows) ∧
      ∀ job ∈ s.queue.jobs, job.status = .completed → job.ns = p.ns →
        ∃ payload, job.payload = some payload ∧ ∃ doc ∈ s.tables.documents,
          doc.contentHash = contentHash d.rt payload ∧ Finds s.tables doc rows ∧
          ∃ row ∈ rows, row.documentId = doc.id := by
  have initial := Sound.empty d now namespaces
  have keyed : s.tables.Keyed :=
    keyed_run numbering initial ⟨List.nodup_nil, List.nodup_nil⟩ finished
  have sound := sound_run numbering initial finished
  have seen : visible engine (Stored.database ⟨s.tables, metadata⟩ keyed) p =
      (s.tables.chunks.filter (fun c => c.ns = p.ns)).map (fun c =>
        { id := c.id, documentId := c.documentId, ns := c.ns, text := c.text,
          embedding := some c.embedding, metadata := metadata c.id }) :=
    unfiltered_visible unfiltered
  have length : (visible engine (Stored.database ⟨s.tables, metadata⟩ keyed) p).length =
      (s.tables.chunks.filter (fun c => c.ns = p.ns)).length := by
    rw [seen, List.length_map]
  refine ⟨keyed, fun scans exact_vec => ?_⟩
  rcases query_exhaustive exact_vec uses (length ▸ small) (length ▸ room) with
    ⟨rows, returned, same⟩
  have whole : ∀ doc ∈ s.tables.documents, ∃ submission, Whole d s.tables submission doc := by
    intro doc stored
    rcases sound.documents doc stored with ⟨submission, -, whole⟩ | kept
    · exact ⟨submission, whole⟩
    · cases kept.stored
  have finds : ∀ doc ∈ s.tables.documents, doc.ns = p.ns → Finds s.tables doc rows := by
    intro doc stored here chunk present parent
    rcases whole doc stored with ⟨submission, whole⟩
    have placed : chunk ∈ s.tables.chunks.filter (fun c => c.ns = p.ns) :=
      List.mem_filter.mpr ⟨present, decide_eq_true ((whole.placed present parent).trans here)⟩
    have columns : (chunk.id, chunk.documentId, chunk.text) ∈
        rows.map (fun row => (row.id, row.documentId, row.text)) := by
      rw [same.mem_iff, seen, List.map_map]
      exact List.mem_map.mpr ⟨chunk, placed, rfl⟩
    rcases List.mem_map.mp columns with ⟨row, member, equal⟩
    simp only [Prod.mk.injEq] at equal
    exact ⟨row, member, equal.1, equal.2.1.trans parent, equal.2.2⟩
  refine ⟨rows, returned, by simpa [length] using same.length_eq, finds, ?_⟩
  intro job member completed here
  rcases sound.completed job member completed with ⟨payload, carried, doc, stored, ns, hash⟩
  have found := finds doc stored (ns.trans here)
  rcases whole doc stored with ⟨submission, whole⟩
  rcases whole.chunked with ⟨chunk, present, parent⟩
  rcases found chunk present parent with ⟨row, listed, -, document, -⟩
  exact ⟨payload, carried, doc, stored, hash, found, row, listed, document⟩

theorem crashed_job_found : ∃ s, Transition.run (step twoWorkers)
      { queue := { now := 0 }, tables := { namespaces := ["docs"] } } crashingRun = some s ∧
    ∃ keyed vec rows, queryOver Engine.sample (Stored.database ⟨s.tables, fun _ => "{}"⟩ keyed)
        .hybrid { QueryArgs.sample with ns := "docs" } ⟨vec, []⟩ = .ok rows ∧ rows.length = 1 := by
  have finishes : ∃ s, Transition.run (step twoWorkers)
      { queue := { now := 0 }, tables := { namespaces := ["docs"] } } crashingRun = some s ∧
      (s.tables.chunks.filter (fun c => c.ns = "docs")).length = 1 := ⟨_, rfl, rfl⟩
  rcases finishes with ⟨s, finished, one⟩
  rcases completed_searchable twoWorkers twoWorkers_numbering 0 ["docs"] crashingRun s finished
    (fun _ => "{}") .sample .hybrid rfl { QueryArgs.sample with ns := "docs" } rfl
    (Nat.le_trans (Nat.le_of_eq one) (by decide)) (by rw [one]; decide) with ⟨keyed, found⟩
  rcases found ⟨_, []⟩ rfl with ⟨rows, returned, length, -⟩
  exact ⟨s, finished, keyed, _, rows, returned, length.trans one⟩

end Found

end PgRaggraph.Sidecar
