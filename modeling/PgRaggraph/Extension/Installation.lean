import PgRaggraph.Extension.NamespaceDrop

/-! An installed extension under any sequence of its calls: the constraints of `001_tables.sql` and the
two vector indexes. -/

namespace PgRaggraph

variable {R J : Type}

inductive IndexKind where
  | hnsw
  | ivfflat
  deriving DecidableEq

/-- `chunks_embedding_hnsw` and `entities_name_emb_hnsw`, which keep their names. -/
structure Indexes where
  chunks : Option IndexKind
  entities : Option IndexKind
  deriving DecidableEq

def Indexes.created : Indexes := ⟨some .hnsw, some .hnsw⟩

inductive IndexStatement where
  | dropChunks
  | dropEntities
  | createChunks
  | createEntities
  deriving DecidableEq

/-- `ddl` is what PostgreSQL itself says of a statement: no space, a lock timeout. -/
def IndexStatement.run (ddl : IndexStatement → Option String) (indexes : Indexes)
    (statement : IndexStatement) : Except String Indexes :=
  match ddl statement with
  | some message => .error message
  | none =>
      match statement with
      | .dropChunks => .ok { indexes with chunks := none }
      | .dropEntities => .ok { indexes with entities := none }
      | .createChunks =>
          if indexes.chunks.isSome then
            .error "relation \"chunks_embedding_hnsw\" already exists"
          else .ok { indexes with chunks := some .ivfflat }
      | .createEntities =>
          if indexes.entities.isSome then
            .error "relation \"entities_name_emb_hnsw\" already exists"
          else .ok { indexes with entities := some .ivfflat }

def paritySwap : List IndexStatement := [.dropChunks, .dropEntities, .createChunks, .createEntities]

def maybeApplyParityIndexes (parity : Option Bool) (ddl : IndexStatement → Option String)
    (tables : Tables R) (indexes : Indexes) : Except String Indexes :=
  if parity ≠ some true then .ok indexes
  else if !tables.chunks.isEmpty || !tables.entities.isEmpty then .ok indexes
  else (paritySwap.foldlM (IndexStatement.run ddl) indexes).mapError (fun message =>
    "parity index swap failed mid-way; database may have inconsistent indexes: " ++ message)

structure Installed (R J : Type) where
  stored : Stored R J
  indexes : Indexes

namespace Installed

/-- `parity` is the setting of the session. -/
inductive Call (R J : Type) where
  | ingest (rt : Runtime) (srv : Server R) (env : Environment R) (job : ClaimedJob)
  | load (refuses : FixtureRecord R J → Option String) (records : List (FixtureRecord R J))
      (ns : String)
  | namespaceCreate (name : String) (parity : Option Bool) (ddl : IndexStatement → Option String)
  | namespaceDrop (name : String) (cascade : Bool)
  | deleteDocument (id : Uuid)

def created (emptyObject : J) : Installed R J where
  stored := ⟨{ namespaces := ["default"] }, fun _ => emptyObject⟩
  indexes := .created

variable [F32 R] (emptyObject : J)

def after (s : Installed R J) : Call R J → Installed R J
  | .ingest rt srv env job => { s with stored := afterJob emptyObject rt srv env job s.stored }
  | .load refuses records ns =>
      match ingestExtracted refuses records ns s.stored with
      | .ok loaded => { s with stored := loaded.1 }
      | .error _ => s
  | .namespaceCreate name parity ddl =>
      match maybeApplyParityIndexes parity ddl (PgRaggraph.namespaceCreate name s.stored.tables)
          s.indexes with
      | .ok indexes =>
          { stored := { s.stored with tables := PgRaggraph.namespaceCreate name s.stored.tables }
            indexes := indexes }
      | .error _ => s
  | .namespaceDrop name cascade =>
      match PgRaggraph.namespaceDrop name cascade s.stored.tables with
      | .ok tables => { s with stored := { s.stored with tables := tables } }
      | .error _ => s
  | .deleteDocument id =>
      { s with stored := { s.stored with tables := PgRaggraph.deleteDocument id s.stored.tables } }

def run (s : Installed R J) (calls : List (Call R J)) : Installed R J :=
  calls.foldl (after emptyObject) s

theorem run_append (s : Installed R J) (before later : List (Call R J)) :
    s.run emptyObject (before ++ later) = (s.run emptyObject before).run emptyObject later :=
  List.foldl_append

end Installed

section Swap

def Indexes.swapped : Indexes := ⟨some .ivfflat, some .ivfflat⟩

theorem paritySwap_ok_iff {ddl : IndexStatement → Option String} {indexes after : Indexes} :
    paritySwap.foldlM (IndexStatement.run ddl) indexes = .ok after ↔
      after = .swapped ∧ ∀ statement ∈ paritySwap, ddl statement = none := by
  simp only [paritySwap, List.foldlM_cons, List.foldlM_nil, List.forall_mem_cons, List.not_mem_nil,
    false_implies, implies_true, and_true]
  rcases first : ddl .dropChunks with _ | message
  · rcases second : ddl .dropEntities with _ | message
    · rcases third : ddl .createChunks with _ | message
      · rcases fourth : ddl .createEntities with _ | message
        · simp [IndexStatement.run, first, second, third, fourth, bind, Except.bind, pure, Except.pure,
            Indexes.swapped, eq_comm]
        · simp [IndexStatement.run, first, second, third, fourth, bind, Except.bind]
      · simp [IndexStatement.run, first, second, third, bind, Except.bind]
    · simp [IndexStatement.run, first, second, bind, Except.bind]
  · simp [IndexStatement.run, first, bind, Except.bind]

def Installed.Swaps (s : Installed R J) (call : Installed.Call R J) : Prop :=
  ∃ name ddl, call = .namespaceCreate name (some true) ddl ∧
    (∀ statement ∈ paritySwap, ddl statement = none) ∧
    s.stored.tables.chunks = [] ∧ s.stored.tables.entities = []

theorem parity_ok {parity : Option Bool} {ddl : IndexStatement → Option String} {tables : Tables R}
    {indexes after : Indexes}
    (applied : maybeApplyParityIndexes parity ddl tables indexes = .ok after) :
    (after = .swapped ∧ parity = some true ∧ (∀ statement ∈ paritySwap, ddl statement = none) ∧
        tables.chunks = [] ∧ tables.entities = []) ∨
      (after = indexes ∧ ¬ (parity = some true ∧ tables.chunks = [] ∧ tables.entities = [])) := by
  rw [maybeApplyParityIndexes] at applied
  split at applied
  · rename_i plain
    cases applied
    exact .inr ⟨rfl, fun met => plain met.1⟩
  · rename_i parity_
    split at applied
    · rename_i filled
      cases applied
      refine .inr ⟨rfl, fun met => ?_⟩
      rw [met.2.1, met.2.2] at filled
      cases filled
    · rename_i empty
      have none_ : tables.chunks = [] ∧ tables.entities = [] := by simpa using empty
      rcases ran : paritySwap.foldlM (IndexStatement.run ddl) indexes with message | swapped
      · rw [ran] at applied
        cases applied
      · rw [ran] at applied
        cases applied
        rcases paritySwap_ok_iff.mp ran with ⟨same, succeeds⟩
        exact .inl ⟨same, of_not_not parity_, succeeds, none_⟩

namespace Installed

variable [F32 R] {emptyObject : J} {s : Installed R J}

theorem after_swaps {call : Call R J} (swaps : s.Swaps call) :
    (s.after emptyObject call).indexes = .swapped := by
  rcases swaps with ⟨name, ddl, rfl, succeeds, chunks, entities⟩
  have empty : (PgRaggraph.namespaceCreate name s.stored.tables).chunks = [] ∧
      (PgRaggraph.namespaceCreate name s.stored.tables).entities = [] := ⟨chunks, entities⟩
  have applied : maybeApplyParityIndexes (some true) ddl
      (PgRaggraph.namespaceCreate name s.stored.tables) s.indexes = .ok .swapped := by
    rw [maybeApplyParityIndexes, if_neg (by simp), empty.1, empty.2, if_neg (by simp),
      paritySwap_ok_iff.mpr ⟨rfl, succeeds⟩]
    rfl
  rw [after, applied]

theorem after_keeps {call : Call R J} (keeps : ¬ s.Swaps call) :
    (s.after emptyObject call).indexes = s.indexes := by
  cases call with
  | ingest rt srv env job => rfl
  | load refuses records ns =>
      rw [after]
      split
      · rfl
      · rfl
  | namespaceCreate name parity ddl =>
      rw [after]
      split
      · rename_i indexes applied
        rcases parity_ok applied with ⟨-, rfl, succeeds, chunks, entities⟩ | ⟨same, -⟩
        · exact absurd ⟨name, ddl, rfl, succeeds, chunks, entities⟩ keeps
        · exact same
      · rfl
  | namespaceDrop name cascade =>
      rw [after]
      split
      · rfl
      · rfl
  | deleteDocument id => rfl

def SwapsIn (emptyObject : J) (s : Installed R J) (calls : List (Call R J)) : Prop :=
  ∃ before call later, calls = before ++ call :: later ∧ (s.run emptyObject before).Swaps call

theorem swapsIn_cons (call : Call R J) (rest : List (Call R J)) :
    s.SwapsIn emptyObject (call :: rest) ↔
      s.Swaps call ∨ (s.after emptyObject call).SwapsIn emptyObject rest := by
  constructor
  · rintro ⟨before, other, later, whole, swaps⟩
    rcases before with _ | ⟨first, before⟩
    · cases whole
      exact .inl swaps
    · cases whole
      exact .inr ⟨before, other, later, rfl, swaps⟩
  · rintro (swaps | ⟨before, other, later, rfl, swaps⟩)
    · exact ⟨[], call, rest, rfl, swaps⟩
    · exact ⟨call :: before, other, later, rfl, swaps⟩

theorem run_swapped {calls : List (Call R J)} (swapped : s.indexes = .swapped) :
    (s.run emptyObject calls).indexes = .swapped := by
  induction calls generalizing s with
  | nil => exact swapped
  | cons call rest ih =>
      apply ih
      by_cases swaps : s.Swaps call
      · exact after_swaps swaps
      · rw [after_keeps swaps]
        exact swapped

theorem run_swaps {calls : List (Call R J)} (swaps : s.SwapsIn emptyObject calls) :
    (s.run emptyObject calls).indexes = .swapped := by
  induction calls generalizing s with
  | nil =>
      rcases swaps with ⟨before, call, later, whole, -⟩
      simp at whole
  | cons call rest ih =>
      rcases (swapsIn_cons call rest).mp swaps with now | later
      · have swapped : (s.after emptyObject call).indexes = .swapped := after_swaps now
        have kept : ((s.after emptyObject call).run emptyObject rest).indexes = .swapped :=
          run_swapped swapped
        exact kept
      · exact ih later

theorem run_keeps {calls : List (Call R J)} (keeps : ¬ s.SwapsIn emptyObject calls) :
    (s.run emptyObject calls).indexes = s.indexes := by
  induction calls generalizing s with
  | nil => rfl
  | cons call rest ih =>
      rw [swapsIn_cons, not_or] at keeps
      exact (ih keeps.2).trans (after_keeps keeps.1)

end Installed

end Swap

section Entities

variable [F32 R] {emptyObject : J} {s : Installed R J}

omit [F32 R] in
theorem loadRecord_grows {ns : String} {s t : Stored R J} {record : FixtureRecord R J}
    (loads : loadRecord ns s record = .ok t) : s.tables.entities <+: t.tables.entities := by
  cases record with
  | document doc =>
      rcases map_ok loads with ⟨outcome, -, rfl⟩
      exact List.prefix_append _ _
  | chunk chunk metadata =>
      rcases map_ok loads with ⟨outcome, -, rfl⟩
      exact List.prefix_append _ _
  | entity row =>
      rcases map_ok loads with ⟨outcome, -, rfl⟩
      exact List.prefix_append _ _
  | relationship row =>
      rcases map_ok loads with ⟨outcome, -, rfl⟩
      exact List.prefix_append _ _
  | chunkEntity row =>
      rcases map_ok loads with ⟨outcome, -, rfl⟩
      exact List.prefix_append _ _

omit [F32 R] in
theorem ingestExtracted_grows {refuses : FixtureRecord R J → Option String}
    {records : List (FixtureRecord R J)} {ns : String} {s : Stored R J} {loaded : Stored R J × Nat}
    (loads : ingestExtracted refuses records ns s = .ok loaded) :
    s.tables.entities <+: loaded.1.tables.entities := by
  rcases map_ok loads with ⟨last, folded, rfl⟩
  refine foldlM_invariant (fun t : Stored R J => s.tables.entities <+: t.tables.entities) ?_
    List.prefix_rfl folded
  intro t record u grown line
  rw [loadLine] at line
  split at line
  · cases line
  · exact grown.trans (loadRecord_grows line)

theorem afterJob_grows (rt : Runtime) (srv : Server R) (env : Environment R) (job : ClaimedJob)
    (s : Stored R J) :
    s.tables.entities <+: (afterJob emptyObject rt srv env job s).tables.entities := by
  rw [afterJob, runClaimed]
  rcases spiRun rt srv env s.tables (buildRequest job) with e | ⟨result, session⟩
  · exact List.prefix_rfl
  · exact List.prefix_append _ _

theorem after_entities (call : Installed.Call R J) :
    s.stored.tables.entities <+: (s.after emptyObject call).stored.tables.entities := by
  cases call with
  | ingest rt srv env job => exact afterJob_grows rt srv env job s.stored
  | load refuses records ns =>
      rw [Installed.after]
      split
      · rename_i loaded loads
        exact ingestExtracted_grows loads
      · exact List.prefix_rfl
  | namespaceCreate name parity ddl =>
      rw [Installed.after]
      split
      · exact List.prefix_rfl
      · exact List.prefix_rfl
  | namespaceDrop name cascade =>
      rw [Installed.after]
      split
      · rename_i tables drops
        rw [namespaceDrop_ok drops]
        exact List.prefix_rfl
      · exact List.prefix_rfl
  | deleteDocument id => exact List.prefix_rfl

theorem run_entities (calls : List (Installed.Call R J)) :
    s.stored.tables.entities <+: (s.run emptyObject calls).stored.tables.entities := by
  induction calls generalizing s with
  | nil => exact List.prefix_rfl
  | cons call rest ih => exact (after_entities call).trans ih

theorem swaps_not_after_entity {calls : List (Installed.Call R J)}
    (stored : s.stored.tables.entities ≠ []) : ¬ s.SwapsIn emptyObject calls := by
  rintro ⟨before, call, later, -, name, ddl, -, -, -, entities⟩
  have kept : s.stored.tables.entities <+: (s.run emptyObject before).stored.tables.entities :=
    run_entities before
  rw [entities] at kept
  exact stored (List.prefix_nil.mp kept)

/-- Over any calls, refused ones included, both vector indexes stay and are of one kind. They are
IVFFlat exactly if some `namespace_create` ran in parity mode before there was a chunk or an entity and
got through its swap, and once an entity was stored they never change again. -/
theorem index_kinds (emptyObject : J) (calls : List (Installed.Call R J)) :
    (((Installed.created emptyObject).run emptyObject calls).indexes = .created ∨
      ((Installed.created emptyObject).run emptyObject calls).indexes = .swapped) ∧
    (((Installed.created emptyObject).run emptyObject calls).indexes = .swapped ↔
      (Installed.created emptyObject : Installed R J).SwapsIn emptyObject calls) ∧
    ∀ before later, calls = before ++ later →
      ((Installed.created emptyObject).run emptyObject before).stored.tables.entities ≠ [] →
      ((Installed.created emptyObject).run emptyObject calls).indexes =
        ((Installed.created emptyObject).run emptyObject before).indexes := by
  refine ⟨?_, ⟨fun swapped => ?_, Installed.run_swaps⟩, ?_⟩
  · by_cases swaps : (Installed.created emptyObject : Installed R J).SwapsIn emptyObject calls
    · exact .inr (Installed.run_swaps swaps)
    · exact .inl (Installed.run_keeps swaps)
  · by_contra keeps
    rw [Installed.run_keeps keeps] at swapped
    cases swapped
  · rintro before later rfl stored
    rw [Installed.run_append]
    exact Installed.run_keeps (swaps_not_after_entity stored)

end Entities

end PgRaggraph
