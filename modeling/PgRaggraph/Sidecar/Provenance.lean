import PgRaggraph.Sidecar.HttpAsk
import PgRaggraph.Sidecar.Searchable

/-! Where the text comes from that a provider is sent. -/

namespace PgRaggraph.Sidecar

variable {R N : Type} [F32 R]

section Parents

variable {d : Deployment R} {base : Tables R} {s : System R}

def Parents (tables : Tables R) : Prop :=
  ∀ chunk ∈ tables.chunks, ∃ doc ∈ tables.documents, doc.id = chunk.documentId

omit [F32 R] in
theorem documentRows_parented {tables : Tables R} (parents : Parents tables) (doc : DocRow)
    (items : List (ChunkItem R)) : Parents (tables ++ documentRows doc items) := by
  intro chunk member
  rcases List.mem_append.mp member with old | new
  · rcases parents chunk old with ⟨parent, stored, same⟩
    exact ⟨parent, List.mem_append_left _ stored, same⟩
  · exact ⟨doc, List.mem_append_right _ (List.mem_singleton_self doc),
      (documentRows_parent items chunk new).symm⟩

theorem parented_step (sound : Sound d base s) (parents : Parents s.tables) {after : System R}
    {action : Action} (stepped : step d s action = some after) : Parents after.tables := by
  cases step_moves stepped with
  | commit w run job env session outcome held =>
      rcases sound.progress w _ held with ⟨submission, payload, progress⟩
      rcases progress.stage with ⟨-, -, delivered⟩
      dsimp only
      rcases delivered with ⟨doc, chunks, embeddings, chunkIds, -, -, own⟩ | ⟨own, -⟩
      · rw [own]
        exact documentRows_parented parents doc _
      · rw [own, Tables.append_empty]
        exact parents
  | queue _ sent queue outside moved => exact parents
  | claim w locked id queue row _ moved stored same => exact parents
  | beginJob w run job held => exact parents
  | call w run job r next held _ advanced => exact parents
  | rollback w run job env session e held => exact parents
  | complete w run job queue held moved => exact parents
  | fail w run job error queue held moved => exact parents
  | crash w queue moved => exact parents

theorem parented_run (numbering : d.rt.chunkshop.Numbering) (sound : Sound d base s)
    (parents : Parents s.tables) {last : System R} {actions : List Action}
    (finished : Transition.run (step d) s actions = some last) : Parents last.tables := by
  have preserved : ∀ (s : System R) (action : Action) (after : System R),
      Sound d base s ∧ Parents s.tables → True → step d s action = some after →
        Sound d base after ∧ Parents after.tables :=
    fun s action after holds _ stepped =>
      ⟨sound_step numbering holds.1 stepped, parented_step holds.1 holds.2 stepped⟩
  exact (Transition.run_invariant preserved ⟨sound, parents⟩
    (Transition.meets_always (step d) (fun _ _ => trivial) s actions) finished).2

end Parents

def Submitted (d : Deployment R) (jobs : List JobRow) (ns text : String) : Prop :=
  ∃ job ∈ jobs, job.ns = ns ∧ ∃ payload chunks, job.payload = some payload ∧
    chunkSource d.rt job.chunkStrategy payload = .ok chunks ∧ ∃ chunk ∈ chunks, chunk.text = text

omit [F32 R] in
theorem Whole.submitted {d : Deployment R} {tables : Tables R} {job : JobRow} {doc : DocRow}
    {jobs : List JobRow} (whole : Whole d tables job.submission doc) (enqueued : job ∈ jobs)
    {chunk : ChunkRow R} (stored : chunk ∈ tables.chunks) (same : doc.id = chunk.documentId) :
    Submitted d jobs chunk.ns chunk.text := by
  have here := whole.placed stored same.symm
  rcases whole.contents with
    ⟨payload, chunks, embeddings, chunkIds, carries, -, chunked, -, -, -, -, rows⟩
  have listed : chunk ∈ tables.chunks.filter (fun chunk => chunk.documentId = doc.id) :=
    List.mem_filter.mpr ⟨stored, decide_eq_true same.symm⟩
  rw [rows] at listed
  rcases List.mem_map.mp listed with ⟨item, member, rfl⟩
  have part := (List.of_mem_zip (List.of_mem_zip member).1).1
  exact ⟨job, enqueued, (here.trans whole.ns).symm, payload, chunks, carries, chunked, item.1.1, part,
    rfl⟩

/-- Every stored chunk comes from a job of its namespace. -/
theorem stored_submitted (d : Deployment R) (numbering : d.rt.chunkshop.Numbering) {now : Int}
    {namespaces : List String} {actions : List Action} {s : System R}
    (finished : Transition.run (step d)
      { queue := { now := now }, tables := { namespaces := namespaces } } actions = some s)
    {chunk : ChunkRow R} (stored : chunk ∈ s.tables.chunks) :
    Submitted d s.queue.jobs chunk.ns chunk.text := by
  have initial := Sound.empty d now namespaces
  have sound := sound_run numbering initial finished
  have none_ : Parents ({ namespaces := namespaces } : Tables R) :=
    fun _ member => absurd member List.not_mem_nil
  rcases parented_run numbering initial none_ finished chunk stored with ⟨doc, present, same⟩
  rcases sound.documents doc present with ⟨submission, member, whole⟩ | kept
  · rcases List.mem_map.mp member with ⟨job, enqueued, rfl⟩
    exact whole.submitted enqueued stored same
  · cases kept.stored

def FromJobs (d : Deployment R) (jobs : List JobRow) (body : AskBody N) (sent : List String) : Prop :=
  ∀ prompt ∈ sent, ∃ texts, prompt = renderPrompt body.q texts ∧
    ∀ text ∈ texts, Submitted d jobs body.ns text

omit [F32 R] in
theorem confined_fromJobs {d : Deployment R} {jobs : List JobRow} {host : AskHost R N}
    {state : AskState R N} {body : AskBody N} {sent : List String}
    (confined : Confined host state body sent)
    (submitted : ∀ chunk ∈ state.stored.tables.chunks, Submitted d jobs chunk.ns chunk.text) :
    FromJobs d jobs body sent := by
  intro prompt member
  rcases confined prompt member with ⟨chunks, seen, same⟩
  refine ⟨_, same, ?_⟩
  intro text listed
  rcases List.mem_map.mp listed with ⟨chunk, included, rfl⟩
  have placed := submitted chunk (seen chunk included).stored
  have here := (seen chunk included).here
  exact here ▸ placed

/-- Over a database that a fleet has filled, whatever crashed: the source texts of a prompt that
`pgrg.ask` or `POST /v1/ask` sends are text that the chunker makes of payloads that were enqueued for
the namespace of the question. -/
theorem ask_provenance [LinearOrder R] [IntCast R] (d : Deployment R)
    (numbering : d.rt.chunkshop.Numbering) (now : Int) (namespaces : List String)
    (actions : List Action) (s : System R)
    (finished : Transition.run (step d)
      { queue := { now := now }, tables := { namespaces := namespaces } } actions = some s)
    (server : AskServer R N) (state : AskState R N) (filled : state.stored.tables = s.tables)
    (fails : AskStep → Option String) (body : AskBody N) :
    (∀ sent result, Extension.ask server.toAskHost state body = some (sent, result) →
      FromJobs d s.queue.jobs body sent) ∧
    ∀ sent result, server.askHandler fails state body = some (sent, result) →
      FromJobs d s.queue.jobs body sent := by
  have submitted : ∀ chunk ∈ state.stored.tables.chunks,
      Submitted d s.queue.jobs chunk.ns chunk.text := by
    intro chunk stored
    rw [filled] at stored
    exact stored_submitted d numbering finished stored
  constructor
  · intro sent result ran
    exact confined_fromJobs (ask_sourced ran).1 submitted
  · intro sent result ran
    exact confined_fromJobs (handled_sourced ran).1 submitted

section Sample

def helloServer : AskServer Milli Int :=
  .sample Milli (fun _ => .error "") (fun _ _ => .ok ⟨"It says hello [1].", 50, 6⟩)

def helloQuestion : AskBody Int := ⟨"what", none, 10, "docs", 1, none⟩

def docsConfiguration : Configuration :=
  { Configuration.single "sk-plain" with
    namespaces := [⟨"docs", none⟩]
    namespacesPkey := by decide }

theorem hello_sent : ∃ s, Transition.run (step twoWorkers)
      { queue := { now := 0 }, tables := { namespaces := ["docs"] } } crashingRun = some s ∧
    ∃ state sent result,
      Extension.ask helloServer.toAskHost state helloQuestion = some (sent, result) ∧
        sent.length = 1 ∧ FromJobs twoWorkers s.queue.jobs helloQuestion sent := by
  have asks : ∃ s, Transition.run (step twoWorkers)
        { queue := { now := 0 }, tables := { namespaces := ["docs"] } } crashingRun = some s ∧
      ∃ state : AskState Milli Int, state.stored.tables = s.tables ∧
        ((Extension.ask helloServer.toAskHost state helloQuestion).any
          fun ended => ended.1.length = 1) = true :=
    ⟨_, rfl, ⟨⟨_, fun _ => .object []⟩, ⟨by decide, by decide⟩, docsConfiguration,
      fun _ => .object [], rfl⟩, rfl, by decide +kernel⟩
  rcases asks with ⟨s, finished, state, filled, asked⟩
  rcases ran : Extension.ask helloServer.toAskHost state helloQuestion with _ | ⟨sent, result⟩
  · rw [ran] at asked
    cases asked
  · rw [ran] at asked
    have provenance := ask_provenance twoWorkers twoWorkers_numbering 0 ["docs"] crashingRun s finished
      helloServer state filled calm helloQuestion
    exact ⟨s, finished, state, sent, result, ran, of_decide_eq_true asked,
      provenance.1 sent result ran⟩

end Sample

end PgRaggraph.Sidecar
