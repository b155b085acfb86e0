import PgRaggraph.Core.Similarity
import PgRaggraph.Core.FakeRuns
import PgRaggraph.Core.Samples
import PgRaggraph.Library.Nearest

/-! Sequences of `resolve_or_insert_entity` calls over `FakePgClient`, in exact arithmetic. -/

namespace PgRaggraph

open Interaction Interaction.Fallible Nearest

structure Mention (R : Type) where
  name : String
  kind : Option String
  emb : List R
  description : Option String

def resolveAndCommit {R : Type} [F32 R] (ns : String) (m : Mention R) : Job R Uuid := do
  let id ← resolveOrInsertEntity ns m.name m.kind m.emb m.description
  commit
  pure id

def Mention.row {R : Type} (m : Mention R) (ns : String) (id : Uuid) : EntityRow R :=
  { id := id, ns := ns, name := m.name, kind := m.kind, nameEmb := some m.emb,
    description := m.description }

namespace FakePgClient

section Definitions

variable {R : Type} [F32 R] (rt : Runtime) (env : Environment R) (ns : String)

def resolve (state : FakePgClient R × Nat) (m : Mention R) :
    CoreResult Uuid × (FakePgClient R × Nat) :=
  perform rt env (resolveAndCommit ns m).run state

def resolved (ms : List (Mention R)) : FakePgClient R × Nat :=
  ms.foldl (fun state m => (resolve rt env ns state m).2) ({}, 0)

end Definitions

section Search

variable (rt : Runtime)

noncomputable def closeness (m : Mention ℝ) (e : EntityRow ℝ) : ℝ := trgmSim rt e.name m.name

noncomputable def merges (m : Mention ℝ) (e : EntityRow ℝ) : Bool :=
  clears m.emb
    { id := e.id, name := e.name, trgmSimilarity := closeness rt m e, nameEmb := e.nameEmb }

noncomputable def found (entities : List (EntityRow ℝ)) (m : Mention ℝ) : Option (EntityRow ℝ) :=
  search (closeness rt m) (merges rt m) trgmCandidateLimit entities

theorem candidates_found (ns : String) {entities : List (EntityRow ℝ)}
    (own : ∀ e ∈ entities, e.ns = ns) (m : Mention ℝ) :
    ((candidatesOf (trgmSim rt) entities ns m.name trgmCandidateLimit).find?
      (clears m.emb)).map (·.id) = (found rt entities m).map (·.id) := by
  have kept : entities.filter (fun e => e.ns == ns) = entities := by
    rw [List.filter_eq_self]
    intro e member
    simp [own e member]
  have ranked : sortCandidates (entities.map (fun e =>
        ({ id := e.id, name := e.name, trgmSimilarity := trgmSim rt e.name m.name,
           nameEmb := e.nameEmb } : EntityCandidate ℝ))) =
      (Ranking.rankBy (closeness rt m) entities).map (fun e =>
        { id := e.id, name := e.name, trgmSimilarity := trgmSim rt e.name m.name,
          nameEmb := e.nameEmb }) := by
    refine (List.map_insertionSort _ _ _ _ ?_).symm
    intro a _ b _
    exact (decide_eq_false_iff_not.trans not_lt).symm
  rw [candidatesOf, kept, ranked, ← List.map_take, List.find?_map, Option.map_map]
  rfl

theorem resolve_eq (env : Environment ℝ) (ns : String) {entities : List (EntityRow ℝ)}
    (own : ∀ e ∈ entities, e.ns = ns) (tick : Nat) (m : Mention ℝ) :
    resolve rt env ns ({ entities := entities }, tick) m =
      match found rt entities m with
      | some e => (.ok e.id, ({ entities := entities }, tick))
      | none => (.ok (env.newUuid tick),
          ({ entities := entities ++ [m.row ns (env.newUuid tick)] }, tick + 1)) := by
  have same := candidates_found rt ns own m
  have performed : ∀ expected, Program.wp (handler rt env).spec (resolveAndCommit ns m).run
      ({ entities := entities }, tick) (fun result after => (result, after) = expected) →
        resolve rt env ns ({ entities := entities }, tick) m = expected :=
    fun expected meets => perform_meets rt env _ _ meets
  apply performed
  rw [resolveAndCommit, resolveOrInsertEntity]
  simp only [Fallible.wp_bind, wp_fuzzyMatchEntity, spec_client, handle]
  cases hit : found rt entities m with
  | some e =>
      rw [hit, Option.map_some, Option.map_eq_some_iff] at same
      rcases same with ⟨c, first, sameId⟩
      simp only [first, Fallible.wp_pure, wp_commit, spec_client, handle, List.append_nil, sameId]
  | none =>
      rw [hit, Option.map_none, Option.map_eq_none_iff] at same
      simp only [same, Fallible.wp_bind, Fallible.wp_lift, wp_newUuid, spec_env, wp_insertEntity,
        spec_client, handle, Fallible.wp_pure, wp_commit, Environment.answer, List.nil_append,
        List.append_nil, Mention.row]

end Search

section Runs

structure Filed (env : Environment ℝ) (ns : String) (entities : List (EntityRow ℝ)) (tick : Nat) :
    Prop where
  own : ∀ e ∈ entities, e.ns = ns
  distinct : (entities.map (·.id)).Nodup
  drawn : ∀ e ∈ entities, ∃ k < tick, env.newUuid k = e.id

variable {rt : Runtime} {env : Environment ℝ} {ns : String} {entities : List (EntityRow ℝ)}
  {tick : Nat} {m : Mention ℝ}

theorem Filed.insert (filed : Filed env ns entities tick) (m : Mention ℝ) :
    Filed env ns (entities ++ [m.row ns (env.newUuid tick)]) (tick + 1) where
  own := by
    intro e member
    rcases List.mem_append.mp member with earlier | new
    · exact filed.own e earlier
    · rw [List.mem_singleton.mp new, Mention.row]
  distinct := by
    rw [List.map_append, List.map_singleton, List.nodup_append]
    refine ⟨filed.distinct, List.nodup_singleton _, ?_⟩
    intro id stored new isNew same
    rcases List.mem_map.mp stored with ⟨e, member, rfl⟩
    rcases filed.drawn e member with ⟨k, before, drawn⟩
    have tie : env.newUuid k = env.newUuid tick := by
      rw [drawn, same, List.mem_singleton.mp isNew, Mention.row]
    exact absurd (env.fresh tie) before.ne
  drawn := by
    intro e member
    rcases List.mem_append.mp member with earlier | new
    · rcases filed.drawn e earlier with ⟨k, before, drawn⟩
      exact ⟨k, Nat.lt_succ_of_lt before, drawn⟩
    · rw [List.mem_singleton.mp new, Mention.row]
      exact ⟨tick, Nat.lt_succ_self tick, rfl⟩

theorem resolve_filed (rt : Runtime) (filed : Filed env ns entities tick) (m : Mention ℝ) :
    ∃ more later, (resolve rt env ns ({ entities := entities }, tick) m).2 =
        ({ entities := entities ++ more }, later) ∧ Filed env ns (entities ++ more) later := by
  rw [resolve_eq rt env ns filed.own]
  cases found rt entities m with
  | some e => exact ⟨[], tick, by rw [List.append_nil], by rwa [List.append_nil]⟩
  | none => exact ⟨_, tick + 1, rfl, filed.insert m⟩

theorem calls_filed (rt : Runtime) (filed : Filed env ns entities tick)
    (ms : List (Mention ℝ)) :
    ∃ more later, ms.foldl (fun state m => (resolve rt env ns state m).2)
        ({ entities := entities }, tick) = ({ entities := entities ++ more }, later) ∧
      Filed env ns (entities ++ more) later := by
  induction ms generalizing entities tick with
  | nil => exact ⟨[], tick, by rw [List.append_nil, List.foldl_nil], by rwa [List.append_nil]⟩
  | cons m ms ih =>
      rcases resolve_filed rt filed m with ⟨first, middle, stepped, filed⟩
      rcases ih filed with ⟨more, later, ran, filed⟩
      rw [List.append_assoc] at ran filed
      exact ⟨first ++ more, later, by rw [List.foldl_cons, stepped, ran], filed⟩

theorem resolved_filed (rt : Runtime) (env : Environment ℝ) (ns : String) (ms : List (Mention ℝ)) :
    ∃ entities tick, resolved rt env ns ms = ({ entities := entities }, tick) ∧
      Filed env ns entities tick := by
  have start : Filed env ns [] 0 := ⟨nofun, List.nodup_nil, nofun⟩
  rcases calls_filed rt start ms with ⟨more, later, ran, filed⟩
  exact ⟨more, later, ran, filed⟩

theorem merges_own (rt : Runtime) (ns : String) (id : Uuid) (nonzero : ∃ x ∈ m.emb, x ≠ 0) :
    merges rt m (m.row ns id) = true := by
  have name : ¬ closeness rt m (m.row ns id) < trgmMerge := by
    rw [closeness, Mention.row, trgmSim_same rt rfl, trgmMerge_eq]
    norm_num
  have emb : (cosineMerge : ℝ) ≤ cosine m.emb m.emb := by
    rw [cosine_self nonzero, cosineMerge_eq]
    norm_num
  rw [merges, clears, Bool.and_eq_true, Bool.not_eq_true']
  exact ⟨decide_eq_false name, decide_eq_true emb⟩

theorem call_found (rt : Runtime) (filed : Filed env ns entities tick)
    (nonzero : ∃ x ∈ m.emb, x ≠ 0) :
    ∃ older e newer later,
      resolve rt env ns ({ entities := entities }, tick) m =
        (.ok e.id, ({ entities := older ++ e :: newer }, later)) ∧
      Filed env ns (older ++ e :: newer) later ∧ merges rt m e = true ∧
      ((ahead (closeness rt m) older e newer).length < trgmCandidateLimit →
        ∀ a ∈ ahead (closeness rt m) older e newer, merges rt m a = false) := by
  rw [resolve_eq rt env ns filed.own]
  cases hit : found rt entities m with
  | some e =>
      rcases List.append_of_mem (search_mem hit) with ⟨older, newer, rfl⟩
      have first := (search_eq_some_iff filed.distinct.of_map).mp hit
      exact ⟨older, e, newer, tick, rfl, filed, first.1, fun _ => first.2.2⟩
  | none =>
      refine ⟨entities, _, [], tick + 1, rfl, filed.insert m, merges_own rt ns _ nonzero, ?_⟩
      have last : ahead (closeness rt m) entities (m.row ns (env.newUuid tick)) [] =
          entities.filter (fun a =>
            closeness rt m (m.row ns (env.newUuid tick)) ≤ closeness rt m a) := by
        rw [ahead, List.filter_nil, List.append_nil]
      rw [last]
      exact search_eq_none hit _

/-- Fewer stored rows than the limit are ranked before the row `id`, and none of those stored after
the first `since` rows merges. -/
def StillFirst (rt : Runtime) (m : Mention ℝ) (since : Nat) (entities : List (EntityRow ℝ))
    (id : Uuid) : Prop :=
  ∃ older e newer, entities = older ++ e :: newer ∧ e.id = id ∧
    (ahead (closeness rt m) older e newer).length < trgmCandidateLimit ∧
    ∀ later ∈ entities.drop since,
      closeness rt m e < closeness rt m later → merges rt m later = false

theorem found_iff_stillFirst {older newer more : List (EntityRow ℝ)} {e : EntityRow ℝ}
    (filed : Filed env ns (older ++ e :: (newer ++ more)) tick) (merged : merges rt m e = true)
    (earlier : (ahead (closeness rt m) older e newer).length < trgmCandidateLimit →
      ∀ a ∈ ahead (closeness rt m) older e newer, merges rt m a = false) :
    found rt (older ++ e :: (newer ++ more)) m = some e ↔
      StillFirst rt m (older ++ e :: newer).length (older ++ e :: (newer ++ more)) e.id := by
  have distinct := filed.distinct.of_map
  have grown : ahead (closeness rt m) older e (newer ++ more) =
      ahead (closeness rt m) older e newer ++
        more.filter (fun a => closeness rt m e < closeness rt m a) := by
    rw [ahead, ahead, List.filter_append, List.append_assoc]
  have since : (older ++ e :: (newer ++ more)).drop (older ++ e :: newer).length = more := by
    rw [← List.cons_append, ← List.append_assoc, List.drop_left]
  rw [StillFirst, since, found, search_eq_some_iff distinct]
  constructor
  · intro conditions
    refine ⟨older, e, newer ++ more, rfl, rfl, conditions.2.1, ?_⟩
    intro later member closer
    apply conditions.2.2 later
    rw [grown]
    exact List.mem_append_right _ (List.mem_filter.mpr ⟨member, decide_eq_true closer⟩)
  · intro still
    rcases still with ⟨front, other, back, split, sameId, few, new⟩
    have stored : e ∈ older ++ e :: (newer ++ more) := List.mem_append_right _ List.mem_cons_self
    have same : other = e := by
      refine List.inj_on_of_nodup_map filed.distinct ?_ stored sameId
      rw [split]
      exact List.mem_append_right _ List.mem_cons_self
    rw [same] at split few new
    have once := (List.nodup_cons.mp (List.nodup_middle.mp distinct)).1
    rcases (List.append_cons_inj_of_notMem
      (fun member => once (List.mem_append_left _ member))
      (fun member => once (List.mem_append_right _ member))).mp split with ⟨rfl, -, rfl⟩
    refine ⟨merged, few, ?_⟩
    rw [grown, List.length_append] at few
    intro a member
    rw [grown] at member
    rcases List.mem_append.mp member with before | after
    · exact earlier (Nat.lt_of_le_of_lt (Nat.le_add_right _ _) few) a before
    · rcases List.mem_filter.mp after with ⟨recent, closer⟩
      exact new a recent (of_decide_eq_true closer)

/-- A repeated call finds what the first one returned, and stores nothing, exactly where the row
it returned is still the first that the search can merge into. -/
theorem repeated_call_stable_iff (rt : Runtime) (env : Environment ℝ) (ns : String)
    (before between : List (Mention ℝ)) (first second : Mention ℝ)
    (sameName : second.name = first.name) (sameEmb : second.emb = first.emb)
    (nonzero : ∃ x ∈ first.emb, x ≠ 0) :
    let earlier := resolve rt env ns (resolved rt env ns before) first
    let state := resolved rt env ns (before ++ first :: between)
    let later := resolve rt env ns state second
    ∃ id, earlier.1 = .ok id ∧
      ((later.1 = .ok id ∧ later.2 = state) ↔
        StillFirst rt second earlier.2.1.entities.length state.1.entities id) := by
  intro earlier state later
  have close : closeness rt second = closeness rt first := by
    funext e
    rw [closeness, closeness, sameName]
  have alike : merges rt second = merges rt first := by
    funext e
    rw [merges, merges, close, sameEmb]
  rcases resolved_filed rt env ns before with ⟨start, begun, ran, filed⟩
  rcases call_found rt filed nonzero with
    ⟨older, e, newer, middle, called, filed, merged, few⟩
  have returned : earlier = (.ok e.id, ({ entities := older ++ e :: newer }, middle)) := by
    rw [← called, ← ran]
  rcases calls_filed rt filed between with ⟨more, reached, ended, filed⟩
  rw [List.append_assoc, List.cons_append] at ended filed
  have continued : state = ({ entities := older ++ e :: (newer ++ more) }, reached) := by
    have next : earlier.2 = ({ entities := older ++ e :: newer }, middle) := by rw [returned]
    rw [← ended, ← next]
    simp only [earlier, state, resolved, List.foldl_append, List.foldl_cons]
  have answered : later =
      resolve rt env ns ({ entities := older ++ e :: (newer ++ more) }, reached) second := by
    rw [← continued]
  rw [← close, ← alike] at few
  rw [← alike] at merged
  refine ⟨e.id, by rw [returned], ?_⟩
  rw [returned, continued, answered, resolve_eq rt env ns filed.own,
    ← found_iff_stillFirst filed merged few]
  cases hit : found rt (older ++ e :: (newer ++ more)) second with
  | some f =>
      constructor
      · intro both
        have sameId : f.id = e.id := Except.ok.inj both.1
        have stored : e ∈ older ++ e :: (newer ++ more) := List.mem_append_right _ List.mem_cons_self
        rw [List.inj_on_of_nodup_map filed.distinct (search_mem hit) stored sameId]
      · intro same
        rw [Option.some.inj same]
        exact ⟨rfl, rfl⟩
  | none =>
      constructor
      · intro both
        have undrawn : reached + 1 = reached := congrArg Prod.snd both.2
        omega
      · intro absent
        cases absent

def counting : Environment ℝ where
  readFile _ _ := .error "No such file or directory (os error 2)"
  embedBatch _ _ := .ok []
  extract _ _ _ := .ok {}
  newUuid n := n
  fresh := fun _ _ same => same

theorem repeated_call_sample :
    let named (name : String) : Mention ℝ :=
      { name := name, kind := none, emb := [1], description := none }
    let env : Environment ℝ := counting
    let earlier := resolve Runtime.plain env "docs"
      (resolved Runtime.plain env "docs" [named "venus"]) (named "mercury")
    let state := resolved Runtime.plain env "docs"
      ([named "venus"] ++ named "mercury" :: [named "mercury ii", named "mars"])
    let later := resolve Runtime.plain env "docs" state (named "mercury")
    ∃ id, earlier.1 = .ok id ∧
      ((later.1 = .ok id ∧ later.2 = state) ↔
        StillFirst Runtime.plain (named "mercury") earlier.2.1.entities.length state.1.entities
          id) :=
  repeated_call_stable_iff Runtime.plain counting "docs" _ _ _ _ rfl rfl
    ⟨1, List.mem_singleton.mpr rfl, one_ne_zero⟩

section Namesakes

noncomputable def mercury (k : Nat) : Mention ℝ where
  name := "mercury"
  kind := none
  emb := (List.range 9).map (fun i => if i = k then 1 else 0)
  description := none

theorem mercury_nonzero {k : Nat} (sense : k < 9) : ∃ x ∈ (mercury k).emb, x ≠ 0 :=
  ⟨1, List.mem_map.mpr ⟨k, List.mem_range.mpr sense, if_pos rfl⟩, one_ne_zero⟩

theorem mercury_apart {k j : Nat} (different : k ≠ j) (rt : Runtime) (ns : String) (id : Uuid) :
    merges rt (mercury k) ((mercury j).row ns id) = false := by
  have orthogonal : dot (mercury k).emb (mercury j).emb = 0 := by
    rw [dot, mercury, mercury, List.zipWith_map, List.zipWith_self]
    apply List.sum_eq_zero
    intro product member
    rcases List.mem_map.mp member with ⟨i, -, rfl⟩
    by_cases here : i = k
    · simp [here, different]
    · simp [here]
  have far : ¬ (cosineMerge : ℝ) ≤ cosine (mercury k).emb (mercury j).emb := by
    rw [cosine_orthogonal orthogonal, cosineMerge_eq]
    norm_num
  rw [merges, clears, Bool.and_eq_false_iff]
  exact .inr (decide_eq_false far)

noncomputable def sense (k : Nat) : EntityRow ℝ := (mercury k).row "docs" k

theorem sense_missed {n k : Nat} (beyond : min trgmCandidateLimit n ≤ k) :
    found Runtime.plain ((List.range n).map sense) (mercury k) = none := by
  have tied : ∀ a ∈ (List.range n).map sense, ∀ b ∈ (List.range n).map sense,
      closeness Runtime.plain (mercury k) a = closeness Runtime.plain (mercury k) b := by
    intro a member b member'
    rcases List.mem_map.mp member with ⟨i, -, rfl⟩
    rcases List.mem_map.mp member' with ⟨j, -, rfl⟩
    rfl
  rw [found, search, rankBy_tied tied, ← List.map_take, List.take_range,
    List.find?_eq_none]
  intro e member
  rcases List.mem_map.mp member with ⟨j, searched, rfl⟩
  have different : k ≠ j := by
    have before := List.mem_range.mp searched
    omega
  simp [sense, mercury_apart different]

theorem sense_inserted {n k : Nat} (beyond : min trgmCandidateLimit n ≤ k) :
    resolve Runtime.plain counting "docs" ({ entities := (List.range n).map sense }, n)
        (mercury k) =
      (.ok n, ({ entities := (List.range n).map sense ++ [(mercury k).row "docs" n] }, n + 1)) := by
  have own : ∀ e ∈ (List.range n).map sense, e.ns = "docs" := by
    intro e member
    rcases List.mem_map.mp member with ⟨j, -, rfl⟩
    rfl
  rw [resolve_eq Runtime.plain counting "docs" own, sense_missed beyond]
  rfl

theorem senses_stored (n : Nat) :
    resolved Runtime.plain counting "docs" ((List.range n).map mercury) =
      ({ entities := (List.range n).map sense }, n) := by
  induction n with
  | zero => rfl
  | succ n ih =>
      rw [resolved] at ih
      rw [List.range_succ, List.map_append, resolved, List.foldl_append, ih, List.map_singleton,
        List.foldl_cons, List.foldl_nil, sense_inserted (Nat.min_le_right _ _), List.map_append]
      rfl

/-- Nine senses of one name are stored. The ninth is then out of the search's reach, so the call
that stored it stores it again. -/
theorem ninth_sense_duplicated :
    let earlier := resolve Runtime.plain counting "docs"
      (resolved Runtime.plain counting "docs" ((List.range 8).map mercury)) (mercury 8)
    let state := resolved Runtime.plain counting "docs" ((List.range 8).map mercury ++ [mercury 8])
    let later := resolve Runtime.plain counting "docs" state (mercury 8)
    (∃ x ∈ (mercury 8).emb, x ≠ 0) ∧ earlier.1 = .ok 8 ∧ later.1 = .ok 9 ∧
      later.2.1.entities.length = state.1.entities.length + 1 := by
  have all : (List.range 8).map mercury ++ [mercury 8] = (List.range 9).map mercury := rfl
  intro earlier state later
  have first : earlier.1 = .ok 8 := by
    simp only [earlier, senses_stored, sense_inserted (Nat.min_le_left 8 8)]
  have stored : state = ({ entities := (List.range 9).map sense }, 9) := by
    rw [← senses_stored, ← all]
  have second := sense_inserted (n := 9) (k := 8) (by decide)
  rw [← stored] at second
  refine ⟨mercury_nonzero (by decide), first, by rw [show later = _ from second], ?_⟩
  rw [show later = _ from second, stored]
  simp

end Namesakes

end Runs

end FakePgClient

end PgRaggraph
