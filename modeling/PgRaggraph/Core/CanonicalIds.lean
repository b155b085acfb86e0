import PgRaggraph.Core.ResolveRuns

/-! The parity entry point and its agreement with the production resolver. -/

namespace PgRaggraph

open Interaction Nearest

section Definitions

variable {R : Type} [F32 R]

def byteSums {R : Type} [Zero R] [NatCast R] [Add R] (bytes : List UInt8) : List R :=
  bytes.zipIdx.foldl (fun v entry => v.modify (entry.2 % 8) (· + (entry.1.toNat : R)))
    (List.replicate 8 0)

def parityNameVec (rt : Runtime) (name : String) : List R :=
  let v : List R := byteSums (rt.toLowercase name).toUTF8.data.toList
  let n := F32.sqrt (sum (v.map (fun x => x * x)))
  if F32.lt 0 n then v.map (· / n) else v

/-- The loop over the candidates, which leaves it at the first one below the threshold. -/
def scanCandidates (canon : List (String × List R)) (emb : List R) :
    List (Nat × R) → Option Nat
  | [] => none
  | (idx, ts) :: rest =>
      if F32.lt ts trgmMerge then none
      else if canon[idx]?.any (fun c => F32.le cosineMerge (cosine emb c.2)) then some idx
      else scanCandidates canon emb rest

structure Canonical (R : Type) where
  canon : List (String × List R) := []
  out : Std.HashMap String Nat := ∅

def Canonical.step (rt : Runtime) (state : Canonical R) (name : String) : Canonical R :=
  let emb := parityNameVec rt name
  let cands := (state.canon.zipIdx.map (fun c => (c.2, trgmSim rt name c.1.1))).insertionSort
    (fun a b => F32.lt a.2 b.2 = false)
  match scanCandidates state.canon emb cands with
  | some idx => { state with out := state.out.insert name idx }
  | none =>
      { canon := state.canon ++ [(name, emb)], out := state.out.insert name state.canon.length }

end Definitions

def resolveCanonicalIds (R : Type) [F32 R] (rt : Runtime) (names : List String) :
    Std.HashMap String Nat :=
  (names.foldl (Canonical.step rt) ({} : Canonical R)).out

section Scan

variable (rt : Runtime)

noncomputable def clearsName (name stored : String) : Bool :=
  !F32.lt (trgmSim (R := ℝ) rt name stored) trgmMerge &&
    F32.le cosineMerge (cosine (parityNameVec (R := ℝ) rt name) (parityNameVec rt stored))

noncomputable def canonOf (led : List String) : List (String × List ℝ) :=
  led.map (fun name => (name, parityNameVec rt name))

variable {rt} {led : List String} {name : String}

theorem scan_eq_find {canon : List (String × List ℝ)} {emb : List ℝ}
    {score : (String × List ℝ) × Nat → ℝ} {accept : (String × List ℝ) × Nat → Bool}
    {cands : List ((String × List ℝ) × Nat)} (indexed : ∀ c ∈ cands, canon[c.2]? = some c.1)
    (accepts : ∀ c ∈ cands, accept c =
      (!F32.lt (score c) trgmMerge && F32.le cosineMerge (cosine emb c.1.2)))
    (sorted : cands.Pairwise (fun a b => score b ≤ score a)) :
    scanCandidates canon emb (cands.map (fun c => (c.2, score c))) =
      (cands.find? accept).map (·.2) := by
  induction cands with
  | nil => rfl
  | cons c cands ih =>
      rcases List.pairwise_cons.mp sorted with ⟨least, sorted⟩
      have later := ih (fun d member => indexed d (List.mem_cons_of_mem _ member))
        (fun d member => accepts d (List.mem_cons_of_mem _ member)) sorted
      rw [List.map_cons, scanCandidates, indexed c List.mem_cons_self]
      by_cases below : score c < trgmMerge
      · have under : ∀ d ∈ c :: cands, F32.lt (score d) trgmMerge = true := by
          intro d member
          rcases List.mem_cons.mp member with rfl | after
          · exact decide_eq_true below
          · exact decide_eq_true ((least d after).trans_lt below)
        have missed : (c :: cands).find? accept = none := by
          rw [List.find?_eq_none]
          intro d member
          simp [accepts d member, under d member]
        rw [missed, if_pos (under c List.mem_cons_self), Option.map_none]
      · have reached : F32.lt (score c) trgmMerge = false := decide_eq_false below
        rw [reached, if_neg Bool.false_ne_true, Option.any_some, List.find?_cons,
          accepts c List.mem_cons_self, reached, later]
        cases F32.le cosineMerge (cosine emb c.1.2) with
        | true => rfl
        | false => rfl

theorem scan_best (rt : Runtime) (led : List String) (name : String) :
    ∃ hit : Option ((String × List ℝ) × Nat),
      scanCandidates (canonOf rt led) (parityNameVec rt name)
        (((canonOf rt led).zipIdx.map
          (fun c => (c.2, trgmSim (R := ℝ) rt name c.1.1))).insertionSort
            (fun a b => F32.lt a.2 b.2 = false)) = hit.map (·.2) ∧
      best (trgmSim (R := ℝ) rt) (clearsName rt) name led = hit.map (·.1.1) ∧
      ∀ c, hit = some c → led[c.2]? = some c.1.1 := by
  let score : (String × List ℝ) × Nat → ℝ := fun c => trgmSim rt name c.1.1
  let ranked := Ranking.rankBy score (canonOf rt led).zipIdx
  have indexed : ∀ c ∈ ranked, (canonOf rt led)[c.2]? = some c.1 := by
    intro c member
    exact List.mem_zipIdx_iff_getElem?.mp (mem_rankBy.mp member)
  have sorted : ((canonOf rt led).zipIdx.map
      (fun c => (c.2, trgmSim (R := ℝ) rt name c.1.1))).insertionSort
        (fun a b => F32.lt a.2 b.2 = false) = ranked.map (fun c => (c.2, score c)) := by
    refine (List.map_insertionSort _ _ _ _ ?_).symm
    intro a _ b _
    exact (decide_eq_false_iff_not.trans not_lt).symm
  have names : (canonOf rt led).zipIdx.map (fun c => c.1.1) = led := by
    rw [show (fun c : (String × List ℝ) × Nat => c.1.1) = Prod.fst ∘ Prod.fst from rfl,
      ← List.map_map, List.zipIdx_map_fst, canonOf, List.map_map]
    exact List.map_id led
  refine ⟨ranked.find? (fun c => clearsName rt name c.1.1), ?_, ?_, ?_⟩
  · rw [sorted]
    refine scan_eq_find indexed ?_ (Ranking.rankBy_ranks score _).sorted
    intro c member
    rcases List.mem_map.mp (List.mem_of_getElem? (indexed c member)) with ⟨stored, -, same⟩
    rw [clearsName, ← same]
    simp only [score, ← same]
  · rw [best, ← names, rankBy_map, List.find?_map]
    rfl
  · intro c found
    have here := indexed c (List.mem_of_find?_eq_some found)
    rw [canonOf, List.getElem?_map, Option.map_eq_some_iff] at here
    rcases here with ⟨stored, placed, same⟩
    rw [placed, ← same]

theorem step_joined (out : Std.HashMap String Nat) {leader : String}
    (found : best (trgmSim (R := ℝ) rt) (clearsName rt) name led = some leader) :
    ∃ idx, led[idx]? = some leader ∧
      Canonical.step rt { canon := canonOf rt led, out := out } name =
        { canon := canonOf rt led, out := out.insert name idx } := by
  rcases scan_best rt led name with ⟨hit, scanned, searched, placed⟩
  rw [searched, Option.map_eq_some_iff] at found
  rcases found with ⟨c, here, rfl⟩
  refine ⟨c.2, placed c here, ?_⟩
  simp only [Canonical.step, scanned, here, Option.map_some]

theorem step_extended (out : Std.HashMap String Nat)
    (missed : best (trgmSim (R := ℝ) rt) (clearsName rt) name led = none) :
    Canonical.step rt { canon := canonOf rt led, out := out } name =
      { canon := canonOf rt (led ++ [name]), out := out.insert name led.length } := by
  rcases scan_best rt led name with ⟨hit, scanned, searched, -⟩
  rw [searched, Option.map_eq_none_iff] at missed
  simp only [Canonical.step, scanned, missed, Option.map_none]
  simp [canonOf]

end Scan

section Canonical

def Placed (led : List String) (leader : String) (label : Option Nat) : Prop :=
  ∃ idx, label = some idx ∧ led[idx]? = some leader

theorem placed_biUnique {led : List String} (distinct : led.Nodup) :
    Relator.BiUnique (Placed led) := by
  constructor
  · intro leader label other first second
    rcases first with ⟨idx, rfl, here⟩
    rcases second with ⟨idx', same, there⟩
    rw [← Option.some.inj same, here] at there
    exact Option.some.inj there
  · intro leader label other first second
    rcases first with ⟨idx, rfl, here⟩
    rcases second with ⟨idx', rfl, there⟩
    have inside : idx < led.length := (List.getElem?_eq_some_iff.mp here).1
    rw [(List.getElem?_inj inside distinct).mp (here.trans there.symm)]

theorem canonical_run (rt : Runtime) {led rest : List String} (out : Std.HashMap String Nat)
    (distinct : (led ++ rest).Nodup) :
    let final := rest.foldl (Canonical.step rt) { canon := canonOf rt led, out := out }
    ∃ more, more.Sublist rest ∧ (∀ name, name ∉ rest → final.out[name]? = out[name]?) ∧
      List.Forall₂ (Placed (led ++ more))
        (groups (best (trgmSim (R := ℝ) rt) (clearsName rt)) led rest)
        (rest.map (fun name => final.out[name]?)) := by
  induction rest generalizing led out with
  | nil => exact ⟨[], List.Sublist.refl [], fun _ _ => rfl, List.Forall₂.nil⟩
  | cons name rest ih =>
      have apart := List.nodup_cons.mp (List.nodup_middle.mp distinct)
      have absent : name ∉ rest := fun member => apart.1 (List.mem_append_right _ member)
      have kept : ∀ other idx, other ∉ name :: rest →
          (out.insert name idx)[other]? = out[other]? := by
        intro other idx outside
        have different : name ≠ other := fun same => outside (same ▸ List.mem_cons_self)
        rw [Std.HashMap.getElem?_insert]
        simp [different]
      intro final
      cases found : best (trgmSim (R := ℝ) rt) (clearsName rt) name led with
      | some leader =>
          rcases step_joined out found with ⟨idx, here, stepped⟩
          rcases ih (out.insert name idx) apart.2 with ⟨more, sub, same, related⟩
          rw [← stepped] at same related
          have labelled : Placed (led ++ more) leader final.out[name]? := by
            refine ⟨idx, (same name absent).trans ?_, ?_⟩
            · rw [Std.HashMap.getElem?_insert_self]
            · rw [List.getElem?_append_left (List.getElem?_eq_some_iff.mp here).1, here]
          refine ⟨more, sub.cons name, ?_, ?_⟩
          · intro other outside
            exact (same other (fun member => outside (List.mem_cons_of_mem _ member))).trans
              (kept other idx outside)
          · simp only [groups, found]
            exact List.Forall₂.cons labelled related
      | none =>
          have stepped := step_extended out found
          have extended : (led ++ [name] ++ rest).Nodup := by simpa using distinct
          rcases ih (out.insert name led.length) extended with ⟨more, sub, same, related⟩
          rw [← stepped] at same related
          rw [List.append_assoc, List.singleton_append] at related
          have labelled : Placed (led ++ name :: more) name final.out[name]? := by
            refine ⟨led.length, (same name absent).trans ?_, ?_⟩
            · rw [Std.HashMap.getElem?_insert_self]
            · simp
          refine ⟨name :: more, sub.cons_cons name, ?_, ?_⟩
          · intro other outside
            exact (same other (fun member => outside (List.mem_cons_of_mem _ member))).trans
              (kept other led.length outside)
          · simp only [groups, found]
            exact List.Forall₂.cons labelled related

end Canonical

section Exact

variable {rt : Runtime}

theorem byteSums_length (bytes : List UInt8) : (byteSums bytes : List ℕ).length = 8 := by
  have kept : ∀ (entries : List (UInt8 × ℕ)) (v : List ℕ),
      (entries.foldl (fun v entry => v.modify (entry.2 % 8) (· + entry.1.toNat)) v).length =
        v.length := by
    intro entries v
    induction entries generalizing v with
    | nil => rfl
    | cons entry entries ih => rw [List.foldl_cons, ih, List.length_modify]
  exact kept _ _

theorem map_modify_cast (v : List ℕ) (i n : ℕ) :
    (v.modify i (· + n)).map (fun n : ℕ => (n : ℝ)) =
      (v.map (fun n : ℕ => (n : ℝ))).modify i (· + (n : ℝ)) := by
  induction v generalizing i with
  | nil => simp
  | cons x v ih =>
      cases i with
      | zero => simp
      | succ i => simp [ih]

theorem byteSums_cast (bytes : List UInt8) : (byteSums bytes : List ℝ) =
    (byteSums bytes : List ℕ).map (fun n : ℕ => (n : ℝ)) := by
  have zero : List.replicate 8 (0 : ℝ) = (List.replicate 8 (0 : ℕ)).map (fun n : ℕ => (n : ℝ)) := by
    simp
  rw [byteSums, byteSums, zero]
  apply List.foldl_hom
  intro v entry
  exact (map_modify_cast v _ _).symm

def paritySums (rt : Runtime) (name : String) : List ℕ :=
  byteSums (rt.toLowercase name).toUTF8.data.toList

def parityDot (rt : Runtime) (name stored : String) : ℕ :=
  natDot (paritySums rt name) (paritySums rt stored)

/-- The cosine threshold in exact arithmetic, without a root or a quotient. -/
def vectorsClose (rt : Runtime) (name stored : String) : Bool :=
  81 * (parityDot rt name name * parityDot rt stored stored) ≤
    100 * (parityDot rt name stored * parityDot rt name stored)

theorem parityNameVec_eq {name : String} (nonzero : 0 < parityDot rt name name) :
    let v := (paritySums rt name).map (fun n : ℕ => (n : ℝ))
    parityNameVec rt name = v.map (· / √(dot v v)) := by
  intro v
  have cast : (byteSums (rt.toLowercase name).toUTF8.data.toList : List ℝ) = v := byteSums_cast _
  have length : F32.sqrt (sum (v.map (fun x => x * x))) = √(dot v v) := by
    rw [dot_self, ← sum_eq]
    rfl
  have positive : 0 < √(dot v v) := by
    rw [dot_cast]
    exact Real.sqrt_pos.mpr (Nat.cast_pos.mpr nonzero)
  have scaled : F32.lt 0 √(dot v v) = true := decide_eq_true positive
  have unfolded : ∀ w : List ℝ, byteSums (rt.toLowercase name).toUTF8.data.toList = w →
      parityNameVec rt name =
        if F32.lt 0 (F32.sqrt (sum (w.map (fun x => x * x)))) then
          w.map (· / F32.sqrt (sum (w.map (fun x => x * x))))
        else w := by
    intro w same
    rw [← same]
    rfl
  rw [unfolded v cast, length, if_pos scaled]

theorem cosineMerge_le_parity {name stored : String} (left : 0 < parityDot rt name name)
    (right : 0 < parityDot rt stored stored) :
    (cosineMerge : ℝ) ≤ cosine (parityNameVec rt name) (parityNameVec rt stored) ↔
      vectorsClose rt name stored = true := by
  have lengths : ((paritySums rt name).map (fun n : ℕ => (n : ℝ))).length =
      ((paritySums rt stored).map (fun n : ℕ => (n : ℝ))).length := by
    simp [paritySums, byteSums_length]
  have left' : (0 : ℝ) < natDot (paritySums rt name) (paritySums rt name) := Nat.cast_pos.mpr left
  have right' : (0 : ℝ) < natDot (paritySums rt stored) (paritySums rt stored) :=
    Nat.cast_pos.mpr right
  rw [← dot_cast] at left' right'
  rw [parityNameVec_eq left, parityNameVec_eq right, cosine_scaled lengths left' right',
    cosineMerge_le_iff lengths left' right' (by rw [dot_cast]; exact Nat.cast_nonneg _),
    vectorsClose, decide_eq_true_iff]
  simp only [dot_cast, parityDot]
  exact_mod_cast Iff.rfl

theorem clearsName_tied {name stored : String} (tied : trgmSim (R := ℝ) rt name stored = 1)
    (left : 0 < parityDot rt name name) (right : 0 < parityDot rt stored stored) :
    clearsName rt name stored = vectorsClose rt name stored := by
  have reached : ¬ (1 : ℝ) < trgmMerge := by
    rw [trgmMerge_eq]
    norm_num
  rw [clearsName, tied, real_lt, real_le, decide_eq_false reached, Bool.not_false, Bool.true_and,
    Bool.eq_iff_iff, decide_eq_true_eq]
  exact cosineMerge_le_parity left right

end Exact

namespace FakePgClient

section Definitions

variable {R : Type} [F32 R]

def resolveEach (rt : Runtime) (env : Environment R) (ns : String) :
    FakePgClient R × Nat → List (Mention R) → List (CoreResult Uuid)
  | _, [] => []
  | state, m :: ms =>
      (resolve rt env ns state m).1 :: resolveEach rt env ns (resolve rt env ns state m).2 ms

def parityMention (rt : Runtime) (kind description : String → Option String) (name : String) :
    Mention R :=
  { name := name, kind := kind name, emb := parityNameVec rt name, description := description name }

end Definitions

section Production

def Named (entities : List (EntityRow ℝ)) (leader : String) (label : CoreResult Uuid) : Prop :=
  ∃ e ∈ entities, e.name = leader ∧ label = .ok e.id

structure Led (rt : Runtime) (led : List String) (entities : List (EntityRow ℝ)) : Prop where
  names : entities.map (·.name) = led
  vectors : ∀ e ∈ entities, e.nameEmb = some (parityNameVec rt e.name)

variable {rt : Runtime} {env : Environment ℝ} {ns : String} {led : List String}
  {entities : List (EntityRow ℝ)} {tick : Nat} {kind description : String → Option String}

theorem named_biUnique (filed : Filed env ns entities tick)
    (distinct : (entities.map (·.name)).Nodup) : Relator.BiUnique (Named entities) := by
  constructor
  · intro leader label other first second
    rcases first with ⟨e, member, rfl, rfl⟩
    rcases second with ⟨f, member', rfl, same⟩
    rw [List.inj_on_of_nodup_map filed.distinct member member' (Except.ok.inj same)]
  · intro leader label other first second
    rcases first with ⟨e, member, rfl, rfl⟩
    rcases second with ⟨f, member', same, rfl⟩
    rw [List.inj_on_of_nodup_map distinct member' member same]

theorem found_nearest (kind description : String → Option String) (holds : Led rt led entities)
    (name : String) :
    (found rt entities (parityMention rt kind description name)).map (·.name) =
      nearest (trgmSim (R := ℝ) rt) (clearsName rt) trgmCandidateLimit name led := by
  have close : closeness rt (parityMention rt kind description name) =
      trgmSim rt name ∘ (fun e : EntityRow ℝ => e.name) := by
    funext e
    exact trgmSim_comm rt e.name name
  have agree : ∀ e ∈ entities, merges rt (parityMention rt kind description name) e =
      (clearsName rt name ∘ (fun e : EntityRow ℝ => e.name)) e := by
    intro e member
    rw [merges, clears, close, holds.vectors e member]
    rfl
  rw [nearest, ← holds.names, search_map, ← search_congr agree, ← close]
  rfl

theorem Led.insert (holds : Led rt led entities) (name : String) (id : Uuid) :
    Led rt (led ++ [name])
      (entities ++ [(parityMention rt kind description name).row ns id]) where
  names := by
    rw [List.map_append, holds.names]
    rfl
  vectors := by
    intro e member
    rcases List.mem_append.mp member with earlier | new
    · exact holds.vectors e earlier
    · rw [List.mem_singleton.mp new]
      rfl

theorem production_run (kind description : String → Option String)
    (filed : Filed env ns entities tick) (holds : Led rt led entities) {rest : List String}
    (distinct : (led ++ rest).Nodup) :
    ∃ more later, Filed env ns (entities ++ more) later ∧ (more.map (·.name)).Sublist rest ∧
      List.Forall₂ (Named (entities ++ more))
        (groups (nearest (trgmSim (R := ℝ) rt) (clearsName rt) trgmCandidateLimit) led rest)
        (resolveEach rt env ns ({ entities := entities }, tick)
          (rest.map (parityMention rt kind description))) := by
  induction rest generalizing led entities tick with
  | nil => exact ⟨[], tick, by rwa [List.append_nil], List.Sublist.refl [], List.Forall₂.nil⟩
  | cons name rest ih =>
      have apart := List.nodup_cons.mp (List.nodup_middle.mp distinct)
      have search := found_nearest kind description holds name
      rw [List.map_cons, resolveEach, resolve_eq rt env ns filed.own]
      cases hit : found rt entities (parityMention rt kind description name) with
      | some e =>
          rw [hit, Option.map_some] at search
          rcases ih filed holds apart.2 with ⟨more, later, filed, sub, related⟩
          refine ⟨more, later, filed, sub.cons name, ?_⟩
          simp only [groups, ← search]
          have named : Named (entities ++ more) e.name (.ok e.id) :=
            ⟨e, List.mem_append_left _ (search_mem hit), rfl, rfl⟩
          exact List.Forall₂.cons named related
      | none =>
          rw [hit, Option.map_none] at search
          have extended : (led ++ [name] ++ rest).Nodup := by simpa using distinct
          rcases ih (filed.insert _) (holds.insert name _) extended with
            ⟨more, later, filed, sub, related⟩
          rw [List.append_assoc, List.singleton_append] at filed related
          refine ⟨_ :: more, later, filed, sub.cons_cons name, ?_⟩
          simp only [groups, ← search]
          have named : Named (entities ++ (parityMention rt kind description name).row ns
              (env.newUuid tick) :: more) name (.ok (env.newUuid tick)) :=
            ⟨_, List.mem_append_right _ List.mem_cons_self, rfl, rfl⟩
          exact List.Forall₂.cons named related

theorem labels_renamed (rt : Runtime) (env : Environment ℝ) (ns : String)
    (kind description : String → Option String) {names : List String} (distinct : names.Nodup) :
    SameGroups ((groups (best (trgmSim (R := ℝ) rt) (clearsName rt)) [] names).zip
        (groups (nearest (trgmSim (R := ℝ) rt) (clearsName rt) trgmCandidateLimit) [] names)) ↔
      SameGroups ((names.map (fun name => (resolveCanonicalIds ℝ rt names)[name]?)).zip
        (resolveEach rt env ns ({}, 0) (names.map (parityMention rt kind description)))) := by
  have apart : (([] : List String) ++ names).Nodup := distinct
  have start : Filed env ns [] 0 := ⟨nofun, List.nodup_nil, nofun⟩
  have empty : Led rt [] [] := ⟨rfl, nofun⟩
  rcases canonical_run rt ∅ apart with ⟨led, leading, -, canonical⟩
  rcases production_run kind description start empty apart with
    ⟨entities, later, filed, stored, production⟩
  exact sameGroups_renamed (placed_biUnique (leading.nodup distinct))
    (named_biUnique filed (stored.nodup distinct)) (forall₂_zip_zip canonical production)

/-- The parity entry point groups the names as the production resolver does exactly where no name
has its only merges beyond the candidate limit. -/
theorem parity_agrees_iff (rt : Runtime) (env : Environment ℝ) (ns : String)
    (kind description : String → Option String) (names : List String) (distinct : names.Nodup) :
    SameGroups ((names.map (fun name => (resolveCanonicalIds ℝ rt names)[name]?)).zip
        (resolveEach rt env ns ({}, 0) (names.map (parityMention rt kind description)))) ↔
      Within (trgmSim (R := ℝ) rt) (clearsName rt) trgmCandidateLimit [] names := by
  have apart : (([] : List String) ++ names).Nodup := distinct
  rw [← labels_renamed rt env ns kind description distinct]
  exact sameGroups_iff_within apart

theorem parity_agrees_sample :
    SameGroups ((["postgres", "pgvector"].map (fun name =>
        (resolveCanonicalIds ℝ Runtime.plain ["postgres", "pgvector"])[name]?)).zip
      (resolveEach Runtime.plain counting "docs" ({}, 0) (["postgres", "pgvector"].map
        (parityMention Runtime.plain (fun _ => none) (fun _ => none))))) ↔
    Within (trgmSim (R := ℝ) Runtime.plain) (clearsName Runtime.plain) trgmCandidateLimit []
      ["postgres", "pgvector"] :=
  parity_agrees_iff Runtime.plain counting "docs" _ _ _ (by decide)

def variants : List String :=
  ["!!!z!!!!z!!!", "!!!!!z!!z!!!", "!!!!z!!!!z!!", "!!!!!z!!!z!!", "!!!!!!z!!z!!", "!!z!!z!!!!!!",
    "!!z!!!z!!!!!", "!!z!!!!z!!!!", "!!!!z!!!z!!!", "!!!!z!!!z!!!!"]

theorem variants_tied {a b : String} (first : a ∈ variants) (second : b ∈ variants) :
    trgmSim (R := ℝ) Runtime.plain a b = 1 := by
  have same : ∀ name ∈ variants,
      trigramSet Runtime.plain name = trigramSet Runtime.plain "!!!z!!!!z!!!" := by
    decide +kernel
  exact trgmSim_same Runtime.plain ((same a first).trans (same b second).symm)

theorem variants_exact {a b : String} (first : a ∈ variants) (second : b ∈ variants) :
    clearsName Runtime.plain a b = vectorsClose Runtime.plain a b := by
  have nonzero : ∀ name ∈ variants, 0 < parityDot Runtime.plain name name := by
    decide +kernel
  exact clearsName_tied (variants_tied first second) (nonzero a first) (nonzero b second)

/-- The entry point puts the tenth name with the ninth; the production resolver, which looks at the
first eight of nine equally similar rows, inserts it. -/
theorem variants_disagree : variants.Nodup ∧
    ¬ SameGroups ((variants.map
        (fun name => (resolveCanonicalIds ℝ Runtime.plain variants)[name]?)).zip
      (resolveEach Runtime.plain counting "docs" ({}, 0)
        (variants.map (parityMention Runtime.plain (fun _ => none) (fun _ => none))))) := by
  have distinct : variants.Nodup := by decide
  refine ⟨distinct, fun same => ?_⟩
  have apart : (([] : List String) ++ variants).Nodup := distinct
  have within : Within (trgmSim (R := ℝ) Runtime.plain) (clearsName Runtime.plain)
      trgmCandidateLimit [] variants := by
    apply (sameGroups_iff_within apart).mp
    exact (labels_renamed Runtime.plain counting "docs" _ _ distinct).mpr same
  have inside : ∀ name ∈ variants.take 9, name ∈ variants := fun name => List.mem_of_mem_take
  have led : leaders (clearsName Runtime.plain) [] (variants.take 9) = variants.take 9 := by
    have exact_ : leaders (clearsName Runtime.plain) [] (variants.take 9) =
        leaders (vectorsClose Runtime.plain) [] (variants.take 9) :=
      leaders_congr (fun a first b second => variants_exact (inside a first) (inside b second))
    rw [exact_]
    decide +kernel
  have last : "!!!!z!!!z!!!!" ∈ variants := by decide
  have acceptable : ∃ leader ∈ leaders (clearsName Runtime.plain) [] (variants.take 9),
      clearsName Runtime.plain "!!!!z!!!z!!!!" leader = true := by
    refine ⟨"!!!!z!!!z!!!", by rw [led]; decide, ?_⟩
    rw [variants_exact last (by decide)]
    decide +kernel
  rcases within (variants.take 9) "!!!!z!!!z!!!!" [] rfl acceptable with ⟨leader, member, accepted⟩
  have tied : ∀ a ∈ variants.take 9, ∀ b ∈ variants.take 9,
      trgmSim (R := ℝ) Runtime.plain "!!!!z!!!z!!!!" a =
        trgmSim Runtime.plain "!!!!z!!!z!!!!" b := by
    intro a first b second
    rw [variants_tied last (inside a first), variants_tied last (inside b second)]
  rw [led, rankBy_tied tied] at member
  have refused : ∀ leader ∈ (variants.take 9).take trgmCandidateLimit,
      vectorsClose Runtime.plain "!!!!z!!!z!!!!" leader = false := by
    decide +kernel
  rw [variants_exact last (inside leader (List.mem_of_mem_take member)), refused leader member]
    at accepted
  cases accepted

end Production

end FakePgClient

end PgRaggraph
