import PgRaggraph.Core.Types
import Mathlib.Algebra.BigOperators.Group.List.Basic
import Mathlib.Algebra.Ring.Int.Defs

/-! `build_ask_prompt`: the numbered context blocks of `pgrg.ask` and their token budget. -/

namespace PgRaggraph

def usizeMax : Nat := 18446744073709551615

structure Vec (α : Type) where
  items : List α
  addressable : items.length ≤ usizeMax

structure PromptChunk where
  chunkId : Uuid
  documentId : Uuid
  ord : Int32
  text : String
  tokenCount : Int32
  deriving DecidableEq

structure BuiltPrompt where
  promptText : String
  idMap : List Uuid
  docMap : List Uuid
  ordMap : List Int32
  promptTokens : Int32
  droppedCount : Nat
  documents : docMap.length = idMap.length
  ords : ordMap.length = idMap.length
  addressable : idMap.length ≤ usizeMax

/-- An overflowing addition panics in a debug build and wraps around in a release build. -/
inductive BuildProfile where
  | debug
  | release
  deriving DecidableEq, Repr

def inI32 (n : Int) : Bool := -2147483648 ≤ n && n ≤ 2147483647

/-- `a + b`; a panic has no result. -/
def addI32 (profile : BuildProfile) (a b : Int32) : Option Int32 :=
  if inI32 (a.toInt + b.toInt) then some (a + b)
  else
    match profile with
    | .debug => none
    | .release => some (a + b)

def systemPrompt : String :=
  "You are a careful assistant that answers questions using ONLY the provided context blocks.\n\n" ++
  "For every factual claim, cite the supporting block as \x60[N]\x60 where N is the block number.\n" ++
  "Do not invent citations. Do not cite blocks not provided. " ++
  "If the answer is not in the context, say so."

structure Packing where
  running : Int32
  included : List PromptChunk
  dropped : Nat

def packChunk (profile : BuildProfile) (budget : Int32) (p : Packing) (c : PromptChunk) :
    Option Packing := do
  let total ← addI32 profile p.running c.tokenCount
  if total ≤ budget then
    return { p with running := total, included := p.included ++ [c] }
  else
    return { p with dropped := p.dropped + 1 }

def packChunks (profile : BuildProfile) (budget : Int32) (chunks : List PromptChunk) :
    Option Packing :=
  chunks.foldlM (packChunk profile budget) { running := 0, included := [], dropped := 0 }

def pushBlock (prompt : String) (block : String × Nat) : String :=
  prompt ++ s!"[{block.2 + 1}] {block.1}\n\n"

def renderPrompt (question : String) (texts : List String) : String :=
  texts.zipIdx.foldl pushBlock (systemPrompt ++ "\n\n## Context\n") ++
    "## Question\n" ++ question ++ "\n\n## Answer\n"

section Packing

variable {profile : BuildProfile} {budget : Int32}

theorem packChunk_some {p next : Packing} {c : PromptChunk}
    (packed : packChunk profile budget p c = some next) :
    ∃ total, addI32 profile p.running c.tokenCount = some total ∧
      ((total ≤ budget ∧
          next = { p with running := total, included := p.included ++ [c] }) ∨
        (¬ total ≤ budget ∧ next = { p with dropped := p.dropped + 1 })) := by
  rw [packChunk] at packed
  cases added : addI32 profile p.running c.tokenCount with
  | none =>
      rw [added] at packed
      cases packed
  | some total =>
      rw [added, Option.bind_eq_bind, Option.bind_some] at packed
      refine ⟨total, rfl, ?_⟩
      by_cases fits : total ≤ budget
      · rw [if_pos fits] at packed
        exact .inl ⟨fits, (Option.some.inj packed).symm⟩
      · rw [if_neg fits] at packed
        exact .inr ⟨fits, (Option.some.inj packed).symm⟩

theorem pack_sublist {chunks : List PromptChunk} {p last : Packing}
    (packed : chunks.foldlM (packChunk profile budget) p = some last) :
    ∃ kept, last.included = p.included ++ kept ∧ kept.Sublist chunks ∧
      last.dropped + kept.length = p.dropped + chunks.length := by
  induction chunks generalizing p with
  | nil =>
      cases packed
      exact ⟨[], (List.append_nil _).symm, List.Sublist.refl _, rfl⟩
  | cons c rest ih =>
      rw [List.foldlM_cons, Option.bind_eq_bind, Option.bind_eq_some_iff] at packed
      rcases packed with ⟨next, stepped, packed⟩
      rcases ih packed with ⟨kept, grown, sub, counted⟩
      rcases packChunk_some stepped with ⟨total, -, ⟨-, rfl⟩ | ⟨-, rfl⟩⟩
      · refine ⟨c :: kept, by rw [grown, List.append_assoc, List.singleton_append],
          sub.cons_cons c, ?_⟩
        dsimp only at counted
        rw [List.length_cons, List.length_cons]
        omega
      · refine ⟨kept, grown, sub.cons c, ?_⟩
        dsimp only at counted
        rw [List.length_cons]
        omega

theorem packChunks_sublist {chunks : List PromptChunk} {p : Packing}
    (packed : packChunks profile budget chunks = some p) :
    p.included.Sublist chunks ∧ p.dropped + p.included.length = chunks.length := by
  rcases pack_sublist packed with ⟨kept, grown, sub, counted⟩
  rw [List.nil_append] at grown
  rw [grown]
  exact ⟨sub, counted.trans (Nat.zero_add _)⟩

end Packing

def Packing.built (p : Packing) (question : String) (addressable : p.included.length ≤ usizeMax) :
    BuiltPrompt where
  promptText := renderPrompt question (p.included.map (·.text))
  idMap := p.included.map (·.chunkId)
  docMap := p.included.map (·.documentId)
  ordMap := p.included.map (·.ord)
  promptTokens := p.running
  droppedCount := p.dropped
  documents := by rw [List.length_map, List.length_map]
  ords := by rw [List.length_map, List.length_map]
  addressable := by rwa [List.length_map]

def checkBudget (chunks : List PromptChunk) (budget : Int32) : CoreResult Unit :=
  if budget ≤ 0 then .error (.invalidConfig s!"invalid budget {budget}")
  else
    match chunks with
    | [] => .error (.invalidConfig "ask: no context chunks")
    | first :: _ =>
        if budget < first.tokenCount then
          .error (.invalidConfig
            s!"first chunk ({first.tokenCount} tokens) exceeds budget ({budget})")
        else .ok ()

def buildAskPrompt (profile : BuildProfile) (question : String) (chunks : Vec PromptChunk)
    (budget : Int32) : Option (CoreResult BuiltPrompt) :=
  match checkBudget chunks.items budget with
  | .error e => some (.error e)
  | .ok () =>
      match packed : packChunks profile budget chunks.items with
      | none => none
      | some p =>
          some (.ok (p.built question
            (Nat.le_trans (packChunks_sublist packed).1.length_le chunks.addressable)))

section Build

variable {profile : BuildProfile}

theorem build_error {question : String} {chunks : Vec PromptChunk} {budget : Int32} {e : CoreError}
    (checked : checkBudget chunks.items budget = .error e) :
    buildAskPrompt profile question chunks budget = some (.error e) := by
  rw [buildAskPrompt, checked]

theorem build_panics {question : String} {chunks : Vec PromptChunk} {budget : Int32}
    (checked : checkBudget chunks.items budget = .ok ())
    (packed : packChunks profile budget chunks.items = none) :
    buildAskPrompt profile question chunks budget = none := by
  rw [buildAskPrompt, checked]
  dsimp only
  split
  · rfl
  · rename_i p some_
    rw [packed] at some_
    cases some_

theorem build_ok {chunks : Vec PromptChunk} {budget : Int32} {p : Packing}
    (checked : checkBudget chunks.items budget = .ok ())
    (packed : packChunks profile budget chunks.items = some p) (question : String) :
    ∃ addressable, buildAskPrompt profile question chunks budget =
      some (.ok (p.built question addressable)) := by
  rw [buildAskPrompt, checked]
  dsimp only
  split
  · rename_i none_
    rw [packed] at none_
    cases none_
  · rename_i _ some_
    cases packed.symm.trans some_
    exact ⟨Nat.le_trans (packChunks_sublist packed).1.length_le chunks.addressable, rfl⟩

end Build

section Budget

/-- The greedy selection in exact arithmetic. A chunk is dropped where it would take the total of
the chunks kept before it past the budget. -/
inductive Greedy (budget : Int) : Int → List PromptChunk → List PromptChunk → Prop where
  | done (total : Int) : Greedy budget total [] []
  | keep {total : Int} {c : PromptChunk} {rest kept : List PromptChunk}
      (fits : total + c.tokenCount.toInt ≤ budget)
      (later : Greedy budget (total + c.tokenCount.toInt) rest kept) :
      Greedy budget total (c :: rest) (c :: kept)
  | drop {total : Int} {c : PromptChunk} {rest kept : List PromptChunk}
      (exceeds : budget < total + c.tokenCount.toInt) (later : Greedy budget total rest kept) :
      Greedy budget total (c :: rest) kept

def staysInRange (budget : Int) : Int → List PromptChunk → Bool
  | _, [] => true
  | total, c :: rest =>
      let next := total + c.tokenCount.toInt
      inI32 next && staysInRange budget (if next ≤ budget then next else total) rest

def tokenSum (chunks : List PromptChunk) : Int := (chunks.map (·.tokenCount.toInt)).sum

theorem Greedy.bounded {budget total : Int} {chunks kept : List PromptChunk}
    (greedy : Greedy budget total chunks kept) (start : total ≤ budget) :
    total + tokenSum kept ≤ budget := by
  induction greedy with
  | done total =>
      rw [tokenSum, List.map_nil, List.sum_nil, Int.add_zero]
      exact start
  | keep fits later ih =>
      rw [tokenSum, List.map_cons, List.sum_cons, ← Int.add_assoc]
      exact ih fits
  | drop exceeds later ih => exact ih start

theorem Greedy.head {budget : Int} {c : PromptChunk} {rest kept : List PromptChunk}
    (greedy : Greedy budget 0 (c :: rest) kept) (fits : c.tokenCount.toInt ≤ budget) :
    kept.head? = some c := by
  cases greedy with
  | keep _ later => rfl
  | drop exceeds later =>
      rw [Int.zero_add] at exceeds
      exact absurd fits (Int.not_le.mpr exceeds)

theorem addI32_exact {a b : Int32} (inside : inI32 (a.toInt + b.toInt) = true)
    (profile : BuildProfile) :
    addI32 profile a b = some (a + b) ∧ (a + b).toInt = a.toInt + b.toInt := by
  refine ⟨if_pos inside, ?_⟩
  rw [inI32, Bool.and_eq_true, decide_eq_true_eq, decide_eq_true_eq] at inside
  rw [Int32.toInt_add, Int.bmod_eq_of_le]
  · omega
  · omega

theorem addI32_panics {a b : Int32} (outside : inI32 (a.toInt + b.toInt) = false) :
    addI32 .debug a b = none := by
  rw [addI32, outside]
  rfl

theorem packChunk_exact (profile : BuildProfile) (budget : Int32) {p : Packing} {c : PromptChunk}
    (inside : inI32 (p.running.toInt + c.tokenCount.toInt) = true) :
    ∃ next, packChunk profile budget p c = some next ∧
      ((p.running.toInt + c.tokenCount.toInt ≤ budget.toInt ∧
          next.running.toInt = p.running.toInt + c.tokenCount.toInt ∧
          next.included = p.included ++ [c]) ∨
        (budget.toInt < p.running.toInt + c.tokenCount.toInt ∧
          next.running.toInt = p.running.toInt ∧ next.included = p.included)) := by
  rcases addI32_exact inside profile with ⟨added, exact_⟩
  rw [packChunk, added]
  by_cases fits : p.running + c.tokenCount ≤ budget
  · refine ⟨_, if_pos fits, .inl ⟨?_, exact_, rfl⟩⟩
    rw [← exact_]
    exact Int32.le_iff_toInt_le.mp fits
  · refine ⟨_, if_neg fits, .inr ⟨?_, rfl, rfl⟩⟩
    rw [← exact_]
    exact Int32.lt_iff_toInt_lt.mp (Int32.not_le.mp fits)

theorem pack_exact (profile : BuildProfile) {budget : Int32} {chunks : List PromptChunk}
    {p : Packing} (inside : staysInRange budget.toInt p.running.toInt chunks = true) :
    ∃ last kept, chunks.foldlM (packChunk profile budget) p = some last ∧
      last.included = p.included ++ kept ∧
      Greedy budget.toInt p.running.toInt chunks kept ∧
      last.running.toInt = p.running.toInt + tokenSum kept := by
  induction chunks generalizing p with
  | nil =>
      exact ⟨p, [], rfl, (List.append_nil _).symm, .done _, (Int.add_zero _).symm⟩
  | cons c rest ih =>
      rw [staysInRange, Bool.and_eq_true] at inside
      rcases packChunk_exact profile budget inside.1 with ⟨next, stepped, outcome⟩
      rw [List.foldlM_cons, stepped]
      rcases outcome with ⟨fits, running, included⟩ | ⟨exceeds, running, included⟩
      · rw [if_pos fits, ← running] at inside
        rcases ih inside.2 with ⟨last, kept, ran, grown, greedy, total⟩
        rw [running] at greedy total
        refine ⟨last, c :: kept, ran, ?_, .keep fits greedy, ?_⟩
        · rw [grown, included, List.append_assoc, List.singleton_append]
        · rw [total, tokenSum, tokenSum, List.map_cons, List.sum_cons, Int.add_assoc]
      · rw [if_neg (Int.not_le.mpr exceeds), ← running] at inside
        rcases ih inside.2 with ⟨last, kept, ran, grown, greedy, total⟩
        rw [running] at greedy total
        rw [included] at grown
        exact ⟨last, kept, ran, grown, .drop exceeds greedy, total⟩

theorem pack_panics {budget : Int32} {chunks : List PromptChunk} {p : Packing}
    (outside : staysInRange budget.toInt p.running.toInt chunks = false) :
    chunks.foldlM (packChunk .debug budget) p = none := by
  induction chunks generalizing p with
  | nil => cases outside
  | cons c rest ih =>
      rw [staysInRange, Bool.and_eq_false_iff] at outside
      rw [List.foldlM_cons]
      cases here : inI32 (p.running.toInt + c.tokenCount.toInt) with
      | false =>
          rw [packChunk, addI32_panics here]
          rfl
      | true =>
          have later := outside.resolve_left (by rw [here]; exact Bool.noConfusion)
          rcases packChunk_exact .debug budget here with ⟨next, stepped, outcome⟩
          rw [stepped]
          rcases outcome with ⟨fits, running, -⟩ | ⟨exceeds, running, -⟩
          · rw [if_pos fits, ← running] at later
            exact ih later
          · rw [if_neg (Int.not_le.mpr exceeds), ← running] at later
            exact ih later

structure KeepsBudget (question : String) (chunks : List PromptChunk) (budget : Int32)
    (built : BuiltPrompt) (included : List PromptChunk) : Prop where
  greedy : Greedy budget.toInt 0 chunks included
  subsequence : included.Sublist chunks
  first : included.head? = chunks.head?
  text : built.promptText = renderPrompt question (included.map (·.text))
  tokens : built.promptTokens.toInt = tokenSum included
  bounded : built.promptTokens ≤ budget
  ids : built.idMap = included.map (·.chunkId)
  docs : built.docMap = included.map (·.documentId)
  ords : built.ordMap = included.map (·.ord)
  dropped : built.droppedCount + included.length = chunks.length

theorem checkBudget_ok {chunks : List PromptChunk} {budget : Int32}
    (checked : checkBudget chunks budget = .ok ()) :
    0 < budget.toInt ∧ ∃ c rest, chunks = c :: rest ∧ c.tokenCount.toInt ≤ budget.toInt := by
  rw [checkBudget.eq_def] at checked
  split at checked
  · cases checked
  · rename_i positive
    split at checked
    · cases checked
    · rename_i first rest
      split at checked
      · cases checked
      · rename_i small
        exact ⟨Int32.lt_iff_toInt_lt.mp (Int32.not_le.mp positive), first, rest, rfl,
          Int.not_lt.mp (fun greater => small (Int32.lt_iff_toInt_lt.mpr greater))⟩

theorem Packing.built_keeps {question : String} {chunks : Vec PromptChunk} {budget : Int32}
    {profile : BuildProfile} {p : Packing} (checked : checkBudget chunks.items budget = .ok ())
    (inside : staysInRange budget.toInt 0 chunks.items = true)
    (packed : packChunks profile budget chunks.items = some p)
    (addressable : p.included.length ≤ usizeMax) :
    KeepsBudget question chunks.items budget (p.built question addressable) p.included := by
  rcases checkBudget_ok checked with ⟨positive, c, rest, split, fits⟩
  rcases packChunks_sublist packed with ⟨sub, counted⟩
  rcases pack_exact profile (p := { running := 0, included := [], dropped := 0 }) inside with
    ⟨last, kept, ran, grown, greedy, total⟩
  cases (packed.symm.trans ran)
  dsimp only at grown greedy total
  rw [Int32.toInt_zero, Int.zero_add] at total
  rw [List.nil_append] at grown
  rw [Int32.toInt_zero, ← grown] at greedy
  rw [← grown] at total
  have first : p.included.head? = chunks.items.head? := by
    rw [split] at greedy ⊢
    exact greedy.head fits
  have bounded := greedy.bounded (Int.le_of_lt positive)
  rw [Int.zero_add, ← total] at bounded
  exact ⟨greedy, sub, first, rfl, total, Int32.le_iff_toInt_le.mpr bounded, rfl, rfl, rfl, counted⟩

/-- No addition overflows, and every prompt built keeps to the budget, exactly where the greedy
totals stay in the range of an `i32`. -/
theorem prompt_budget_iff (question : String) (chunks : Vec PromptChunk) (budget : Int32) :
    (buildAskPrompt .debug question chunks budget ≠ none ∧
      ∀ profile built, buildAskPrompt profile question chunks budget = some (.ok built) →
        ∃ included, KeepsBudget question chunks.items budget built included) ↔
    (checkBudget chunks.items budget = .ok () →
      staysInRange budget.toInt 0 chunks.items = true) := by
  cases checked : checkBudget chunks.items budget with
  | error e =>
      refine iff_of_true ⟨?_, ?_⟩ (fun passed => nomatch passed)
      · rw [build_error checked]
        exact Option.some_ne_none _
      · intro profile built returned
        rw [build_error checked] at returned
        cases returned
  | ok passed =>
      constructor
      · intro property _
        by_contra outside
        rw [Bool.not_eq_true] at outside
        have panics : packChunks .debug budget chunks.items = none :=
          pack_panics (p := { running := 0, included := [], dropped := 0 }) outside
        exact property.1 (build_panics checked panics)
      · intro condition
        have inside := condition rfl
        have packs : ∀ profile, ∃ p, packChunks profile budget chunks.items = some p := by
          intro profile
          rcases pack_exact profile (p := { running := 0, included := [], dropped := 0 }) inside with
            ⟨last, kept, ran, -⟩
          exact ⟨_, ran⟩
        constructor
        · rcases packs .debug with ⟨p, packed⟩
          rcases build_ok checked packed question with ⟨addressable, builds⟩
          rw [builds]
          exact Option.some_ne_none _
        · intro profile built returned
          rcases packs profile with ⟨p, packed⟩
          rcases build_ok checked packed question with ⟨addressable, builds⟩
          rw [builds] at returned
          cases returned
          exact ⟨p.included, Packing.built_keeps checked inside packed addressable⟩

def cappedChunks : Vec PromptChunk where
  items := [
    { chunkId := 1, documentId := 10, ord := 0, text := "one", tokenCount := 1 },
    { chunkId := 2, documentId := 10, ord := 1, text := "capped", tokenCount := 2147483647 }]
  addressable := by decide

/-- A debug build panics, and a release build includes both chunks within a budget of one token. -/
theorem capped_count_overflows :
    buildAskPrompt .debug "who" cappedChunks 1 = none ∧
      (buildAskPrompt .release "who" cappedChunks 1).map (fun result =>
          result.toOption.map (fun built => (built.idMap, built.promptTokens, built.droppedCount))) =
        some (some ([1, 2], -2147483648, 0)) := by
  decide

end Budget

end PgRaggraph
