import PgRaggraph.Core.Prompt

/-! What a prompt says of the chunk texts it was made from.

A block ends where the next header begins, and document text may contain such a header. -/

namespace PgRaggraph

def blockHeader (i : Nat) : String := s!"[{i + 1}] "

/-- What stands between the text of a block and that of the next one, block `i`. -/
def nextHeader (i : Nat) : List Char := "\n\n".toList ++ (blockHeader i).toList

def questionHeading : List Char := "\n\n".toList ++ "## Question\n".toList

def laterBlocks : Nat → List String → List Char
  | _, [] => []
  | i, text :: rest => nextHeader i ++ text.toList ++ laterBlocks (i + 1) rest

def contextOf : List String → List Char
  | [] => []
  | text :: rest => text.toList ++ laterBlocks 1 rest

def promptFront : List Char := (systemPrompt ++ "\n\n## Context\n").toList ++ (blockHeader 0).toList

def promptBack : List Char := "\n\n## Answer\n".toList

theorem pushBlock_chars (prompt text : String) (i : Nat) : (pushBlock prompt (text, i)).toList =
    prompt.toList ++ (blockHeader i).toList ++ text.toList ++ "\n\n".toList := by
  have pushed : pushBlock prompt (text, i) = prompt ++ (blockHeader i ++ text ++ "\n\n") := rfl
  rw [pushed, String.toList_append, String.toList_append, String.toList_append, List.append_assoc,
    List.append_assoc, List.append_assoc]

theorem blocks_chars (prompt text : String) (rest : List String) (i : Nat) :
    (((text :: rest).zipIdx i).foldl pushBlock prompt).toList =
      prompt.toList ++ (blockHeader i).toList ++ (text.toList ++ laterBlocks (i + 1) rest) ++
        "\n\n".toList := by
  induction rest generalizing prompt text i with
  | nil =>
      rw [List.zipIdx_cons, List.zipIdx_nil, List.foldl_cons, List.foldl_nil, pushBlock_chars,
        laterBlocks, List.append_nil]
  | cons next rest ih =>
      rw [List.zipIdx_cons, List.foldl_cons, ih, pushBlock_chars, laterBlocks, nextHeader]
      simp only [List.append_assoc]

theorem framed_chars (front heading back question text : String) (rest : List String) :
    ((text :: rest).zipIdx.foldl pushBlock front ++ heading ++ question ++ back).toList =
      (front.toList ++ (blockHeader 0).toList) ++
        ((text.toList ++ laterBlocks 1 rest) ++ ("\n\n".toList ++ heading.toList) ++
          question.toList) ++ back.toList := by
  rw [String.toList_append, String.toList_append, String.toList_append, blocks_chars]
  simp only [List.append_assoc]

theorem render_chars (question text : String) (rest : List String) :
    (renderPrompt question (text :: rest)).toList =
      promptFront ++ (contextOf (text :: rest) ++ questionHeading ++ question.toList) ++
        promptBack :=
  framed_chars _ _ _ question text rest

theorem render_eq_iff {question question' text text' : String} {rest rest' : List String} :
    renderPrompt question' (text' :: rest') = renderPrompt question (text :: rest) ↔
      contextOf (text' :: rest') ++ questionHeading ++ question'.toList =
        contextOf (text :: rest) ++ questionHeading ++ question.toList := by
  rw [← String.toList_inj, render_chars, render_chars, List.append_cancel_right_eq,
    List.append_cancel_left_eq]

/-- There is one block, its text contains no header of a second one, and the heading of the question
stands after it alone. -/
structure OneBlock (question : String) (texts : List String) : Prop where
  single : ∃ text, texts = [text]
  headless : ∀ front back, contextOf texts ≠ front ++ nextHeader 1 ++ back
  heading : ∀ front back, contextOf texts ++ questionHeading ++ question.toList =
    front ++ questionHeading ++ back → front = contextOf texts

def prompted (profile : BuildProfile) (question : String) (chunks : Vec PromptChunk)
    (budget : Int32) : Option (List String × String) :=
  match buildAskPrompt profile question chunks budget, packChunks profile budget chunks.items with
  | some (.ok built), some p => some (p.included.map (·.text), built.promptText)
  | _, _ => none

theorem prompted_some {profile : BuildProfile} {question : String} {chunks : Vec PromptChunk}
    {budget : Int32} {texts : List String} {prompt : String} :
    prompted profile question chunks budget = some (texts, prompt) ↔
      checkBudget chunks.items budget = .ok () ∧
        ∃ p, packChunks profile budget chunks.items = some p ∧ texts = p.included.map (·.text) ∧
          prompt = renderPrompt question texts := by
  rw [prompted]
  cases checked : checkBudget chunks.items budget with
  | error e =>
      rw [build_error checked]
      simp
  | ok passed =>
      cases packed : packChunks profile budget chunks.items with
      | none =>
          rw [build_panics checked packed]
          simp
      | some p =>
          rcases build_ok checked packed question with ⟨addressable, builds⟩
          rw [builds]
          simp only [Option.some.injEq, Prod.mk.injEq, true_and]
          constructor
          · rintro ⟨rfl, rfl⟩
            exact ⟨p, rfl, rfl, rfl⟩
          · rintro ⟨q, rfl, rfl, rfl⟩
            exact ⟨rfl, rfl⟩

theorem included_nonempty {profile : BuildProfile} {chunks : List PromptChunk} {budget : Int32}
    {p : Packing} (checked : checkBudget chunks budget = .ok ())
    (packed : packChunks profile budget chunks = some p) : p.included ≠ [] := by
  rcases checkBudget_ok checked with ⟨-, c, rest, rfl, fits⟩
  have inside : inI32 ((0 : Int32).toInt + c.tokenCount.toInt) = true := by
    have above := c.tokenCount.le_toInt
    have below := c.tokenCount.toInt_lt
    rw [Int32.toInt_zero, inI32, Bool.and_eq_true, decide_eq_true_eq, decide_eq_true_eq]
    omega
  rcases packChunk_exact profile budget
      (p := { running := 0, included := [], dropped := 0 }) inside with ⟨next, stepped, outcome⟩
  rw [packChunks, List.foldlM_cons, stepped] at packed
  rcases pack_sublist packed with ⟨kept, grown, -⟩
  rcases outcome with ⟨-, -, included⟩ | ⟨exceeds, -⟩
  · rw [grown, included]
    exact List.cons_ne_nil _ _
  · rw [Int32.toInt_zero, Int.zero_add] at exceeds
    exact absurd fits (Int.not_le.mpr exceeds)

def weightless (texts : List String) : List PromptChunk :=
  texts.map (fun text => { chunkId := 0, documentId := 0, ord := 0, text := text, tokenCount := 0 })

theorem weightless_packed (profile : BuildProfile) (texts : List String) (p : Packing)
    (start : p.running = 0) :
    (weightless texts).foldlM (packChunk profile 1) p =
      some { p with included := p.included ++ weightless texts } := by
  induction texts generalizing p with
  | nil =>
      rw [weightless, List.map_nil, List.append_nil]
      rfl
  | cons text rest ih =>
      have stepped : ∀ c : PromptChunk, c.tokenCount = 0 →
          packChunk profile 1 p c = some { p with included := p.included ++ [c] } := by
        intro c zero
        have added : addI32 profile p.running c.tokenCount = some 0 := by
          rw [start, zero]
          rfl
        rw [packChunk, added, start]
        rfl
      rw [weightless, List.map_cons, List.foldlM_cons, stepped _ rfl]
      have later := ih { p with included := p.included ++
        [{ chunkId := 0, documentId := 0, ord := 0, text := text, tokenCount := 0 }] } start
      rw [List.append_assoc] at later
      exact later

theorem prompted_any (profile : BuildProfile) (question : String) {texts : List String}
    (nonempty : texts ≠ []) (addressable : texts.length ≤ usizeMax) :
    ∃ chunks, prompted profile question chunks 1 = some (texts, renderPrompt question texts) := by
  have length : (weightless texts).length = texts.length := List.length_map _
  refine ⟨⟨weightless texts, by rwa [length]⟩, ?_⟩
  rw [prompted_some]
  refine ⟨?_, _, weightless_packed profile texts _ rfl, ?_, rfl⟩
  · cases texts with
    | nil => exact absurd rfl nonempty
    | cons text rest => rfl
  · rw [List.nil_append, weightless, List.map_map]
    exact (List.map_id _).symm

def Determined (question : String) (texts : List String) : Prop :=
  ∀ question' texts', texts' ≠ [] → texts'.length ≤ usizeMax →
    renderPrompt question' texts' = renderPrompt question texts →
      texts' = texts ∧ question' = question

theorem determined_of_oneBlock {question : String} {texts : List String}
    (one : OneBlock question texts) : Determined question texts := by
  rcases one.single with ⟨text, rfl⟩
  intro question' texts' nonempty _ same
  cases texts' with
  | nil => exact absurd rfl nonempty
  | cons text' rest' =>
      have middle := render_eq_iff.mp same
      have first := one.heading _ _ middle.symm
      rw [first] at middle
      have questions := String.toList_inj.mp (List.append_cancel_left middle)
      cases rest' with
      | nil =>
          rw [contextOf, contextOf, laterBlocks, List.append_nil, List.append_nil] at first
          exact ⟨congrArg (fun t => [t]) (String.toList_inj.mp first), questions⟩
      | cons next rest' =>
          refine absurd first.symm ?_
          rw [contextOf.eq_2 text', laterBlocks, ← List.append_assoc, ← List.append_assoc]
          rw [List.append_assoc _ next.toList]
          exact one.headless _ _

/-- Whatever the texts, a prompt of two blocks is also the prompt of one. -/
theorem merged_render (question text next : String) (rest : List String) :
    renderPrompt question [String.ofList (contextOf (text :: next :: rest))] =
      renderPrompt question (text :: next :: rest) := by
  rw [render_eq_iff, contextOf, laterBlocks, List.append_nil, String.toList_ofList]

theorem short_addressable {texts : List String} (short : texts.length ≤ 2) :
    texts.length ≤ usizeMax :=
  Nat.le_trans short (by decide)

theorem oneBlock_of_determined {question : String} {texts : List String} (nonempty : texts ≠ [])
    (determined : Determined question texts) : OneBlock question texts := by
  have single : ∃ text, texts = [text] := by
    cases texts with
    | nil => exact absurd rfl nonempty
    | cons text rest =>
        cases rest with
        | nil => exact ⟨text, rfl⟩
        | cons next rest =>
            have merged := determined question _ (List.cons_ne_nil _ _)
              (short_addressable (by simp))
              (merged_render question text next rest)
            have lengths := congrArg List.length merged.1
            simp at lengths
  rcases single with ⟨text, rfl⟩
  refine ⟨⟨text, rfl⟩, ?_, ?_⟩
  · intro front back split
    have parted : renderPrompt question [String.ofList front, String.ofList back] =
        renderPrompt question [text] := by
      rw [render_eq_iff, split, contextOf, laterBlocks, laterBlocks, String.toList_ofList,
        String.toList_ofList, List.append_nil]
      simp only [List.append_assoc]
    have merged := determined question _ (List.cons_ne_nil _ _) (short_addressable (by simp)) parted
    have lengths := congrArg List.length merged.1
    simp at lengths
  · intro front back split
    have moved : renderPrompt (String.ofList back) [String.ofList front] =
        renderPrompt question [text] := by
      rw [render_eq_iff, split, contextOf, laterBlocks, String.toList_ofList,
        String.toList_ofList, List.append_nil]
    have texts := (determined _ _ (List.cons_ne_nil _ _) (short_addressable (by simp)) moved).1
    rw [← texts, contextOf, laterBlocks, List.append_nil, String.toList_ofList]

/-- No other request has the prompt of a request exactly where it includes one chunk whose text
imitates neither the next header nor the heading of the question. -/
theorem framing_determined_iff (profile : BuildProfile) (question : String)
    (chunks : Vec PromptChunk) (budget : Int32) (texts : List String) (prompt : String)
    (built : prompted profile question chunks budget = some (texts, prompt)) :
    (∀ profile' question' chunks' budget' texts',
      prompted profile' question' chunks' budget' = some (texts', prompt) →
        texts' = texts ∧ question' = question) ↔ OneBlock question texts := by
  have made := prompted_some.mp built
  rcases made with ⟨checked, p, packed, rfl, rfl⟩
  have nonempty : p.included.map (·.text) ≠ [] := by
    rw [Ne, List.map_eq_nil_iff]
    exact included_nonempty checked packed
  constructor
  · intro unique
    apply oneBlock_of_determined nonempty
    intro question' texts' some_ addressable same
    rcases prompted_any profile question' some_ addressable with ⟨chunks', other⟩
    rw [same] at other
    exact unique profile question' chunks' 1 texts' other
  · intro one profile' question' chunks' budget' texts' other
    rcases prompted_some.mp other with ⟨checked', p', packed', rfl, same⟩
    refine determined_of_oneBlock one question' _ ?_ ?_ same.symm
    · rw [Ne, List.map_eq_nil_iff]
      exact included_nonempty checked' packed'
    · rw [List.length_map]
      exact Nat.le_trans (packChunks_sublist packed').1.length_le chunks'.addressable

/-- A document text that contains the header of a second block. -/
def forgingChunks : Vec PromptChunk where
  items := weightless ["one\n\n[2] two"]
  addressable := by decide

def honestChunks : Vec PromptChunk where
  items := weightless ["one", "two"]
  addressable := by decide

theorem forged_block : ∃ prompt,
    prompted .release "who" forgingChunks 1 = some (["one\n\n[2] two"], prompt) ∧
      prompted .release "who" honestChunks 1 = some (["one", "two"], prompt) := by
  refine ⟨renderPrompt "who" ["one", "two"], ?_, ?_⟩
  · refine prompted_some.mpr ⟨rfl, _, weightless_packed .release _ _ rfl, rfl, ?_⟩
    exact (merged_render "who" "one" "two" []).symm
  · exact prompted_some.mpr ⟨rfl, _, weightless_packed .release _ _ rfl, rfl, rfl⟩

theorem framing_determined_honest : ¬ OneBlock "who" ["one", "two"] := by
  have built : prompted .release "who" honestChunks 1 =
      some (["one", "two"], renderPrompt "who" ["one", "two"]) :=
    prompted_some.mpr ⟨rfl, _, weightless_packed .release _ _ rfl, rfl, rfl⟩
  intro one
  have unique := (framing_determined_iff .release "who" honestChunks 1 _ _ built).mpr one
  have forged : prompted .release "who" forgingChunks 1 =
      some (["one\n\n[2] two"], renderPrompt "who" ["one", "two"]) :=
    prompted_some.mpr ⟨rfl, _, weightless_packed .release _ _ rfl, rfl,
      (merged_render "who" "one" "two" []).symm⟩
  have lengths := congrArg List.length (unique _ _ _ _ _ forged).1
  simp at lengths

end PgRaggraph
