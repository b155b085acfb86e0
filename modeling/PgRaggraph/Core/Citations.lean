import PgRaggraph.Core.Prompt
import PgRaggraph.Library.Scan

/-! `extract_citations`: the `[N]` markers of an answer, resolved to chunks of the prompt. -/

namespace PgRaggraph

open Scan

structure Citation where
  n : Nat
  chunkId : Uuid
  documentId : Uuid
  ord : Int32
  deriving DecidableEq

/-- `\[(\d+)\]` at the front of a text: the digits and what follows. -/
def marker : Matcher Char (List Char)
  | '[' :: rest =>
      match rest.dropWhile Char.isDigit with
      | ']' :: back =>
          if rest.takeWhile Char.isDigit = [] then none
          else some (rest.takeWhile Char.isDigit, back)
      | _ => none
  | _ => none

/-- `str::parse::<usize>` of a run of ASCII digits. -/
def parseUsize (digits : List Char) : Option Nat :=
  let n := Nat.ofDigitChars 10 digits 0
  if n ≤ usizeMax then some n else none

def BuiltPrompt.citation (built : BuiltPrompt) (n : Nat)
    (valid : 1 ≤ n ∧ n ≤ built.idMap.length) : Citation where
  n := n
  chunkId := built.idMap.get ⟨n - 1, by omega⟩
  documentId := built.docMap.get ⟨n - 1, by have := built.documents; omega⟩
  ord := built.ordMap.get ⟨n - 1, by have := built.ords; omega⟩

/-- The body of the loop over the captures; `seen` is the set of the numbers cited so far. -/
def citeCapture (built : BuiltPrompt) (seen : List Nat × List Citation) (digits : List Char) :
    List Nat × List Citation :=
  match parseUsize digits with
  | some n =>
      if valid : 1 ≤ n ∧ n ≤ built.idMap.length then
        if n ∈ seen.1 then seen else (n :: seen.1, seen.2 ++ [built.citation n valid])
      else seen
  | none => seen

def extractCitations (answerText : String) (built : BuiltPrompt) : List Citation :=
  ((findIter marker answerText.toList).foldl (citeCapture built) ([], [])).2

section Markers

def MarkedAt (text : String) (offset n : Nat) : Prop :=
  ∃ digits back, text.toList.drop offset = '[' :: digits ++ ']' :: back ∧ digits ≠ [] ∧
    (∀ d ∈ digits, d.isDigit = true) ∧ Nat.ofDigitChars 10 digits 0 = n

theorem marker_some {xs digits back : List Char} (matched : marker xs = some (digits, back)) :
    xs = '[' :: digits ++ ']' :: back ∧ digits ≠ [] ∧ ∀ d ∈ digits, d.isDigit = true := by
  rw [marker.eq_def] at matched
  split at matched
  · rename_i rest
    split at matched
    · rename_i left closed
      split at matched
      · cases matched
      · rename_i some_
        cases matched
        refine ⟨?_, some_, List.all_eq_true.mp List.all_takeWhile⟩
        rw [List.cons_append, ← closed, List.takeWhile_append_dropWhile]
    · cases matched
  · cases matched

theorem marker_matches {digits back : List Char} (some_ : digits ≠ [])
    (numeral : ∀ d ∈ digits, d.isDigit = true) :
    marker ('[' :: digits ++ ']' :: back) = some (digits, back) := by
  have dropped : (digits ++ ']' :: back).dropWhile Char.isDigit = ']' :: back := by
    rw [List.dropWhile_append_of_pos numeral]
    rfl
  have taken : (digits ++ ']' :: back).takeWhile Char.isDigit = digits := by
    rw [List.takeWhile_append_of_pos numeral]
    simp
  rw [List.cons_append, marker, dropped, taken]
  exact if_neg some_

theorem marker_bracket {x : Char} {rest : List Char} (other : x ≠ '[') :
    marker (x :: rest) = none := by
  rw [marker.eq_def]
  split
  · rename_i same
    cases same
    exact absurd rfl other
  · rfl

theorem marker_solid : Solid marker := by
  intro xs digits back matched k positive inside
  rcases marker_some matched with ⟨rfl, -, numeral⟩
  rcases Nat.exists_eq_succ_of_ne_zero positive.ne' with ⟨j, rfl⟩
  have short : j ≤ digits.length := by
    simp only [List.cons_append, List.length_cons, List.length_append] at inside
    omega
  rw [List.cons_append, List.drop_succ_cons, List.drop_append_of_le_length short]
  cases rest : digits.drop j with
  | nil => exact marker_bracket (by decide)
  | cons d more =>
      apply marker_bracket
      intro opening
      have digit := numeral d (List.mem_of_mem_drop (i := j) (by rw [rest]; exact List.mem_cons_self))
      rw [opening] at digit
      exact absurd digit (by decide)

def citedAt (answerText : String) (built : BuiltPrompt) (offset : Nat) : Option Nat :=
  ((hitAt marker answerText.toList offset).bind parseUsize).filter
    (fun n => 1 ≤ n && n ≤ built.idMap.length)

theorem citedAt_some {answerText : String} {built : BuiltPrompt} {offset n : Nat} :
    citedAt answerText built offset = some n ↔
      MarkedAt answerText offset n ∧ 1 ≤ n ∧ n ≤ built.idMap.length := by
  rw [citedAt, Option.filter_eq_some_iff, Option.bind_eq_some_iff, Bool.and_eq_true,
    decide_eq_true_eq, decide_eq_true_eq]
  constructor
  · rintro ⟨⟨digits, hit, parsed⟩, bounds⟩
    rcases Option.map_eq_some_iff.mp hit with ⟨⟨_, back⟩, matched, rfl⟩
    rcases marker_some matched with ⟨text, some_, numeral⟩
    rw [parseUsize] at parsed
    split at parsed
    · exact ⟨⟨_, back, text, some_, numeral, Option.some.inj parsed⟩, bounds⟩
    · cases parsed
  · rintro ⟨⟨digits, back, text, some_, numeral, value⟩, bounds⟩
    refine ⟨⟨digits, ?_, ?_⟩, bounds⟩
    · rw [hitAt, text, marker_matches some_ numeral]
      rfl
    · rw [parseUsize, value]
      exact if_pos (bounds.2.trans built.addressable)

end Markers

section Extraction

variable {answerText : String} {built : BuiltPrompt}

theorem cite_captures (captures : List (List Char)) (seen : List Nat) (out : List Citation) :
    (captures.foldl (citeCapture built) (seen, out)).2 =
      out ++ (firsts seen (captures.filterMap (fun digits => (parseUsize digits).filter
        (fun n => 1 ≤ n && n ≤ built.idMap.length)))).filterMap (fun n =>
          if valid : 1 ≤ n ∧ n ≤ built.idMap.length then some (built.citation n valid) else none) := by
  induction captures generalizing seen out with
  | nil => exact (List.append_nil _).symm
  | cons digits rest ih =>
      rw [List.foldl_cons, List.filterMap_cons, citeCapture]
      cases parseUsize digits with
      | none => exact ih seen out
      | some n =>
          by_cases valid : 1 ≤ n ∧ n ≤ built.idMap.length
          · have kept : (some n).filter (fun n => 1 ≤ n && n ≤ built.idMap.length) = some n := by
              simp [valid.1, valid.2]
            simp only [kept, dif_pos valid, firsts]
            by_cases known : n ∈ seen
            · simp only [if_pos known]
              exact ih seen out
            · simp only [if_neg known, List.filterMap_cons, dif_pos valid]
              rw [ih, List.append_assoc, List.singleton_append]
          · have dropped : (some n).filter (fun n => 1 ≤ n && n ≤ built.idMap.length) = none := by
              simpa using valid
            simp only [dropped, dif_neg valid]
            exact ih seen out

def citedNumbers (answerText : String) (built : BuiltPrompt) : List Nat :=
  firsts [] ((List.range answerText.toList.length).filterMap (citedAt answerText built))

theorem extract_eq : extractCitations answerText built =
    (citedNumbers answerText built).filterMap (fun n =>
      if valid : 1 ≤ n ∧ n ≤ built.idMap.length then some (built.citation n valid) else none) := by
  rw [extractCitations, cite_captures, List.nil_append, findIter_hits marker_solid,
    List.filterMap_filterMap, citedNumbers]
  congr 2
  apply List.filterMap_congr
  intro offset _
  rw [citedAt]
  cases hitAt marker answerText.toList offset with
  | none => rfl
  | some digits => rfl

theorem markedAt_bound {offset n : Nat} (marked : MarkedAt answerText offset n) :
    offset < answerText.toList.length := by
  rcases marked with ⟨digits, back, text, -⟩
  by_contra beyond
  rw [List.drop_eq_nil_of_le (not_lt.mp beyond)] at text
  cases text

theorem mem_citedNumbers {n : Nat} : n ∈ citedNumbers answerText built ↔
    1 ≤ n ∧ n ≤ built.idMap.length ∧ ∃ offset, MarkedAt answerText offset n := by
  rw [citedNumbers, mem_firsts, List.mem_filterMap]
  simp only [citedAt_some, List.mem_range, List.not_mem_nil, not_false_iff, and_true]
  constructor
  · rintro ⟨offset, -, marked, positive, bounded⟩
    exact ⟨positive, bounded, offset, marked⟩
  · rintro ⟨positive, bounded, offset, marked⟩
    exact ⟨offset, markedAt_bound marked, marked, positive, bounded⟩

theorem extract_numbers :
    (extractCitations answerText built).map (·.n) = citedNumbers answerText built := by
  rw [extract_eq, List.map_filterMap]
  have all : ∀ n ∈ citedNumbers answerText built,
      ((if valid : 1 ≤ n ∧ n ≤ built.idMap.length then some (built.citation n valid)
        else none).map (·.n)) = some n := by
    intro n member
    have cited := mem_citedNumbers.mp member
    rw [dif_pos ⟨cited.1, cited.2.1⟩]
    rfl
  rw [List.filterMap_congr all]
  exact List.filterMap_some

theorem extract_paired {c : Citation} (member : c ∈ extractCitations answerText built) :
    ∃ valid, c = built.citation c.n valid := by
  rw [extract_eq, List.mem_filterMap] at member
  rcases member with ⟨n, -, made⟩
  by_cases valid : 1 ≤ n ∧ n ≤ built.idMap.length
  · rw [dif_pos valid] at made
    cases made
    exact ⟨valid, rfl⟩
  · rw [dif_neg valid] at made
    cases made

structure Documented (answerText : String) (built : BuiltPrompt) (citations : List Citation) :
    Prop where
  increasing : citations.Pairwise (fun a b => a.n < b.n)
  exact : ∀ n, (∃ c ∈ citations, c.n = n) ↔
    1 ≤ n ∧ n ≤ built.idMap.length ∧ ∃ offset, MarkedAt answerText offset n
  paired : ∀ c ∈ citations, built.idMap[c.n - 1]? = some c.chunkId ∧
    built.docMap[c.n - 1]? = some c.documentId ∧ built.ordMap[c.n - 1]? = some c.ord

def CitedInOrder (answerText : String) (built : BuiltPrompt) : Prop :=
  ∀ m n, 1 ≤ m → m < n → n ≤ built.idMap.length →
    ∀ i j, MarkedAt answerText i m → MarkedAt answerText j n → ∃ k < j, MarkedAt answerText k m

theorem citedInOrder_iff : InOrder (citedAt answerText built) answerText.toList.length [] ↔
    CitedInOrder answerText built := by
  constructor
  · intro ordered m n positive less bounded i j marked later
    rcases ordered i (markedAt_bound marked) m
        (citedAt_some.mpr ⟨marked, positive, less.le.trans bounded⟩) List.not_mem_nil
        j (markedAt_bound later) n
        (citedAt_some.mpr ⟨later, positive.trans less.le, bounded⟩) List.not_mem_nil less with
      ⟨k, before, found⟩
    exact ⟨k, before, (citedAt_some.mp found).1⟩
  · intro ordered i _ m marked _ j _ n later _ less
    rcases citedAt_some.mp marked with ⟨marked, positive, fits⟩
    rcases citedAt_some.mp later with ⟨later, -, bounded⟩
    rcases ordered m n positive less bounded i j marked later with ⟨k, before, found⟩
    exact ⟨k, before, citedAt_some.mpr ⟨found, positive, fits⟩⟩

theorem extracted_exact (answerText : String) (built : BuiltPrompt) (n : Nat) :
    (∃ c ∈ extractCitations answerText built, c.n = n) ↔
      1 ≤ n ∧ n ≤ built.idMap.length ∧ ∃ offset, MarkedAt answerText offset n := by
  rw [← mem_citedNumbers, ← extract_numbers, List.mem_map]

theorem extracted_paired {c : Citation} (member : c ∈ extractCitations answerText built) :
    built.idMap[c.n - 1]? = some c.chunkId ∧ built.docMap[c.n - 1]? = some c.documentId ∧
      built.ordMap[c.n - 1]? = some c.ord := by
  rcases extract_paired member with ⟨valid, made⟩
  rw [made]
  exact ⟨List.getElem?_eq_getElem _, List.getElem?_eq_getElem _, List.getElem?_eq_getElem _⟩

/-- The citations are the documented list exactly where the answer first cites the blocks in the
order of their numbers. -/
theorem citations_documented_iff (answerText : String) (built : BuiltPrompt) :
    Documented answerText built (extractCitations answerText built) ↔
      CitedInOrder answerText built := by
  have sorted : (extractCitations answerText built).Pairwise (fun a b => a.n < b.n) ↔
      CitedInOrder answerText built := by
    rw [← citedInOrder_iff, ← firsts_sorted_iff, ← citedNumbers, ← extract_numbers,
      List.pairwise_map]
  constructor
  · exact fun documented => sorted.mp documented.increasing
  · exact fun ordered => ⟨sorted.mpr ordered, extracted_exact answerText built,
      fun c member => extracted_paired member⟩

def twoBlocks : BuiltPrompt where
  promptText := renderPrompt "who" ["first", "second"]
  idMap := [1, 2]
  docMap := [10, 10]
  ordMap := [0, 1]
  promptTokens := 2
  droppedCount := 0
  documents := rfl
  ords := rfl
  addressable := by decide

/-- An answer that cites its second source first. -/
theorem citations_unsorted :
    (extractCitations "[2] [1]" twoBlocks).map (·.n) = [2, 1] ∧
      ¬ Documented "[2] [1]" twoBlocks (extractCitations "[2] [1]" twoBlocks) := by
  have order : (extractCitations "[2] [1]" twoBlocks).map (·.n) = [2, 1] := by decide
  refine ⟨order, ?_⟩
  intro documented
  have increasing := List.pairwise_map.mpr documented.increasing
  rw [order] at increasing
  exact absurd increasing (by decide)

end Extraction

end PgRaggraph
