import PgRaggraph.Core.Chunking
import PgRaggraph.Core.Json
import PgRaggraph.Core.Envelope
import PgRaggraph.Library.Delimited

/-! The text form of a vector. The extension and the sidecar hold the same two functions. -/

namespace PgRaggraph

open Delimited

variable {R : Type}

structure FloatText (R : Type) where
  display : R → String
  parse : String → Option R

/-- What is displayed holds no comma and no white space and parses back, and the empty text does not
parse. -/
structure FloatText.Documented (format : FloatText R) : Prop where
  faithful : ∀ x, format.parse (format.display x) = some x
  undivided : ∀ x, ',' ∉ (format.display x).toList
  solid : ∀ x, ∀ c ∈ (format.display x).toList, isWhiteSpace c = false
  empty : format.parse "" = none

def stripSuffix (back s : String) : Option String :=
  if back.toList.isSuffixOf s.toList then
    some (String.ofList (s.toList.take (s.toList.length - back.toList.length)))
  else none

section Codec

variable (format : FloatText R)

/-- The body of the loop, over the text so far and `first`. -/
def pushElement (state : String × Bool) (x : R) : String × Bool :=
  ((if state.2 then state.1 else state.1 ++ ",") ++ format.display x, false)

def vectorLiteral (v : List R) : String := (v.foldl (pushElement format) ("[", true)).1 ++ "]"

def parseVectorLiteral (s : String) : Option (List R) := do
  let t := trim isWhiteSpace s
  let inner ← (stripPrefix "[" t).bind (stripSuffix "]")
  if inner.isEmpty then some []
  else (inner.toList.splitOn ',').mapM (fun part =>
    format.parse (trim isWhiteSpace (String.ofList part)))

end Codec

def Spaced (text core : List Char) : Prop := Padded isWhiteSpace text core

def bracketed (parts : List (List Char)) : List Char := '[' :: [','].intercalate parts ++ [']']

section Lemmas

variable {format : FloatText R}

theorem pushElement_chars (text : String) (v : List R) :
    (v.foldl (pushElement format) (text, false)).1.toList =
      text.toList ++ (v.map (fun x => ',' :: (format.display x).toList)).flatten := by
  induction v generalizing text with
  | nil => rw [List.foldl_nil, List.map_nil, List.flatten_nil, List.append_nil]
  | cons x v ih =>
      have comma : (",").toList = [','] := rfl
      rw [List.foldl_cons, pushElement, if_neg Bool.false_ne_true, ih, String.toList_append,
        String.toList_append, comma, List.map_cons, List.flatten_cons]
      simp only [List.append_assoc, List.cons_append, List.nil_append]

theorem intercalate_chars (first : List Char) (rest : List (List Char)) :
    [','].intercalate (first :: rest) = first ++ (rest.map (',' :: ·)).flatten := by
  induction rest generalizing first with
  | nil => simp
  | cons second rest ih =>
      rw [List.intercalate_cons_cons, ih, List.map_cons, List.flatten_cons]
      simp only [List.append_assoc, List.cons_append, List.nil_append]

theorem vectorLiteral_chars (v : List R) : (vectorLiteral format v).toList =
    bracketed (v.map (fun x => (format.display x).toList)) := by
  have opening : ("[").toList = ['['] := rfl
  have closing : ("]").toList = [']'] := rfl
  rw [vectorLiteral, String.toList_append, closing, bracketed]
  cases v with
  | nil => simp [opening]
  | cons x v =>
      rw [List.foldl_cons, pushElement, if_pos rfl, pushElement_chars, String.toList_append, opening,
        List.map_cons, intercalate_chars, List.map_map]
      simp only [List.cons_append, List.nil_append, List.append_assoc, Function.comp_def]

theorem trim_chars (s : String) : (trim isWhiteSpace s).toList = strip isWhiteSpace s.toList := by
  rw [trim, String.toList_ofList, strip]

theorem stripSuffix_chars {back s : String} {front : List Char}
    (whole : s.toList = front ++ back.toList) :
    stripSuffix back s = some (String.ofList front) := by
  have isBack : back.toList.isSuffixOf s.toList = true := by
    rw [List.isSuffixOf_iff_suffix, whole]
    exact List.suffix_append _ _
  rw [stripSuffix, if_pos isBack, whole, List.length_append, Nat.add_sub_cancel, List.take_left]

theorem stripSuffix_some {back s front : String} (stripped : stripSuffix back s = some front) :
    s.toList = front.toList ++ back.toList := by
  rw [stripSuffix] at stripped
  split at stripped
  · rename_i isBack
    rcases List.isSuffixOf_iff_suffix.mp isBack with ⟨rest, whole⟩
    rw [← whole, List.length_append, Nat.add_sub_cancel, List.take_left,
      Option.some.injEq] at stripped
    rw [← stripped, String.toList_ofList, whole]
  · cases stripped

theorem brackets_some {t inner : String} :
    (stripPrefix "[" t).bind (stripSuffix "]") = some inner ↔
      t.toList = '[' :: inner.toList ++ [']'] := by
  constructor
  · intro stripped
    rcases Option.bind_eq_some_iff.mp stripped with ⟨rest, opened, closed⟩
    rw [stripPrefix_some opened, stripSuffix_some closed]
    rfl
  · intro whole
    have opened : stripPrefix "[" t = some (String.ofList (inner.toList ++ [']'])) :=
      stripPrefix_chars whole
    have closed : stripSuffix "]" (String.ofList (inner.toList ++ [']'])) =
        some (String.ofList inner.toList) := by
      apply stripSuffix_chars
      rw [String.toList_ofList]
      rfl
    rw [opened, Option.bind_some, closed, String.ofList_toList]

theorem bracketed_firm (parts : List (List Char)) : Firm isWhiteSpace (bracketed parts) where
  first := by
    intro c same
    cases same
    rfl
  last := by
    intro c same
    rw [bracketed, List.getLast?_append] at same
    cases same
    rfl

theorem parse_none {text : String} (spaced : Spaced text.toList (bracketed [])) :
    parseVectorLiteral format text = some [] := by
  have whole : (trim isWhiteSpace text).toList = '[' :: ("" : String).toList ++ [']'] := by
    rw [trim_chars]
    exact strip_padded (bracketed_firm []) spaced
  rw [parseVectorLiteral]
  simp only [brackets_some.mpr whole]
  rfl

theorem parse_pieces {text : String} {parts : List (List Char)} (present : parts ≠ [])
    (content : parts ≠ [[]]) (undivided : ∀ part ∈ parts, ',' ∉ part)
    (spaced : Spaced text.toList (bracketed parts)) :
    parseVectorLiteral format text = parts.mapM (fun part =>
      format.parse (trim isWhiteSpace (String.ofList part))) := by
  have pieces := List.splitOn_intercalate ',' undivided present
  have whole : (trim isWhiteSpace text).toList =
      '[' :: (String.ofList ([','].intercalate parts)).toList ++ [']'] := by
    rw [trim_chars, strip_padded (bracketed_firm parts) spaced, String.toList_ofList, bracketed]
  have filled : (String.ofList ([','].intercalate parts)).isEmpty = false := by
    rw [Bool.eq_false_iff]
    intro empty
    have nothing : [','].intercalate parts = [] := by
      rw [← String.toList_ofList (l := [','].intercalate parts), String.isEmpty_iff.mp empty]
      rfl
    rw [nothing, List.splitOn_nil] at pieces
    exact content pieces.symm
  rw [parseVectorLiteral]
  simp only [brackets_some.mpr whole]
  rw [Option.bind_eq_bind, Option.bind_some, filled, if_neg Bool.false_ne_true,
    String.toList_ofList, pieces]

theorem parse_bracketed {text : String} {v : List R}
    (parsed : parseVectorLiteral format text = some v) :
    ∃ parts, Spaced text.toList (bracketed parts) ∧ ∀ part ∈ parts, ',' ∉ part := by
  simp only [parseVectorLiteral, Option.bind_eq_bind] at parsed
  rcases Option.bind_eq_some_iff.mp parsed with ⟨inner, within, -⟩
  refine ⟨inner.toList.splitOn ',', ?_, fun part member => separator_notMem_splitOn member⟩
  rw [bracketed, List.intercalate_splitOn, ← brackets_some.mp within, trim_chars]
  exact padded_strip isWhiteSpace text.toList

end Lemmas

structure Number (format : FloatText R) (part : List Char) (x : R) : Prop where
  text : ∃ number : String, Firm isWhiteSpace number.toList ∧ Spaced part number.toList ∧
    format.parse number = some x

section Literals

variable {format : FloatText R}

theorem number_iff {part : List Char} {x : R} : Number format part x ↔
    format.parse (trim isWhiteSpace (String.ofList part)) = some x := by
  constructor
  · rintro ⟨number, firm, spaced, parsed⟩
    have trimmed : trim isWhiteSpace (String.ofList part) = number := by
      rw [← String.toList_inj, trim_chars, String.toList_ofList]
      exact strip_padded firm spaced
    rw [trimmed, parsed]
  · intro parsed
    refine ⟨_, ?_, ?_, parsed⟩
    · rw [trim_chars]
      exact firm_strip isWhiteSpace _
    · rw [trim_chars, String.toList_ofList]
      exact padded_strip isWhiteSpace part

variable (documented : format.Documented)

include documented

theorem number_displayed {part : List Char} {x : R}
    (spaced : Spaced part (format.display x).toList) : Number format part x :=
  ⟨format.display x, firm_of_unpadded (documented.solid x), spaced, documented.faithful x⟩

theorem blank_unread {part : List Char} (blank : ∀ c ∈ part, isWhiteSpace c = true) (x : R) :
    ¬ Number format part x := by
  intro number
  have nothing : trim isWhiteSpace (String.ofList part) = "" := by
    rw [← String.toList_inj, trim_chars, String.toList_ofList, strip_blank blank]
    rfl
  have parsed := number_iff.mp number
  rw [nothing, documented.empty] at parsed
  cases parsed

theorem parseVectorLiteral_some_iff {text : String} {v : List R} :
    parseVectorLiteral format text = some v ↔
      ∃ parts, Spaced text.toList (bracketed parts) ∧ (∀ part ∈ parts, ',' ∉ part) ∧
        List.Forall₂ (Number format) parts v := by
  -- An empty piece is no number, so a list of numbers is empty or shows between the brackets.
  have read : ∀ parts : List (List Char), Spaced text.toList (bracketed parts) →
      (∀ part ∈ parts, ',' ∉ part) → parts ≠ [[]] →
      (parseVectorLiteral format text = some v ↔ List.Forall₂ (Number format) parts v) := by
    intro parts spaced undivided content
    by_cases present : parts = []
    · rw [present] at spaced ⊢
      rw [parse_none spaced, List.forall₂_nil_left_iff, Option.some.injEq]
      exact eq_comm
    · rw [parse_pieces present content undivided spaced, mapM_some_iff]
      exact ⟨fun each => each.imp (fun _ _ => number_iff.mpr),
        fun each => each.imp (fun _ _ => number_iff.mp)⟩
  constructor
  · intro parsed
    rcases parse_bracketed parsed with ⟨parts, spaced, undivided⟩
    by_cases content : parts = [[]]
    · -- `[]` is the literal of no elements as well as of one empty piece.
      rw [content] at spaced
      have empty : Spaced text.toList (bracketed []) := spaced
      exact ⟨[], empty, nofun, (read [] empty nofun nofun).mp parsed⟩
    · exact ⟨parts, spaced, undivided, (read parts spaced undivided content).mp parsed⟩
  · rintro ⟨parts, spaced, undivided, numbers⟩
    refine (read parts spaced undivided ?_).mpr numbers
    rintro rfl
    rcases List.forall₂_cons_left_iff.mp numbers with ⟨x, -, number, -, -⟩
    exact blank_unread documented (fun c inside => absurd inside List.not_mem_nil) x number

theorem parse_spaced {text : String} {parts : List (List Char)} {v : List R}
    (elements : List.Forall₂ (fun part x => Spaced part (format.display x).toList) parts v)
    (spaced : Spaced text.toList (bracketed parts)) :
    parseVectorLiteral format text = some v := by
  refine (parseVectorLiteral_some_iff documented).mpr ⟨parts, spaced, ?_, ?_⟩
  · intro part member divided
    rcases List.forall₂_iff_get.mp elements with ⟨sameLength, each⟩
    rcases List.mem_iff_get.mp member with ⟨i, rfl⟩
    rcases each i i.isLt (sameLength ▸ i.isLt) with ⟨front, back, whole, padsFront, padsBack⟩
    rw [List.get_eq_getElem] at divided
    rw [List.get_eq_getElem] at whole
    rw [whole, List.mem_append, List.mem_append] at divided
    rcases divided with (before | inside) | after
    · exact absurd (padsFront _ before) (by decide)
    · exact documented.undivided _ inside
    · exact absurd (padsBack _ after) (by decide)
  · exact elements.imp (fun part x piece => number_displayed documented piece)

theorem parse_blank_element {text : String} {parts : List (List Char)} {part : List Char}
    (content : parts ≠ [[]]) (undivided : ∀ part ∈ parts, ',' ∉ part)
    (spaced : Spaced text.toList (bracketed parts)) (member : part ∈ parts)
    (blank : ∀ c ∈ part, isWhiteSpace c = true) : parseVectorLiteral format text = none := by
  rw [parse_pieces (List.ne_nil_of_mem member) content undivided spaced,
    Option.eq_none_iff_forall_ne_some]
  intro v read
  rcases List.forall₂_iff_get.mp (mapM_some_iff.mp read) with ⟨sameLength, each⟩
  rcases List.mem_iff_get.mp member with ⟨i, rfl⟩
  exact blank_unread documented blank _
    (number_iff.mpr (each i i.isLt (sameLength ▸ i.isLt)))

/-- What is written is read back, also with white space around it and around its elements; a text is
read only if it is a bracketed list of numbers; and a bracket that is missing or a blank element,
such as a trailing comma leaves, makes it unreadable. -/
theorem vector_literal_codec :
    (∀ v : List R, parseVectorLiteral format (vectorLiteral format v) = some v) ∧
    (∀ (v : List R) (parts : List (List Char)) (text : String),
      List.Forall₂ (fun part x => Spaced part (format.display x).toList) parts v →
      Spaced text.toList (bracketed parts) → parseVectorLiteral format text = some v) ∧
    (∀ (text : String) (v : List R), parseVectorLiteral format text = some v ↔
      ∃ parts, Spaced text.toList (bracketed parts) ∧ (∀ part ∈ parts, ',' ∉ part) ∧
        List.Forall₂ (Number format) parts v) ∧
    (∀ text : String, (∀ inner, ¬ Spaced text.toList ('[' :: inner ++ [']'])) →
      parseVectorLiteral format text = none) ∧
    ∀ (text : String) (parts : List (List Char)) (part : List Char), parts ≠ [[]] →
      (∀ part ∈ parts, ',' ∉ part) → Spaced text.toList (bracketed parts) → part ∈ parts →
      (∀ c ∈ part, isWhiteSpace c = true) → parseVectorLiteral format text = none := by
  refine ⟨fun v => ?_, fun v parts text => parse_spaced documented,
    fun text v => parseVectorLiteral_some_iff documented, fun text unbracketed => ?_,
    fun text parts part => parse_blank_element documented⟩
  · have spaced : Spaced (vectorLiteral format v).toList
        (bracketed (v.map (fun x => (format.display x).toList))) := by
      rw [vectorLiteral_chars]
      exact Padded.itself _
    refine parse_spaced documented ?_ spaced
    rw [List.forall₂_map_left_iff]
    exact List.forall₂_same.mpr (fun x _ => Padded.itself _)
  · rw [Option.eq_none_iff_forall_ne_some]
    intro v parsed
    rcases parse_bracketed parsed with ⟨parts, spaced, -⟩
    exact unbracketed _ spaced

end Literals

def oneAndMinusHalf : FloatText Bool where
  display x := if x then "1" else "-0.5"
  parse s := if s = "1" then some true else if s = "-0.5" then some false else none

theorem oneAndMinusHalf_documented : oneAndMinusHalf.Documented where
  faithful := by decide
  undivided := by decide
  solid := by
    have checked : ∀ x, (oneAndMinusHalf.display x).toList.all (fun c => !isWhiteSpace c) = true := by
      decide
    intro x c member
    simpa using List.all_eq_true.mp (checked x) c member
  empty := by decide

theorem vector_literal_codec_sample :
    parseVectorLiteral oneAndMinusHalf (vectorLiteral oneAndMinusHalf [true, false]) =
      some [true, false] :=
  (vector_literal_codec oneAndMinusHalf_documented).1 [true, false]

example : vectorLiteral oneAndMinusHalf [true, false] = "[1,-0.5]" := by decide

end PgRaggraph
