import Mathlib.Data.List.Basic
import Mathlib.Data.List.Forall2
import Mathlib.Data.List.TakeWhile

/-! Lists that are padded at both ends, and lists that are divided by a separator. -/

namespace Delimited

variable {α : Type}

def strip (padding : α → Bool) (text : List α) : List α :=
  ((text.dropWhile padding).reverse.dropWhile padding).reverse

/-- The list is the core between two paddings. -/
def Padded (padding : α → Bool) (text core : List α) : Prop :=
  ∃ front back, text = front ++ core ++ back ∧ (∀ a ∈ front, padding a = true) ∧
    ∀ a ∈ back, padding a = true

structure Firm (padding : α → Bool) (core : List α) : Prop where
  first : ∀ a ∈ core.head?, padding a = false
  last : ∀ a ∈ core.getLast?, padding a = false

section Strip

variable {padding : α → Bool} {text core : List α}

theorem Padded.itself (text : List α) : Padded padding text text :=
  ⟨[], [], by rw [List.nil_append, List.append_nil], nofun, nofun⟩

theorem padded_strip (padding : α → Bool) (text : List α) :
    Padded padding text (strip padding text) := by
  have front := List.takeWhile_append_dropWhile (p := padding) (l := text)
  have back := List.takeWhile_append_dropWhile (p := padding)
    (l := (text.dropWhile padding).reverse)
  refine ⟨text.takeWhile padding, (((text.dropWhile padding).reverse).takeWhile padding).reverse,
    ?_, ?_, ?_⟩
  · rw [strip, List.append_assoc, ← List.reverse_append, back, List.reverse_reverse, front]
  · exact fun a member => List.all_eq_true.mp List.all_takeWhile a member
  · intro a member
    exact List.all_eq_true.mp List.all_takeWhile a (List.mem_reverse.mp member)

theorem dropWhile_firm (front : ∀ a ∈ core.head?, padding a = false) :
    core.dropWhile padding = core := by
  cases core with
  | nil => rfl
  | cons a core => rw [List.dropWhile_cons_of_neg (by simp [front a rfl])]

theorem strip_padded (firm : Firm padding core) (padded : Padded padding text core) :
    strip padding text = core := by
  rcases padded with ⟨front, back, rfl, padsFront, padsBack⟩
  have begun : (front ++ core ++ back).dropWhile padding = (core ++ back).dropWhile padding := by
    rw [List.append_assoc, List.dropWhile_append_of_pos padsFront]
  have ended : ∀ a ∈ back.reverse, padding a = true :=
    fun a member => padsBack a (List.mem_reverse.mp member)
  cases core with
  | nil =>
      have gone : back.dropWhile padding = [] := by
        rw [← List.append_nil back, List.dropWhile_append_of_pos padsBack, List.dropWhile_nil]
      rw [strip, begun, List.nil_append, gone]
      rfl
  | cons a core =>
      have kept : (a :: core ++ back).dropWhile padding = a :: core ++ back :=
        dropWhile_firm (fun b same => firm.first b same)
      have whole : (a :: core).reverse.dropWhile padding = (a :: core).reverse := by
        apply dropWhile_firm
        intro b same
        rw [List.head?_reverse] at same
        exact firm.last b same
      rw [strip, begun, kept, List.reverse_append, List.dropWhile_append_of_pos ended, whole,
        List.reverse_reverse]

theorem firm_of_unpadded (plain : ∀ a ∈ core, padding a = false) : Firm padding core where
  first := fun a same => plain a (List.mem_of_head? same)
  last := fun a same => plain a (List.mem_of_getLast? same)

theorem head?_dropWhile_unpadded (padding : α → Bool) (text : List α) :
    ∀ a ∈ (text.dropWhile padding).head?, padding a = false := by
  intro a first
  have unpadded := List.head?_dropWhile_not padding text
  rw [Option.mem_def.mp first] at unpadded
  exact unpadded

theorem firm_strip (padding : α → Bool) (text : List α) : Firm padding (strip padding text) where
  last := by
    intro a final
    rw [strip, List.getLast?_reverse] at final
    exact head?_dropWhile_unpadded padding _ a final
  first := by
    intro a first
    -- The stripped list begins as the list without its front padding does.
    have isPrefix : strip padding text <+: text.dropWhile padding := by
      rw [strip, ← List.reverse_suffix, List.reverse_reverse]
      exact List.dropWhile_suffix padding
    rcases isPrefix with ⟨rest, whole⟩
    apply head?_dropWhile_unpadded padding text
    rw [← whole, List.head?_append, Option.mem_def.mp first]
    rfl

theorem strip_blank (blank : ∀ a ∈ text, padding a = true) : strip padding text = [] :=
  strip_padded ⟨nofun, nofun⟩ ⟨text, [], by simp, blank, nofun⟩

end Strip

section Split

variable [DecidableEq α] {separator : α}

theorem separator_notMem_splitOn {text piece : List α} (member : piece ∈ text.splitOn separator) :
    separator ∉ piece := by
  induction text generalizing piece with
  | nil =>
      rw [List.splitOn_nil, List.mem_singleton] at member
      rw [member]
      exact List.not_mem_nil
  | cons a text ih =>
      rw [List.splitOn_cons_eq_if_modifyHead] at member
      by_cases here : (a == separator) = true
      · rw [if_pos here, List.mem_cons] at member
        rcases member with rfl | later
        · exact List.not_mem_nil
        · exact ih later
      · rw [if_neg here] at member
        rcases pieces : text.splitOn separator with _ | ⟨first, rest⟩
        · exact absurd pieces (List.splitOn_ne_nil separator text)
        · rw [pieces, List.modifyHead_cons, List.mem_cons] at member
          rw [pieces] at ih
          rcases member with rfl | later
          · intro inside
            rcases List.mem_cons.mp inside with same | deeper
            · exact here (beq_iff_eq.mpr same.symm)
            · exact ih List.mem_cons_self deeper
          · exact ih (List.mem_cons_of_mem _ later)

end Split

section Cuts

variable [DecidableEq α]

def cutBefore (separator : α) (text : List α) : Option (List α × List α) :=
  match text.dropWhile (fun a => a != separator) with
  | [] => none
  | tail => some (text.takeWhile (fun a => a != separator), tail)

def cutAfter (needle : List α) : List α → Option (List α × List α)
  | [] => none
  | a :: text =>
      if needle.isPrefixOf (a :: text) then
        some ((a :: text).take needle.length, (a :: text).drop needle.length)
      else (cutAfter needle text).map (fun parts => (a :: parts.1, parts.2))

variable {separator : α} {needle text front back : List α}

theorem cutBefore_none (absent : separator ∉ text) : cutBefore separator text = none := by
  have none_left : text.dropWhile (fun a => a != separator) = [] := by
    rw [List.dropWhile_eq_nil_iff]
    intro a member
    exact bne_iff_ne.mpr (ne_of_mem_of_not_mem member absent)
  rw [cutBefore, none_left]

theorem cutBefore_first (absent : separator ∉ front) :
    cutBefore separator (front ++ separator :: back) = some (front, separator :: back) := by
  have differs : ∀ a ∈ front, (a != separator) = true := by
    intro a member
    exact bne_iff_ne.mpr (ne_of_mem_of_not_mem member absent)
  rw [cutBefore, List.dropWhile_append_of_pos differs, List.takeWhile_append_of_pos differs]
  simp

theorem cutBefore_some (found : cutBefore separator text = some (front, back)) :
    text = front ++ back := by
  rw [cutBefore] at found
  split at found
  · cases found
  · cases found
    exact (List.takeWhile_append_dropWhile).symm

theorem separator_cases (separator : α) (text : List α) :
    separator ∉ text ∨ ∃ front back, text = front ++ separator :: back ∧ separator ∉ front := by
  by_cases member : separator ∈ text
  · rcases List.eq_append_cons_of_mem member with ⟨front, back, whole, absent⟩
    exact .inr ⟨front, back, whole, absent⟩
  · exact .inl member

theorem cutAfter_cons {a : α} (outside : a ∉ needle) (nonempty : needle ≠ []) :
    cutAfter needle (a :: text) =
      (cutAfter needle text).map (fun parts => (a :: parts.1, parts.2)) := by
  have different : needle.isPrefixOf (a :: text) = false := by
    cases needle with
    | nil => exact absurd rfl nonempty
    | cons b needle =>
        have differs : b ≠ a := fun same => outside (List.mem_cons.mpr (.inl same.symm))
        rw [List.isPrefixOf_cons_cons, beq_eq_false_iff_ne.mpr differs, Bool.false_and]
  rw [cutAfter, if_neg (Bool.eq_false_iff.mp different)]

theorem cutAfter_some (found : cutAfter needle text = some (front, back)) :
    text = front ++ back ∧ needle.length ≤ front.length := by
  induction text generalizing front back with
  | nil => cases found
  | cons a text ih =>
      rw [cutAfter] at found
      split at found
      · rename_i here
        have within := (List.isPrefixOf_iff_prefix.mp here).length_le
        cases found
        refine ⟨(List.take_append_drop _ _).symm, ?_⟩
        rw [List.length_take, Nat.min_eq_left within]
      · rcases Option.map_eq_some_iff.mp found with ⟨⟨front', back'⟩, later, same⟩
        cases same
        rcases ih later with ⟨whole, within⟩
        refine ⟨by rw [whole, List.cons_append], ?_⟩
        rw [List.length_cons]
        exact Nat.le_succ_of_le within

theorem cutAfter_append (more : List α) (found : cutAfter needle text = some (front, back)) :
    cutAfter needle (text ++ more) = some (front, back ++ more) := by
  induction text generalizing front back with
  | nil => cases found
  | cons a text ih =>
      rw [cutAfter] at found
      rw [List.cons_append, cutAfter, ← List.cons_append]
      split at found
      · rename_i here
        have begins := List.isPrefixOf_iff_prefix.mp here
        have still : needle.isPrefixOf (a :: text ++ more) = true :=
          List.isPrefixOf_iff_prefix.mpr (begins.trans (List.prefix_append _ _))
        cases found
        rw [if_pos still, List.take_append_of_le_length begins.length_le,
          List.drop_append_of_le_length begins.length_le]
      · rename_i elsewhere
        rcases Option.map_eq_some_iff.mp found with ⟨⟨front', back'⟩, later, same⟩
        cases same
        -- The needle occurs later in the list, so it is too short to begin here and reach beyond it.
        have notYet : ¬ needle.isPrefixOf (a :: text ++ more) = true := by
          intro here
          rcases cutAfter_some later with ⟨whole, within⟩
          have short : needle.length ≤ (a :: text).length := by
            rw [whole, List.length_cons, List.length_append]
            omega
          exact elsewhere (List.isPrefixOf_iff_prefix.mpr (List.prefix_of_prefix_length_le
            (List.isPrefixOf_iff_prefix.mp here) (List.prefix_append _ _) short))
        rw [if_neg notYet, ih later, Option.map_some]

/-- No occurrence of the needle reaches across an element that it does not contain. -/
theorem cutAfter_across {a : α} (back : List α) (outside : a ∉ needle) (nonempty : needle ≠ [])
    (absent : cutAfter needle front = none) :
    cutAfter needle (front ++ a :: back) =
      (cutAfter needle back).map (fun parts => (front ++ a :: parts.1, parts.2)) := by
  induction front with
  | nil => exact cutAfter_cons outside nonempty
  | cons b front ih =>
      rw [cutAfter] at absent
      split at absent
      · cases absent
      · rename_i elsewhere
        have notYet : ¬ needle.isPrefixOf (b :: (front ++ a :: back)) = true := by
          intro here
          have split : (b :: front ++ [a]) ++ back = b :: (front ++ a :: back) := by simp
          have whole : b :: front ++ [a] <+: b :: (front ++ a :: back) :=
            split ▸ List.prefix_append _ _
          rcases List.prefix_or_prefix_of_prefix (List.isPrefixOf_iff_prefix.mp here) whole with
            short | long
          · rcases List.prefix_concat_iff.mp short with same | begins
            · exact outside (same ▸ List.mem_append_right _ List.mem_cons_self)
            · exact elsewhere (List.isPrefixOf_iff_prefix.mpr begins)
          · exact outside (long.subset (List.mem_append_right _ List.mem_cons_self))
        rw [List.cons_append, cutAfter, if_neg notYet, ih (Option.map_eq_none_iff.mp absent),
          Option.map_map]
        rfl

end Cuts

section Pieces

variable {β : Type} {read : α → Option β}

theorem mapM_some_iff {pieces : List α} {values : List β} :
    pieces.mapM read = some values ↔
      List.Forall₂ (fun piece value => read piece = some value) pieces values := by
  induction pieces generalizing values with
  | nil =>
      rw [List.mapM_nil, List.forall₂_nil_left_iff]
      exact ⟨fun same => (Option.some.inj same).symm, fun same => by rw [same]; rfl⟩
  | cons piece pieces ih =>
      rw [List.mapM_cons, List.forall₂_cons_left_iff]
      constructor
      · intro done
        rcases Option.bind_eq_some_iff.mp done with ⟨value, first, remaining⟩
        rcases Option.bind_eq_some_iff.mp remaining with ⟨values', rest, same⟩
        exact ⟨value, values', first, ih.mp rest, (Option.some.inj same).symm⟩
      · rintro ⟨value, values', first, rest, rfl⟩
        exact Option.bind_eq_some_iff.mpr ⟨value, first,
          Option.bind_eq_some_iff.mpr ⟨values', ih.mpr rest, rfl⟩⟩

end Pieces

end Delimited
