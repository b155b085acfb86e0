import PgRaggraph.Core.Chunking
import PgRaggraph.Library.Delimited

/-! `redact_conn_string` over the connection strings that `tokio-postgres` accepts. -/

namespace PgRaggraph

open Delimited

def schemeEnd : List Char := [':', '/', '/']

def redactChars (text : List Char) : List Char :=
  match cutAfter schemeEnd text with
  | none => text
  | some (scheme, rest) =>
      match cutBefore '@' rest with
      | none => text
      | some (authority, tail) =>
          match cutBefore ':' authority with
          | some (user, _) => scheme ++ user ++ [':', '*', '*', '*'] ++ tail
          | none => text

def redactConnString (s : String) : String := String.ofList (redactChars s.toList)

/-- A parameter of the query part, behind `?` or `&`, or a pair of the form with blanks. -/
structure Setting where
  lead : List Char
  key : List Char
  equals : List Char
  value : List Char
  deriving DecidableEq

namespace Setting

def passwordKey : List Char := ['p', 'a', 's', 's', 'w', 'o', 'r', 'd']

def text (s : Setting) : List Char := s.lead ++ s.key ++ s.equals ++ s.value

def secret (s : Setting) : Bool := s.key == passwordKey

def withPassword (pw : List Char) (s : Setting) : Setting :=
  if s.secret then { s with value := pw } else s

/-- `k=v`, where the value ends at the next `&`. -/
structure Parameter (s : Setting) : Prop where
  key : '=' ∉ s.key ∧ '&' ∉ s.key
  equals : s.equals = ['=']
  value : '&' ∉ s.value

/-- `k = v`, where the value is quoted or ends at the next blank. -/
structure Keyword (s : Setting) : Prop where
  lead : ∀ c ∈ s.lead, isWhiteSpace c = true
  key : s.key ≠ [] ∧ ∀ c ∈ s.key, c.isAlphanum = true ∨ c = '_'
  equals : ∃ before after, s.equals = before ++ '=' :: after ∧
    ∀ c ∈ before ++ after, isWhiteSpace c = true
  value : (s.value ≠ [] ∧ ∀ c ∈ s.value, isWhiteSpace c = false ∧ c ≠ '\'') ∨
    ∃ quoted, s.value = '\'' :: quoted ++ ['\'']

end Setting

structure Userinfo where
  user : List Char
  password : Option (List Char)
  deriving DecidableEq

def Userinfo.text (i : Userinfo) : List Char :=
  match i.password with
  | some pw => i.user ++ ':' :: pw ++ ['@']
  | none => i.user ++ ['@']

inductive ConnString where
  | uri (scheme : List Char) (userinfo : Option Userinfo) (address : List Char)
      (params : List Setting)
  | pairs (settings : List Setting) (trailing : List Char)
  deriving DecidableEq

namespace ConnString

def settingsText (settings : List Setting) : List Char := settings.flatMap Setting.text

def text : ConnString → List Char
  | uri scheme userinfo address params =>
      scheme ++ schemeEnd ++ (userinfo.elim [] Userinfo.text ++ (address ++ settingsText params))
  | pairs settings trailing => settingsText settings ++ trailing

def schemes : List (List Char) := ["postgres".toList, "postgresql".toList]

def Divided : List Setting → Prop
  | [] => True
  | _ :: rest => ∀ s ∈ rest, s.lead ≠ []

def Led : List Setting → Prop
  | [] => True
  | first :: rest => first.lead = ['?'] ∧ ∀ s ∈ rest, s.lead = ['&']

/-- The userinfo ends at the first `@`. -/
def WellFormed : ConnString → Prop
  | uri scheme userinfo address params =>
      scheme ∈ schemes ∧ '?' ∉ address ∧ Led params ∧ (∀ s ∈ params, s.Parameter) ∧
        match userinfo with
        | some i => '@' ∉ i.user ∧ ':' ∉ i.user ∧ ∀ pw ∈ i.password, '@' ∉ pw
        | none => '@' ∉ address ++ settingsText params
  | pairs settings trailing =>
      Divided settings ∧ (∀ s ∈ settings, s.Keyword) ∧ ∀ c ∈ trailing, isWhiteSpace c = true

def withPassword (pw : List Char) : ConnString → ConnString
  | uri scheme userinfo address params =>
      uri scheme (userinfo.map (fun i => { i with password := i.password.map (fun _ => pw) }))
        address (params.map (Setting.withPassword pw))
  | pairs settings trailing => pairs (settings.map (Setting.withPassword pw)) trailing

def carriesPassword : ConnString → Bool
  | uri _ userinfo _ params =>
      (userinfo.any (fun i => i.password.isSome)) || params.any Setting.secret
  | pairs settings _ => settings.any Setting.secret

def redacted (c : ConnString) : String := redactConnString (String.ofList c.text)

def errorLog (c : ConnString) (front back : List Char) : String :=
  redactConnString (String.ofList (front ++ c.text ++ back))

def Quiet (text : List Char) : Prop :=
  ∀ scheme rest, cutAfter schemeEnd text = some (scheme, rest) → '@' ∉ rest

/-- No password shows in what is logged of the string and of an error that carries it, and a string
without one is logged as it is. -/
structure Protected (c : ConnString) (front back : List Char) : Prop where
  hidden : ∀ pw pw', (c.withPassword pw).WellFormed → (c.withPassword pw').WellFormed →
    (c.withPassword pw).redacted = (c.withPassword pw').redacted
  logged : ∀ pw pw', (c.withPassword pw).WellFormed → (c.withPassword pw').WellFormed →
    (c.withPassword pw).errorLog front back = (c.withPassword pw').errorLog front back
  unchanged : c.carriesPassword = false → c.redacted = String.ofList c.text

def LooksLikeUserinfo (text : List Char) : Prop :=
  ∃ scheme rest authority tail user pw, cutAfter schemeEnd text = some (scheme, rest) ∧
    cutBefore '@' rest = some (authority, tail) ∧ cutBefore ':' authority = some (user, pw) ∧
    pw ≠ [':', '*', '*', '*']

/-- A URI without a parameter for the password, or pairs without one of which no value looks like a
URI with one. -/
def Covered : ConnString → Prop
  | uri _ _ _ params => params.any Setting.secret = false
  | pairs settings trailing =>
      settings.any Setting.secret = false ∧ ¬ LooksLikeUserinfo (settingsText settings ++ trailing)

section Scanner

variable {text front back scheme rest : List Char}

def redactRest (scheme rest : List Char) : List Char :=
  match cutBefore '@' rest with
  | none => scheme ++ rest
  | some (authority, tail) =>
      match cutBefore ':' authority with
      | some (user, _) => scheme ++ user ++ [':', '*', '*', '*'] ++ tail
      | none => scheme ++ rest

theorem redact_uncut (uncut : cutAfter schemeEnd text = none) : redactChars text = text := by
  rw [redactChars, uncut]

theorem redact_cut (cut : cutAfter schemeEnd text = some (scheme, rest)) :
    redactChars text = redactRest scheme rest := by
  rw [redactChars, cut, redactRest, (cutAfter_some cut).1]

theorem redactRest_at (absent : '@' ∉ front) : redactRest scheme (front ++ '@' :: back) =
    match cutBefore ':' front with
    | some (user, _) => scheme ++ user ++ [':', '*', '*', '*'] ++ '@' :: back
    | none => scheme ++ front ++ '@' :: back := by
  rw [redactRest, cutBefore_first absent, List.append_assoc scheme front]

theorem redactRest_unmarked (absent : '@' ∉ rest) : redactRest scheme rest = scheme ++ rest := by
  rw [redactRest, cutBefore_none absent]

theorem redactRest_keeps (scheme rest : List Char) :
    ∃ kept, ∀ back, redactRest scheme (rest ++ '@' :: back) = kept ++ '@' :: back := by
  have first : ∀ front, '@' ∉ front →
      ∃ kept, ∀ back, redactRest scheme (front ++ '@' :: back) = kept ++ '@' :: back := by
    intro front absent
    cases cut : cutBefore ':' front with
    | none => exact ⟨scheme ++ front, fun back => by rw [redactRest_at absent, cut]⟩
    | some parts =>
        exact ⟨scheme ++ parts.1 ++ [':', '*', '*', '*'], fun back => by
          rw [redactRest_at absent, cut]⟩
  rcases separator_cases '@' rest with absent | ⟨front, middle, rfl, absent⟩
  · exact first rest absent
  · rcases first front absent with ⟨kept, keeps⟩
    refine ⟨kept ++ '@' :: middle, fun back => ?_⟩
    rw [List.append_assoc, List.cons_append, keeps, List.append_assoc, List.cons_append]

theorem redact_across {c : Char} (outside : c ∉ schemeEnd)
    (uncut : cutAfter schemeEnd front = none) :
    redactChars (front ++ c :: back) = front ++ c :: redactChars back := by
  have across := cutAfter_across back outside (by decide) uncut
  cases cut : cutAfter schemeEnd back with
  | none =>
      rw [cut, Option.map_none] at across
      rw [redact_uncut across, redact_uncut cut]
  | some parts =>
      rw [cut, Option.map_some] at across
      rw [redact_cut across, redact_cut cut, redactRest, redactRest]
      split
      · rw [List.append_assoc, List.cons_append]
      · split
        · simp only [List.append_assoc, List.cons_append]
        · rw [List.append_assoc, List.cons_append]

theorem letters_differ (front back back' : List Char) :
    front ++ 'a' :: back ≠ front ++ 'b' :: back' := by
  intro same
  injection List.append_cancel_left same with letters _
  cases letters

theorem redact_differs (front back back' : List Char) :
    redactChars (front ++ '@' :: 'a' :: back) ≠ redactChars (front ++ '@' :: 'b' :: back') := by
  intro same
  cases cut : cutAfter schemeEnd front with
  | none =>
      have outside : ∀ c ∈ ['@', 'a', 'b'], c ∉ schemeEnd := by simp [schemeEnd]
      have here : ∀ c ∈ ['a', 'b'], ∀ text, redactChars (c :: text) = c :: redactChars text := by
        intro c member text
        have nothing : cutAfter schemeEnd [] = none := rfl
        exact redact_across (outside c (List.mem_cons_of_mem _ member)) nothing
      rw [redact_across (by decide) cut, redact_across (by decide) cut,
        here 'a' (by decide), here 'b' (by decide), List.append_cons _ _ ('a' :: _),
        List.append_cons _ _ ('b' :: _)] at same
      exact letters_differ _ _ _ same
  | some parts =>
      rcases redactRest_keeps parts.1 parts.2 with ⟨kept, keeps⟩
      rw [redact_cut (cutAfter_append _ cut), redact_cut (cutAfter_append _ cut), keeps, keeps,
        List.append_cons _ _ ('a' :: _), List.append_cons _ _ ('b' :: _)] at same
      exact letters_differ _ _ _ same

theorem looksLikeUserinfo_iff {authority tail : List Char}
    (cut : cutAfter schemeEnd text = some (scheme, rest))
    (marked : cutBefore '@' rest = some (authority, tail)) : LooksLikeUserinfo text ↔
      ∃ user pw, cutBefore ':' authority = some (user, pw) ∧ pw ≠ [':', '*', '*', '*'] := by
  constructor
  · rintro ⟨scheme', rest', authority', tail', user, pw, found, marked', parted, other⟩
    rw [cut] at found
    cases found
    rw [marked] at marked'
    cases marked'
    exact ⟨user, pw, parted, other⟩
  · rintro ⟨user, pw, parted, other⟩
    exact ⟨scheme, rest, authority, tail, user, pw, cut, marked, parted, other⟩

theorem redact_unchanged_iff : redactChars text = text ↔ ¬ LooksLikeUserinfo text := by
  rw [redactChars]
  cases cut : cutAfter schemeEnd text with
  | none =>
      refine iff_of_true rfl ?_
      rintro ⟨scheme, rest, -, -, -, -, found, -⟩
      rw [cut] at found
      cases found
  | some parts =>
      rcases parts with ⟨scheme, rest⟩
      dsimp only
      cases marked : cutBefore '@' rest with
      | none =>
          refine iff_of_true rfl ?_
          rintro ⟨scheme', rest', authority, tail, -, -, found, marked', -⟩
          rw [cut] at found
          cases found
          rw [marked] at marked'
          cases marked'
      | some halves =>
          rcases halves with ⟨authority, tail⟩
          rw [looksLikeUserinfo_iff cut marked]
          dsimp only
          cases parted : cutBefore ':' authority with
          | none => exact iff_of_true rfl (by simp)
          | some named =>
              rcases named with ⟨user, pw⟩
              dsimp only
              have whole : text = scheme ++ user ++ pw ++ tail := by
                rw [(cutAfter_some cut).1, cutBefore_some marked, cutBefore_some parted]
                simp only [List.append_assoc]
              rw [whole, List.append_left_inj, List.append_right_inj]
              constructor
              · rintro rfl ⟨user', pw', same, other⟩
                cases same
                exact other rfl
              · intro plain
                by_contra other
                exact plain ⟨user, pw, rfl, Ne.symm other⟩

end Scanner

section Uris

variable {scheme user front : List Char}

theorem first_colon (front : List Char) :
    ∃ user, ∀ back, ∃ pw, cutBefore ':' (front ++ ':' :: back) = some (user, pw) := by
  rcases separator_cases ':' front with absent | ⟨user, more, rfl, absent⟩
  · exact ⟨front, fun back => ⟨_, cutBefore_first absent⟩⟩
  · refine ⟨user, fun back => ⟨':' :: (more ++ ':' :: back), ?_⟩⟩
    rw [List.append_assoc, List.cons_append]
    exact cutBefore_first absent

theorem redactRest_hides (scheme : List Char) (absent : '@' ∉ front) :
    ∃ kept, ∀ pw, '@' ∉ pw → ∀ back,
      redactRest scheme (front ++ ':' :: pw ++ '@' :: back) = kept ++ '@' :: back := by
  rcases first_colon front with ⟨user, found⟩
  refine ⟨scheme ++ user ++ [':', '*', '*', '*'], fun pw plain back => ?_⟩
  have before : '@' ∉ front ++ ':' :: pw := by
    rw [List.mem_append, List.mem_cons]
    rintro (inFront | same | inside)
    · exact absent inFront
    · cases same
    · exact plain inside
  rcases found pw with ⟨_, cut⟩
  rw [redactRest_at before, cut]

theorem scheme_cut (known : scheme ∈ schemes) (uncut : cutAfter schemeEnd front = none)
    (rest : List Char) : cutAfter schemeEnd (front ++ (scheme ++ schemeEnd ++ rest)) =
      some (front ++ (scheme ++ schemeEnd), rest) := by
  have outside : 'p' ∉ schemeEnd := by decide
  have across := fun back => cutAfter_across back outside (by decide) uncut
  rcases List.mem_cons.mp known with rfl | last
  · exact across ("ostgres".toList ++ schemeEnd ++ rest)
  · rw [List.mem_singleton.mp last]
    exact across ("ostgresql".toList ++ schemeEnd ++ rest)

theorem scheme_unmarked (known : scheme ∈ schemes) : '@' ∉ scheme ++ schemeEnd := by
  rcases List.mem_cons.mp known with rfl | last
  · decide
  · rw [List.mem_singleton.mp last]
    decide

theorem userinfo_hidden (known : scheme ∈ schemes) (quiet : Quiet front) (plain : '@' ∉ user) :
    ∃ kept, ∀ pw, '@' ∉ pw → ∀ back,
      redactChars (front ++ (scheme ++ schemeEnd ++ (user ++ ':' :: pw ++ '@' :: back))) =
        kept ++ '@' :: back := by
  cases cut : cutAfter schemeEnd front with
  | none =>
      rcases redactRest_hides (front ++ (scheme ++ schemeEnd)) plain with ⟨kept, hides⟩
      refine ⟨kept, fun pw unmarked back => ?_⟩
      rw [redact_cut (scheme_cut known cut _), hides pw unmarked back]
  | some parts =>
      rcases parts with ⟨first, rest⟩
      have before : '@' ∉ rest ++ (scheme ++ schemeEnd ++ user) := by
        rw [List.mem_append, List.mem_append]
        rintro (inRest | inScheme | inUser)
        · exact quiet first rest cut inRest
        · exact scheme_unmarked known inScheme
        · exact plain inUser
      rcases redactRest_hides first before with ⟨kept, hides⟩
      refine ⟨kept, fun pw unmarked back => ?_⟩
      rw [redact_cut (cutAfter_append _ cut), ← hides pw unmarked back]
      simp only [List.append_assoc, List.cons_append]

end Uris

section Slots

variable {settings : List Setting}

theorem withPassword_plain (plain : settings.any Setting.secret = false) (pw : List Char) :
    settings.map (Setting.withPassword pw) = settings := by
  have same : ∀ s ∈ settings, s.withPassword pw = id s :=
    fun s member => if_neg (List.any_eq_false.mp plain s member)
  rw [List.map_congr_left same, List.map_id]

theorem secret_slot (secret : settings.any Setting.secret = true) :
    ∃ front, ∀ pw, ∃ back,
      settingsText (settings.map (Setting.withPassword pw)) = front ++ (pw ++ back) := by
  induction settings with
  | nil => cases secret
  | cons s settings ih =>
      by_cases here : s.secret = true
      · refine ⟨s.lead ++ s.key ++ s.equals, fun pw =>
          ⟨settingsText (settings.map (Setting.withPassword pw)), ?_⟩⟩
        rw [List.map_cons, settingsText, List.flatMap_cons, Setting.withPassword, if_pos here,
          Setting.text, List.append_assoc]
        rfl
      · rw [List.any_cons, Bool.or_eq_true] at secret
        rcases ih (secret.resolve_left here) with ⟨front, slot⟩
        refine ⟨s.text ++ front, fun pw => ?_⟩
        rcases slot pw with ⟨back, whole⟩
        refine ⟨back, ?_⟩
        rw [List.map_cons, settingsText, List.flatMap_cons, ← settingsText, whole,
          Setting.withPassword, if_neg here, List.append_assoc]

theorem mem_settingsText {pw : List Char} {c : Char}
    (member : c ∈ settingsText (settings.map (Setting.withPassword pw))) :
    c ∈ settingsText settings ∨ c ∈ pw := by
  rw [settingsText, List.flatMap_map, List.mem_flatMap] at member
  rcases member with ⟨s, present, inside⟩
  rw [Setting.withPassword] at inside
  split at inside
  · rw [Setting.text, List.mem_append] at inside
    rcases inside with before | within
    · exact .inl (List.mem_flatMap.mpr ⟨s, present, List.mem_append_left _ before⟩)
    · exact .inr within
  · exact .inl (List.mem_flatMap.mpr ⟨s, present, inside⟩)

theorem withPassword_lead (pw : List Char) (s : Setting) : (s.withPassword pw).lead = s.lead := by
  rw [Setting.withPassword]
  split <;> rfl

theorem withPassword_parameter {s : Setting} (parameter : s.Parameter) {pw : List Char}
    (undivided : '&' ∉ pw) : (s.withPassword pw).Parameter := by
  rw [Setting.withPassword]
  split
  · exact ⟨parameter.key, parameter.equals, undivided⟩
  · exact parameter

theorem withPassword_keyword {s : Setting} (keyword : s.Keyword) {pw : List Char}
    (nonempty : pw ≠ []) (plain : ∀ c ∈ pw, isWhiteSpace c = false ∧ c ≠ '\'') :
    (s.withPassword pw).Keyword := by
  rw [Setting.withPassword]
  split
  · exact ⟨keyword.lead, keyword.key, keyword.equals, .inl ⟨nonempty, plain⟩⟩
  · exact keyword

theorem unquoted_of_all {pw : List Char}
    (plain : pw.all (fun c => !isWhiteSpace c && c != '\'') = true) :
    ∀ c ∈ pw, isWhiteSpace c = false ∧ c ≠ '\'' := by
  intro c member
  simpa using List.all_eq_true.mp plain c member

theorem withPassword_uri {scheme address pw : List Char} {userinfo : Option Userinfo}
    {params : List Setting} (wellFormed : (uri scheme userinfo address params).WellFormed)
    (unmarked : '@' ∉ pw) (undivided : '&' ∉ pw) :
    ((uri scheme userinfo address params).withPassword pw).WellFormed := by
  rcases wellFormed with ⟨known, bare, led, parameters, ended⟩
  refine ⟨known, bare, ?_, ?_, ?_⟩
  · cases params with
    | nil => trivial
    | cons first rest =>
        refine ⟨(withPassword_lead pw first).trans led.1, ?_⟩
        rw [List.forall_mem_map]
        exact fun s member => (withPassword_lead pw s).trans (led.2 s member)
  · rw [List.forall_mem_map]
    exact fun s member => withPassword_parameter (parameters s member) undivided
  · cases userinfo with
    | none =>
        dsimp only [Option.map_none] at ended ⊢
        rw [List.mem_append] at ended ⊢
        rintro (inAddress | inParams)
        · exact ended (.inl inAddress)
        · rcases mem_settingsText inParams with before | inside
          · exact ended (.inr before)
          · exact unmarked inside
    | some i =>
        refine ⟨ended.1, ended.2.1, ?_⟩
        intro other same
        rcases Option.map_eq_some_iff.mp same with ⟨_, -, rfl⟩
        exact unmarked

theorem letter_accepted {scheme address : List Char} {userinfo : Option Userinfo}
    {params : List Setting} (wellFormed : (uri scheme userinfo address params).WellFormed)
    {c : Char} (member : c ∈ ['a', 'b']) :
    ((uri scheme userinfo address params).withPassword [c]).WellFormed := by
  have plain : ∀ c ∈ ['a', 'b'], '@' ∉ [c] ∧ '&' ∉ [c] := by simp
  exact withPassword_uri wellFormed (plain c member).1 (plain c member).2

theorem withPassword_pairs {pw trailing : List Char}
    (wellFormed : (pairs settings trailing).WellFormed) (nonempty : pw ≠ [])
    (plain : ∀ c ∈ pw, isWhiteSpace c = false ∧ c ≠ '\'') :
    ((pairs settings trailing).withPassword pw).WellFormed := by
  rcases wellFormed with ⟨divided, keywords, blank⟩
  refine ⟨?_, ?_, blank⟩
  · cases settings with
    | nil => trivial
    | cons first rest =>
        intro s member
        rcases List.mem_map.mp member with ⟨other, present, rfl⟩
        rw [withPassword_lead]
        exact divided other present
  · rw [List.forall_mem_map]
    exact fun s member => withPassword_keyword (keywords s member) nonempty plain

end Slots

section Protection

theorem redacted_eq_iff {c c' : ConnString} :
    c.redacted = c'.redacted ↔ redactChars c.text = redactChars c'.text := by
  rw [redacted, redacted, redactConnString, redactConnString, String.toList_ofList,
    String.toList_ofList, String.ofList_inj]

theorem errorLog_eq_iff {c c' : ConnString} {front back : List Char} :
    c.errorLog front back = c'.errorLog front back ↔
      redactChars (front ++ c.text ++ back) = redactChars (front ++ c'.text ++ back) := by
  rw [errorLog, errorLog, redactConnString, redactConnString, String.toList_ofList,
    String.toList_ofList, String.ofList_inj]

theorem redacted_unchanged_iff {c : ConnString} :
    c.redacted = String.ofList c.text ↔ redactChars c.text = c.text := by
  rw [redacted, redactConnString, String.toList_ofList, String.ofList_inj]

theorem errorLog_alone (c : ConnString) : c.errorLog [] [] = c.redacted := by
  rw [errorLog, redacted, List.nil_append, List.append_nil]

theorem redact_without_password {scheme address : List Char} {userinfo : Option Userinfo}
    {params : List Setting} (wellFormed : (uri scheme userinfo address params).WellFormed)
    (passwordless : userinfo.bind Userinfo.password = none) :
    redactChars (uri scheme userinfo address params).text =
      (uri scheme userinfo address params).text := by
  rcases wellFormed with ⟨known, -, -, -, ended⟩
  have nothing : cutAfter schemeEnd [] = none := rfl
  have cut : ∀ rest, cutAfter schemeEnd (scheme ++ schemeEnd ++ rest) =
      some (scheme ++ schemeEnd, rest) := scheme_cut known nothing
  rcases userinfo with _ | ⟨user, _ | old⟩
  · rw [text, Option.elim_none, List.nil_append, redact_cut (cut _), redactRest_unmarked ended]
  · have undivided : cutBefore ':' user = none := cutBefore_none ended.2.1
    have whole : (uri scheme (some ⟨user, none⟩) address params).text =
        scheme ++ schemeEnd ++ (user ++ '@' :: (address ++ settingsText params)) := by
      simp only [text, Option.elim_some, Userinfo.text, List.append_assoc, List.cons_append,
        List.nil_append]
    rw [whole, redact_cut (cut _), redactRest_at ended.1, undivided]
    exact List.append_assoc _ _ _
  · cases passwordless

theorem uri_logged {scheme address : List Char} {userinfo : Option Userinfo}
    {params : List Setting} {front : List Char} (back : List Char)
    (wellFormed : (uri scheme userinfo address params).WellFormed)
    (plain : params.any Setting.secret = false)
    (quiet : (uri scheme userinfo address params).carriesPassword = true → Quiet front)
    {pw pw' : List Char}
    (accepted : ((uri scheme userinfo address params).withPassword pw).WellFormed)
    (accepted' : ((uri scheme userinfo address params).withPassword pw').WellFormed) :
    ((uri scheme userinfo address params).withPassword pw).errorLog front back =
      ((uri scheme userinfo address params).withPassword pw').errorLog front back := by
  rw [withPassword, withPassword, withPassword_plain plain, withPassword_plain plain]
  rw [withPassword, withPassword_plain plain] at accepted accepted'
  have ended := wellFormed.2.2.2.2
  rcases userinfo with _ | ⟨user, _ | old⟩
  · rfl
  · rfl
  · rcases userinfo_hidden wellFormed.1 (quiet rfl) ended.1 with ⟨kept, hides⟩
    have log : ∀ pw, '@' ∉ pw → redactChars (front ++
        (uri scheme (some ⟨user, some pw⟩) address params).text ++ back) =
          kept ++ '@' :: (address ++ settingsText params ++ back) := by
      intro pw unmarked
      rw [← hides pw unmarked]
      simp only [text, Option.elim_some, Userinfo.text, List.append_assoc, List.cons_append,
        List.nil_append]
    rw [errorLog_eq_iff]
    calc redactChars (front ++ (uri scheme (some ⟨user, some pw⟩) address params).text ++ back)
        = kept ++ '@' :: (address ++ settingsText params ++ back) :=
          log pw (accepted.2.2.2.2.2.2 pw rfl)
      _ = redactChars (front ++ (uri scheme (some ⟨user, some pw'⟩) address params).text ++ back) :=
          (log pw' (accepted'.2.2.2.2.2.2 pw' rfl)).symm

theorem uri_protected {scheme address : List Char} {userinfo : Option Userinfo}
    {params : List Setting} {front : List Char} (back : List Char)
    (wellFormed : (uri scheme userinfo address params).WellFormed)
    (plain : params.any Setting.secret = false)
    (quiet : (uri scheme userinfo address params).carriesPassword = true → Quiet front) :
    (uri scheme userinfo address params).Protected front back where
  hidden := by
    intro pw pw' accepted accepted'
    have nothing : Quiet [] := nofun
    rw [← errorLog_alone, ← errorLog_alone]
    exact uri_logged [] wellFormed plain (fun _ => nothing) accepted accepted'
  logged := fun _ _ accepted accepted' =>
    uri_logged back wellFormed plain quiet accepted accepted'
  unchanged := by
    intro passwordless
    rw [redacted_unchanged_iff]
    rw [carriesPassword, plain, Bool.or_false] at passwordless
    rcases userinfo with _ | ⟨user, _ | old⟩
    · exact redact_without_password wellFormed rfl
    · exact redact_without_password wellFormed rfl
    · cases passwordless

theorem uri_behind_exposed {scheme user old address : List Char} {params : List Setting}
    {front : List Char} (back : List Char)
    (wellFormed : (uri scheme (some ⟨user, some old⟩) address params).WellFormed)
    (loud : ¬ Quiet front) :
    ¬ (uri scheme (some ⟨user, some old⟩) address params).Protected front back := by
  intro shielded
  simp only [Quiet, not_forall, not_not] at loud
  rcases loud with ⟨before, rest, cut, marked⟩
  have same := shielded.logged ['a'] ['b'] (letter_accepted wellFormed (by decide))
    (letter_accepted wellFormed (by decide))
  rw [errorLog_eq_iff] at same
  rcases List.eq_append_cons_of_mem marked with ⟨first, middle, rfl, -⟩
  rcases redactRest_keeps before first with ⟨kept, keeps⟩
  have log : ∀ pw, ∃ rest, redactChars (front ++
      ((uri scheme (some ⟨user, some old⟩) address params).withPassword pw).text ++ back) =
        kept ++ '@' :: (middle ++ (scheme ++ schemeEnd ++ (user ++ ':' :: (pw ++ rest)))) := by
    intro pw
    refine ⟨'@' :: (address ++ settingsText (params.map (Setting.withPassword pw))) ++ back, ?_⟩
    rw [List.append_assoc, redact_cut (cutAfter_append _ cut), List.append_assoc first,
      List.cons_append, keeps]
    simp only [withPassword, text, Option.map_some, Option.elim_some, Userinfo.text,
      List.append_assoc, List.cons_append, List.nil_append]
  rcases log ['a'] with ⟨tail, whole⟩
  rcases log ['b'] with ⟨tail', whole'⟩
  rw [whole, whole'] at same
  have tails := List.append_cancel_left same
  injection tails with _ tails
  have behind := List.append_cancel_left (List.append_cancel_left (List.append_cancel_left tails))
  injection behind with _ letters
  exact letters_differ [] _ _ letters

theorem uri_tail_kept {scheme : List Char} (known : scheme ∈ schemes)
    (userinfo : Option Userinfo) (address : List Char) (params : List Setting) : ∃ kept, ∀ pw,
      ((uri scheme userinfo address params).withPassword pw).WellFormed →
      redactChars ((uri scheme userinfo address params).withPassword pw).text =
        kept ++ settingsText (params.map (Setting.withPassword pw)) := by
  rcases userinfo with _ | ⟨user, _ | old⟩
  · refine ⟨scheme ++ schemeEnd ++ address, fun pw accepted => ?_⟩
    have kept := redact_without_password accepted rfl
    refine kept.trans ?_
    simp only [text, Option.map_none, Option.elim_none, List.append_assoc,
      List.nil_append]
  · refine ⟨scheme ++ schemeEnd ++ user ++ '@' :: address, fun pw accepted => ?_⟩
    have kept := redact_without_password accepted rfl
    refine kept.trans ?_
    simp only [text, Option.map_some, Option.map_none, Option.elim_some,
      Userinfo.text, List.append_assoc, List.cons_append, List.nil_append]
  · by_cases plain : '@' ∈ user
    · exact ⟨[], fun pw accepted => absurd plain accepted.2.2.2.2.1⟩
    · have nothing : Quiet [] := nofun
      rcases userinfo_hidden known nothing plain with ⟨kept, hides⟩
      refine ⟨kept ++ '@' :: address, fun pw accepted => ?_⟩
      have hidden := hides pw (accepted.2.2.2.2.2.2 pw rfl)
        (address ++ settingsText (params.map (Setting.withPassword pw)))
      simp only [withPassword, text, Option.map_some, Option.elim_some, Userinfo.text,
        List.append_assoc, List.cons_append, List.nil_append] at hidden ⊢
      exact hidden

theorem uri_exposed {scheme address : List Char} {userinfo : Option Userinfo}
    {params : List Setting} (front back : List Char)
    (wellFormed : (uri scheme userinfo address params).WellFormed)
    (secret : params.any Setting.secret = true) :
    ¬ (uri scheme userinfo address params).Protected front back := by
  intro shielded
  rcases secret_slot secret with ⟨before, slot⟩
  have accepted := fun c member => letter_accepted wellFormed (c := c) member
  have same := shielded.hidden ['a'] ['b'] (accepted 'a' (by decide)) (accepted 'b' (by decide))
  rw [redacted_eq_iff] at same
  rcases uri_tail_kept wellFormed.1 userinfo address params with ⟨kept, keeps⟩
  rcases slot ['a'] with ⟨rest, whole⟩
  rcases slot ['b'] with ⟨rest', whole'⟩
  rw [keeps _ (accepted 'a' (by decide)), keeps _ (accepted 'b' (by decide)), whole,
    whole'] at same
  exact letters_differ [] _ _ (List.append_cancel_left (List.append_cancel_left same))

theorem pairs_exposed {settings : List Setting} {trailing : List Char} (front back : List Char)
    (wellFormed : (pairs settings trailing).WellFormed)
    (secret : settings.any Setting.secret = true) :
    ¬ (pairs settings trailing).Protected front back := by
  intro shielded
  rcases secret_slot secret with ⟨before, slot⟩
  have accepted := withPassword_pairs wellFormed (List.cons_ne_nil '@' ['a'])
    (unquoted_of_all (by decide))
  have accepted' := withPassword_pairs wellFormed (List.cons_ne_nil '@' ['b'])
    (unquoted_of_all (by decide))
  have same := shielded.hidden ['@', 'a'] ['@', 'b'] accepted accepted'
  rcases slot ['@', 'a'] with ⟨rest, whole⟩
  rcases slot ['@', 'b'] with ⟨rest', whole'⟩
  rw [redacted_eq_iff, withPassword, withPassword, text, text, whole, whole', List.append_assoc,
    List.append_assoc before, List.append_assoc, List.append_assoc ['@', 'b']] at same
  exact redact_differs before (rest ++ trailing) (rest' ++ trailing) same

theorem pairs_protected_iff {settings : List Setting} {trailing : List Char}
    (front back : List Char) (plain : settings.any Setting.secret = false) :
    (pairs settings trailing).Protected front back ↔
      ¬ LooksLikeUserinfo (settingsText settings ++ trailing) := by
  have alone : ∀ pw, (pairs settings trailing).withPassword pw = pairs settings trailing := by
    intro pw
    rw [withPassword, withPassword_plain plain]
  rw [← redact_unchanged_iff]
  constructor
  · intro shielded
    exact redacted_unchanged_iff.mp (shielded.unchanged plain)
  · intro unchanged
    refine ⟨fun pw pw' _ _ => ?_, fun pw pw' _ _ => ?_, fun _ => ?_⟩
    · rw [alone, alone]
    · rw [alone, alone]
    · exact redacted_unchanged_iff.mpr unchanged

/-- The redaction protects a string exactly where it is a URI without a parameter for the password,
or pairs without one of which no value looks like a URI with a password, and where an error that
carries a password does not have a `://` with an `@` behind it in the text before. -/
theorem redaction_protects_iff (c : ConnString) (front back : List Char)
    (wellFormed : c.WellFormed) : c.Protected front back ↔
      c.Covered ∧ (c.carriesPassword = true → Quiet front) := by
  cases c with
  | uri scheme userinfo address params =>
      cases secret : params.any Setting.secret with
      | true =>
          refine iff_of_false (uri_exposed front back wellFormed secret) ?_
          rintro ⟨covered, -⟩
          rw [Covered, secret] at covered
          cases covered
      | false =>
          constructor
          · intro shielded
            refine ⟨secret, fun carries => ?_⟩
            rw [carriesPassword, secret, Bool.or_false] at carries
            rcases userinfo with _ | ⟨user, _ | old⟩
            · cases carries
            · cases carries
            · by_contra loud
              exact uri_behind_exposed back wellFormed loud shielded
          · rintro ⟨-, quiet⟩
            exact uri_protected back wellFormed secret quiet
  | pairs settings trailing =>
      cases secret : settings.any Setting.secret with
      | true =>
          refine iff_of_false (pairs_exposed front back wellFormed secret) ?_
          rintro ⟨⟨plain, -⟩, -⟩
          rw [secret] at plain
          cases plain
      | false =>
          have passwordless : (pairs settings trailing).carriesPassword = false := secret
          rw [pairs_protected_iff front back secret, Covered, secret, passwordless]
          simp

/-- The password between the user and the host is hidden. -/
theorem userinfo_password_hidden :
    (uri "postgres".toList (some ⟨"user".toList, some "hunter2".toList⟩) "host:5432/db".toList
      []).Protected "cannot reach ".toList [] := by
  refine (redaction_protects_iff _ _ _ ?_).mpr ⟨rfl, fun _ => nofun⟩
  exact ⟨by decide, by decide, trivial, nofun, by decide, by decide, by decide⟩

theorem keyword_unquoted {lead key value : List Char} (blank : lead.all isWhiteSpace = true)
    (named : key ≠ []) (word : key.all (fun c => c.isAlphanum || c == '_') = true)
    (nonempty : value ≠ []) (plain : value.all (fun c => !isWhiteSpace c && c != '\'') = true) :
    Setting.Keyword ⟨lead, key, ['='], value⟩ where
  lead := List.all_eq_true.mp blank
  key := by
    refine ⟨named, fun c member => ?_⟩
    simpa using List.all_eq_true.mp word c member
  equals := ⟨[], [], rfl, nofun⟩
  value := .inl ⟨nonempty, unquoted_of_all plain⟩

/-- A string of key=value pairs is logged with its password. -/
theorem pair_password_logged :
    ¬ (pairs [⟨[], "user".toList, ['='], "app".toList⟩,
      ⟨[' '], "password".toList, ['='], "hunter2".toList⟩] []).Protected [] [] := by
  intro shielded
  have wellFormed : (pairs [⟨[], "user".toList, ['='], "app".toList⟩,
      ⟨[' '], "password".toList, ['='], "hunter2".toList⟩] []).WellFormed := by
    refine ⟨by simp [Divided], ?_, nofun⟩
    rw [List.forall_mem_cons, List.forall_mem_singleton]
    constructor
    · exact keyword_unquoted rfl (by decide) (by decide) (by decide) (by decide)
    · exact keyword_unquoted (by decide) (by decide) (by decide) (by decide) (by decide)
  have accepted := withPassword_pairs wellFormed (List.cons_ne_nil 'a' [])
    (unquoted_of_all (by decide))
  have accepted' := withPassword_pairs wellFormed (List.cons_ne_nil 'b' [])
    (unquoted_of_all (by decide))
  have same := shielded.hidden ['a'] ['b'] accepted accepted'
  exact absurd (redacted_eq_iff.mp same) (by decide)

end Protection

end ConnString

end PgRaggraph
