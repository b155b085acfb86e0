import PgRaggraph.Core.Jsonb
import PgRaggraph.Extension.Admin
import Mathlib.Data.List.Forall2

/-! Runs of `provider_create` and `provider_drop`: what `provider_list` shows of the credentials, and
which of them a provider is built with. -/

namespace PgRaggraph

variable {R N : Type}

def redact (credential : String) : String :=
  if credential.toList.length ≤ 3 then "***"
  else String.ofList (credential.toList.take 3 ++ ['*', '*', '*'])

theorem redact_eq_iff (c d : String) : redact c = redact d ↔
    (c.toList.length ≤ 3 ∧ d.toList.length ≤ 3) ∨
      (3 < c.toList.length ∧ 3 < d.toList.length ∧ c.toList.take 3 = d.toList.take 3) := by
  have short : ∀ s t : String, s.toList.length ≤ 3 → 3 < t.toList.length → redact s ≠ redact t := by
    intro s t few many same
    rw [redact, redact, if_pos few, if_neg (by omega)] at same
    have sizes := congrArg (fun text => text.toList.length) same
    simp only [String.toList_ofList, List.length_append, List.length_take] at sizes
    have stars : "***".toList.length = 3 := rfl
    simp only [stars, List.length_cons, List.length_nil] at sizes
    omega
  by_cases left : c.toList.length ≤ 3
  · by_cases right : d.toList.length ≤ 3
    · simp [redact, left, right]
    · exact iff_of_false (short c d left (by omega)) (by omega)
  · by_cases right : d.toList.length ≤ 3
    · exact iff_of_false (fun same => short d c right (by omega) same.symm) (by omega)
    · rw [redact, redact, if_neg left, if_neg right, String.ofList_inj, List.append_left_inj]
      constructor
      · intro same
        exact .inr ⟨by omega, by omega, same⟩
      · rintro (⟨few, -⟩ | ⟨-, -, same⟩)
        · exact absurd few left
        · exact same

theorem redact_envelope {s : String} {rest : List Char} (whole : s.toList = envPrefix.toList ++ rest) :
    redact s = "enc***" := by
  have front : envPrefix.toList = ['e', 'n', 'c', ':', 'v', '1', ':'] := rfl
  rw [redact, whole, front, if_neg (by simp)]
  rfl

/-- `DELETE FROM pgrg.providers WHERE name = $1`. -/
def Configuration.dropProvider (config : Configuration) (name : String) : Configuration where
  namespaces := config.namespaces
  providers := config.providers.filter (fun row => row.name ≠ name)
  namespacesPkey := config.namespacesPkey
  providersPkey := (List.Sublist.map _ List.filter_sublist).nodup config.providersPkey

namespace Extension

structure AdminHost where
  files : FileSystem
  masterKeyPath : Option String
  random : Except String Nonce

/-- The column `config` is held apart, by the name of the row. -/
structure ProviderTable (N : Type) where
  config : Configuration
  settings : String → Json N

inductive ProviderCall (N : Type) where
  | create (host : AdminHost) (name kind provider : String) (baseUrl model credential : Option String)
      (settings : Json N)
  | drop (name : String)

section Calls

variable (crates : SealingCrates R)

def AdminHost.stored (host : AdminHost) (credential : Option String) :
    Except Raised (Option String) :=
  storedCredential crates host.files host.masterKeyPath host.random credential

namespace ProviderTable

def call (table : ProviderTable N) : ProviderCall N → Except Raised (ProviderTable N)
  | .create host name kind provider baseUrl model credential settings =>
      (providerCreate crates host.files host.masterKeyPath host.random table.config name kind
        provider baseUrl model credential).map (fun config =>
          { config := config
            settings := fun other => if other = name then settings.jsonb else table.settings other })
  | .drop name => .ok { table with config := table.config.dropProvider name }

def after (table : ProviderTable N) (made : ProviderCall N) : ProviderTable N :=
  match table.call crates made with
  | .ok next => next
  | .error _ => table

def run (table : ProviderTable N) (calls : List (ProviderCall N)) : ProviderTable N :=
  calls.foldl (after crates) table

end ProviderTable

end Calls

def orNull : Option String → Json N
  | some s => .string s
  | none => .null

structure Shown where
  name : String
  kind : String
  provider : String
  baseUrl : Option String
  model : Option String
  credential : Option String

def shown (row : ProviderRow) : Shown where
  name := row.name
  kind := row.kind
  provider := row.provider
  baseUrl := row.baseUrl
  model := row.model
  credential := row.credential.map redact

def Shown.json (settings : String → Json N) (row : Shown) : Json N :=
  .object
    [("name", .string row.name),
     ("kind", .string row.kind),
     ("provider", .string row.provider),
     ("base_url", orNull row.baseUrl),
     ("model", orNull row.model),
     ("credential", orNull row.credential),
     ("config", settings row.name)]

/-- `collation` orders names as `ORDER BY name` does. -/
def providerList (collation : String → String → Bool) (table : ProviderTable N) : Json N :=
  (Json.array ((table.config.providers.mergeSort (fun a b => collation a.name b.name)).map
    (fun row => (shown row).json table.settings))).jsonb

section Hidden

variable {crates : SealingCrates R}

structure ShownAlike (s t : ProviderTable N) : Prop where
  rows : s.config.providers.map shown = t.config.providers.map shown
  settings : s.settings = t.settings

theorem ShownAlike.listed {s t : ProviderTable N} (alike : ShownAlike s t)
    (collation : String → String → Bool) : providerList collation s = providerList collation t := by
  have sorted : ∀ table : ProviderTable N,
      (table.config.providers.mergeSort (fun a b => collation a.name b.name)).map
          (fun row => (shown row).json table.settings) =
        ((table.config.providers.map shown).mergeSort (fun a b => collation a.name b.name)).map
          (Shown.json table.settings) := by
    intro table
    have shows : (table.config.providers.mergeSort (fun a b => collation a.name b.name)).map shown =
        (table.config.providers.map shown).mergeSort (fun a b => collation a.name b.name) :=
      List.map_mergeSort (fun _ _ _ _ => rfl)
    rw [← shows, List.map_map]
    rfl
  rw [providerList, providerList, sorted, sorted, alike.rows, alike.settings]

theorem dropped_shown (name : String) (rows : List ProviderRow) :
    (rows.filter (fun row => row.name ≠ name)).map shown =
      (rows.map shown).filter (fun row => row.name ≠ name) := by
  rw [List.filter_map]
  rfl

theorem create_ok {table next : ProviderTable N} {host : AdminHost} {name kind provider : String}
    {baseUrl model credential : Option String} {settings : Json N}
    (created : table.call crates (.create host name kind provider baseUrl model credential settings) =
      .ok next) :
    ∃ (kindCheck : kind = "llm" ∨ kind = "embedding") (stored : Option String),
      host.stored crates credential = .ok stored ∧
      next.config = table.config.upsertProvider
        { name, kind, provider, baseUrl, model, credential := stored, kindCheck } ∧
      next.settings = fun other => if other = name then settings.jsonb else table.settings other := by
  rw [ProviderTable.call, providerCreate] at created
  by_cases kindCheck : kind = "llm" ∨ kind = "embedding"
  · rw [dif_pos kindCheck] at created
    rcases returned : host.stored crates credential with e | stored
    · rw [AdminHost.stored] at returned
      rw [returned] at created
      cases created
    · rw [AdminHost.stored] at returned
      rw [returned] at created
      cases created
      exact ⟨kindCheck, stored, rfl, rfl, rfl⟩
  · rw [dif_neg kindCheck] at created
    cases created

theorem create_error {table : ProviderTable N} {host : AdminHost} {name kind provider : String}
    {baseUrl model credential : Option String} {settings : Json N} {e : Raised}
    (raised : table.call crates (.create host name kind provider baseUrl model credential settings) =
      .error e) :
    ¬ (kind = "llm" ∨ kind = "embedding") ∨ host.stored crates credential = .error e := by
  rw [ProviderTable.call, providerCreate] at raised
  by_cases kindCheck : kind = "llm" ∨ kind = "embedding"
  · rw [dif_pos kindCheck] at raised
    right
    rw [AdminHost.stored]
    rcases returned : storedCredential crates host.files host.masterKeyPath host.random credential
      with other | stored
    · rw [returned] at raised
      cases raised
      rfl
    · rw [returned] at raised
      cases raised
  · exact .inl kindCheck

theorem stored_none {host : AdminHost} {stored : Option String}
    (returned : host.stored crates none = .ok stored) : stored = none := by
  cases returned
  rfl

theorem stored_some {host : AdminHost} {c : String} {stored : Option String}
    (returned : host.stored crates (some c) = .ok stored) :
    ∃ text, stored = some text ∧ (host.masterKeyPath = none → text = c) ∧
      (host.masterKeyPath ≠ none → redact text = "enc***") := by
  rw [AdminHost.stored] at returned
  rcases path : host.masterKeyPath with _ | file
  · rw [path, storedCredential] at returned
    refine ⟨c, ?_, fun _ => rfl, fun set => absurd rfl set⟩
    split at returned
    · cases returned
      rfl
    · cases returned
      rfl
  · rw [path] at returned
    have keyed : ∀ text, some file = none → text = c :=
      fun _ absent => absurd absent (Option.some_ne_none file)
    rcases loaded : MasterKey.loadFromPath host.files file with e | key
    · rw [storedCredential] at returned
      split at returned
      · rename_i looks
        cases returned
        rcases (isEncrypted_iff c).mp looks with ⟨rest, whole, -⟩
        exact ⟨c, rfl, keyed c, fun _ => redact_envelope whole⟩
      · rw [loadMasterKey, loaded] at returned
        cases returned
    · rcases storedCredential_keyed loaded returned with ⟨looks, same⟩ | ⟨-, text, same, sealed⟩
      · rcases (isEncrypted_iff c).mp looks with ⟨rest, whole, -⟩
        exact ⟨c, same, keyed c, fun _ => redact_envelope whole⟩
      · rcases encryptV1_ok sealed with ⟨nonce, ct, -, -, form⟩
        refine ⟨text, same, keyed text, fun _ => ?_⟩
        rw [form]
        exact redact_envelope (storageForm_chars _ _)

/-- Credentials that may differ: with a key in any way, and without one in what is behind the first
three characters. -/
def CredentialsAlike (masterKeyPath : Option String) : Option String → Option String → Prop
  | none, none => True
  | some c, some d => masterKeyPath = none →
      (c.toList.length ≤ 3 ∧ d.toList.length ≤ 3) ∨
        (3 < c.toList.length ∧ 3 < d.toList.length ∧ c.toList.take 3 = d.toList.take 3)
  | _, _ => False

theorem stored_alike {host : AdminHost} {c d s t : Option String}
    (alike : CredentialsAlike host.masterKeyPath c d) (left : host.stored crates c = .ok s)
    (right : host.stored crates d = .ok t) : s.map redact = t.map redact := by
  rcases c with _ | c
  · rcases d with _ | d
    · rw [stored_none left, stored_none right]
    · exact alike.elim
  · rcases d with _ | d
    · exact alike.elim
    · rcases stored_some left with ⟨a, rfl, plainA, sealedA⟩
      rcases stored_some right with ⟨b, rfl, plainB, sealedB⟩
      rw [Option.map_some, Option.map_some, Option.some.injEq]
      by_cases path : host.masterKeyPath = none
      · rw [plainA path, plainB path]
        exact (redact_eq_iff c d).mpr (alike path)
      · rw [sealedA path, sealedB path]

inductive Alike (crates : SealingCrates R) : ProviderCall N → ProviderCall N → Prop where
  | create (host : AdminHost) (name kind provider : String) (baseUrl model : Option String)
      (settings : Json N) (c d : Option String) (alike : CredentialsAlike host.masterKeyPath c d)
      (ends : (host.stored crates c).toBool = (host.stored crates d).toBool) :
      Alike crates (.create host name kind provider baseUrl model c settings)
        (.create host name kind provider baseUrl model d settings)
  | drop (name : String) : Alike crates (.drop name) (.drop name)

theorem after_alike {s t : ProviderTable N} (shows : ShownAlike s t) {a b : ProviderCall N}
    (alike : Alike crates a b) : ShownAlike (s.after crates a) (t.after crates b) := by
  cases alike with
  | create host name kind provider baseUrl model settings c d alike ends =>
      rcases left : s.call crates (.create host name kind provider baseUrl model c settings)
        with e | next
      · rcases right : t.call crates (.create host name kind provider baseUrl model d settings)
          with f | other
        · rw [ProviderTable.after, ProviderTable.after, left, right]
          exact shows
        · rcases create_ok right with ⟨kindCheck, stored, kept, -, -⟩
          rcases create_error left with unkind | refused
          · exact absurd kindCheck unkind
          · rw [refused, kept] at ends
            cases ends
      · rcases create_ok left with ⟨kindCheck, stored, kept, config, column⟩
        rcases right : t.call crates (.create host name kind provider baseUrl model d settings)
          with f | other
        · rcases create_error right with unkind | refused
          · exact absurd kindCheck unkind
          · rw [refused, kept] at ends
            cases ends
        · rcases create_ok right with ⟨_, stored', kept', config', column'⟩
          rw [ProviderTable.after, ProviderTable.after, left, right]
          have hidden := stored_alike alike kept kept'
          constructor
          · simp only [config, config', Configuration.upsertProvider, List.map_append, List.map_cons,
              List.map_nil, dropped_shown, shows.rows]
            rw [shown, shown, hidden]
          · rw [column, column', shows.settings]
  | drop name =>
      constructor
      · change (s.config.providers.filter (fun row => row.name ≠ name)).map shown =
          (t.config.providers.filter (fun row => row.name ≠ name)).map shown
        rw [dropped_shown, dropped_shown, shows.rows]
      · exact shows.settings

/-- However the table was before, `provider_list` shows the same after two runs of calls that differ
in the credentials alone, where the same calls are refused: with a master key whatever the credentials
are, and without one where they agree in their first three characters or are no longer than these. -/
theorem provider_list_hides (crates : SealingCrates R) (collation : String → String → Bool)
    (table : ProviderTable N) (left right : List (ProviderCall N))
    (alike : List.Forall₂ (Alike crates) left right) :
    providerList collation (table.run crates left) =
      providerList collation (table.run crates right) := by
  have runs : ∀ s t : ProviderTable N, ShownAlike s t →
      ShownAlike (s.run crates left) (t.run crates right) := by
    induction alike with
    | nil => exact fun s t shows => shows
    | cons first rest ih => exact fun s t shows => ih _ _ (after_alike shows first)
  exact (runs table table ⟨rfl, rfl⟩).listed collation

end Hidden

section Sample

def AdminHost.keyed : AdminHost := ⟨.keyed, some "master.key", .ok ⟨List.replicate 12 0, rfl⟩⟩

def AdminHost.keyless : AdminHost := ⟨.keyed, none, .error "no entropy"⟩

def ProviderTable.fresh : ProviderTable N := ⟨.empty, fun _ => .object []⟩

def created (first second : String) : List (ProviderCall Nat) :=
  [.create .keyed "gpt" "llm" "openai" none none (some first) (.object []),
    .create .keyless "claude" "llm" "anthropic" none none (some second) (.object [])]

theorem keyed_stores (c : String) :
    (AdminHost.keyed.stored (SealingCrates.sample (R := Nat)) (some c)).toBool = true := by
  have loaded : loadMasterKey AdminHost.keyed.files AdminHost.keyed.masterKeyPath =
      .ok (some .sample) := rfl
  rw [AdminHost.stored, storedCredential]
  split
  · rfl
  · rw [loaded]
    rfl

theorem keyless_stores (c : String) :
    AdminHost.keyless.stored (SealingCrates.sample (R := Nat)) (some c) = .ok (some c) := by
  rw [AdminHost.stored, storedCredential]
  split
  · rfl
  · rfl

theorem sample_list_hides : ∃ collation : String → String → Bool,
    providerList collation (ProviderTable.fresh.run (SealingCrates.sample (R := Nat))
        (created "sk-one" "sk-first")) =
      providerList collation (ProviderTable.fresh.run (SealingCrates.sample (R := Nat))
        (created "a" "sk-another")) := by
  refine ⟨fun a b => decide (a ≤ b), ?_⟩
  apply provider_list_hides
  refine .cons (.create .keyed _ _ _ _ _ _ _ _ nofun ?_)
    (.cons (.create .keyless _ _ _ _ _ _ _ _ (fun _ => .inr (by decide)) ?_) .nil)
  · rw [keyed_stores, keyed_stores]
  · rw [keyless_stores, keyless_stores]
    rfl

end Sample

section LastCreate

variable {crates : SealingCrates R}

def ProviderCall.settles (crates : SealingCrates R) (name : String) (last : Option (ProviderCall N)) :
    ProviderCall N → Option (ProviderCall N)
  | .create host other kind provider baseUrl model credential settings =>
      if other = name ∧ (kind = "llm" ∨ kind = "embedding") ∧
          (host.stored crates credential).toBool = true then
        some (.create host other kind provider baseUrl model credential settings)
      else last
  | .drop other => if other = name then none else last

def lastCreate (crates : SealingCrates R) (name : String) (calls : List (ProviderCall N)) :
    Option (ProviderCall N) :=
  calls.foldl (ProviderCall.settles crates name) none

inductive Bound (crates : SealingCrates R) (config : Configuration) (name : String) :
    Option (ProviderCall N) → Prop where
  | absent (nothing : config.providerNamed name = []) : Bound crates config name none
  | created (host : AdminHost) (kind provider : String) (baseUrl model credential : Option String)
      (settings : Json N) (stored : Option String)
      (kept : host.stored crates credential = .ok stored)
      (found : config.providerNamed name = [⟨provider, model.getD "", baseUrl, stored⟩]) :
      Bound crates config name
        (some (.create host name kind provider baseUrl model credential settings))

theorem Bound.moved {config config' : Configuration} {name : String} {last : Option (ProviderCall N)}
    (bound : Bound crates config name last)
    (same : config'.providerNamed name = config.providerNamed name) :
    Bound crates config' name last := by
  cases bound with
  | absent nothing => exact .absent (same.trans nothing)
  | created host kind provider baseUrl model credential settings stored kept found =>
      exact .created host kind provider baseUrl model credential settings stored kept
        (same.trans found)

theorem dropped_named (config : Configuration) (other name : String) :
    (config.dropProvider other).providerNamed name =
      if other = name then [] else config.providerNamed name := by
  rw [Configuration.providerNamed, Configuration.providerNamed, Configuration.dropProvider,
    List.filter_filter]
  split
  · rename_i same
    rw [List.map_eq_nil_iff, List.filter_eq_nil_iff]
    intro row _ both
    simp [same] at both
  · rename_i different
    congr 1
    apply List.filter_congr
    intro row _
    by_cases named : row.name = name
    · simp [named, Ne.symm different]
    · simp [named]

theorem after_bound {table : ProviderTable N} {name : String} {last : Option (ProviderCall N)}
    (bound : Bound crates table.config name last) (made : ProviderCall N) :
    Bound crates (table.after crates made).config name (made.settles crates name last) := by
  cases made with
  | create host other kind provider baseUrl model credential settings =>
      rw [ProviderCall.settles]
      rcases result : table.call crates
        (.create host other kind provider baseUrl model credential settings) with e | next
      · rw [ProviderTable.after, result, if_neg]
        · exact bound
        · rintro ⟨-, kindCheck, kept⟩
          rcases create_error result with unkind | refused
          · exact unkind kindCheck
          · rw [refused] at kept
            cases kept
      · rcases create_ok result with ⟨kindCheck, stored, kept, config, -⟩
        rw [ProviderTable.after, result, kept]
        dsimp only
        rw [config]
        by_cases same : other = name
        · rw [if_pos ⟨same, kindCheck, rfl⟩, same]
          refine .created host kind provider baseUrl model credential settings stored kept ?_
          rw [Configuration.upserted, if_pos rfl]
          rfl
        · rw [if_neg (fun met => same met.1)]
          refine bound.moved ?_
          rw [Configuration.upserted, if_neg (Ne.symm same)]
  | drop other =>
      have named := dropped_named table.config other name
      rw [ProviderCall.settles]
      split
      · rename_i same
        rw [if_pos same] at named
        exact .absent named
      · rename_i different
        rw [if_neg different] at named
        exact bound.moved named

/-- The table refines the map from a name to its last create. -/
theorem run_bound (crates : SealingCrates R) (calls : List (ProviderCall N)) (name : String) :
    Bound crates (ProviderTable.fresh.run crates calls).config name
      (lastCreate crates name calls) := by
  have runs : ∀ (table : ProviderTable N) (last : Option (ProviderCall N)),
      Bound crates table.config name last →
      Bound crates (table.run crates calls).config name
        (calls.foldl (ProviderCall.settles crates name) last) := by
    induction calls with
    | nil => exact fun table last bound => bound
    | cons made rest ih => exact fun table last bound => ih _ _ (after_bound bound made)
  exact runs .fresh none (.absent rfl)

/-- After any run, under any keys: a name without a create that counts has no row, and with one that
was made under a key, its row holds an envelope, and a provider is built under that key from the
credential of that create, unless this was an envelope itself, which is kept as it is. -/
theorem last_credential_used (documented : crates.Documented) (calls : List (ProviderCall N))
    (name : String) :
    (lastCreate crates name calls = none →
      (ProviderTable.fresh.run crates calls).config.providerNamed name = []) ∧
    ∀ (host : AdminHost) (kind provider : String) (baseUrl model : Option String) (c : String)
      (settings : Json N) (path : String) (key : MasterKey),
      lastCreate crates name calls =
        some (.create host name kind provider baseUrl model (some c) settings) →
      host.masterKeyPath = some path → MasterKey.loadFromPath host.files path = .ok key →
      ∃ stored, (ProviderTable.fresh.run crates calls).config.providerNamed name =
          [⟨provider, model.getD "", baseUrl, some stored⟩] ∧
        isEncrypted stored = true ∧ (isEncrypted c = true → stored = c) ∧
        (isEncrypted c = false → stored ≠ c ∧ ∀ (files : FileSystem) (path' : String),
          MasterKey.loadFromPath files path' = .ok key →
          buildProviderImpl crates.toCrates files (some path')
              (ProviderTable.fresh.run crates calls).config name =
            dispatch crates.toCrates ⟨provider, model.getD "", baseUrl, some stored⟩ c) := by
  have bound := run_bound crates calls name
  constructor
  · intro last
    rw [last] at bound
    cases bound with
    | absent nothing => exact nothing
  · intro host kind provider baseUrl model c settings path key last configured loaded
    rw [last] at bound
    cases bound with
    | created _ _ _ _ _ _ _ stored kept found =>
        rw [AdminHost.stored, configured] at kept
        rcases storedCredential_keyed loaded kept with ⟨looks, rfl⟩ | ⟨plain, text, rfl, sealed⟩
        · refine ⟨c, found, looks, fun _ => rfl, fun plain => ?_⟩
          rw [looks] at plain
          cases plain
        · rcases encryptV1_ok sealed with ⟨nonce, ct, -, encrypted, form⟩
          have opens := decrypts_sealed documented encrypted
          rw [← form] at opens
          have looks := isEncrypted_of_decrypts documented opens
          refine ⟨text, found, looks, fun plainly => ?_, fun _ => ⟨?_, fun files path' unchanged => ?_⟩⟩
          · rw [plain] at plainly
            cases plainly
          · rintro rfl
            rw [plain] at looks
            cases looks
          · rw [buildProviderImpl_row found, plaintextCred_sealed unchanged looks, opens]
            rfl

theorem sample_credential_used : ∃ stored,
    (ProviderTable.fresh.run (SealingCrates.sample (R := Nat))
      (created "sk-one" "sk-first")).config.providerNamed "gpt" =
        [⟨"openai", "", none, some stored⟩] ∧ stored ≠ "sk-one" ∧
    buildProviderImpl (SealingCrates.sample (R := Nat)).toCrates .keyed (some "master.key")
        (ProviderTable.fresh.run (SealingCrates.sample (R := Nat))
          (created "sk-one" "sk-first")).config "gpt" =
      dispatch (SealingCrates.sample (R := Nat)).toCrates
        ⟨"openai", "", none, some stored⟩ "sk-one" := by
  have last : lastCreate (SealingCrates.sample (R := Nat)) "gpt" (created "sk-one" "sk-first") =
      some (.create .keyed "gpt" "llm" "openai" none none (some "sk-one") (.object [])) := by
    simp [lastCreate, created, ProviderCall.settles, keyed_stores]
  rcases (last_credential_used SealingCrates.sample_documented (created "sk-one" "sk-first")
      "gpt").2 _ _ _ _ _ _ _ _ _ last rfl keyed_loads with ⟨stored, found, -, -, plain⟩
  rcases plain rfl with ⟨differs, builds⟩
  exact ⟨stored, found, differs, builds .keyed "master.key" keyed_loads⟩

end LastCreate

end Extension

end PgRaggraph
