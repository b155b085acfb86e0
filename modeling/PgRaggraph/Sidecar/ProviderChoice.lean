import PgRaggraph.Sidecar.ProviderFactory

/-! What `resolve_provider` promises the factories that look its name up. -/

namespace PgRaggraph

variable {R : Type}

def ConfiguredLlm (available : List ProviderRef) (name : String) : Prop :=
  ∃ p ∈ available, p.name = name ∧ p.kind = "llm"

structure Scanned (available : List ProviderRef) (result : CoreResult String) : Prop where
  configured : ∀ name, result = .ok name → ConfiguredLlm available name
  first : ∀ front p back, available = front ++ p :: back → (∀ q ∈ front, q.kind ≠ "llm") →
    p.kind = "llm" → result = .ok p.name
  refused : (∀ p ∈ available, p.kind ≠ "llm") →
    result = .error (.invalidConfig "no LLM provider configured")

theorem resolveProvider_override {explicit namespaceDefault : Option String} {name : String}
    (given : explicit.or namespaceDefault = some name) (available : List ProviderRef) :
    resolveProvider explicit namespaceDefault available = .ok name := by
  cases explicit with
  | some e =>
      cases given
      rfl
  | none =>
      rw [Option.none_or] at given
      rw [given]
      rfl

theorem resolveProvider_scanned (available : List ProviderRef) :
    Scanned available (resolveProvider none none available) := by
  rw [resolveProvider]
  constructor
  · intro name resolved
    cases found : available.find? (fun p => p.kind == "llm") with
    | none =>
        rw [found] at resolved
        cases resolved
    | some p =>
        rw [found] at resolved
        cases resolved
        have llm := List.find?_some found
        exact ⟨p, List.mem_of_find?_eq_some found, rfl, beq_iff_eq.mp llm⟩
  · intro front p back whole earlier llm
    have passed : front.find? (fun q => q.kind == "llm") = none := by
      rw [List.find?_eq_none]
      intro q member same
      exact earlier q member (beq_iff_eq.mp same)
    have here : (p.kind == "llm") = true := beq_iff_eq.mpr llm
    rw [whole, List.find?_append, passed, Option.none_or, List.find?_cons]
    simp only [here]
  · intro none_
    have absent : available.find? (fun p => p.kind == "llm") = none := by
      rw [List.find?_eq_none]
      intro p member same
      exact none_ p member (beq_iff_eq.mp same)
    rw [absent]

theorem providerNamed_missing {config : Configuration} {name : String}
    (missing : ∀ p ∈ config.providerRefs, p.name ≠ name) : config.providerNamed name = [] := by
  rcases config.providerNamed_cases name with ⟨none_, -⟩ | ⟨row, member, -, named⟩
  · exact none_
  · have listed : (⟨row.name, row.kind⟩ : ProviderRef) ∈ config.providerRefs :=
      List.mem_map_of_mem member
    exact absurd ((named row member).mpr rfl) (missing _ listed)

/-- Without an override the resolved name is that of the first LLM row. An override, of the caller
before that of the namespace, that names an LLM row is the result. One that names no row is the
result too, and both factories then say that there is no such provider. -/
theorem provider_resolution (crates : Crates R) (files : FileSystem)
    (masterKeyPath : Option String) (explicit namespaceDefault : Option String) :
    (explicit.or namespaceDefault = none → ∀ available,
      Scanned available (resolveProvider explicit namespaceDefault available)) ∧
    ∀ name, explicit.or namespaceDefault = some name →
      (∀ available, ConfiguredLlm available name →
        resolveProvider explicit namespaceDefault available = .ok name) ∧
      ∀ config : Configuration, (∀ p ∈ config.providerRefs, p.name ≠ name) →
        resolveProvider explicit namespaceDefault config.providerRefs = .ok name ∧
          Extension.buildProviderImpl crates files masterKeyPath config name =
            .error ⟨.noDataFound, s!"provider_factory: provider \x60{name}\x60 not found"⟩ ∧
          Sidecar.buildProviderImpl crates files (.connected config) name masterKeyPath =
            .error s!"provider_factory: provider \x60{name}\x60 not found" := by
  constructor
  · intro none_ available
    rcases Option.or_eq_none_iff.mp none_ with ⟨rfl, rfl⟩
    exact resolveProvider_scanned available
  · intro name given
    refine ⟨fun available _ => resolveProvider_override given available, ?_⟩
    intro config missing
    have absent := providerNamed_missing missing
    refine ⟨resolveProvider_override given _, ?_, ?_⟩
    · rw [Extension.buildProviderImpl, absent]
    · rw [Sidecar.buildProviderImpl, Sidecar.Client.queryOpt, Sidecar.Client.connected_query,
        Sidecar.Client.connected_config, absent]
      rfl

/-- The caller's name is returned although no row has it. -/
theorem explicit_unlisted :
    resolveProvider (some "explicit-p") none [⟨"default-p", "llm"⟩] = .ok "explicit-p" ∧
      ¬ ConfiguredLlm [⟨"default-p", "llm"⟩] "explicit-p" := by
  refine ⟨rfl, ?_⟩
  rintro ⟨p, member, named, -⟩
  rw [List.mem_singleton.mp member] at named
  exact absurd named (by decide)

theorem provider_resolution_sample :
    resolveProvider none (some "gpt") [⟨"bge", "embedding"⟩, ⟨"gpt", "llm"⟩] = .ok "gpt" ∧
      resolveProvider none none [⟨"bge", "embedding"⟩, ⟨"gpt", "llm"⟩] = .ok "gpt" ∧
      resolveProvider (some "absent") (some "gpt") (Configuration.single "sk").providerRefs =
        .ok "absent" ∧
      Extension.buildProviderImpl (R := Nat) .failing .empty none (.single "sk") "absent" =
        .error ⟨.noDataFound, "provider_factory: provider \x60absent\x60 not found"⟩ := by
  have named := (provider_resolution (R := Nat) .failing .empty none none (some "gpt")).2 "gpt" rfl
  have scanned := (provider_resolution (R := Nat) .failing .empty none none none).1 rfl
    [⟨"bge", "embedding"⟩, ⟨"gpt", "llm"⟩]
  have missing := ((provider_resolution (R := Nat) .failing .empty none (some "absent")
    (some "gpt")).2 "absent" rfl).2 (.single "sk") (by decide)
  exact ⟨named.1 _ ⟨⟨"gpt", "llm"⟩, by decide, rfl, rfl⟩,
    scanned.first [⟨"bge", "embedding"⟩] ⟨"gpt", "llm"⟩ [] rfl (by decide) rfl,
    missing.1, missing.2.1⟩

end PgRaggraph
