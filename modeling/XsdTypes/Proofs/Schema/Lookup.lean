import XsdTypes.Proofs.Schema.Sound

/-!
# What a name denotes

A name denotes the declaration that the root scope of its namespace has under it. For names of types
it makes no difference whether one goes outwards through the scopes or straight to that root scope,
because types with names are global and their names belong to the namespace they are declared in.
-/

namespace XsdTypes.Graph

/-- The root scope of the namespace of the name declares the node under it, before any other. Where
repeats are refused there is no other. -/
def Denotes (g : Graph) (symbol : SchemaSymbol) (node : NodeId) : Prop :=
  ∃ ns d rest, g.namespaceId? symbol.2.uri = some ns ∧
    (g.globals ns).filter (fun d => d.symbol? = some symbol) = d :: rest ∧ d.node = node ∧
    (g.policy.root symbol.1 = .reject → rest = [])

variable {g g' : Graph} {symbol : SchemaSymbol} {d : Declaration}

theorem find?_eq_some (hg : g.Sound) {s : ScopeId} (h : (g.scopeAt s).find? symbol = some d) :
    d ∈ (g.scopeAt s).entries ∧ d.symbol? = some symbol := by
  rw [(hg.declared.indexed s).find?_eq] at h
  exact ⟨List.mem_of_find?_eq_some h, by simpa using List.find?_some h⟩

/-- A name that is found among the global ones denotes what is found. -/
theorem denotes_of_findGlobal? (hg : g.Sound) (h : g.findGlobal? symbol = some d) :
    g.Denotes symbol d.node := by
  obtain ⟨ns, hns, hfind⟩ := Option.bind_eq_some_iff.mp h
  have hlt := (namespaceId?_eq_some hns).1
  rw [rootScope, (hg.declared.indexed _).find?_eq, ← List.head?_filter] at hfind
  obtain ⟨rest, hrest⟩ := List.head?_eq_some_iff.mp hfind
  refine ⟨ns, d, rest, hns, hrest, rfl, fun hreject => ?_⟩
  -- the name is counted once, so nothing comes after the first
  have hroot : (g.scopeAt (g.namespaceAt ns).root).parent.isNone = true := by
    rw [hg.registry.root_parent ns hlt]
    rfl
  have honce := hg.declared.once (g.namespaceAt ns).root symbol (by rw [hroot]; exact hreject)
  rw [List.count_eq_countP, List.countP_map, List.countP_eq_length_filter] at honce
  have hsame : (g.scopeAt (g.namespaceAt ns).root).entries.filter
      ((fun s => s == some symbol) ∘ Declaration.symbol?) = d :: rest := by
    rw [← hrest]
    exact List.filter_congr fun e _ => Bool.eq_iff_iff.mpr (by simp)
  rw [hsame] at honce
  exact List.eq_nil_of_length_eq_zero (by simpa using honce)

theorem findGlobal?_of_denotes (hg : g.Sound) {node : NodeId} (h : g.Denotes symbol node) :
    ∃ d, g.findGlobal? symbol = some d ∧ d.node = node := by
  obtain ⟨ns, d, rest, hns, hfilter, hnode, _⟩ := h
  refine ⟨d, Option.bind_eq_some_iff.mpr ⟨ns, hns, ?_⟩, hnode⟩
  rw [rootScope, (hg.declared.indexed _).find?_eq, ← List.head?_filter]
  exact congrArg List.head? hfilter

/-- What is found has a tag of the kind that is looked for. -/
theorem fits_of_findGlobal? (hg : g.Sound) (h : g.findGlobal? symbol = some d) :
    d.node < g.nodes.size ∧ symbol.1.fits (g.nodeAt d.node).tag := by
  obtain ⟨ns, _, hfind⟩ := Option.bind_eq_some_iff.mp h
  obtain ⟨hmem, hsymbol⟩ := find?_eq_some hg hfind
  have hentry := hg.declared.entry _ d hmem
  rw [(symbol?_eq_some hsymbol).1]
  exact ⟨hentry.node_lt, hentry.fits⟩

/-! ## Looking outwards -/

theorem findOutward?_eq_some {fuel : Nat} {s : ScopeId} (h : g.findOutward? symbol fuel s = some d) :
    ∃ s', (g.scopeAt s').find? symbol = some d := by
  induction fuel generalizing s with
  | zero => cases h
  | succ fuel ih =>
    unfold findOutward? at h
    split at h
    · rename_i d' hfind
      cases h
      exact ⟨s, hfind⟩
    · split at h
      · exact ih h
      · cases h

/-- The name of a type means the same from every scope. -/
theorem lookup?_type (hg : g.Sound) (start : ScopeId) (name : QName) :
    g.lookup? start (.type, name) = g.findGlobal? (.type, name) := by
  unfold lookup?
  cases hout : g.findOutward? (.type, name) g.scopes.size start with
  | none => rfl
  | some d =>
    obtain ⟨s, hfind⟩ := findOutward?_eq_some hout
    obtain ⟨hmem, hsymbol⟩ := find?_eq_some hg hfind
    obtain ⟨hspace, hname⟩ := symbol?_eq_some hsymbol
    have hs := scope_lt_of_mem hmem
    obtain ⟨hroot, huri⟩ := (hg.declared.entry s d hmem).global hspace.symm name hname
    have hns := hg.registry.namespaceId?_uri (hg.registry.ns_lt s hs)
    refine (Option.bind_eq_some_iff.mpr ⟨(g.scopeAt s).ns, ?_, ?_⟩).symm
    · change g.namespaceId? name.uri = _
      rw [huri]
      exact hns
    · rw [rootScope, hg.registry.root_of_parent s hs hroot]
      exact hfind

/-! ## References of nodes -/

variable {id node : NodeId}

theorem resolveGlobal_eq_ok (hg : g.Sound) (h : g.resolveGlobal id symbol = .ok node) :
    g.Denotes symbol node ∧ node < g.nodes.size ∧ symbol.1.fits (g.nodeAt node).tag := by
  unfold resolveGlobal at h
  split at h
  · rename_i d hd
    cases h
    exact ⟨denotes_of_findGlobal? hg hd, fits_of_findGlobal? hg hd⟩
  · cases h

/-- A name that cannot be resolved denotes nothing. -/
theorem resolveGlobal_eq_error (hg : g.Sound) {e : SchemaError}
    (h : g.resolveGlobal id symbol = .error e) :
    e = .unresolved symbol.1 symbol.2 (g.location id) ∧ ∀ node, ¬ g.Denotes symbol node := by
  unfold resolveGlobal at h
  split at h
  · cases h
  · rename_i hnone
    cases h
    refine ⟨rfl, fun node hnode => ?_⟩
    obtain ⟨d, hd, _⟩ := findGlobal?_of_denotes hg hnode
    rw [hnone] at hd
    cases hd

theorem resolveFrom_type (hg : g.Sound) (id : NodeId) (name : QName) :
    g.resolveFrom id (.type, name) = g.resolveGlobal id (.type, name) := by
  rw [resolveFrom, resolveGlobal, lookup?_type hg]

end XsdTypes.Graph
