import XsdTypes.Proofs.Schema.ScopeIndex
import XsdTypes.Proofs.Schema.Updates

/-!
# Well-formed graphs

Three invariants of graphs, each about a part of them that few changes touch: which scopes belong to
which namespaces (`Registry`), what the declarations of a scope have to do with the nodes they
declare (`Declared`), and how the nodes of a document lie within each other (`Tree`). Each comes
with a lemma for the changes that keep all it speaks of, and with one for every other change that is
made while documents are read.
-/

namespace XsdTypes

/-- Whether a tag makes declarations of a symbol space. -/
def SymbolSpace.fits : SymbolSpace → Tag → Bool
  | .element, .element => true
  | .attr, .attr => true
  | .type, .complexType | .type, .simpleType | .type, .builtin => true
  | .group, .group | .groupRef, .group => true
  | .attrGroup, .attrGroup | .attrGroupRef, .attrGroup => true
  | _, _ => false

/-- The scope in which the content of a node is declared. -/
def Node.contentScope (n : Node) : ScopeId :=
  n.ownScope.getD n.scope

namespace Graph

/-- Every namespace has one root scope, and every other scope stands in an older one of the same
namespace. -/
structure Registry (g : Graph) : Prop where
  /-- A URI stands for one namespace. -/
  uri_inj : ∀ i j : Nat, i < g.namespaces.size → j < g.namespaces.size →
    (g.namespaceAt i).uri = (g.namespaceAt j).uri → i = j
  root_lt : ∀ i, i < g.namespaces.size → (g.namespaceAt i).root < g.scopes.size
  root_parent : ∀ i, i < g.namespaces.size → (g.scopeAt (g.namespaceAt i).root).parent = none
  root_ns : ∀ i, i < g.namespaces.size → (g.scopeAt (g.namespaceAt i).root).ns = i
  ns_lt : ∀ s, s < g.scopes.size → (g.scopeAt s).ns < g.namespaces.size
  /-- A scope without a parent is the root of its namespace. -/
  root_of_parent : ∀ s, s < g.scopes.size → (g.scopeAt s).parent = none →
    (g.namespaceAt (g.scopeAt s).ns).root = s
  parent_lt : ∀ s p : Nat, s < g.scopes.size → (g.scopeAt s).parent = some p → p < s
  parent_ns : ∀ s p : Nat, s < g.scopes.size → (g.scopeAt s).parent = some p →
    (g.scopeAt p).ns = (g.scopeAt s).ns

/-- A declaration of a scope agrees with the node it declares. -/
structure IsDeclared (g : Graph) (s : ScopeId) (d : Declaration) : Prop where
  node_lt : d.node < g.nodes.size
  scope : (g.nodeAt d.node).scope = s
  name : (g.nodeAt d.node).name = d.name
  fits : d.space.fits (g.nodeAt d.node).tag
  /-- Types with names are global, and their names belong to the namespace. -/
  global : d.space = .type → ∀ q, d.name = some q →
    (g.scopeAt s).parent = none ∧ q.uri = (g.namespaceAt (g.scopeAt s).ns).uri

/-- The scopes list what nodes declare, each node once, and each name once where repeats are
refused. -/
structure Declared (g : Graph) : Prop where
  indexed : ∀ s, (g.scopeAt s).Indexed
  entry : ∀ s, ∀ d ∈ (g.scopeAt s).entries, g.IsDeclared s d
  nodup : ∀ s, ((g.scopeAt s).entries.map Declaration.node).Nodup
  once : ∀ s symbol, g.policy.rule symbol.1 (g.scopeAt s).parent.isNone = .reject →
    ((g.scopeAt s).entries.map Declaration.symbol?).count (some symbol) ≤ 1

/-- The nodes lie within each other as their tags may, and stand in the scopes that the nodes around
them open. -/
structure Tree (g : Graph) : Prop where
  scope_lt : ∀ n, n < g.nodes.size → (g.nodeAt n).scope < g.scopes.size
  own_lt : ∀ n s : Nat, n < g.nodes.size → (g.nodeAt n).ownScope = some s → s < g.scopes.size
  /-- The scope that a node opens stands in the scope of the node, unless it is a root scope. -/
  own_parent : ∀ n s : Nat, n < g.nodes.size → (g.nodeAt n).ownScope = some s →
    (g.scopeAt s).parent = some (g.nodeAt n).scope ∨
      ((g.scopeAt s).parent = none ∧ s = (g.nodeAt n).scope ∧ (g.nodeAt n).tag = .schema)
  own_inj : ∀ n m s : Nat, n < g.nodes.size → m < g.nodes.size → (g.nodeAt n).ownScope = some s →
    (g.nodeAt m).ownScope = some s → (g.scopeAt s).parent ≠ none → n = m
  parent_lt : ∀ n p : Nat, n < g.nodes.size → (g.nodeAt n).parent = some p → p < n
  parent_scope : ∀ n p : Nat, n < g.nodes.size → (g.nodeAt n).parent = some p →
    (g.nodeAt n).scope = (g.nodeAt p).contentScope
  parent_contains : ∀ n p : Nat, n < g.nodes.size → (g.nodeAt n).parent = some p →
    (g.nodeAt p).tag.mayContain (g.nodeAt n).tag
  child_lt : ∀ p, p < g.nodes.size → ∀ c ∈ (g.nodeAt p).children, c < g.nodes.size
  mem_children : ∀ p c : Nat, p < g.nodes.size → c < g.nodes.size →
    (c ∈ (g.nodeAt p).children ↔ (g.nodeAt c).parent = some p)
  children_sorted : ∀ p, p < g.nodes.size → (g.nodeAt p).children.Pairwise (· < ·)

variable {g g' : Graph}

theorem nodeAt_of_size_le {n : NodeId} (h : g.nodes.size ≤ n) : g.nodeAt n = default :=
  getD_of_size_le g.nodes h

theorem scopeAt_of_size_le {s : ScopeId} (h : g.scopes.size ≤ s) : g.scopeAt s = default :=
  getD_of_size_le g.scopes h

theorem scope_lt_of_mem {s : ScopeId} {d : Declaration} (h : d ∈ (g.scopeAt s).entries) :
    s < g.scopes.size := by
  by_contra hs
  rw [scopeAt_of_size_le (Nat.le_of_not_lt hs)] at h
  cases h

/-! A new scope declares nothing, so what is declared stays as it is. -/

theorem entries_addScope (g : Graph) (parent : Option ScopeId) (ns : NamespaceId) (s : ScopeId) :
    ((g.addScope parent ns).1.scopeAt s).entries = (g.scopeAt s).entries := by
  rw [scopeAt_addScope]
  split
  · rename_i hs
    rw [scopeAt_of_size_le (Nat.le_of_eq hs.symm)]
    rfl
  · rfl

theorem index_addScope (g : Graph) (parent : Option ScopeId) (ns : NamespaceId) (s : ScopeId) :
    ((g.addScope parent ns).1.scopeAt s).index = (g.scopeAt s).index := by
  rw [scopeAt_addScope]
  split
  · rename_i hs
    rw [scopeAt_of_size_le (Nat.le_of_eq hs.symm)]
    rfl
  · rfl

/-! ## Namespaces and scopes -/

namespace Registry

/-- The registry speaks of URIs, roots and the places of scopes only. -/
theorem congr (h : g.Registry) (hns : g'.namespaces.size = g.namespaces.size)
    (hs : g'.scopes.size = g.scopes.size)
    (huri : ∀ i, (g'.namespaceAt i).uri = (g.namespaceAt i).uri)
    (hroot : ∀ i, (g'.namespaceAt i).root = (g.namespaceAt i).root)
    (hparent : ∀ s, (g'.scopeAt s).parent = (g.scopeAt s).parent)
    (hin : ∀ s, (g'.scopeAt s).ns = (g.scopeAt s).ns) : g'.Registry where
  uri_inj i j hi hj he := by
    rw [huri, huri] at he
    exact h.uri_inj i j (hns ▸ hi) (hns ▸ hj) he
  root_lt i hi := by rw [hroot, hs]; exact h.root_lt i (hns ▸ hi)
  root_parent i hi := by rw [hroot, hparent]; exact h.root_parent i (hns ▸ hi)
  root_ns i hi := by rw [hroot, hin]; exact h.root_ns i (hns ▸ hi)
  ns_lt s hlt := by rw [hin, hns]; exact h.ns_lt s (hs ▸ hlt)
  root_of_parent s hlt hp := by
    rw [hparent] at hp
    rw [hin, hroot]
    exact h.root_of_parent s (hs ▸ hlt) hp
  parent_lt s p hlt hp := by
    rw [hparent] at hp
    exact h.parent_lt s p (hs ▸ hlt) hp
  parent_ns s p hlt hp := by
    rw [hparent] at hp
    rw [hin, hin]
    exact h.parent_ns s p (hs ▸ hlt) hp

/-- A registry grows by namespaces with URIs and root scopes of their own, and by scopes that are the
roots of their namespaces or stand in older scopes of them. -/
theorem grow (h : g.Registry) (hnle : g.namespaces.size ≤ g'.namespaces.size)
    (hsle : g.scopes.size ≤ g'.scopes.size)
    (hnold : ∀ i, i < g.namespaces.size → g'.namespaceAt i = g.namespaceAt i)
    (hsold : ∀ s, s < g.scopes.size → g'.scopeAt s = g.scopeAt s)
    (huri : ∀ i j : Nat, i < j → g.namespaces.size ≤ j → j < g'.namespaces.size →
      (g'.namespaceAt i).uri ≠ (g'.namespaceAt j).uri)
    (hroot : ∀ i : Nat, g.namespaces.size ≤ i → i < g'.namespaces.size →
      (g'.namespaceAt i).root < g'.scopes.size ∧
        (g'.scopeAt (g'.namespaceAt i).root).parent = none ∧
          (g'.scopeAt (g'.namespaceAt i).root).ns = i)
    (hns : ∀ s : Nat, g.scopes.size ≤ s → s < g'.scopes.size →
      (g'.scopeAt s).ns < g'.namespaces.size)
    (hnone : ∀ s : Nat, g.scopes.size ≤ s → s < g'.scopes.size → (g'.scopeAt s).parent = none →
      (g'.namespaceAt (g'.scopeAt s).ns).root = s)
    (hsome : ∀ s p : Nat, g.scopes.size ≤ s → s < g'.scopes.size → (g'.scopeAt s).parent = some p →
      p < s ∧ (g'.scopeAt p).ns = (g'.scopeAt s).ns) : g'.Registry where
  uri_inj i j hi hj he := by
    by_cases hold : i < g.namespaces.size ∧ j < g.namespaces.size
    · rw [hnold i hold.1, hnold j hold.2] at he
      exact h.uri_inj i j hold.1 hold.2 he
    · rcases Nat.lt_trichotomy i j with hlt | heq | hlt
      · exact absurd he (huri i j hlt (by omega) hj)
      · exact heq
      · exact absurd he.symm (huri j i hlt (by omega) hi)
  root_lt i hi := by
    rcases Nat.lt_or_ge i g.namespaces.size with hlt | hge
    · rw [hnold i hlt]
      exact Nat.lt_of_lt_of_le (h.root_lt i hlt) hsle
    · exact (hroot i hge hi).1
  root_parent i hi := by
    rcases Nat.lt_or_ge i g.namespaces.size with hlt | hge
    · rw [hnold i hlt, hsold _ (h.root_lt i hlt)]
      exact h.root_parent i hlt
    · exact (hroot i hge hi).2.1
  root_ns i hi := by
    rcases Nat.lt_or_ge i g.namespaces.size with hlt | hge
    · rw [hnold i hlt, hsold _ (h.root_lt i hlt)]
      exact h.root_ns i hlt
    · exact (hroot i hge hi).2.2
  ns_lt s hs := by
    rcases Nat.lt_or_ge s g.scopes.size with hlt | hge
    · rw [hsold s hlt]
      exact Nat.lt_of_lt_of_le (h.ns_lt s hlt) hnle
    · exact hns s hge hs
  root_of_parent s hs hp := by
    rcases Nat.lt_or_ge s g.scopes.size with hlt | hge
    · rw [hsold s hlt] at hp ⊢
      rw [hnold _ (h.ns_lt s hlt)]
      exact h.root_of_parent s hlt hp
    · exact hnone s hge hs hp
  parent_lt s p hs hp := by
    rcases Nat.lt_or_ge s g.scopes.size with hlt | hge
    · rw [hsold s hlt] at hp
      exact h.parent_lt s p hlt hp
    · exact (hsome s p hge hs hp).1
  parent_ns s p hs hp := by
    rcases Nat.lt_or_ge s g.scopes.size with hlt | hge
    · rw [hsold s hlt] at hp ⊢
      rw [hsold p (Nat.lt_trans (h.parent_lt s p hlt hp) hlt)]
      exact h.parent_ns s p hlt hp
    · exact (hsome s p hge hs hp).2

/-- A scope within another one. -/
theorem addScope (h : g.Registry) {s : ScopeId} (hs : s < g.scopes.size) :
    (g.addScope (some s) (g.scopeAt s).ns).1.Registry := by
  set g' := (g.addScope (some s) (g.scopeAt s).ns).1 with hg'
  have hsold : ∀ t, t < g.scopes.size → g'.scopeAt t = g.scopeAt t :=
    fun t ht => scopeAt_addScope_of_lt g _ _ ht
  have hnew : ∀ t, g.scopes.size ≤ t → t < g'.scopes.size →
      t = g.scopes.size ∧ g'.scopeAt t = { parent := some s, ns := (g.scopeAt s).ns } := by
    intro t hge ht
    rw [hg', addScope_scopes_size] at ht
    obtain rfl : t = g.scopes.size := by omega
    exact ⟨rfl, scopeAt_addScope_self g _ _⟩
  refine h.grow (Nat.le_refl _) (by simp [hg']) (fun _ _ => rfl) hsold
    (fun _ j _ hge hj => absurd hj (Nat.not_lt.mpr hge))
    (fun i hge hi => absurd hi (Nat.not_lt.mpr hge)) (fun t hge ht => ?_) (fun t hge ht hp => ?_)
    fun t p hge ht hp => ?_
  · rw [(hnew t hge ht).2]
    exact h.ns_lt s hs
  · rw [(hnew t hge ht).2] at hp
    cases hp
  · obtain ⟨rfl, heq⟩ := hnew t hge ht
    rw [heq] at hp ⊢
    cases hp
    rw [hsold s hs]
    exact ⟨hs, rfl⟩

end Registry

/-! ### Registering a namespace -/

/-- The index gives what a search would. -/
theorem namespaceId?_eq (g : Graph) (uri : String) :
    g.namespaceId? uri = g.namespaces.items.findIdx? fun ns => ns.uri == uri := by
  rw [namespaceId?, NamespaceTable.find?, NamespaceTable.lookup_byUri, Array.findIdx?_map]
  rfl

/-- What the index gives is the first namespace with the URI. -/
theorem namespaceId?_first {uri : String} {i : NamespaceId} :
    g.namespaceId? uri = some i ↔ i < g.namespaces.size ∧ (g.namespaceAt i).uri = uri ∧
      ∀ j, j < i → (g.namespaceAt j).uri ≠ uri := by
  rw [namespaceId?_eq, Array.findIdx?_eq_some_iff_getElem]
  have hat : ∀ j (hj : j < g.namespaces.items.size),
      (g.namespaces.items[j].uri == uri) = true ↔ (g.namespaceAt j).uri = uri := by
    intro j hj
    rw [namespaceAt_eq_getElem g hj, beq_iff_eq]
  constructor
  · rintro ⟨hi, huri, hfirst⟩
    exact ⟨hi, (hat i hi).mp huri, fun j hj => mt (hat j (Nat.lt_trans hj hi)).mpr (hfirst j hj)⟩
  · rintro ⟨hi, huri, hfirst⟩
    exact ⟨hi, (hat i hi).mpr huri, fun j hj => mt (hat j (Nat.lt_trans hj hi)).mp (hfirst j hj)⟩

theorem namespaceId?_eq_some {uri : String} {i : NamespaceId} (h : g.namespaceId? uri = some i) :
    i < g.namespaces.size ∧ (g.namespaceAt i).uri = uri := by
  obtain ⟨hi, huri, _⟩ := namespaceId?_first.mp h
  exact ⟨hi, huri⟩

theorem namespaceId?_eq_none {uri : String} (h : g.namespaceId? uri = none) :
    ∀ i, i < g.namespaces.size → (g.namespaceAt i).uri ≠ uri := by
  intro i hi
  rw [namespaceId?_eq, Array.findIdx?_eq_none_iff] at h
  rw [namespaceAt_eq_getElem g hi]
  exact ne_of_beq_false (h g.namespaces.items[i] (Array.getElem_mem hi))

/-- A registered namespace is found under its URI. -/
theorem Registry.namespaceId?_uri (h : g.Registry) {i : NamespaceId} (hi : i < g.namespaces.size) :
    g.namespaceId? (g.namespaceAt i).uri = some i := by
  cases hf : g.namespaceId? (g.namespaceAt i).uri with
  | none => exact absurd rfl (namespaceId?_eq_none hf i hi)
  | some j =>
    obtain ⟨hj, hu⟩ := namespaceId?_eq_some hf
    rw [h.uri_inj j i hj hi hu]

/-- Registering a namespace either finds it or adds it with an empty root scope. -/
theorem register_cases (g : Graph) (uri : String) :
    ((g.register uri).1 = g ∧ g.namespaceId? uri = some (g.register uri).2) ∨
    (g.namespaceId? uri = none ∧ (g.register uri).2 = g.namespaces.size ∧
      (g.register uri).1 = { g with
        namespaces := g.namespaces.push { uri, root := g.scopes.size }
        scopes := g.scopes.push { parent := none, ns := g.namespaces.size } }) := by
  unfold register
  split
  · rename_i i hi
    exact Or.inl ⟨rfl, hi⟩
  · rename_i hi
    exact Or.inr ⟨hi, rfl, rfl⟩

@[simp] theorem register_nodes (g : Graph) (uri : String) : (g.register uri).1.nodes = g.nodes := by
  rcases register_cases g uri with ⟨heq, _⟩ | ⟨_, _, heq⟩ <;> rw [heq]

@[simp] theorem register_documents (g : Graph) (uri : String) :
    (g.register uri).1.documents = g.documents := by
  rcases register_cases g uri with ⟨heq, _⟩ | ⟨_, _, heq⟩ <;> rw [heq]

@[simp] theorem register_policy (g : Graph) (uri : String) :
    (g.register uri).1.policy = g.policy := by
  rcases register_cases g uri with ⟨heq, _⟩ | ⟨_, _, heq⟩ <;> rw [heq]

@[simp] theorem register_redefined (g : Graph) (uri : String) :
    (g.register uri).1.redefined = g.redefined := by
  rcases register_cases g uri with ⟨heq, _⟩ | ⟨_, _, heq⟩ <;> rw [heq]

theorem register_namespaces_le (g : Graph) (uri : String) :
    g.namespaces.size ≤ (g.register uri).1.namespaces.size := by
  rcases register_cases g uri with ⟨heq, _⟩ | ⟨_, _, heq⟩ <;> rw [heq]
  rw [namespaces_push_size]
  exact Nat.le_succ _

theorem register_scopes_le (g : Graph) (uri : String) :
    g.scopes.size ≤ (g.register uri).1.scopes.size := by
  rcases register_cases g uri with ⟨heq, _⟩ | ⟨_, _, heq⟩ <;> rw [heq]
  rw [Array.size_push]
  exact Nat.le_succ _

theorem register_namespaceAt_of_lt (g : Graph) (uri : String) {i : NamespaceId}
    (hi : i < g.namespaces.size) : (g.register uri).1.namespaceAt i = g.namespaceAt i := by
  rcases register_cases g uri with ⟨heq, _⟩ | ⟨_, _, heq⟩ <;> rw [heq]
  rw [namespaceAt, namespaces_push_getD, if_neg (Nat.ne_of_lt hi)]

theorem register_scopeAt_of_lt (g : Graph) (uri : String) {s : ScopeId}
    (hs : s < g.scopes.size) : (g.register uri).1.scopeAt s = g.scopeAt s := by
  rcases register_cases g uri with ⟨heq, _⟩ | ⟨_, _, heq⟩ <;> rw [heq]
  rw [scopeAt, getD_push, if_neg (Nat.ne_of_lt hs), scopeAt]

theorem entries_register (g : Graph) (uri : String) (s : ScopeId) :
    ((g.register uri).1.scopeAt s).entries = (g.scopeAt s).entries := by
  rcases register_cases g uri with ⟨heq, _⟩ | ⟨_, _, heq⟩ <;> rw [heq]
  exact entries_addScope g none g.namespaces.size s

theorem index_register (g : Graph) (uri : String) (s : ScopeId) :
    ((g.register uri).1.scopeAt s).index = (g.scopeAt s).index := by
  rcases register_cases g uri with ⟨heq, _⟩ | ⟨_, _, heq⟩ <;> rw [heq]
  exact index_addScope g none g.namespaces.size s

/-- A namespace that registering adds was not known under its URI, and its root scope is new. -/
theorem register_new_namespace (g : Graph) (uri : String) {i : NamespaceId}
    (hge : g.namespaces.size ≤ i) (hi : i < (g.register uri).1.namespaces.size) :
    g.namespaceId? uri = none ∧ i = g.namespaces.size ∧
      (g.register uri).1.namespaceAt i = { uri, root := g.scopes.size } ∧
        g.scopes.size < (g.register uri).1.scopes.size := by
  rcases register_cases g uri with ⟨heq, _⟩ | ⟨hnone, _, heq⟩
  · rw [heq] at hi
    exact absurd hi (Nat.not_lt.mpr hge)
  · rw [heq, namespaces_push_size] at hi
    obtain rfl : i = g.namespaces.size := Nat.le_antisymm (Nat.le_of_lt_succ hi) hge
    rw [heq, namespaceAt, namespaces_push_getD, if_pos rfl, Array.size_push]
    exact ⟨hnone, rfl, rfl, Nat.lt_succ_self _⟩

/-- A scope that registering adds is the root of the namespace that it adds. -/
theorem register_new_scope (g : Graph) (uri : String) {s : ScopeId} (hge : g.scopes.size ≤ s)
    (hs : s < (g.register uri).1.scopes.size) :
    s = g.scopes.size ∧ (g.register uri).1.scopeAt s = { parent := none, ns := g.namespaces.size } ∧
      g.namespaces.size < (g.register uri).1.namespaces.size := by
  rcases register_cases g uri with ⟨heq, _⟩ | ⟨_, _, heq⟩
  · rw [heq] at hs
    exact absurd hs (Nat.not_lt.mpr hge)
  · rw [heq, Array.size_push] at hs
    obtain rfl : s = g.scopes.size := Nat.le_antisymm (Nat.le_of_lt_succ hs) hge
    rw [heq, scopeAt, getD_push, if_pos rfl, namespaces_push_size]
    exact ⟨rfl, rfl, Nat.lt_succ_self _⟩

theorem Registry.register (h : g.Registry) (uri : String) : (g.register uri).1.Registry := by
  refine h.grow (register_namespaces_le g uri) (register_scopes_le g uri)
    (fun i hi => register_namespaceAt_of_lt g uri hi) (fun s hs => register_scopeAt_of_lt g uri hs)
    (fun i j hij hge hj => ?_) (fun i hge hi => ?_) (fun s hge hs => ?_) (fun s hge hs _ => ?_)
    fun s p hge hs hp => ?_
  · obtain ⟨hnone, rfl, heq, _⟩ := register_new_namespace g uri hge hj
    rw [heq, register_namespaceAt_of_lt g uri hij]
    exact namespaceId?_eq_none hnone i hij
  · obtain ⟨_, rfl, heq, hlt⟩ := register_new_namespace g uri hge hi
    rw [heq, (register_new_scope g uri (Nat.le_refl _) hlt).2.1]
    exact ⟨hlt, rfl, rfl⟩
  · obtain ⟨_, heq, hlt⟩ := register_new_scope g uri hge hs
    rw [heq]
    exact hlt
  · obtain ⟨rfl, heq, hlt⟩ := register_new_scope g uri hge hs
    rw [heq, (register_new_namespace g uri (Nat.le_refl _) hlt).2.2.1]
  · rw [(register_new_scope g uri hge hs).2.1] at hp
    cases hp

/-! ## Declarations -/

namespace Declared

/-- The declarations of a graph speak of the scopes, names and tags of declared nodes. New nodes and
new scopes without declarations make no difference. -/
theorem congr (h : g.Declared) (hpolicy : g'.policy = g.policy)
    (hnodes : g.nodes.size ≤ g'.nodes.size)
    (hnode : ∀ s, ∀ d ∈ (g.scopeAt s).entries,
      (g'.nodeAt d.node).scope = (g.nodeAt d.node).scope ∧
      (g'.nodeAt d.node).name = (g.nodeAt d.node).name ∧
      (g'.nodeAt d.node).tag = (g.nodeAt d.node).tag)
    (hentries : ∀ s, (g'.scopeAt s).entries = (g.scopeAt s).entries)
    (hindex : ∀ s, (g'.scopeAt s).index = (g.scopeAt s).index)
    (hscope : ∀ s, s < g.scopes.size → (g'.scopeAt s).parent = (g.scopeAt s).parent ∧
      (g'.namespaceAt (g'.scopeAt s).ns).uri = (g.namespaceAt (g.scopeAt s).ns).uri) :
    g'.Declared where
  indexed s symbol := by rw [hindex, hentries]; exact h.indexed s symbol
  entry s d hd := by
    rw [hentries] at hd
    have hs := scope_lt_of_mem hd
    have he := h.entry s d hd
    obtain ⟨hsc, hname, htag⟩ := hnode s d hd
    refine ⟨Nat.lt_of_lt_of_le he.node_lt hnodes, hsc.trans he.scope, hname.trans he.name, ?_, ?_⟩
    · rw [htag]; exact he.fits
    · intro hspace q hq
      rw [(hscope s hs).1, (hscope s hs).2]
      exact he.global hspace q hq
  nodup s := by rw [hentries]; exact h.nodup s
  once s symbol hr := by
    rw [hentries]
    by_cases hs : s < g.scopes.size
    · rw [hpolicy, (hscope s hs).1] at hr
      exact h.once s symbol hr
    · rw [scopeAt_of_size_le (Nat.le_of_not_lt hs)]
      exact Nat.zero_le _

/-- Scopes are changed one at a time: `d` is declared in `target`, whose declarations become
`entries`. -/
theorem modifyScope (h : g.Declared) {target : ScopeId} {scope : Scope} {d : Declaration}
    (hparent : scope.parent = (g.scopeAt target).parent) (hns : scope.ns = (g.scopeAt target).ns)
    (hindexed : scope.Indexed)
    (hmem : ∀ e ∈ scope.entries, e = d ∨ e ∈ (g.scopeAt target).entries)
    (hnodup : (scope.entries.map Declaration.node).Nodup)
    (honce : ∀ symbol, g.policy.rule symbol.1 (g.scopeAt target).parent.isNone = .reject →
      (scope.entries.map Declaration.symbol?).count (some symbol) ≤ 1)
    (hfree : ∀ s, ∀ e ∈ (g.scopeAt s).entries, e.node ≠ d.node)
    (hlt : d.node < g.nodes.size) (hscope : (g.nodeAt d.node).scope = target)
    (hfits : d.space.fits (g.nodeAt d.node).tag)
    (hglobal : d.space = .type → ∀ q, d.name = some q →
      (g.scopeAt target).parent = none ∧ q.uri = (g.namespaceAt (g.scopeAt target).ns).uri) :
    ((g.modifyScope target fun _ => scope).modifyNode d.node
      fun node => { node with name := d.name }).Declared := by
  set g' := (g.modifyScope target fun _ => scope).modifyNode d.node
    fun node => { node with name := d.name } with hg'
  have hnode_scope : ∀ n, (g'.nodeAt n).scope = (g.nodeAt n).scope := by
    intro n
    rw [hg', nodeAt_modifyNode]
    split <;> rfl
  have hnode_tag : ∀ n, (g'.nodeAt n).tag = (g.nodeAt n).tag := by
    intro n
    rw [hg', nodeAt_modifyNode]
    split <;> rfl
  have hsize : g'.nodes.size = g.nodes.size := by simp [hg']
  have hself : (g'.nodeAt d.node).name = d.name := by
    rw [hg', nodeAt_modifyNode_self _ _ _ (by simpa using hlt)]
  have hother : ∀ n, n ≠ d.node → g'.nodeAt n = g.nodeAt n := fun n hn =>
    nodeAt_modifyNode_ne _ _ _ hn
  have hplace : ∀ s, (g'.scopeAt s).parent = (g.scopeAt s).parent ∧
      (g'.scopeAt s).ns = (g.scopeAt s).ns := by
    intro s
    rw [hg', scopeAt_modifyNode, scopeAt_modifyScope]
    split
    · rename_i hs
      rw [hs.1]
      exact ⟨hparent, hns⟩
    · exact ⟨rfl, rfl⟩
  -- a scope is either as it was, or it is the target
  have hcases : ∀ s, g'.scopeAt s = g.scopeAt s ∨ (s = target ∧ g'.scopeAt s = scope) := by
    intro s
    rw [hg', scopeAt_modifyNode, scopeAt_modifyScope]
    split
    · rename_i hs
      exact Or.inr ⟨hs.1, rfl⟩
    · exact Or.inl rfl
  have hold : ∀ s, ∀ e ∈ (g.scopeAt s).entries, g'.IsDeclared s e := by
    intro s e he
    have hd := h.entry s e he
    have hne := hfree s e he
    refine ⟨hsize ▸ hd.node_lt, (hnode_scope _).trans hd.scope, ?_, ?_, ?_⟩
    · rw [hother _ hne]; exact hd.name
    · rw [hnode_tag]; exact hd.fits
    · rw [(hplace s).1, (hplace s).2]; exact hd.global
  refine
    { indexed := fun s => ?_
      entry := fun s e he => ?_
      nodup := fun s => ?_
      once := fun s symbol hr => ?_ }
  · rcases hcases s with hs | ⟨_, hs⟩
    · rw [hs]; exact h.indexed s
    · rw [hs]; exact hindexed
  · rcases hcases s with hs | ⟨rfl, hs⟩
    · rw [hs] at he
      exact hold s e he
    · rw [hs] at he
      rcases hmem e he with rfl | he'
      · refine ⟨hsize ▸ hlt, (hnode_scope _).trans hscope, hself, ?_, ?_⟩
        · rw [hnode_tag]; exact hfits
        · rw [(hplace s).1, (hplace s).2]; exact hglobal
      · exact hold s e he'
  · rcases hcases s with hs | ⟨_, hs⟩
    · rw [hs]; exact h.nodup s
    · rw [hs]; exact hnodup
  · rw [(hplace s).1] at hr
    rcases hcases s with hs | ⟨rfl, hs⟩
    · rw [hs]; exact h.once s symbol hr
    · rw [hs]; exact honce symbol hr

end Declared

theorem symbol?_eq_some {d : Declaration} {symbol : SchemaSymbol} (h : d.symbol? = some symbol) :
    symbol.1 = d.space ∧ d.name = some symbol.2 := by
  unfold Declaration.symbol? at h
  obtain ⟨name, hname, rfl⟩ := Option.map_eq_some_iff.mp h
  exact ⟨rfl, hname⟩

/-- A declaration that is accepted is passed over, because its name has been redefined, or it is
appended to its scope. -/
theorem declare_eq_ok {d : Declaration} {target : ScopeId} (h : g.declare d target = .ok g') :
    (g' = g ∧ (g.scopeAt target).parent = none) ∨
    ∃ scope, (g.scopeAt target).insert d
        (g.policy.rule d.space (g.scopeAt target).parent.isNone) = .ok scope ∧
      g' = (g.modifyScope target fun _ => scope).modifyNode d.node
        fun node => { node with name := d.name } := by
  unfold declare at h
  simp only at h
  split at h
  · split at h
    · rename_i hred
      cases h
      simp only [Bool.and_eq_true] at hred
      exact Or.inl ⟨rfl, Option.isNone_iff_eq_none.mp hred.1⟩
    · split at h
      · cases h
      · rename_i scope hins
        cases h
        exact Or.inr ⟨scope, hins, rfl⟩
  · rw [if_neg Bool.false_ne_true] at h
    split at h
    · cases h
    · rename_i scope hins
      cases h
      exact Or.inr ⟨scope, hins, rfl⟩

/-- A declaration that is refused leaves the graph as it is. -/
theorem graph_eq_of_declare_eq_error {d : Declaration} {target : ScopeId} {halt : Halt}
    (h : g.declare d target = .error halt) : halt.graph = g := by
  have hrefused : ∀ {refusal : Refusal},
      (g.scopeAt target).insert d (g.policy.rule d.space (g.scopeAt target).parent.isNone) =
        .error refusal → (g.modifyScope target fun _ => refusal.scope) = g := by
    intro refusal hins
    rw [Scope.scope_eq_of_insert_eq_error hins]
    exact modifyScope_eq_self g target
  unfold declare at h
  extract_lets scope atRoot isRedefined at h
  split at h
  · cases h
  · split at h
    · rename_i refusal hins
      cases h
      exact hrefused hins
    · cases h

namespace Declared

/-- Declaring a new node keeps the declarations right. -/
theorem declare (h : g.Declared) {target : ScopeId} {d : Declaration}
    (hok : g.declare d target = .ok g')
    (hfree : ∀ s, ∀ e ∈ (g.scopeAt s).entries, e.node ≠ d.node)
    (hlt : d.node < g.nodes.size) (hscope : (g.nodeAt d.node).scope = target)
    (hfits : d.space.fits (g.nodeAt d.node).tag)
    (hglobal : d.space = .type → ∀ q, d.name = some q →
      (g.scopeAt target).parent = none ∧ q.uri = (g.namespaceAt (g.scopeAt target).ns).uri) :
    g'.Declared := by
  rcases declare_eq_ok hok with ⟨rfl, _⟩ | ⟨scope, hins, rfl⟩
  · exact h
  obtain ⟨rfl, hnew⟩ := (h.indexed target).insert_eq_ok hins
  refine h.modifyScope rfl rfl ((h.indexed target).append d) ?_ ?_ ?_ hfree hlt hscope hfits hglobal
  · intro e he
    rcases List.mem_append.mp he with he' | he'
    · exact Or.inr he'
    · exact Or.inl (List.mem_singleton.mp he')
  · simp only [Scope.append, List.map_append, List.map_cons, List.map_nil]
    refine List.nodup_append.mpr ⟨h.nodup target, List.nodup_singleton _, ?_⟩
    intro a ha b hb hab
    obtain ⟨e, he, rfl⟩ := List.mem_map.mp ha
    exact hfree target e he (hab.trans (List.mem_singleton.mp hb))
  · intro symbol hr
    refine Scope.count_append_le (fun hd => ?_) (h.once target symbol hr)
    rw [(symbol?_eq_some hd).1] at hr
    rw [← hd]
    exact hnew hr (by rw [hd]; rfl)

/-- Redefining a name with a new node keeps the declarations right. -/
theorem redefine (h : g.Declared) {target : ScopeId} {space : SymbolSpace} {name : QName}
    {node : NodeId} (hfree : ∀ s, ∀ e ∈ (g.scopeAt s).entries, e.node ≠ node)
    (hlt : node < g.nodes.size) (hscope : (g.nodeAt node).scope = target)
    (htarget : target < g.scopes.size) (hfits : space.fits (g.nodeAt node).tag)
    (hglobal : space = .type →
      (g.scopeAt target).parent = none ∧ name.uri = (g.namespaceAt (g.scopeAt target).ns).uri) :
    (g.redefine space name node target).Declared := by
  set d : Declaration := ⟨some name, space, node, .once⟩ with hd
  have hmod := modifyScope_const (f := fun scope => scope.replace d) htarget
  have key : ((g.modifyScope target fun _ => (g.scopeAt target).replace d).modifyNode d.node
      fun n => { n with name := d.name }).Declared := by
    have hg : d.space = .type → ∀ q, d.name = some q →
        (g.scopeAt target).parent = none ∧
          q.uri = (g.namespaceAt (g.scopeAt target).ns).uri := by
      intro hspace q hq
      obtain rfl : name = q := by simpa [hd] using hq
      exact hglobal hspace
    refine h.modifyScope (Scope.replace_parent _ d) (Scope.replace_ns _ d)
      ((h.indexed target).replace d) ?_ ?_ (fun symbol hr => ?_) hfree hlt hscope hfits hg
    · intro e he
      rcases (h.indexed target).replace_cases d with ⟨place, heq, _⟩ | ⟨heq, _⟩ <;> rw [heq] at he
      · exact (List.mem_or_eq_of_mem_set he).symm
      · rcases List.mem_append.mp he with he' | he'
        · exact Or.inr he'
        · exact Or.inl (List.mem_singleton.mp he')
    · have hnew : d.node ∉ (g.scopeAt target).entries.map Declaration.node := by
        intro hmem
        obtain ⟨e, he, hen⟩ := List.mem_map.mp hmem
        exact hfree target e he hen
      rcases (h.indexed target).replace_cases d with ⟨place, heq, _⟩ | ⟨heq, _⟩ <;> rw [heq]
      · rw [List.map_set]
        exact (h.nodup target).set hnew
      · rw [Scope.append, List.map_append]
        refine List.nodup_append.mpr ⟨h.nodup target, List.nodup_singleton _, ?_⟩
        rintro a ha b hb rfl
        exact hnew (List.mem_singleton.mp hb ▸ ha)
    · exact (h.indexed target).count_replace_le rfl (h.once target symbol hr)
  rw [Graph.redefine, ← hd, hmod]
  exact key.congr rfl (Nat.le_refl _) (fun _ _ _ => ⟨rfl, rfl, rfl⟩) (fun _ => rfl) (fun _ => rfl)
    (fun _ _ => ⟨rfl, rfl⟩)

end Declared

/-! ## Nodes -/

namespace Tree

/-- The tree of nodes speaks of tags, parents, children and scopes. New scopes make no difference. -/
theorem congr (h : g.Tree) (hsize : g'.nodes.size = g.nodes.size)
    (hnode : ∀ n, (g'.nodeAt n).tag = (g.nodeAt n).tag ∧
      (g'.nodeAt n).scope = (g.nodeAt n).scope ∧
      (g'.nodeAt n).ownScope = (g.nodeAt n).ownScope ∧
      (g'.nodeAt n).parent = (g.nodeAt n).parent ∧
      (g'.nodeAt n).children = (g.nodeAt n).children)
    (hscopes : g.scopes.size ≤ g'.scopes.size)
    (hscope : ∀ s, s < g.scopes.size → (g'.scopeAt s).parent = (g.scopeAt s).parent) :
    g'.Tree := by
  have htag := fun n => (hnode n).1
  have hsc := fun n => (hnode n).2.1
  have hown := fun n => (hnode n).2.2.1
  have hparent := fun n => (hnode n).2.2.2.1
  have hchildren := fun n => (hnode n).2.2.2.2
  refine
    { scope_lt := fun n hn => ?_
      own_lt := fun n s hn ho => ?_
      own_parent := fun n s hn ho => ?_
      own_inj := fun n m s hn hm ho ho' hs => ?_
      parent_lt := fun n p hn hp => ?_
      parent_scope := fun n p hn hp => ?_
      parent_contains := fun n p hn hp => ?_
      child_lt := fun p hp c hc => ?_
      mem_children := fun p c hp hc => ?_
      children_sorted := fun p hp => ?_ }
  all_goals rw [hsize] at *
  · rw [hsc]; exact Nat.lt_of_lt_of_le (h.scope_lt n hn) hscopes
  · rw [hown] at ho; exact Nat.lt_of_lt_of_le (h.own_lt n s hn ho) hscopes
  · rw [hown] at ho
    rw [hscope s (h.own_lt n s hn ho), hsc, htag]
    exact h.own_parent n s hn ho
  · rw [hown] at ho ho'
    rw [hscope s (h.own_lt n s hn ho)] at hs
    exact h.own_inj n m s hn hm ho ho' hs
  · rw [hparent] at hp; exact h.parent_lt n p hn hp
  · rw [hparent] at hp
    rw [hsc, Node.contentScope, hown, hsc]
    exact h.parent_scope n p hn hp
  · rw [hparent] at hp
    rw [htag, htag]
    exact h.parent_contains n p hn hp
  · rw [hchildren] at hc; exact h.child_lt p hp c hc
  · rw [hchildren, hparent]; exact h.mem_children p c hp hc
  · rw [hchildren]; exact h.children_sorted p hp

/-- No node lies within the newest one. -/
theorem parent_ne_newest (h : g.Tree) {id n : Nat} (hid : id + 1 = g.nodes.size)
    (hn : n < g.nodes.size) : (g.nodeAt n).parent ≠ some id := by
  intro hp
  have := h.parent_lt n id hn hp
  omega

end Tree

/-! ### New nodes -/

/-- The graph `g'` has a node more than `g`. The node is the last child of the one it lies in, if it
lies in one. -/
structure Planted (g g' : Graph) (node : Node) : Prop where
  size : g'.nodes.size = g.nodes.size + 1
  scopes : g'.scopes = g.scopes
  new : g'.nodeAt g.nodes.size = node
  old : ∀ n, n < g.nodes.size → g'.nodeAt n = { g.nodeAt n with
    children := (g.nodeAt n).children ++ if node.parent = some n then [g.nodes.size] else [] }

namespace Planted

variable {node : Node}

theorem addNode (hparent : node.parent = none) : g.Planted (g.addNode node).1 node where
  size := addNode_nodes_size g node
  scopes := rfl
  new := nodeAt_addNode_self g node
  old n hn := by
    rw [nodeAt_addNode_of_lt g node hn, hparent, if_neg (by simp), List.append_nil]

theorem addChild {p : NodeId} (hp : p < g.nodes.size) (hparent : node.parent = some p) :
    g.Planted ((g.addNode node).1.modifyNode p fun n =>
      { n with children := n.children ++ [g.nodes.size] }) node where
  size := by rw [modifyNode_nodes_size, addNode_nodes_size]
  scopes := rfl
  new := by rw [nodeAt_modifyNode_ne _ _ _ (Nat.ne_of_gt hp), nodeAt_addNode_self]
  old n hn := by
    rw [nodeAt_modifyNode, nodeAt_addNode_of_lt g node hn, hparent]
    by_cases hnp : n = p
    · rw [if_pos ⟨hnp, by rw [addNode_nodes_size]; exact Nat.lt_succ_of_lt hn⟩, if_pos (by rw [hnp])]
    · rw [if_neg fun h => hnp h.1, if_neg fun h => hnp (Option.some.inj h).symm, List.append_nil]

variable (h : g.Planted g' node)

include h

theorem lt_or_eq {n : Nat} (hn : n < g'.nodes.size) : n < g.nodes.size ∨ n = g.nodes.size := by
  rw [h.size] at hn
  omega

theorem scopeAt (s : ScopeId) : g'.scopeAt s = g.scopeAt s := by
  rw [Graph.scopeAt, h.scopes, Graph.scopeAt]

theorem contentScope {n : NodeId} (hn : n < g.nodes.size) :
    (g'.nodeAt n).contentScope = (g.nodeAt n).contentScope := by
  rw [h.old n hn]
  rfl

/-- The children of a node are those it had, and the new node if that lies in it. -/
theorem mem_children {n c : NodeId} (hn : n < g.nodes.size) :
    c ∈ (g'.nodeAt n).children ↔
      c ∈ (g.nodeAt n).children ∨ c = g.nodes.size ∧ node.parent = some n := by
  rw [h.old n hn]
  by_cases hparent : node.parent = some n <;> simp [hparent]

end Planted

namespace Tree

theorem contentScope_lt (h : g.Tree) {n : NodeId} (hn : n < g.nodes.size) :
    (g.nodeAt n).contentScope < g.scopes.size := by
  cases hown : (g.nodeAt n).ownScope with
  | none =>
    rw [Node.contentScope, hown]
    exact h.scope_lt n hn
  | some s =>
    rw [Node.contentScope, hown]
    exact h.own_lt n s hn hown

/-- The new node is a child of its parent, and of no other node. -/
theorem mem_children_planted {node : Node} (h : g.Tree) (hnew : g.Planted g' node)
    (hchildren : node.children = []) (hparent : ∀ p, node.parent = some p → p < g.nodes.size)
    {p c : Nat} (hp : p < g'.nodes.size) (hc : c < g'.nodes.size) :
    c ∈ (g'.nodeAt p).children ↔ (g'.nodeAt c).parent = some p := by
  rcases hnew.lt_or_eq hp with hlt | rfl
  · rw [hnew.mem_children hlt]
    rcases hnew.lt_or_eq hc with hlt' | rfl
    · rw [hnew.old c hlt', h.mem_children p c hlt hlt']
      exact or_iff_left fun hself => Nat.ne_of_lt hlt' hself.1
    · rw [hnew.new]
      refine ⟨fun hmem => ?_, fun hp => Or.inr ⟨rfl, hp⟩⟩
      exact hmem.elim (fun hmem => absurd (h.child_lt p hlt _ hmem) (Nat.lt_irrefl _)) And.right
  · -- nothing lies in the new node
    rw [hnew.new, hchildren]
    refine ⟨fun hmem => absurd hmem List.not_mem_nil, fun hself => ?_⟩
    rcases hnew.lt_or_eq hc with hlt' | rfl
    · rw [hnew.old c hlt'] at hself
      exact absurd (h.parent_lt c _ hlt' hself) (Nat.not_lt_of_ge (Nat.le_of_lt hlt'))
    · rw [hnew.new] at hself
      exact absurd (hparent _ hself) (Nat.lt_irrefl _)

/-- A new node keeps the tree right if it stands where the node it lies in has its content. -/
theorem planted {node : Node} (h : g.Tree) (hnew : g.Planted g' node) (hown : node.ownScope = none)
    (hchildren : node.children = []) (hscope : node.scope < g.scopes.size)
    (hparent : ∀ p, node.parent = some p → p < g.nodes.size ∧
      node.scope = (g.nodeAt p).contentScope ∧ (g.nodeAt p).tag.mayContain node.tag = true) :
    g'.Tree := by
  -- a node that has opened a scope is an old one
  have hlt : ∀ n s, n < g'.nodes.size → (g'.nodeAt n).ownScope = some s → n < g.nodes.size := by
    intro n s hn ho
    refine (hnew.lt_or_eq hn).resolve_right ?_
    rintro rfl
    rw [hnew.new, hown] at ho
    cases ho
  refine
    { scope_lt := fun n hn => ?_
      own_lt := fun n s hn ho => ?_
      own_parent := fun n s hn ho => ?_
      own_inj := fun n m s hn hm ho ho' hs => ?_
      parent_lt := fun n p hn hp => ?_
      parent_scope := fun n p hn hp => ?_
      parent_contains := fun n p hn hp => ?_
      child_lt := fun p hp c hc => ?_
      mem_children := fun p c hp hc =>
        h.mem_children_planted hnew hchildren (fun p hp => (hparent p hp).1) hp hc
      children_sorted := fun p hp => ?_ }
  · rw [hnew.scopes]
    rcases hnew.lt_or_eq hn with hn' | rfl
    · rw [hnew.old n hn']
      exact h.scope_lt n hn'
    · rw [hnew.new]
      exact hscope
  · have hn' := hlt n s hn ho
    rw [hnew.old n hn'] at ho
    rw [hnew.scopes]
    exact h.own_lt n s hn' ho
  · have hn' := hlt n s hn ho
    rw [hnew.old n hn'] at ho ⊢
    rw [hnew.scopeAt]
    exact h.own_parent n s hn' ho
  · have hn' := hlt n s hn ho
    have hm' := hlt m s hm ho'
    rw [hnew.old n hn'] at ho
    rw [hnew.old m hm'] at ho'
    rw [hnew.scopeAt] at hs
    exact h.own_inj n m s hn' hm' ho ho' hs
  · rcases hnew.lt_or_eq hn with hn' | rfl
    · rw [hnew.old n hn'] at hp
      exact h.parent_lt n p hn' hp
    · rw [hnew.new] at hp
      exact (hparent p hp).1
  · rcases hnew.lt_or_eq hn with hn' | rfl
    · rw [hnew.old n hn'] at hp ⊢
      rw [hnew.contentScope (Nat.lt_trans (h.parent_lt n p hn' hp) hn')]
      exact h.parent_scope n p hn' hp
    · rw [hnew.new] at hp ⊢
      rw [hnew.contentScope (hparent p hp).1]
      exact (hparent p hp).2.1
  · rcases hnew.lt_or_eq hn with hn' | rfl
    · rw [hnew.old n hn'] at hp ⊢
      rw [hnew.old p (Nat.lt_trans (h.parent_lt n p hn' hp) hn')]
      exact h.parent_contains n p hn' hp
    · rw [hnew.new] at hp ⊢
      rw [hnew.old p (hparent p hp).1]
      exact (hparent p hp).2.2
  · rw [hnew.size]
    rcases hnew.lt_or_eq hp with hp' | rfl
    · rcases (hnew.mem_children hp').mp hc with hc' | ⟨rfl, _⟩
      · exact Nat.lt_succ_of_lt (h.child_lt p hp' c hc')
      · exact Nat.lt_succ_self _
    · rw [hnew.new, hchildren] at hc
      cases hc
  · rcases hnew.lt_or_eq hp with hp' | rfl
    · rw [hnew.old p hp']
      refine List.pairwise_append.mpr ⟨h.children_sorted p hp', by split <;> simp, fun a ha b hb => ?_⟩
      split at hb
      · rw [List.mem_singleton.mp hb]
        exact h.child_lt p hp' a ha
      · cases hb
    · rw [hnew.new, hchildren]
      exact List.Pairwise.nil

/-- A new node that lies in no other. -/
theorem addNode (h : g.Tree) {node : Node} (hparent : node.parent = none)
    (hown : node.ownScope = none) (hchildren : node.children = [])
    (hscope : node.scope < g.scopes.size) : (g.addNode node).1.Tree := by
  refine h.planted (.addNode hparent) hown hchildren hscope fun p hp => ?_
  rw [hparent] at hp
  cases hp

/-- A new node within another one. -/
theorem addChild (h : g.Tree) {node : Node} {p : Nat} (hp : p < g.nodes.size)
    (hparent : node.parent = some p) (hown : node.ownScope = none) (hchildren : node.children = [])
    (hscope : node.scope = (g.nodeAt p).contentScope)
    (hcontains : (g.nodeAt p).tag.mayContain node.tag) :
    ((g.addNode node).1.modifyNode p fun n =>
      { n with children := n.children ++ [g.nodes.size] }).Tree := by
  refine h.planted (.addChild hp hparent) hown hchildren (hscope ▸ h.contentScope_lt hp) fun q hq => ?_
  rw [hparent] at hq
  cases hq
  exact ⟨hp, hscope, hcontains⟩

/-! ### Scopes of nodes -/

/-- The newest node opens a scope `own`, which no other node has opened. Its own scope is a new one
within its scope, or both are the root scope of its namespace. -/
theorem openScope (h : g.Tree) {id : Nat} (own : Nat) (hid : id + 1 = g.nodes.size)
    (hsize : g'.nodes.size = g.nodes.size)
    (hother : ∀ n, n ≠ id → g'.nodeAt n = g.nodeAt n)
    (hself : (g'.nodeAt id).ownScope = some own ∧ (g'.nodeAt id).tag = (g.nodeAt id).tag ∧
      (g'.nodeAt id).parent = (g.nodeAt id).parent ∧
      (g'.nodeAt id).children = (g.nodeAt id).children)
    (hscope : (g'.nodeAt id).scope < g'.scopes.size)
    (hmoved : ∀ p, (g.nodeAt id).parent = some p → (g'.nodeAt id).scope = (g.nodeAt id).scope)
    (hown : own < g'.scopes.size)
    (hplace : (g'.scopeAt own).parent = some (g'.nodeAt id).scope ∨
      ((g'.scopeAt own).parent = none ∧ own = (g'.nodeAt id).scope ∧ (g.nodeAt id).tag = .schema))
    (hfresh : (g'.scopeAt own).parent ≠ none →
      ∀ n, n < g.nodes.size → (g.nodeAt n).ownScope ≠ some own)
    (hscopes : g.scopes.size ≤ g'.scopes.size)
    (hsame : ∀ s, s < g.scopes.size → (g'.scopeAt s).parent = (g.scopeAt s).parent) : g'.Tree := by
  obtain ⟨hown', htag', hparent', hchildren'⟩ := hself
  have hidlt : id < g.nodes.size := by omega
  have hpar : ∀ n, (g'.nodeAt n).parent = (g.nodeAt n).parent := by
    intro n
    by_cases hn : n = id
    · subst hn; exact hparent'
    · rw [hother n hn]
  have htag : ∀ n, (g'.nodeAt n).tag = (g.nodeAt n).tag := by
    intro n
    by_cases hn : n = id
    · subst hn; exact htag'
    · rw [hother n hn]
  have hchildren : ∀ n, (g'.nodeAt n).children = (g.nodeAt n).children := by
    intro n
    by_cases hn : n = id
    · subst hn; exact hchildren'
    · rw [hother n hn]
  -- a node with children is older than the newest one
  have hne : ∀ n p, n < g.nodes.size → (g.nodeAt n).parent = some p → p ≠ id := by
    intro n p hn hp he
    exact h.parent_ne_newest hid hn (he ▸ hp)
  refine
    { scope_lt := fun n hn => ?_
      own_lt := fun n s hn ho => ?_
      own_parent := fun n s hn ho => ?_
      own_inj := fun n m s hn hm ho ho' hs => ?_
      parent_lt := fun n p hn hp => ?_
      parent_scope := fun n p hn hp => ?_
      parent_contains := fun n p hn hp => ?_
      child_lt := fun p hp c hc => ?_
      mem_children := fun p c hp hc => ?_
      children_sorted := fun p hp => ?_ }
  all_goals rw [hsize] at *
  · by_cases hn' : n = id
    · subst hn'; exact hscope
    · rw [hother n hn']; exact Nat.lt_of_lt_of_le (h.scope_lt n hn) hscopes
  · by_cases hn' : n = id
    · subst hn'
      rw [hown'] at ho
      cases ho
      exact hown
    · rw [hother n hn'] at ho
      exact Nat.lt_of_lt_of_le (h.own_lt n s hn ho) hscopes
  · by_cases hn' : n = id
    · subst hn'
      rw [hown'] at ho
      cases ho
      rw [htag']
      exact hplace
    · rw [hother n hn'] at ho ⊢
      rw [hsame s (h.own_lt n s hn ho)]
      exact h.own_parent n s hn ho
  · by_cases hn' : n = id
    · by_cases hm' : m = id
      · rw [hn', hm']
      · subst hn'
        rw [hown'] at ho
        cases ho
        rw [hother m hm'] at ho'
        exact absurd ho' (hfresh hs m hm)
    · by_cases hm' : m = id
      · subst hm'
        rw [hown'] at ho'
        cases ho'
        rw [hother n hn'] at ho
        exact absurd ho (hfresh hs n hn)
      · rw [hother n hn'] at ho
        rw [hother m hm'] at ho'
        rw [hsame s (h.own_lt n s hn ho)] at hs
        exact h.own_inj n m s hn hm ho ho' hs
  · rw [hpar] at hp; exact h.parent_lt n p hn hp
  · rw [hpar] at hp
    rw [hother p (hne n p hn hp)]
    by_cases hn' : n = id
    · subst hn'
      rw [hmoved p hp]
      exact h.parent_scope n p hn hp
    · rw [hother n hn']
      exact h.parent_scope n p hn hp
  · rw [hpar] at hp
    rw [htag, htag]
    exact h.parent_contains n p hn hp
  · rw [hchildren] at hc; exact h.child_lt p hp c hc
  · rw [hchildren, hpar]; exact h.mem_children p c hp hc
  · rw [hchildren]; exact h.children_sorted p hp

end Tree

end Graph

end XsdTypes
