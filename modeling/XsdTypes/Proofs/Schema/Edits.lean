import XsdTypes.Proofs.Schema.WellFormed

/-!
# Edits of a graph

The scopes of a graph change in four ways only: a scope is added, a namespace is registered with its
root scope, something is declared, or a name is redefined. An edit is one such change, or one that
leaves scopes alone, together with the redefinitions it makes. What an edit can do to one scope is said
once (`Edit.scopeAt_cases`), and all invariants of edits follow from it: names stand once where repeats
are refused (`Tidy`), and a name that has been redefined in a root scope means its last redefinition
(`Redefined`). Nodes play no part in this, so it does not matter which nodes are declared.
-/

namespace XsdTypes

/-- A name is redefined in a scope by a node. -/
structure Redefinition where
  /-- The name. -/
  symbol : SchemaSymbol
  /-- The node that has the name from then on. -/
  node : NodeId
  /-- The scope. -/
  target : ScopeId
  deriving DecidableEq, Repr

namespace Redefinition

/-- The declaration that a redefinition leaves in its scope. -/
def declaration (r : Redefinition) : Declaration :=
  ⟨some r.symbol.2, r.symbol.1, r.node, .once⟩

theorem symbol?_declaration (r : Redefinition) : r.declaration.symbol? = some r.symbol := rfl

/-- The last redefinition of a name in a scope. -/
def last? (log : List Redefinition) (s : ScopeId) (symbol : SchemaSymbol) : Option Redefinition :=
  log.reverse.find? fun r => r.target = s ∧ r.symbol = symbol

end Redefinition

namespace Graph

variable {g g' g'' : Graph} {log log' : List Redefinition} {d : Declaration} {target s : ScopeId}
  {symbol : SchemaSymbol}

/-! ## Declaring -/

/-- A declaration is passed over, because a redefinition of its name stands. -/
def PassedOver (g : Graph) (d : Declaration) (target : ScopeId) : Prop :=
  (g.scopeAt target).parent = none ∧ ∃ symbol ∈ g.redefined, d.symbol? = some symbol

/-- A declaration has a name that is taken where repeats are refused. -/
def Clashes (g : Graph) (d : Declaration) (target : ScopeId) : Prop :=
  d.name.isSome ∧ g.policy.rule d.space (g.scopeAt target).parent.isNone = .reject ∧
    ∃ e ∈ (g.scopeAt target).entries, e.symbol? = d.symbol?

/-- What is said of a declaration that is refused. -/
def duplicate (g : Graph) (d : Declaration) : SchemaError :=
  .duplicate d.space (d.name.getD (QName.bare "")) (g.location d.node)

/-- The graph with a declaration at the end of a scope. -/
def appended (g : Graph) (d : Declaration) (target : ScopeId) : Graph :=
  (g.modifyScope target fun _ => (g.scopeAt target).append d).modifyNode d.node
    fun node => { node with name := d.name }

theorem insert_of_clashes (hindexed : (g.scopeAt target).Indexed) (h : g.Clashes d target) :
    ∃ existing, (g.scopeAt target).insert d
      (g.policy.rule d.space (g.scopeAt target).parent.isNone) =
        .error ⟨existing, g.scopeAt target⟩ := by
  obtain ⟨hname, hreject, e, he, hsame⟩ := h
  obtain ⟨name, hname⟩ := Option.isSome_iff_exists.mp hname
  have hd : d.symbol? = some (d.space, name) := by rw [Declaration.symbol?, hname]; rfl
  have hfound : ((g.scopeAt target).find? (d.space, name)).isSome := by
    rw [hindexed.find?_eq, List.find?_isSome]
    exact ⟨e, he, by simpa using hsame.trans hd⟩
  obtain ⟨existing, hexisting⟩ := Option.isSome_iff_exists.mp hfound
  refine ⟨existing, ?_⟩
  unfold Scope.insert
  rw [hreject, hd, Option.bind_some, hexisting]

theorem insert_of_not_clashes (hindexed : (g.scopeAt target).Indexed) (h : ¬ g.Clashes d target) :
    (g.scopeAt target).insert d (g.policy.rule d.space (g.scopeAt target).parent.isNone) =
      .ok ((g.scopeAt target).append d) := by
  cases hrule : g.policy.rule d.space (g.scopeAt target).parent.isNone with
  | accumulate => rfl
  | reject =>
    cases hname : d.name with
    | none => simp [Scope.insert, Declaration.symbol?, hname]
    | some name =>
      have hd : d.symbol? = some (d.space, name) := by rw [Declaration.symbol?, hname]; rfl
      have hfind : (g.scopeAt target).find? (d.space, name) = none := by
        rw [hindexed.find?_eq, List.find?_eq_none]
        intro e he hsame
        exact h ⟨by rw [hname]; rfl, hrule, e, he, (of_decide_eq_true hsame).trans hd.symm⟩
      unfold Scope.insert
      rw [hd, Option.bind_some, hfind]

theorem declare_of_passedOver (h : g.PassedOver d target) : g.declare d target = .ok g := by
  obtain ⟨hroot, symbol, hmem, hd⟩ := h
  simp [declare, hd, hroot, hmem]

/-- Unless it is passed over, a declaration is inserted. -/
theorem declare_of_not_passedOver (h : ¬ g.PassedOver d target) :
    g.declare d target =
      match (g.scopeAt target).insert d (g.policy.rule d.space (g.scopeAt target).parent.isNone) with
      | .error refusal => .error ⟨g.duplicate d, g.modifyScope target fun _ => refusal.scope⟩
      | .ok scope => .ok ((g.modifyScope target fun _ => scope).modifyNode d.node
          fun node => { node with name := d.name }) := by
  unfold declare
  cases hd : d.symbol? with
  | none =>
    simp only
    rw [if_neg Bool.false_ne_true]
    rfl
  | some symbol =>
    have hnot : ¬ ((g.scopeAt target).parent.isNone && g.redefined.contains symbol) = true := by
      intro hover
      rw [Bool.and_eq_true, Option.isNone_iff_eq_none, List.contains_iff_mem] at hover
      exact h ⟨hover.1, symbol, hover.2, hd⟩
    simp only
    rw [if_neg hnot]
    rfl

/-- What declaring can do: the declaration is passed over, refused or appended. -/
theorem declare_cases (hindexed : (g.scopeAt target).Indexed) :
    (g.PassedOver d target ∧ g.declare d target = .ok g) ∨
      (¬ g.PassedOver d target ∧ g.Clashes d target ∧
        g.declare d target = .error ⟨g.duplicate d, g⟩) ∨
      (¬ g.PassedOver d target ∧ ¬ g.Clashes d target ∧
        g.declare d target = .ok (g.appended d target)) := by
  by_cases hover : g.PassedOver d target
  · exact Or.inl ⟨hover, declare_of_passedOver hover⟩
  · right
    rw [declare_of_not_passedOver hover]
    by_cases hclash : g.Clashes d target
    · left
      obtain ⟨existing, hinsert⟩ := insert_of_clashes hindexed hclash
      simp only [hinsert]
      rw [modifyScope_eq_self]
      exact ⟨hover, hclash, rfl⟩
    · right
      rw [insert_of_not_clashes hindexed hclash]
      exact ⟨hover, hclash, rfl⟩

/-! ## Edits -/

/-- One change of a graph, and the redefinitions it makes. -/
inductive Edit : Graph → List Redefinition → Graph → Prop
  /-- Scopes are left alone. -/
  | quiet {g g' : Graph} (hscopes : g'.scopes = g.scopes) (hredefined : g'.redefined = g.redefined)
      (hpolicy : g'.policy = g.policy) (hsize : g'.namespaces.size = g.namespaces.size)
      (hroot : ∀ i, (g'.namespaceAt i).root = (g.namespaceAt i).root) : Edit g [] g'
  | addScope (g : Graph) (parent : Option ScopeId) (ns : NamespaceId) :
      Edit g [] (g.addScope parent ns).1
  | register (g : Graph) (uri : String) : Edit g [] (g.register uri).1
  | declare {g g' : Graph} {d : Declaration} {target : ScopeId} (hok : g.declare d target = .ok g') :
      Edit g [] g'
  | redefine {g : Graph} (r : Redefinition) (htarget : r.target < g.scopes.size) :
      Edit g [r] (g.redefine r.symbol.1 r.symbol.2 r.node r.target)

/-- What becomes of the scope `s` by an edit of `g`. -/
inductive ScopeChange (g : Graph) (s : ScopeId) : List Redefinition → Scope → Prop
  | kept {log : List Redefinition} (hlog : ∀ r ∈ log, r.target ≠ s) : ScopeChange g s log (g.scopeAt s)
  | added (hs : g.scopes.size ≤ s) (parent : Option ScopeId) (ns : NamespaceId) :
      ScopeChange g s [] { parent, ns }
  | appended {d : Declaration} (hs : s < g.scopes.size) (hclash : ¬ g.Clashes d s) :
      ScopeChange g s [] ((g.scopeAt s).append d)
  | replaced (r : Redefinition) (htarget : r.target = s) (hs : s < g.scopes.size) :
      ScopeChange g s [r] ((g.scopeAt s).replace r.declaration)

theorem scopeChange_push (g : Graph) (parent : Option ScopeId) (ns : NamespaceId) (s : ScopeId) :
    ScopeChange g s [] ((g.scopes.push { parent, ns }).getD s default) := by
  rw [getD_push]
  split
  · rename_i hs
    exact .added (Nat.le_of_eq hs.symm) parent ns
  · exact .kept fun r hr => absurd hr List.not_mem_nil

theorem Edit.scopeAt_cases (h : Edit g log g') (hindexed : ∀ s, (g.scopeAt s).Indexed) (s : ScopeId) :
    ScopeChange g s log (g'.scopeAt s) := by
  have hkept : ∀ {g' : Graph}, g'.scopeAt s = g.scopeAt s → ScopeChange g s [] (g'.scopeAt s) := by
    intro g' heq
    rw [heq]
    exact .kept fun r hr => absurd hr List.not_mem_nil
  cases h with
  | quiet hscopes _ _ _ _ => exact hkept (by rw [Graph.scopeAt, hscopes, Graph.scopeAt])
  | addScope parent ns => exact scopeChange_push g parent ns s
  | register uri =>
    rcases register_cases g uri with ⟨heq, _⟩ | ⟨_, _, heq⟩
    · exact hkept (by rw [heq])
    · rw [heq]
      exact scopeChange_push g none g.namespaces.size s
  | @declare _ d target hok =>
    rcases declare_cases (hindexed target) (d := d) with
      ⟨_, heq⟩ | ⟨_, _, heq⟩ | ⟨_, hclash, heq⟩
    · cases heq.symm.trans hok
      exact hkept rfl
    · cases heq.symm.trans hok
    · cases heq.symm.trans hok
      rw [appended, scopeAt_modifyNode, scopeAt_modifyScope]
      split
      · rename_i hs
        obtain ⟨rfl, hlt⟩ := hs
        exact .appended hlt hclash
      · exact .kept fun r hr => absurd hr List.not_mem_nil
  | redefine r htarget =>
    have hscope : (g.redefine r.symbol.1 r.symbol.2 r.node r.target).scopeAt s =
        if s = r.target ∧ s < g.scopes.size then (g.scopeAt s).replace r.declaration
        else g.scopeAt s := scopeAt_modifyScope g r.target _ s
    rw [hscope]
    split
    · rename_i hs
      exact .replaced r hs.1.symm hs.2
    · rename_i hs
      refine .kept fun r' hr' heq => hs ?_
      rw [List.mem_singleton.mp hr'] at heq
      exact ⟨heq.symm, heq ▸ htarget⟩

namespace Edit

theorem policy_eq (h : Edit g log g') : g'.policy = g.policy := by
  cases h with
  | quiet _ _ hpolicy _ _ => exact hpolicy
  | addScope parent ns => rfl
  | register uri => exact register_policy g uri
  | declare hok =>
    rcases declare_eq_ok hok with ⟨rfl, _⟩ | ⟨scope, _, rfl⟩ <;> rfl
  | redefine r htarget => rfl

theorem redefined_eq (h : Edit g log g') :
    g'.redefined = (log.map Redefinition.symbol).reverse ++ g.redefined := by
  cases h with
  | quiet _ hredefined _ _ _ => exact hredefined
  | addScope parent ns => rfl
  | register uri => exact register_redefined g uri
  | declare hok =>
    rcases declare_eq_ok hok with ⟨rfl, _⟩ | ⟨scope, _, rfl⟩ <;> rfl
  | redefine r htarget => rfl

theorem scopes_size_le (h : Edit g log g') : g.scopes.size ≤ g'.scopes.size := by
  cases h with
  | quiet hscopes _ _ _ _ => rw [hscopes]
  | addScope parent ns =>
    rw [addScope_scopes_size]
    exact Nat.le_succ _
  | register uri => exact register_scopes_le g uri
  | declare hok =>
    rcases declare_eq_ok hok with ⟨rfl, _⟩ | ⟨scope, _, rfl⟩
    · exact Nat.le_refl _
    · exact Nat.le_of_eq (g.modifyScope_scopes_size _ _).symm
  | redefine r htarget => exact Nat.le_of_eq (g.modifyScope_scopes_size _ _).symm

/-- A namespace has the root scope it had, or is new with a root scope that is new. -/
theorem root_cases (h : Edit g log g') {i : NamespaceId} (hi : i < g'.namespaces.size) :
    (i < g.namespaces.size ∧ (g'.namespaceAt i).root = (g.namespaceAt i).root) ∨
      ((g'.namespaceAt i).root = g.scopes.size ∧ g.scopes.size < g'.scopes.size ∧
        (g'.scopeAt g.scopes.size).parent = none) := by
  have hsame : g'.namespaces = g.namespaces →
      i < g.namespaces.size ∧ (g'.namespaceAt i).root = (g.namespaceAt i).root := by
    intro heq
    rw [heq] at hi
    exact ⟨hi, by rw [namespaceAt, heq, namespaceAt]⟩
  cases h with
  | quiet _ _ _ hsize hroot => exact Or.inl ⟨hsize ▸ hi, hroot i⟩
  | addScope parent ns => exact Or.inl (hsame rfl)
  | register uri =>
    rcases Nat.lt_or_ge i g.namespaces.size with hlt | hge
    · exact Or.inl ⟨hlt, by rw [register_namespaceAt_of_lt g uri hlt]⟩
    · obtain ⟨_, _, heq, hlt⟩ := register_new_namespace g uri hge hi
      rw [heq, (register_new_scope g uri (Nat.le_refl _) hlt).2.1]
      exact Or.inr ⟨rfl, hlt, rfl⟩
  | declare hok =>
    rcases declare_eq_ok hok with ⟨rfl, _⟩ | ⟨scope, _, rfl⟩ <;> exact Or.inl (hsame rfl)
  | redefine r htarget => exact Or.inl (hsame rfl)

end Edit

theorem ScopeChange.parent_eq {scope : Scope} (h : ScopeChange g s log scope) (hs : s < g.scopes.size) :
    scope.parent = (g.scopeAt s).parent := by
  cases h with
  | kept _ => rfl
  | added hnew _ _ => exact absurd hs (Nat.not_lt.mpr hnew)
  | appended _ _ => rfl
  | replaced r _ _ => exact Scope.replace_parent _ _

/-! ## Tidy graphs -/

/-- Scopes know where names stand, names stand once where repeats are refused, and the root scopes of
namespaces have no parents. -/
structure Tidy (g : Graph) : Prop where
  indexed : ∀ s, (g.scopeAt s).Indexed
  once : ∀ s symbol, g.policy.rule symbol.1 (g.scopeAt s).parent.isNone = .reject →
    ((g.scopeAt s).entries.map Declaration.symbol?).count (some symbol) ≤ 1
  root_lt : ∀ i, i < g.namespaces.size → (g.namespaceAt i).root < g.scopes.size
  root_parent : ∀ i, i < g.namespaces.size → (g.scopeAt (g.namespaceAt i).root).parent = none

theorem ScopeChange.indexed {scope : Scope} (h : ScopeChange g s log scope) (hg : g.Tidy) :
    scope.Indexed := by
  cases h with
  | kept _ => exact hg.indexed s
  | added _ _ _ => exact fun _ => rfl
  | appended _ _ => exact (hg.indexed s).append _
  | replaced r _ _ => exact (hg.indexed s).replace _

theorem ScopeChange.once {scope : Scope} (h : ScopeChange g s log scope) (hg : g.Tidy)
    (hreject : g.policy.rule symbol.1 scope.parent.isNone = .reject) :
    (scope.entries.map Declaration.symbol?).count (some symbol) ≤ 1 := by
  cases h with
  | kept _ => exact hg.once s symbol hreject
  | added _ _ _ => exact Nat.zero_le _
  | @appended d _ hclash =>
    refine Scope.count_append_le (fun hd e' he' hsame => hclash ⟨?_, ?_, e', he', ?_⟩)
      (hg.once s symbol hreject)
    · rw [(symbol?_eq_some hd).2]
      rfl
    · rw [← (symbol?_eq_some hd).1]
      exact hreject
    · rw [hd]
      exact hsame
  | replaced r _ _ =>
    rw [Scope.replace_parent] at hreject
    exact (hg.indexed s).count_replace_le r.symbol?_declaration (hg.once s symbol hreject)

theorem Edit.tidy (h : Edit g log g') (hg : g.Tidy) : g'.Tidy := by
  have hchange := fun s => h.scopeAt_cases hg.indexed s
  have hroot : ∀ i, i < g'.namespaces.size → (g'.namespaceAt i).root < g'.scopes.size ∧
      (g'.scopeAt (g'.namespaceAt i).root).parent = none := by
    intro i hi
    rcases h.root_cases hi with ⟨hold, heq⟩ | ⟨heq, hlt, hparent⟩
    · rw [heq, (hchange _).parent_eq (hg.root_lt i hold)]
      exact ⟨Nat.lt_of_lt_of_le (hg.root_lt i hold) h.scopes_size_le, hg.root_parent i hold⟩
    · rw [heq]
      exact ⟨hlt, hparent⟩
  refine ⟨fun s => (hchange s).indexed hg, fun s symbol hreject => ?_, fun i hi => (hroot i hi).1,
    fun i hi => (hroot i hi).2⟩
  rw [h.policy_eq] at hreject
  exact (hchange s).once hg hreject

/-! ## Names that have been redefined -/

/-- A name has been redefined in a scope, last by `node`. In a root scope it means this node. -/
structure Redefined (g : Graph) (s : ScopeId) (symbol : SchemaSymbol) (node : NodeId) : Prop where
  lt : s < g.scopes.size
  first : (g.scopeAt s).parent = none →
    ((g.scopeAt s).entries.find? fun e => e.symbol? = some symbol).map Declaration.node = some node

theorem Edit.redefined (h : Edit g log g') (hg : g.Tidy) {r : Redefinition} (hr : r ∈ log) :
    g'.Redefined r.target r.symbol r.node := by
  cases h with
  | redefine r' htarget =>
    obtain rfl := List.mem_singleton.mp hr
    refine ⟨Nat.lt_of_lt_of_le htarget (Edit.redefine r htarget).scopes_size_le, fun _ => ?_⟩
    have hscope : (g.redefine r.symbol.1 r.symbol.2 r.node r.target).scopeAt r.target =
        (g.scopeAt r.target).replace r.declaration := scopeAt_modifyScope_self g r.target _ htarget
    rw [hscope, (hg.indexed r.target).find?_replace r.symbol?_declaration]
    rfl
  | _ => cases hr

/-- Nothing but another redefinition comes before the redefinition of a name. -/
theorem ScopeChange.first {scope : Scope} {node : NodeId} (h : ScopeChange g s log scope) (hg : g.Tidy)
    (hredefined : g.Redefined s symbol node) (hroot : (g.scopeAt s).parent = none)
    (hlog : ∀ r ∈ log, ¬ (r.target = s ∧ r.symbol = symbol)) :
    (scope.entries.find? fun e => e.symbol? = some symbol).map Declaration.node = some node := by
  have hfirst := hredefined.first hroot
  cases h with
  | kept _ => exact hfirst
  | added hnew _ _ => exact absurd hredefined.lt (Nat.not_lt.mpr hnew)
  | @appended d _ _ =>
    -- it is the first of its name, so what comes last does not matter
    obtain ⟨e, hfind, _⟩ := Option.map_eq_some_iff.mp hfirst
    show (((g.scopeAt s).entries ++ [d]).find? _).map Declaration.node = some node
    rw [List.find?_append, hfind, Option.some_or, ← hfind]
    exact hfirst
  | replaced r htarget _ =>
    have hne : symbol ≠ r.symbol := fun heq => hlog r List.mem_cons_self ⟨htarget, heq.symm⟩
    rw [(hg.indexed s).find?_replace_ne r.symbol?_declaration hne]
    exact hfirst

/-- What has been redefined stays so, whatever is declared, until it is redefined again. -/
theorem Edit.keeps_redefined (h : Edit g log g') (hg : g.Tidy) {node : NodeId}
    (hredefined : g.Redefined s symbol node)
    (hlog : ∀ r ∈ log, ¬ (r.target = s ∧ r.symbol = symbol)) : g'.Redefined s symbol node := by
  have hchange := h.scopeAt_cases hg.indexed s
  have hparent := hchange.parent_eq hredefined.lt
  exact ⟨Nat.lt_of_lt_of_le hredefined.lt h.scopes_size_le, fun hroot =>
    hchange.first hg hredefined (hparent.symm.trans hroot) hlog⟩

/-- A declaration keeps its place, and is what it was unless its name is redefined. -/
theorem ScopeChange.entry {scope : Scope} {i : Nat} (h : ScopeChange g s log scope)
    (hindexed : (g.scopeAt s).Indexed) (hentry : (g.scopeAt s).entries[i]? = some d) :
    ∃ d', scope.entries[i]? = some d' ∧ (d' = d ∨
      ∃ r ∈ log, r.target = s ∧ d.symbol? = some r.symbol ∧ d' = r.declaration) := by
  cases h with
  | kept _ => exact ⟨d, hentry, Or.inl rfl⟩
  | added hnew _ _ =>
    rw [scopeAt, Array.getD_eq_getD_getElem?, Array.getElem?_eq_none hnew] at hentry
    cases hentry
  | appended _ _ =>
    refine ⟨d, ?_, Or.inl rfl⟩
    rw [Scope.append, List.getElem?_append_left (List.getElem?_eq_some_iff.mp hentry).1]
    exact hentry
  | replaced r htarget _ =>
    obtain ⟨before, rest, _, hentries, hold⟩ := hindexed.replace_split r.symbol?_declaration
    rw [hentries]
    rcases hold with ⟨hold, rfl⟩ | ⟨e, he, hold⟩
    · refine ⟨d, ?_, Or.inl rfl⟩
      rw [← hold, List.getElem?_append_left (List.getElem?_eq_some_iff.mp hentry).1]
      exact hentry
    · rw [hold] at hentry
      rcases Nat.lt_trichotomy i before.length with hlt | rfl | hgt
      · rw [List.getElem?_append_left hlt] at hentry ⊢
        exact ⟨d, hentry, Or.inl rfl⟩
      · rw [List.getElem?_append_right (Nat.le_refl _), Nat.sub_self, List.getElem?_cons_zero]
          at hentry ⊢
        cases hentry
        exact ⟨_, rfl, Or.inr ⟨r, List.mem_cons_self, htarget, he, rfl⟩⟩
      · rw [List.getElem?_append_right (Nat.le_of_lt hgt),
          List.getElem?_cons, if_neg (Nat.sub_ne_zero_of_lt hgt)] at hentry ⊢
        exact ⟨d, hentry, Or.inl rfl⟩

/-! ## Many edits -/

/-- Edits of a graph one after the other, and the redefinitions they make, in order. -/
inductive Edits (g : Graph) : List Redefinition → Graph → Prop
  | refl : Edits g [] g
  | tail {log new : List Redefinition} {g' g'' : Graph} (h : Edits g log g') (hedit : Edit g' new g'') :
      Edits g (log ++ new) g''

namespace Edits

theorem single (h : Edit g log g') : Edits g log g' :=
  .tail .refl h

theorem trans (h : Edits g log g') (h' : Edits g' log' g'') : Edits g (log ++ log') g'' := by
  induction h' with
  | refl =>
    rw [List.append_nil]
    exact h
  | tail _ hedit ih =>
    rw [← List.append_assoc]
    exact .tail ih hedit

theorem policy_eq (h : Edits g log g') : g'.policy = g.policy := by
  induction h with
  | refl => rfl
  | tail _ hedit ih => exact hedit.policy_eq.trans ih

theorem scopes_size_le (h : Edits g log g') : g.scopes.size ≤ g'.scopes.size := by
  induction h with
  | refl => exact Nat.le_refl _
  | tail _ hedit ih => exact Nat.le_trans ih hedit.scopes_size_le

theorem tidy (h : Edits g log g') (hg : g.Tidy) : g'.Tidy := by
  induction h with
  | refl => exact hg
  | tail _ hedit ih => exact hedit.tidy ih

theorem mem_redefined (h : Edits g log g') :
    symbol ∈ g'.redefined ↔ symbol ∈ g.redefined ∨ ∃ r ∈ log, r.symbol = symbol := by
  induction h with
  | refl => simp
  | tail _ hedit ih =>
    rw [hedit.redefined_eq, List.mem_append, ih, List.mem_reverse, List.mem_map]
    constructor
    · rintro (⟨r, hr, rfl⟩ | hold | ⟨r, hr, rfl⟩)
      · exact Or.inr ⟨r, List.mem_append_right _ hr, rfl⟩
      · exact Or.inl hold
      · exact Or.inr ⟨r, List.mem_append_left _ hr, rfl⟩
    · rintro (hold | ⟨r, hr, rfl⟩)
      · exact Or.inr (Or.inl hold)
      · rcases List.mem_append.mp hr with hr | hr
        · exact Or.inr (Or.inr ⟨r, hr, rfl⟩)
        · exact Or.inl ⟨r, hr, rfl⟩

/-- The last redefinition of a name in a scope decides. -/
theorem redefined (h : Edits g log g') (hg : g.Tidy) {r : Redefinition}
    (hlast : Redefinition.last? log s symbol = some r) : g'.Redefined s symbol r.node := by
  induction h with
  | refl => cases hlast
  | @tail log new g' g'' h hedit ih =>
    rw [Redefinition.last?, List.reverse_append, List.find?_append] at hlast
    -- the last edit redefines the name in this scope, or leaves it as it was
    cases hnew : new.reverse.find? fun r => r.target = s ∧ r.symbol = symbol with
    | none =>
      rw [hnew, Option.none_or] at hlast
      refine hedit.keeps_redefined (h.tidy hg) (ih hlast) fun r' hr' => ?_
      simpa using List.find?_eq_none.mp hnew r' (List.mem_reverse.mpr hr')
    | some r' =>
      rw [hnew, Option.some_or] at hlast
      cases hlast
      have hfits := List.find?_some hnew
      obtain ⟨rfl, rfl⟩ : r.target = s ∧ r.symbol = symbol := by simpa using hfits
      exact hedit.redefined (h.tidy hg) (List.mem_reverse.mp (List.mem_of_find?_eq_some hnew))

/-- Declarations keep their places for good, and change only by redefinitions of their names. -/
theorem entry (h : Edits g log g') (hg : g.Tidy) {i : Nat}
    (hentry : (g.scopeAt s).entries[i]? = some d) :
    ∃ d', (g'.scopeAt s).entries[i]? = some d' ∧ (d' = d ∨
      ∃ r ∈ log, r.target = s ∧ d.symbol? = some r.symbol ∧ d' = r.declaration) := by
  induction h with
  | refl => exact ⟨d, hentry, Or.inl rfl⟩
  | tail h hedit ih =>
    obtain ⟨d', hentry', hd'⟩ := ih
    have htidy := h.tidy hg
    obtain ⟨d'', hentry'', hd''⟩ :=
      (hedit.scopeAt_cases htidy.indexed s).entry (htidy.indexed s) hentry'
    refine ⟨d'', hentry'', ?_⟩
    rcases hd'' with rfl | ⟨r, hr, htarget, hsymbol, rfl⟩
    · rcases hd' with rfl | ⟨r, hr, hredefined⟩
      · exact Or.inl rfl
      · exact Or.inr ⟨r, List.mem_append_left _ hr, hredefined⟩
    · refine Or.inr ⟨r, List.mem_append_right _ hr, htarget, ?_, rfl⟩
      rcases hd' with rfl | ⟨r', _, _, hsame, rfl⟩
      · exact hsymbol
      · exact hsame.trans hsymbol

end Edits

end Graph

end XsdTypes
