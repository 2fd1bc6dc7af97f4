import XsdTypes.Proofs.Schema.Opening
import XsdTypes.Schema.Resolution

/-!
# Types within nodes

What the scope of an element or an attribute declares without a name is the type that stands
directly within it, and nothing else. So it can be seen from the children of a node whether a type
was found within it.
-/

namespace XsdTypes.Graph

/-- Whether a type stands directly within a node. -/
def hasInlineType (g : Graph) (id : NodeId) : Bool :=
  (g.nodeAt id).children.any fun child =>
    (g.nodeAt child).tag = .complexType || (g.nodeAt child).tag = .simpleType

variable {g₀ g : Graph} {n p id : NodeId} {s : Site} {e : Effect}

theorem not_mayContain {tag child : Tag} (h : child = .schema ∨ child = .builtin) :
    tag.mayContain child = false := by
  rcases h with rfl | rfl <;> cases tag <;> rfl

theorem Sound.parent_lt_size (h : g.Sound) (hn : n < g.nodes.size)
    (hparent : (g.nodeAt n).parent = some p) : p < g.nodes.size :=
  Nat.lt_trans (h.tree.parent_lt n p hn hparent) hn

/-! ## Traces -/

namespace Traced

theorem accepted (ht : g.Traced n p s e) : s.Accepted e := Site.accepted ht.effect

theorem isGlobal_eq (ht : g.Traced n p s e) :
    s.isGlobal = ((g.nodeAt p).tag = .schema || (g.nodeAt p).tag = .redefineDoc) := by
  simp [Site.isGlobal, ht.parentTag]

theorem ownScope_isSome (ht : g.Traced n p s e) :
    (g.nodeAt n).ownScope.isSome = (g.nodeAt n).tag.opens s.isGlobal := by
  rw [ht.opens, ht.accepted.opens, ht.tag]

end Traced

namespace Grown

/-- What is not new is global. -/
theorem root_of_old (h : g₀.Grown g) (hn : n < g₀.nodes.size) :
    (g.scopeAt (g.nodeAt n).contentScope).parent = none := by
  have hlt := h.base.sound.tree.contentScope_lt hn
  rw [h.ext.contentScope hn, h.ext.scope_parent _ hlt]
  exact h.base.flat _ hlt

theorem new_of_inner (h : g₀.Grown g)
    (hinner : (g.scopeAt (g.nodeAt n).scope).parent ≠ none) : g₀.nodes.size ≤ n := by
  by_contra hold
  have hlt := Nat.lt_of_not_le hold
  have hs := h.base.sound.tree.scope_lt n hlt
  rw [scope_eq_of_core (h.ext.core n hlt), h.ext.scope_parent _ hs] at hinner
  exact hinner (h.base.flat _ hs)

theorem traced (h : g₀.Grown g) (hnew : g₀.nodes.size ≤ n) (hn : n < g.nodes.size)
    (htag : (g.nodeAt n).tag ≠ .schema) : ∃ p s e, g₀.nodes.size ≤ p ∧ g.Traced n p s e := by
  rcases h.accounted n hnew hn with ⟨hschema, _⟩ | htraced
  · exact absurd hschema htag
  · exact htraced

theorem tag_ne_builtin (h : g₀.Grown g) (hnew : g₀.nodes.size ≤ n) (hn : n < g.nodes.size) :
    (g.nodeAt n).tag ≠ .builtin := by
  intro htag
  obtain ⟨p, s, e, _, ht⟩ := h.traced hnew hn (by rw [htag]; nofun)
  have hcontains := h.sound.tree.parent_contains n p hn ht.parent
  rw [not_mayContain (Or.inr htag)] at hcontains
  cases hcontains

theorem root_of_schema (h : g₀.Grown g) (hp : p < g.nodes.size)
    (htag : (g.nodeAt p).tag = .schema) :
    (g.scopeAt (g.nodeAt p).contentScope).parent = none := by
  rcases Nat.lt_or_ge p g₀.nodes.size with hold | hnew
  · exact h.root_of_old hold
  rcases h.accounted p hnew hp with ⟨_, _, hroot⟩ | ⟨q, s, e, _, ht⟩
  · exact hroot
  · have hcontains := h.sound.tree.parent_contains p q hp ht.parent
    rw [not_mayContain (Or.inl htag)] at hcontains
    cases hcontains

/-- The payload of a node is of the kind that its tag asks for. -/
theorem holds (h : g₀.Grown g) (hnew : g₀.nodes.size ≤ n) (hn : n < g.nodes.size) :
    (g.nodeAt n).tag.holds (g.nodeAt n).payload = true := by
  rw [← Tag.holds_written]
  rcases h.accounted n hnew hn with ⟨htag, hpayload, _⟩ | ⟨p, s, e, _, ht⟩
  · rw [htag, hpayload]
    rfl
  · rw [ht.payload, Tag.holds_written, ← ht.tag]
    exact ht.accepted.holds

/-- The content of `schema` and of `redefine` is global. -/
theorem root_of_global (h : g₀.Grown g) (hp : p < g.nodes.size)
    (htag : (g.nodeAt p).tag = .schema ∨ (g.nodeAt p).tag = .redefineDoc) :
    (g.scopeAt (g.nodeAt p).contentScope).parent = none := by
  rcases htag with htag | htag
  · exact h.root_of_schema hp htag
  rcases Nat.lt_or_ge p g₀.nodes.size with hold | hnew
  · exact h.root_of_old hold
  -- a `redefine` stands directly in a `schema` and opens no scope
  obtain ⟨q, s, e, _, ht⟩ := h.traced hnew hp (by rw [htag]; nofun)
  have hqtag : (g.nodeAt q).tag = .schema := by
    have hcontains := h.sound.tree.parent_contains p q hp ht.parent
    rw [htag] at hcontains
    cases hqtag : (g.nodeAt q).tag <;> rw [hqtag] at hcontains <;> first | rfl | cases hcontains
  have hown : (g.nodeAt p).ownScope = none := by
    have hopens := ht.ownScope_isSome
    rw [htag] at hopens
    exact Option.not_isSome_iff_eq_none.mp (by rw [hopens]; nofun)
  have hscope : (g.nodeAt p).contentScope = (g.nodeAt q).contentScope := by
    rw [Node.contentScope, hown]
    exact h.sound.tree.parent_scope p q hp ht.parent
  rw [hscope]
  exact h.root_of_schema (h.sound.parent_lt_size hp ht.parent) hqtag

/-- Elements, attributes and types open a scope within the one they stand in. -/
theorem own_of_tag (h : g₀.Grown g) (hnew : g₀.nodes.size ≤ n) (hn : n < g.nodes.size)
    (htag : (g.nodeAt n).tag = .element ∨ (g.nodeAt n).tag = .attr ∨
      (g.nodeAt n).tag = .complexType ∨ (g.nodeAt n).tag = .simpleType) :
    ∃ own, (g.nodeAt n).ownScope = some own ∧ (g.scopeAt own).parent ≠ none := by
  have hne : (g.nodeAt n).tag ≠ .schema := by
    rcases htag with ht | ht | ht | ht <;> rw [ht] <;> nofun
  obtain ⟨p, s, e, _, ht⟩ := h.traced hnew hn hne
  have hsome : (g.nodeAt n).ownScope.isSome = true := by
    rw [ht.ownScope_isSome]
    rcases htag with ht | ht | ht | ht <;> rw [ht] <;> rfl
  obtain ⟨own, hown⟩ := Option.isSome_iff_exists.mp hsome
  refine ⟨own, hown, ?_⟩
  rcases h.sound.tree.own_parent n own hn hown with hparent | ⟨_, _, hschema⟩
  · rw [hparent]
    nofun
  · exact absurd hschema hne

/-! ## Types within elements and attributes -/

/-- A type that is declared is global or stands directly within an element or an attribute. -/
theorem declared_type (h : g₀.Grown g) {scope : ScopeId} {d : Declaration}
    (hd : d ∈ (g.scopeAt scope).entries) (hspace : d.space = .type)
    (hnew : g₀.nodes.size ≤ d.node) :
    ((g.nodeAt d.node).tag = .complexType ∨ (g.nodeAt d.node).tag = .simpleType) ∧
      ∃ p s e, g₀.nodes.size ≤ p ∧ g.Traced d.node p s e ∧
        (s.isGlobal = true ∨ (g.nodeAt p).tag = .element ∨ (g.nodeAt p).tag = .attr) := by
  have hdecl := h.sound.declared.entry scope d hd
  have hn := hdecl.node_lt
  have htype : (g.nodeAt d.node).tag = .complexType ∨ (g.nodeAt d.node).tag = .simpleType := by
    have hfits := hdecl.fits
    have hbuiltin := h.tag_ne_builtin hnew hn
    rw [hspace] at hfits
    cases htag : (g.nodeAt d.node).tag <;> rw [htag] at hfits hbuiltin <;>
      first | exact Or.inl rfl | exact Or.inr rfl | exact absurd rfl hbuiltin | cases hfits
  obtain ⟨p, s, e, hpnew, ht⟩ :=
    h.traced hnew hn (by rcases htype with htag | htag <;> rw [htag] <;> nofun)
  refine ⟨htype, p, s, e, hpnew, ht, ?_⟩
  by_contra hother
  obtain ⟨hlocal, hother⟩ := not_or.mp hother
  obtain ⟨hel, hat⟩ := not_or.mp hother
  -- anywhere else it would not be declared
  refine ht.undeclared (ht.accepted.inner (by rw [ht.tag]; exact htype)
    (Bool.eq_false_iff.mpr hlocal) ?_ ?_) scope d hd rfl <;> rw [ht.parentTag] <;> intro heq
  · exact hel (Option.some.inj heq)
  · exact hat (Option.some.inj heq)

/-- A type that an inner scope declares stands directly within the node that opens the scope. -/
theorem inner_type (h : g₀.Grown g) (hid : id < g.nodes.size) {own : ScopeId}
    (hown : (g.nodeAt id).ownScope = some own) (hinner : (g.scopeAt own).parent ≠ none)
    {d : Declaration} (hd : d ∈ (g.scopeAt own).entries) (hspace : d.space = .type) :
    d.name = none ∧ (g.nodeAt d.node).parent = some id ∧
      ((g.nodeAt d.node).tag = .complexType ∨ (g.nodeAt d.node).tag = .simpleType) := by
  have hdecl := h.sound.declared.entry own d hd
  have hn := hdecl.node_lt
  have hname : d.name = none := by
    cases hq : d.name with
    | none => rfl
    | some q => exact absurd (hdecl.global hspace q hq).1 hinner
  have hnew : g₀.nodes.size ≤ d.node := h.new_of_inner (by rw [hdecl.scope]; exact hinner)
  obtain ⟨htype, p, s, e, hpnew, ht, hplace⟩ := h.declared_type hd hspace hnew
  have hp := h.sound.parent_lt_size hn ht.parent
  have hcontent : (g.nodeAt p).contentScope = own :=
    (h.sound.tree.parent_scope _ p hn ht.parent).symm.trans hdecl.scope
  refine ⟨hname, ?_, htype⟩
  have hptag : (g.nodeAt p).tag = .element ∨ (g.nodeAt p).tag = .attr := by
    rcases hplace with hglobal | hptag
    · rw [ht.isGlobal_eq, Bool.or_eq_true, decide_eq_true_eq, decide_eq_true_eq] at hglobal
      have hroot := h.root_of_global hp hglobal
      rw [hcontent] at hroot
      exact absurd hroot hinner
    · exact hptag
  -- such a node opens the scope of its content, and no other node opens the same one
  obtain ⟨own', hown', _⟩ := h.own_of_tag hpnew hp (by rcases hptag with ht | ht <;> rw [ht] <;> simp)
  have heq : own' = own := by
    rw [Node.contentScope, hown'] at hcontent
    exact hcontent
  rw [heq] at hown'
  rw [ht.parent, h.sound.tree.own_inj p id own hp hid hown' hown hinner]

/-- A type that a root scope declares has a name. -/
theorem global_type_named (h : g₀.Grown g) {root : ScopeId} (hroot : (g.scopeAt root).parent = none)
    {d : Declaration} (hd : d ∈ (g.scopeAt root).entries) (hspace : d.space = .type)
    (hnew : g₀.nodes.size ≤ d.node) : d.name.isSome := by
  have hdecl := h.sound.declared.entry root d hd
  have hn := hdecl.node_lt
  obtain ⟨htype, p, s, e, hpnew, ht, hplace⟩ := h.declared_type hd hspace hnew
  have hp := h.sound.parent_lt_size hn ht.parent
  have hglobal : s.isGlobal = true := by
    rcases hplace with hglobal | hptag
    · exact hglobal
    -- within an element or an attribute the scope would be an inner one
    · obtain ⟨own, hown, hinner⟩ :=
        h.own_of_tag hpnew hp (by rcases hptag with ht | ht <;> rw [ht] <;> simp)
      have hscope := h.sound.tree.parent_scope _ p hn ht.parent
      rw [hdecl.scope, Node.contentScope, hown] at hscope
      change root = own at hscope
      rw [hscope] at hroot
      exact absurd hroot hinner
  obtain ⟨reg, hreg, hname⟩ :=
    Site.declares_global (by rw [ht.tag]; exact htype) hglobal ht.effect
  rcases (ht.declares reg hreg).1 with hfree | hnamed
  · exact absurd rfl (hfree root d hd)
  · rw [← hdecl.name, hnamed]
    exact hname

/-- What is found within a node is a type that stands there without a name. -/
theorem inlineType?_eq_some (h : g₀.Grown g) (hnew : g₀.nodes.size ≤ id) (hid : id < g.nodes.size)
    (htag : (g.nodeAt id).tag = .element ∨ (g.nodeAt id).tag = .attr) {t : NodeId}
    (ht : Resolution.inlineType? g id = some t) :
    t < g.nodes.size ∧ (g.nodeAt t).parent = some id ∧ (g.nodeAt t).name = none ∧
      ((g.nodeAt t).tag = .complexType ∨ (g.nodeAt t).tag = .simpleType) := by
  obtain ⟨own, hown, hinner⟩ := h.own_of_tag hnew hid (by rcases htag with h | h <;> rw [h] <;> simp)
  rw [Resolution.inlineType?, hown] at ht
  obtain ⟨d, hhead, rfl⟩ := Option.map_eq_some_iff.mp ht
  have hd := List.mem_of_head? hhead
  rw [Scope.anonymous, List.mem_filter, Bool.and_eq_true, decide_eq_true_eq] at hd
  obtain ⟨hmem, hspace, hname⟩ := hd
  obtain ⟨_, hparent, htype⟩ := h.inner_type hid hown hinner hmem hspace
  have hdecl := h.sound.declared.entry own d hmem
  exact ⟨hdecl.node_lt, hparent, hdecl.name.trans (Option.isNone_iff_eq_none.mp hname), htype⟩

/-- A type is found within an element or an attribute if one of the tags directly within it is a
type. -/
theorem inlineType?_isSome (h : g₀.Grown g) (hnew : g₀.nodes.size ≤ id) (hid : id < g.nodes.size)
    (htag : (g.nodeAt id).tag = .element ∨ (g.nodeAt id).tag = .attr) :
    (Resolution.inlineType? g id).isSome = g.hasInlineType id := by
  rw [Bool.eq_iff_iff, hasInlineType, List.any_eq_true]
  constructor
  · intro hsome
    obtain ⟨t, ht⟩ := Option.isSome_iff_exists.mp hsome
    obtain ⟨hlt, hparent, _, htype⟩ := h.inlineType?_eq_some hnew hid htag ht
    exact ⟨t, (h.sound.tree.mem_children id t hid hlt).mpr hparent, by simpa using htype⟩
  · rintro ⟨child, hchild, htype⟩
    rw [Bool.or_eq_true, decide_eq_true_eq, decide_eq_true_eq] at htype
    have hlt := h.sound.tree.child_lt id hid child hchild
    have hparent := (h.sound.tree.mem_children id child hid hlt).mp hchild
    obtain ⟨own, hown, hinner⟩ :=
      h.own_of_tag hnew hid (by rcases htag with h | h <;> rw [h] <;> simp)
    have hscope : (g.nodeAt child).scope = own := by
      rw [h.sound.tree.parent_scope child id hlt hparent, Node.contentScope, hown]
      rfl
    have hcnew := h.new_of_inner (by rw [hscope]; exact hinner)
    obtain ⟨p, s, e, _, ht⟩ :=
      h.traced hcnew hlt (by rcases htype with h | h <;> rw [h] <;> simp)
    cases ht.parent.symm.trans hparent
    have hdeclares := Site.declares_inline (by rw [ht.tag]; exact htype)
      (by rw [ht.parentTag, Option.some.injEq, Option.some.injEq]; exact htag) ht.effect
    have hmem := (ht.declares _ hdeclares).2 (by rw [hscope]; exact hinner)
    rw [hscope] at hmem
    have hanonymous : (⟨none, .type, child, .once⟩ : Declaration) ∈
        (g.scopeAt own).anonymous .type :=
      List.mem_filter.mpr ⟨hmem, rfl⟩
    rw [Resolution.inlineType?, hown]
    cases hlist : (g.scopeAt own).anonymous .type with
    | nil =>
      rw [hlist] at hanonymous
      cases hanonymous
    | cons d rest => simp [hlist]

/-- The simple types within a derivation, a list or a union have no names. -/
theorem simpleTypes_spec (h : g₀.Grown g) (hnew : g₀.nodes.size ≤ id) (hid : id < g.nodes.size)
    (hderives : (g.nodeAt id).tag = .extension ∨ (g.nodeAt id).tag = .restriction ∨
      (g.nodeAt id).tag = .list ∨ (g.nodeAt id).tag = .union) {t : NodeId}
    (ht : t ∈ Resolution.simpleTypes g id) :
    t < g.nodes.size ∧ (g.nodeAt t).tag = .simpleType ∧ (g.nodeAt t).name = none := by
  obtain ⟨hchild, htag⟩ := List.mem_filter.mp ht
  rw [decide_eq_true_eq] at htag
  have hlt := h.sound.tree.child_lt id hid t hchild
  have hparent := (h.sound.tree.mem_children id t hid hlt).mp hchild
  have htnew : g₀.nodes.size ≤ t :=
    Nat.le_trans hnew (Nat.le_of_lt (h.sound.tree.parent_lt t id hlt hparent))
  obtain ⟨p, s, e, _, htr⟩ := h.traced htnew hlt (by rw [htag]; nofun)
  cases htr.parent.symm.trans hparent
  have hidtag : ∀ tag, tag = .schema ∨ tag = .redefineDoc ∨ tag = .element ∨ tag = .attr →
      (g.nodeAt id).tag ≠ tag := by
    rintro tag hcases rfl
    rcases hderives with h | h | h | h <;> rw [h] at hcases <;> revert hcases <;> decide
  have hlocal : s.isGlobal = false := by
    rw [htr.isGlobal_eq]
    simp [hidtag]
  have hdeclares : e.declares = none := by
    refine htr.accepted.inner (Or.inr (by rw [htr.tag]; exact htag)) hlocal ?_ ?_ <;>
      rw [htr.parentTag] <;> intro heq
    · exact hidtag .element (by simp) (Option.some.inj heq)
    · exact hidtag .attr (by simp) (Option.some.inj heq)
  refine ⟨hlt, htag, (htr.bears hdeclares).trans (htr.accepted.bears ?_)⟩
  rw [htr.tag, htag]
  nofun

end Grown

end XsdTypes.Graph
