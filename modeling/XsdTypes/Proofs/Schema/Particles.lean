import XsdTypes.Proofs.Schema.Content

/-!
# Particles and what they declare

The particles of a type or a group, at any depth, are declared in its scope, each with the product of
the occurrences of the particles around it. Nothing else in the scope declares an element or refers
to a group.
-/

namespace XsdTypes

/-- Whether particles may stand directly within a tag. -/
def Tag.hasParticles : Tag → Bool
  | .element | .any => false
  | .schema | .redefineDoc | .complexType | .simpleType => true
  | tag => tag.isParticle

theorem Tag.not_of_mayContain {tag child : Tag} {p : Tag → Bool}
    (hall : (tag.children.all fun c => !p c) = true) (h : tag.mayContain child = true) :
    p child = false := by
  have hmem : child ∈ tag.children := List.contains_iff_mem.mp h
  simpa using List.all_eq_true.mp hall child hmem

theorem Tag.hasParticles_of_mayContain {tag child : Tag} (h : tag.mayContain child = true)
    (hchild : child.isParticle = true) : tag.hasParticles = true := by
  have hcases : tag.hasParticles = true ∨ (tag.children.all fun c => !c.isParticle) = true := by
    cases tag <;> first | exact Or.inl rfl | exact Or.inr rfl
  refine hcases.resolve_right fun hall => ?_
  rw [Tag.not_of_mayContain hall h] at hchild
  cases hchild

theorem Tag.hasParticles_cases {tag : Tag} (h : tag.hasParticles = true) :
    tag.isParticle = true ∨ (tag = .schema ∨ tag = .redefineDoc) ∨
      (tag = .complexType ∨ tag = .simpleType) := by
  revert h
  cases tag <;> decide

theorem Tag.opens_of_particle {tag : Tag} (h : tag.isParticle = true) (hne : tag ≠ .element) :
    tag.opens false = false := by
  cases tag <;> first | rfl | exact absurd rfl hne | exact nomatch h

theorem Tag.contentOccurs_of_wraps {tag : Tag} (h : tag.wraps = true) (payload : Payload) :
    tag.contentOccurs payload = .once := by
  cases tag <;> first | rfl | exact nomatch h

theorem Tag.contentOccurs_around {tag child : Tag} (h : tag.mayContain child = true)
    (hchild : child.wraps = true) (payload : Payload) : tag.contentOccurs payload = .once := by
  have hcases : tag.contentOccurs payload = .once ∨ (tag.children.all fun c => !c.wraps) = true := by
    cases tag <;> first | exact Or.inl rfl | exact Or.inr rfl
  refine hcases.resolve_right fun hall => ?_
  rw [Tag.not_of_mayContain hall h] at hchild
  cases hchild

/-- An attribute with a default is missing, refused, or read. -/
theorem attribute_cases {α : Type} (a : Option String) (p : String → Option α) (d : α) :
    ∃ v, (a.bind p).getD d = v ∧
      ((a = none ∧ d = v) ∨ ∃ raw, a = some raw ∧ (p raw = none ∨ p raw = some v)) := by
  refine ⟨_, rfl, ?_⟩
  cases a with
  | none => exact .inl ⟨rfl, rfl⟩
  | some raw =>
    refine .inr ⟨raw, rfl, ?_⟩
    rw [Option.bind_some]
    cases p raw with
    | none => exact .inl rfl
    | some v => exact .inr rfl

/-- What a tag says of its occurrences is what its node says of them. -/
theorem Site.givenOccurs_eq {s : Site} {own : Occurrence} (h : s.ownOccurs = .ok own) {n : Node}
    (hattributes : s.attributes = n.attributes) : n.givenOccurs = own := by
  have hattribute : ∀ key, n.attribute? key = s.attribute? key := fun key => by
    rw [Node.attribute?, Site.attribute?, hattributes]
  obtain ⟨min, hmin, hcases⟩ := attribute_cases (s.attribute? "minOccurs") Count.parse? .one
  obtain ⟨max, hmax, hcases'⟩ := attribute_cases (s.attribute? "maxOccurs") Bound.parse? .one
  rw [Node.givenOccurs, hattribute, hattribute, hmin, hmax]
  simp only [Site.ownOccurs] at h
  rcases hcases with ⟨hnone, rfl⟩ | ⟨raw, hraw, hread | hread⟩ <;>
    rcases hcases' with ⟨hnone', rfl⟩ | ⟨raw', hraw', hread' | hread'⟩ <;>
    simp only [*] at h <;> first | exact Except.ok.inj h | cases h

namespace Graph

variable {g₀ g : Graph} {n c m : NodeId} {own : ScopeId}

theorem mem_particles : c ∈ g.particles n ↔
    c ∈ (g.nodeAt n).children ∧ (g.nodeAt c).tag.isParticle = true :=
  List.mem_filter

theorem Sound.part (h : g.Sound) (hc : c ∈ g.particles n) :
    n < g.nodes.size ∧ c < g.nodes.size ∧ n < c ∧ (g.nodeAt c).parent = some n ∧
      (g.nodeAt c).tag.isParticle = true ∧
      (g.nodeAt n).tag.mayContain (g.nodeAt c).tag = true := by
  obtain ⟨hchild, htag⟩ := mem_particles.mp hc
  have hn : n < g.nodes.size := by
    by_contra hn
    rw [nodeAt_of_size_le (Nat.le_of_not_lt hn)] at hchild
    cases hchild
  have hlt := h.tree.child_lt n hn c hchild
  have hparent := (h.tree.mem_children n c hn hlt).mp hchild
  exact ⟨hn, hlt, h.tree.parent_lt c n hlt hparent, hparent, htag,
    h.tree.parent_contains c n hlt hparent⟩

theorem Sound.particles_nodup (h : g.Sound) (n : NodeId) : (g.particles n).Nodup := by
  refine List.Nodup.filter _ ?_
  by_cases hn : n < g.nodes.size
  · exact (h.tree.children_sorted n hn).imp fun hlt => Nat.ne_of_lt hlt
  · rw [nodeAt_of_size_le (Nat.le_of_not_lt hn)]
    exact List.nodup_nil

theorem Sound.particles_eq_nil (h : g.Sound) (htag : (g.nodeAt n).tag.hasParticles = false) :
    g.particles n = [] := by
  refine List.eq_nil_iff_forall_not_mem.mpr fun c hc => ?_
  obtain ⟨_, _, _, _, hparticle, hcontains⟩ := h.part hc
  rw [Tag.hasParticles_of_mayContain hcontains hparticle] at htag
  cases htag

theorem Sound.lt_of_parts (h : g.Sound) (hm : Relation.TransGen g.IsPart n m) : n < m := by
  induction hm with
  | single hc => exact (h.part hc).2.2.1
  | tail _ hc ih => exact Nat.lt_trans ih (h.part hc).2.2.1

theorem Sound.le_of_parts (h : g.Sound) (hm : Relation.ReflTransGen g.IsPart n m) : n ≤ m := by
  rcases Relation.reflTransGen_iff_eq_or_transGen.mp hm with rfl | hm
  · exact Nat.le_refl _
  · exact Nat.le_of_lt (h.lt_of_parts hm)

/-- A node is a part of only one of the particles of a node. -/
theorem Sound.part_unique (h : g.Sound) {c' : NodeId} (hc : c ∈ g.particles n)
    (hc' : c' ∈ g.particles n) (hm : Relation.ReflTransGen g.IsPart c m)
    (hm' : Relation.ReflTransGen g.IsPart c' m) : c = c' := by
  obtain ⟨_, _, hlt, hparent, _⟩ := h.part hc
  obtain ⟨_, _, hlt', hparent', _⟩ := h.part hc'
  -- a particle of `n` is not a part of another one, because `n` is not
  have hself : ∀ {a b}, (g.nodeAt a).parent = some n → n < b →
      Relation.ReflTransGen g.IsPart b a → b = a := by
    intro a b hparent hlt hb
    rcases Relation.ReflTransGen.cases_tail hb with heq | ⟨p, hp, ha⟩
    · exact heq.symm
    · cases hparent.symm.trans (h.part ha).2.2.2.1
      exact absurd (h.le_of_parts hp) (Nat.not_le.mpr hlt)
  induction hm with
  | refl => exact (hself hparent hlt' hm').symm
  | tail _ ha ih =>
    rcases Relation.ReflTransGen.cases_tail hm' with heq | ⟨p', hp', ha'⟩
    · subst heq
      cases hparent'.symm.trans (h.part ha).2.2.2.1
      rename_i hp
      exact absurd (h.le_of_parts hp) (Nat.not_le.mpr hlt)
    · cases (h.part ha).2.2.2.1.symm.trans (h.part ha').2.2.2.1
      exact ih hp'

/-! ## Where particles stand -/

/-- The occurrences of the content of a node, within the type or the group around it. -/
def contentOccurs (g : Graph) (n : NodeId) : Occurrence :=
  (g.nodeAt n).tag.contentOccurs (g.nodeAt n).payload

/-- The occurrences of a particle, within the type or the group around it. -/
def placeOccurs (g : Graph) (n : NodeId) : Occurrence :=
  match (g.nodeAt n).parent with
  | some p => (g.contentOccurs p).times (g.nodeAt n).ownOccurs
  | none => .once

/-- The particles of the node stand in an inner scope, and their occurrences are multiplied by those
of the node. -/
structure Region (g₀ g : Graph) (n : NodeId) (own : ScopeId) : Prop where
  new : g₀.nodes.size ≤ n
  content : (g.nodeAt n).contentScope = own
  inner : (g.scopeAt own).parent ≠ none
  carries : (g.nodeAt n).tag.carries (g.nodeAt n).ownScope.isSome = true

theorem Sound.placeOccurs_part (h : g.Sound) (hc : c ∈ g.particles n) :
    g.placeOccurs c = (g.contentOccurs n).times (g.nodeAt c).ownOccurs := by
  rw [placeOccurs, (h.part hc).2.2.2.1]

namespace Region

theorem traced (h : g₀.Grown g) (r : g₀.Region g n own) (hc : c ∈ g.particles n) :
    ∃ s e, g.Traced c n s e ∧ s.isGlobal = false ∧ s.occurs = g.contentOccurs n := by
  obtain ⟨hn, hlt, hnc, hparent, htag, _⟩ := h.sound.part hc
  obtain ⟨p, s, e, _, ht⟩ := h.traced (Nat.le_trans r.new (Nat.le_of_lt hnc)) hlt
    (by intro hschema; rw [hschema] at htag; cases htag)
  cases ht.parent.symm.trans hparent
  refine ⟨s, e, ht, ?_, ht.occurs r.carries⟩
  rw [ht.isGlobal_eq]
  have hcarries := r.carries
  cases hn : (g.nodeAt n).tag <;> rw [hn] at hcarries <;> first | rfl | cases hcarries

theorem scope (h : g₀.Grown g) (r : g₀.Region g n own) (hc : c ∈ g.particles n) :
    (g.nodeAt c).scope = own := by
  obtain ⟨_, hlt, _, hparent, _⟩ := h.sound.part hc
  rw [h.sound.tree.parent_scope c n hlt hparent, r.content]

/-- A particle that multiplies occurrences has its particles in the same scope. -/
theorem down (h : g₀.Grown g) (r : g₀.Region g n own) (hc : c ∈ g.particles n)
    (hcarries : (g.nodeAt c).tag.carries false = true) : g₀.Region g c own := by
  obtain ⟨s, e, ht, hlocal, _⟩ := r.traced h hc
  obtain ⟨_, _, hlt, _, htag, _⟩ := h.sound.part hc
  have hown : (g.nodeAt c).ownScope = none := by
    have hopens := ht.ownScope_isSome
    rw [hlocal] at hopens
    refine Option.not_isSome_iff_eq_none.mp ?_
    rw [hopens]
    rw [Tag.opens_of_particle htag (by rintro helement; rw [helement] at hcarries; cases hcarries)]
    exact Bool.false_ne_true
  refine ⟨Nat.le_trans r.new (Nat.le_of_lt hlt), ?_, r.inner, by rw [hown]; exact hcarries⟩
  rw [Node.contentScope, hown]
  exact r.scope h hc

theorem placeOccurs_eq (h : g₀.Grown g) (r : g₀.Region g n own) (hc : c ∈ g.particles n)
    (hwraps : (g.nodeAt c).tag.wraps = false) {s : Site} {e : Effect} (ht : g.Traced c n s e)
    {occurs : Occurrence} (hown : s.ownOccurs = .ok occurs) :
    g.placeOccurs c = s.occurs.times occurs := by
  have hgiven := Site.givenOccurs_eq hown ht.attributes
  rw [h.sound.placeOccurs_part hc, ht.occurs r.carries, Node.ownOccurs, hwraps, hgiven]
  rfl

/-- An element is declared with all the occurrences around it. -/
theorem element (h : g₀.Grown g) (r : g₀.Region g n own) (hc : c ∈ g.particles n)
    (htag : (g.nodeAt c).tag = .element) :
    ∃ name, (g.nodeAt c).name = some name ∧
      ⟨some name, .element, c, g.placeOccurs c⟩ ∈ (g.scopeAt own).entries := by
  obtain ⟨s, e, ht, hlocal, _⟩ := r.traced h hc
  obtain ⟨_, _, name, occurs, _, he, htimes⟩ := Site.plan_element (ht.tag.trans htag) ht.effect
  obtain ⟨given, hown, rfl⟩ := htimes hlocal
  have hmem := (ht.declares _ (congrArg Effect.declares he)).2
    (by rw [r.scope h hc]; exact r.inner)
  rw [r.scope h hc, ← r.placeOccurs_eq h hc (by rw [htag]; rfl) ht hown] at hmem
  exact ⟨name, (h.sound.declared.entry _ _ hmem).name, hmem⟩

/-- A reference to a group is declared with all the occurrences around it. -/
theorem group (h : g₀.Grown g) (r : g₀.Region g n own) (hc : c ∈ g.particles n)
    (htag : (g.nodeAt c).tag = .group) :
    ⟨none, .groupRef, c, g.placeOccurs c⟩ ∈ (g.scopeAt own).entries := by
  obtain ⟨s, e, ht, hlocal, _⟩ := r.traced h hc
  have hstag := ht.tag.trans htag
  have heffect := ht.effect
  rw [Site.plan_group hstag] at heffect
  rcases Site.group_effect heffect with ⟨hglobal, _⟩ | ⟨_, _, occurs, _, he, htimes⟩
  · rw [hlocal] at hglobal
    cases hglobal
  obtain ⟨given, hown, rfl⟩ := htimes hstag
  have hmem := (ht.declares _ (congrArg Effect.declares he)).2
    (by rw [r.scope h hc]; exact r.inner)
  rw [r.scope h hc, ← r.placeOccurs_eq h hc (by rw [htag]; rfl) ht hown] at hmem
  exact hmem

theorem payload_occurs (h : g₀.Grown g) (r : g₀.Region g n own) (hc : c ∈ g.particles n)
    (htag : (g.nodeAt c).tag = .sequence ∨ (g.nodeAt c).tag = .choice ∨ (g.nodeAt c).tag = .all) :
    (g.nodeAt c).payload.occurs = g.placeOccurs c := by
  obtain ⟨s, e, ht, _⟩ := r.traced h hc
  obtain ⟨given, hown, hpayload, _⟩ := Site.plan_particle (by rw [ht.tag]; exact htag) ht.effect
  have hwraps : (g.nodeAt c).tag.wraps = false := by
    rcases htag with htag | htag | htag <;> rw [htag] <;> rfl
  rw [← Payload.occurs_written, ht.payload, hpayload, r.placeOccurs_eq h hc hwraps ht hown]
  rfl

/-- The content of a sequence occurs as often as the sequence. -/
theorem contentOccurs_series (h : g₀.Grown g) (r : g₀.Region g n own) (hc : c ∈ g.particles n)
    (htag : (g.nodeAt c).tag = .sequence ∨ (g.nodeAt c).tag = .all ∨
      (g.nodeAt c).tag.wraps = true) : g.contentOccurs c = g.placeOccurs c := by
  rw [contentOccurs]
  rcases htag with htag | htag | hwraps
  · rw [← r.payload_occurs h hc (.inl htag), htag]
    rfl
  · rw [← r.payload_occurs h hc (.inr (.inr htag)), htag]
    rfl
  -- what wraps a content model stands in a type or in another such tag
  have hcontains := (h.sound.part hc).2.2.2.2.2
  rw [h.sound.placeOccurs_part hc, Node.ownOccurs, hwraps, contentOccurs,
    Tag.contentOccurs_of_wraps hwraps, Tag.contentOccurs_around hcontains hwraps]
  rfl

/-- The content of a choice may be left out. -/
theorem contentOccurs_choice (h : g₀.Grown g) (r : g₀.Region g n own) (hc : c ∈ g.particles n)
    (htag : (g.nodeAt c).tag = .choice) : g.contentOccurs c = (g.placeOccurs c).optional := by
  rw [contentOccurs, ← r.payload_occurs h hc (.inr (.inl htag)), htag]
  rfl

end Region

/-! ## What scopes declare -/

/-- What stands in an inner scope does not stand directly in a document. -/
theorem Grown.traced_inner (h : g₀.Grown g) (hn : n < g.nodes.size)
    (hinner : (g.scopeAt (g.nodeAt n).scope).parent ≠ none) (htag : (g.nodeAt n).tag ≠ .schema) :
    ∃ p s e, g₀.nodes.size ≤ p ∧ g.Traced n p s e ∧ s.isGlobal = false := by
  obtain ⟨p, s, e, hpnew, ht⟩ := h.traced (h.new_of_inner hinner) hn htag
  refine ⟨p, s, e, hpnew, ht, Bool.eq_false_iff.mpr fun hglobal => ?_⟩
  rw [ht.isGlobal_eq, Bool.or_eq_true, decide_eq_true_eq, decide_eq_true_eq] at hglobal
  have hroot := h.root_of_global (h.sound.parent_lt_size hn ht.parent) hglobal
  rw [← h.sound.tree.parent_scope n p hn ht.parent] at hroot
  exact hinner hroot

/-- All particles in a scope are parts of the node that opens it. -/
theorem Grown.part_of_scope (h : g₀.Grown g) {a : NodeId} (ha : a < g.nodes.size)
    (hown : (g.nodeAt a).ownScope = some own) (hinner : (g.scopeAt own).parent ≠ none) (m : NodeId)
    (hm : m < g.nodes.size) (hscope : (g.nodeAt m).scope = own)
    (hparticle : (g.nodeAt m).tag.isParticle = true) : Relation.TransGen g.IsPart a m := by
  induction m using Nat.strongRecOn with
  | ind m ih =>
    obtain ⟨p, s, e, hpnew, ht, hlocal⟩ := h.traced_inner hm (by rw [hscope]; exact hinner)
      (by intro hschema; rw [hschema] at hparticle; cases hparticle)
    have hp := h.sound.parent_lt_size hm ht.parent
    have hpart : g.IsPart p m :=
      mem_particles.mpr ⟨(h.sound.tree.mem_children p m hp hm).mpr ht.parent, hparticle⟩
    have hcontent : (g.nodeAt p).contentScope = own :=
      (h.sound.tree.parent_scope m p hm ht.parent).symm.trans hscope
    cases hpown : (g.nodeAt p).ownScope with
    | some own' =>
      rw [Node.contentScope, hpown] at hcontent
      rw [show own' = own from hcontent] at hpown
      cases h.sound.tree.own_inj p a own hp ha hpown hown hinner
      exact .single hpart
    | none =>
      rw [Node.contentScope, hpown] at hcontent
      refine .tail (ih p (h.sound.tree.parent_lt m p hm ht.parent) hp hcontent ?_) hpart
      -- a node around particles is one, unless it opens a scope or has global content
      rcases Tag.hasParticles_cases (Tag.hasParticles_of_mayContain
          (h.sound.tree.parent_contains m p hm ht.parent) hparticle) with htag | htag | htag
      · exact htag
      · rw [ht.isGlobal_eq, Bool.or_eq_false_iff, decide_eq_false_iff_not,
          decide_eq_false_iff_not] at hlocal
        exact absurd htag (not_or.mpr hlocal)
      · obtain ⟨_, hsome, _⟩ := h.own_of_tag hpnew hp (.inr (.inr htag))
        rw [hpown] at hsome
        cases hsome

/-- A reference is declared without a name. -/
theorem Grown.reference_unnamed (h : g₀.Grown g) {d : Declaration}
    (hd : d ∈ (g.scopeAt own).entries) (hinner : (g.scopeAt own).parent ≠ none)
    (htag : (g.nodeAt d.node).tag = .group ∨ (g.nodeAt d.node).tag = .attrGroup) :
    d.name = none := by
  have hdecl := h.sound.declared.entry own d hd
  obtain ⟨p, s, e, _, ht, hlocal⟩ := h.traced_inner hdecl.node_lt (by rw [hdecl.scope]; exact hinner)
    (by rcases htag with htag | htag <;> rw [htag] <;> nofun)
  obtain ⟨reg, hreg, hname⟩ := Site.declares_reference (by rw [ht.tag]; exact htag) hlocal ht.effect
  rcases (ht.declares reg hreg).1 with hfree | hnamed
  · exact absurd rfl (hfree own d hd)
  · rw [← hdecl.name, hnamed, hname]

/-- Only nodes with particles open scopes in which particles are declared. -/
theorem Grown.space_of_opener (h : g₀.Grown g) {a : NodeId} (ha : a < g.nodes.size)
    (hown : (g.nodeAt a).ownScope = some own) (hinner : (g.scopeAt own).parent ≠ none)
    (htag : (g.nodeAt a).tag.hasParticles = false) {d : Declaration}
    (hd : d ∈ (g.scopeAt own).entries) : (g.nodeAt d.node).tag.isParticle = false := by
  have hdecl := h.sound.declared.entry own d hd
  by_contra hparticle
  have hpart := h.part_of_scope ha hown hinner d.node hdecl.node_lt hdecl.scope
    (Bool.not_eq_false _ ▸ hparticle)
  obtain ⟨c, hc, _⟩ := Relation.TransGen.head'_iff.mp hpart
  rw [IsPart, h.sound.particles_eq_nil htag] at hc
  cases hc

/-! ## What references mean -/

/-- A group with a name stands directly in a document and opens a scope. -/
theorem Grown.definition (h : g₀.Grown g) (hnew : g₀.nodes.size ≤ n) (hn : n < g.nodes.size)
    (htag : (g.nodeAt n).tag = .group ∨ (g.nodeAt n).tag = .attrGroup) {s : ScopeId} {d : Declaration}
    (hd : d ∈ (g.scopeAt s).entries) (hnode : d.node = n) (hname : d.name.isSome) :
    ∃ inner, (g.nodeAt n).ownScope = some inner ∧ (g.scopeAt inner).parent ≠ none ∧
      (g.nodeAt n).payload.written = .group none none := by
  obtain ⟨p, site, e, _, ht⟩ := h.traced hnew hn (by rcases htag with ht | ht <;> rw [ht] <;> nofun)
  obtain ⟨definition, reference, hplan⟩ := Site.plan_groups (by rw [ht.tag]; exact htag)
  have heffect := ht.effect
  have hpayload := ht.payload
  rw [hplan] at heffect hpayload
  rcases Site.group_effect heffect with ⟨hglobal, hwritten, _⟩ | ⟨hlocal, _⟩
  · have hsome : (g.nodeAt n).ownScope.isSome = true := by
      rw [ht.ownScope_isSome, hglobal]
      rcases htag with ht | ht <;> rw [ht] <;> rfl
    obtain ⟨inner, hinner⟩ := Option.isSome_iff_exists.mp hsome
    refine ⟨inner, hinner, ?_, ?_⟩
    · rcases h.sound.tree.own_parent n inner hn hinner with hparent | ⟨_, _, hschema⟩
      · rw [hparent]
        nofun
      · rcases htag with ht | ht <;> cases ht.symm.trans hschema
    · rw [hpayload, hwritten, ht.tag]
      rcases htag with ht | ht <;> rw [ht] <;> rfl
  · obtain ⟨reg, hreg, hunnamed⟩ :=
      Site.declares_reference (by rw [ht.tag]; exact htag) hlocal ht.effect
    have hdecl := h.sound.declared.entry s d hd
    rcases (ht.declares reg hreg).1 with hfree | hnamed
    · exact absurd hnode (hfree s d hd)
    · rw [← hdecl.name, hnode, hnamed, hunnamed] at hname
      cases hname

/-- A reference means a definition of the same kind, which has a scope of its own and is no
reference. -/
theorem Loaded.definition_of_reference {policy : RepeatPolicy} (h : g.Loaded policy)
    (hnew : (initial policy).nodes.size ≤ n) (hn : n < g.nodes.size)
    (htag : (g.nodeAt n).tag = .group ∨ (g.nodeAt n).tag = .attrGroup) {target : NodeId}
    (htarget : Lowering.referredGroup? g n = some target) :
    (initial policy).nodes.size ≤ target ∧ target < g.nodes.size ∧
      (g.nodeAt target).tag = (g.nodeAt n).tag ∧ Lowering.referredGroup? g target = none ∧
      ∃ inner, (g.nodeAt target).ownScope = some inner ∧ (g.scopeAt inner).parent ≠ none := by
  have hpayload : ∃ name, (g.nodeAt n).payload = .group name (some target) := by
    unfold Lowering.referredGroup? at htarget
    split at htarget
    · rename_i name bound hgroup
      exact ⟨name, htarget ▸ hgroup⟩
    · cases htarget
  obtain ⟨name, hpayload⟩ := hpayload
  have hbinds := Resolution.bind_eq_ok_iff.mp (h.bound n hnew hn)
  rw [hpayload] at hbinds
  cases hbinds with
  | nameless hnameless =>
    cases name with
    | none => exact absurd hpayload (h.unbound n hnew hn target)
    | some name => cases hnameless
  | @group name _ _ hresolve =>
    obtain ⟨hdenotes, hlt, hfits⟩ := resolveGlobal_eq_ok h.sound hresolve
    have hsame : (g.nodeAt target).tag = (g.nodeAt n).tag := by
      rcases htag with ht | ht <;> simp only [ht] at hfits ⊢ <;>
        cases htt : (g.nodeAt target).tag <;> rw [htt] at hfits <;> first | rfl | cases hfits
    have htag' : (g.nodeAt target).tag = .group ∨ (g.nodeAt target).tag = .attrGroup := by
      rw [hsame]
      exact htag
    have htnew : (initial policy).nodes.size ≤ target := by
      refine h.new_of_tag ?_ ?_ <;> rcases htag' with ht | ht <;> rw [ht] <;> simp
    obtain ⟨ns, d, rest, _, hfilter, hnode, _⟩ := hdenotes
    have hd : d ∈ (g.globals ns).filter
        (fun d => d.symbol? = some (if (g.nodeAt n).tag = .group then .group else .attrGroup, name)) := by
      rw [hfilter]
      exact List.mem_cons_self
    obtain ⟨hmem, hsymbol⟩ := List.mem_filter.mp hd
    have hname := (symbol?_eq_some (of_decide_eq_true hsymbol)).2
    obtain ⟨inner, hown, hinner, hwritten⟩ :=
      h.definition htnew hlt htag' hmem hnode (by rw [hname]; rfl)
    refine ⟨htnew, hlt, hsame, ?_, inner, hown, hinner⟩
    unfold Lowering.referredGroup?
    split
    · rename_i name' bound hgroup
      rw [hgroup] at hwritten
      injection hwritten with hnone
      cases bound with
      | none => rfl
      | some t => exact absurd (hnone ▸ hgroup) (h.unbound target htnew hlt t)
    · rfl

/-- A reference is bound. -/
theorem Loaded.reference_bound {policy : RepeatPolicy} (h : g.Loaded policy)
    (hnew : (initial policy).nodes.size ≤ n) (hn : n < g.nodes.size) {p : NodeId} {s : Site}
    {e : Effect} (ht : g.Traced n p s e) (hlocal : s.isGlobal = false)
    (htag : (g.nodeAt n).tag = .group ∨ (g.nodeAt n).tag = .attrGroup) :
    ∃ target, Lowering.referredGroup? g n = some target := by
  obtain ⟨definition, reference, hplan⟩ := Site.plan_groups (by rw [ht.tag]; exact htag)
  have heffect := ht.effect
  have hwritten := ht.payload
  rw [hplan] at heffect hwritten
  rcases Site.group_effect heffect with ⟨hglobal, _⟩ | ⟨_, refName, _, hpayload, _⟩
  · rw [hlocal] at hglobal
    cases hglobal
  rw [hpayload] at hwritten
  have hbinds := Resolution.bind_eq_ok_iff.mp (h.bound n hnew hn)
  unfold Lowering.referredGroup?
  generalize (g.nodeAt n).payload = payload at hbinds hwritten
  cases payload with
  | group name target =>
    injection hwritten with hname
    subst hname
    cases hbinds with
    | group => exact ⟨_, rfl⟩
    | nameless hnameless => cases hnameless
  | _ => cases hwritten

/-- A reference within a content model is bound. -/
theorem Region.bound {policy : RepeatPolicy} (h : g.Loaded policy)
    (r : (initial policy).Region g n own) (hc : c ∈ g.particles n)
    (htag : (g.nodeAt c).tag = .group) : ∃ target, Lowering.referredGroup? g c = some target := by
  obtain ⟨s, e, ht, hlocal, _⟩ := r.traced h.toGrown hc
  obtain ⟨_, hlt, hnc, _⟩ := h.sound.part hc
  exact h.reference_bound (Nat.le_trans r.new (Nat.le_of_lt hnc)) hlt ht hlocal (.inl htag)

end Graph

end XsdTypes
