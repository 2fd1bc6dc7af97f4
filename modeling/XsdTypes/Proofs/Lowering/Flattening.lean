import XsdTypes.Proofs.Lowering.Export
import XsdTypes.Proofs.Lowering.Folding
import XsdTypes.Proofs.Lowering.Totals
import XsdTypes.Proofs.Schema.Words

/-!
# Flattening content models

A complex type becomes an interface with one member for each local name of an element in its content
model, which says whether the name may be missing and whether it may be repeated. What it says is true
of every word that the content model allows, as long as no group refers to itself and no reference to
a group has particles of its own.
-/

namespace XsdTypes

open Relation

/-- Particles and references to attribute groups are declared in symbol spaces of their own. -/
theorem SymbolSpace.tag_of_fits {space : SymbolSpace} {tag : Tag} (h : space.fits tag = true) :
    (space = .element → tag = .element) ∧ (space = .groupRef → tag = .group) ∧
      (space = .attrGroupRef → tag = .attrGroup) := by
  revert h
  cases space <;> cases tag <;> decide

/-! ## Totals and words -/

namespace Lowering

variable {g : Graph} {policy : RepeatPolicy} {x : String} {fuel : Nat} {path : List NodeId}

/-- A reference to an attribute group adds no elements if the group has none. -/
theorem total_share_attrGroupRef {d : Declaration} (hspace : d.space = .attrGroupRef)
    (hgroup : ∀ target inner, referredGroup? g d.node = some target →
      (g.nodeAt target).ownScope = some inner →
      total x (expand g fuel inner .once (target :: path)) = 0) :
    total x (share g fuel .once path d) = 0 := by
  unfold share
  rw [hspace]
  simp only
  split
  · rfl
  · rename_i target htarget
    split
    · rfl
    · split
      · rename_i inner hinner
        rw [total_expand_times, hgroup target inner htarget hinner, Occurrence.zero_times]
      · rfl

/-- What stands in an inner scope without being a particle adds no elements. -/
theorem total_share_of_not_particle (h : g.Loaded policy) {own : ScopeId}
    (hinner : (g.scopeAt own).parent ≠ none) {d : Declaration}
    (hd : d ∈ (g.scopeAt own).entries) (htag : (g.nodeAt d.node).tag.isParticle = false)
    (hgroup : ∀ target inner, (g.nodeAt target).tag = .attrGroup → target < g.nodes.size →
      (g.nodeAt target).ownScope = some inner → (g.scopeAt inner).parent ≠ none →
      total x (expand g fuel inner .once (target :: path)) = 0) :
    total x (share g fuel .once path d) = 0 := by
  have hentry := h.sound.declared.entry own d hd
  have hfits := hentry.fits
  have hnew : (Graph.initial policy).nodes.size ≤ d.node :=
    h.new_of_inner (by rw [hentry.scope]; exact hinner)
  cases hspace : d.space with
  | attrGroupRef =>
    refine total_share_attrGroupRef hspace fun target inner htarget hown => ?_
    have hattr : (g.nodeAt d.node).tag = .attrGroup := (SymbolSpace.tag_of_fits hfits).2.2 hspace
    obtain ⟨_, hlt, hsame, _, inner', hown', hinner'⟩ :=
      h.definition_of_reference hnew hentry.node_lt (.inr hattr) htarget
    cases hown.symm.trans hown'
    exact hgroup target inner (hsame.trans hattr) hlt hown hinner'
  | element =>
    rw [(SymbolSpace.tag_of_fits hfits).1 hspace] at htag
    cases htag
  | groupRef =>
    rw [(SymbolSpace.tag_of_fits hfits).2.1 hspace] at htag
    cases htag
  | attr | type | group | attrGroup =>
    exact total_share_other (by rw [hspace]; simp) (by rw [hspace]; simp) (by rw [hspace]; simp)

/-- References in an inner scope have no names. -/
theorem reference_unnamed (h : g.Loaded policy) {own : ScopeId}
    (hinner : (g.scopeAt own).parent ≠ none) : ∀ d ∈ (g.scopeAt own).entries,
    d.space = .groupRef ∨ d.space = .attrGroupRef → d.name = none := by
  intro d hd hspace
  refine h.reference_unnamed hd hinner ?_
  have hfits := SymbolSpace.tag_of_fits (h.sound.declared.entry own d hd).fits
  exact hspace.imp hfits.2.1 hfits.2.2

/-- There are no elements in an attribute group. -/
theorem total_attrGroup (h : g.Loaded policy) (fuel : Nat) (path : List NodeId) {a : NodeId}
    {own : ScopeId} (htag : (g.nodeAt a).tag = .attrGroup) (ha : a < g.nodes.size)
    (hown : (g.nodeAt a).ownScope = some own) (hinner : (g.scopeAt own).parent ≠ none) :
    total x (expand g fuel own .once path) = 0 := by
  induction fuel generalizing a own path with
  | zero => rfl
  | succ fuel ih =>
    rw [total_expand_succ (reference_unnamed h hinner)]
    refine List.sum_eq_zero fun y hy => ?_
    obtain ⟨d, hd, rfl⟩ := List.mem_map.mp hy
    have hnot := h.space_of_opener ha hown hinner (by rw [htag]; rfl) hd
    exact total_share_of_not_particle h hinner hd hnot fun target inner htag' hlt hown' hinner' =>
      ih (target :: path) htag' hlt hown' hinner'

/-- A type or a group whose content model stands in a scope of its own. -/
structure HasModel (policy : RepeatPolicy) (g : Graph) (a : NodeId) (own : ScopeId) : Prop where
  new : (Graph.initial policy).nodes.size ≤ a
  lt : a < g.nodes.size
  opens : (g.nodeAt a).ownScope = some own
  inner : (g.scopeAt own).parent ≠ none
  tag : (g.nodeAt a).tag = .complexType ∨ (g.nodeAt a).tag = .group
  definition : referredGroup? g a = none

theorem HasModel.region {a : NodeId} {own : ScopeId} (ha : HasModel policy g a own) :
    (Graph.initial policy).Region g a own := by
  refine ⟨ha.new, ?_, ha.inner, ?_⟩
  · rw [Node.contentScope, ha.opens]
    rfl
  · rw [ha.opens]
    rcases ha.tag with htag | htag <;> rw [htag] <;> rfl

theorem hasModel_complexType (h : g.Loaded policy) {n : NodeId} (hn : n < g.nodes.size)
    (htag : (g.nodeAt n).tag = .complexType) : ∃ own, HasModel policy g n own := by
  have hnew : (Graph.initial policy).nodes.size ≤ n :=
    h.new_of_tag (by rw [htag]; simp) (by rw [htag]; simp)
  obtain ⟨own, hown, hinner⟩ := h.own_of_tag hnew hn (.inr (.inr (.inl htag)))
  exact ⟨own, hnew, hn, hown, hinner, .inl htag,
    h.referredGroup?_eq_none hnew hn (by rw [htag]; simp) (by rw [htag]; simp)⟩

/-- The total of expanded content bounds the words of the content model. The path leads to the node,
so it cannot hold a group that the node refers to. -/
theorem total_within (h : g.Loaded policy) {root : NodeId} (hplain : g.PlainGroups root)
    {a : NodeId} {own : ScopeId} (ha : HasModel policy g a own)
    (hroot : ReflTransGen g.RefersTo root a)
    (hpath : ∀ p ∈ path, ReflTransGen g.RefersTo p a)
    (hfuel : absentBelow g.nodes.size path < fuel) {w : List QName} (hw : g.Allows a w) :
    (total x (expand g fuel own .once path)).Within (wordCount x w) := by
  induction fuel generalizing a own path w with
  | zero => exact absurd hfuel (Nat.not_lt_zero _)
  | succ fuel ih =>
    rw [total_expand_succ (reference_unnamed h ha.inner)]
    have hweighs : (Graph.initial policy).Weighs g x a own
        fun d => total x (share g fuel .once path d) := by
      refine ⟨fun name c occurs => total_share_element rfl, fun n c r hc hpart htag => ?_⟩
      obtain ⟨target, htarget⟩ := r.bound h hc htag
      obtain ⟨_, hlt, hnc, _⟩ := h.sound.part hc
      have hnew := Nat.le_trans r.new (Nat.le_of_lt hnc)
      obtain ⟨htnew, htlt, hsame, hdefinition, inner, hown, hinner⟩ :=
        h.definition_of_reference hnew hlt (.inl htag) htarget
      have hrefers : g.RefersTo a target := ⟨c, hpart, htag, htarget⟩
      have hnotin : target ∉ path := fun hmem =>
        hplain.acyclic a hroot (TransGen.head' hrefers (hpath target hmem))
      have hmodel : HasModel policy g target inner :=
        ⟨htnew, htlt, hown, hinner, .inr (hsame.trans htag), hdefinition⟩
      have hpath' : ∀ p ∈ target :: path, ReflTransGen g.RefersTo p target := by
        intro p hp
        rcases List.mem_cons.mp hp with rfl | hmem
        · exact .refl
        · exact (hpath p hmem).tail hrefers
      have hfuel' : absentBelow g.nodes.size (target :: path) < fuel := by
        have hless := absentBelow_cons_lt htlt hnotin
        omega
      refine ⟨target, total x (expand g fuel inner .once (target :: path)), htarget,
        hplain.childless a c hroot hpart htag, fun occurs => ?_, fun w' hw' => ?_⟩
      · rw [total_share_reference (.inl rfl) htarget hnotin hown, Occurrence.times_comm]
      · exact ih hmodel (hroot.tail hrefers) hpath' hfuel' hw'
    refine hweighs.content h.toGrown ha.region ha.lt ha.opens ?_ ha.definition ?_ ?_ hw
    · rcases ha.tag with htag | htag <;> rw [htag] <;> rfl
    · rw [Graph.contentOccurs]
      rcases ha.tag with htag | htag <;> rw [htag] <;> rfl
    · intro d hd hnot
      exact total_share_of_not_particle h ha.inner hd hnot fun target inner htag hlt hown hinner =>
        total_attrGroup h fuel (target :: path) htag hlt hown hinner

/-- A word has as many elements with a local name as the content of its type allows. -/
theorem contentOf_within (h : g.Loaded policy) {n : NodeId} (hn : n < g.nodes.size)
    (htag : (g.nodeAt n).tag = .complexType) (hplain : g.PlainGroups n) {w : List QName}
    (hw : g.Allows n w) (x : String) : (total x (contentOf g n)).Within (wordCount x w) := by
  obtain ⟨own, hmodel⟩ := hasModel_complexType h hn htag
  have hpath : ∀ p ∈ [n], ReflTransGen g.RefersTo p n := by
    intro p hp
    rw [List.mem_singleton.mp hp]
  have hcontent : contentOf g n = expand g (g.nodes.size + 1) own .once [n] := by
    rw [contentOf, hmodel.opens]
  rw [hcontent]
  exact total_within h hplain hmodel .refl hpath (Nat.lt_succ_of_le (absentBelow_le _ _)) hw

end Lowering

/-! ## Outlines of elements -/

namespace Outline

/-- Whether the outline is that of an element with the local name. -/
def isElement (x : String) (o : Outline) : Bool :=
  o.kind = .element && o.xmlName = x

theorem isElement_eq (x : String) : isElement x = fun o => decide (o.key = (.element, x)) := by
  funext o
  rw [Bool.eq_iff_iff]
  simp [isElement, key]

end Outline

namespace Lowering

theorem Contribution.isElement_eq (x : String) :
    Contribution.isElement x = fun c => decide (memberKey c.declaration = (.element, x)) := by
  funext c
  by_cases hspace : c.declaration.space = .attr <;> simp [isElement, memberKey, hspace]

/-- The outlines of a local name come from the elements with this name. -/
theorem elements_outlines (x : String) (content : List Contribution) {before : List Outline}
    (hbefore : ∀ o ∈ before, o.kind = .content) :
    (outlines content before).filter (Outline.isElement x) =
      gathered (.element, x) (content.filter (Contribution.isElement x)) := by
  have hnone : before.filter (Outline.isElement x) = [] := by
    refine List.filter_eq_nil_iff.mpr fun o ho => ?_
    simp [Outline.isElement, hbefore o ho]
  rw [outlines_append hbefore, List.filter_append, hnone, List.nil_append, Outline.isElement_eq,
    Contribution.isElement_eq]
  exact filter_outlines (.element, x) content

/-- What the outline of a local name says is true of every number that its total allows. -/
theorem outlines_sound {x : String} {content : List Contribution} {k : Nat}
    (hk : (total x content).Within k) {before : List Outline}
    (hbefore : ∀ o ∈ before, o.kind = .content) :
    (k = 0 ∨ ∃ o, (outlines content before).filter (Outline.isElement x) = [o]) ∧
      ∀ o ∈ (outlines content before).filter (Outline.isElement x),
        (o.optional = false → 1 ≤ k) ∧ (o.isArray = false → k ≤ 1) := by
  rw [elements_outlines x content hbefore]
  unfold total at hk
  generalize content.filter (Contribution.isElement x) = elements at hk
  cases elements with
  | nil => exact ⟨.inl (hk.2.eq_zero rfl), by simp [gathered]⟩
  | cons c rest =>
    rw [gathered]
    refine ⟨.inr ⟨_, rfl⟩, fun o ho => ?_⟩
    rw [List.mem_singleton.mp ho]
    constructor
    · intro hrequired
      -- one of the elements is required, so the total is
      by_contra hzero
      have hmin : ((c :: rest).map Contribution.occurs).sum.min.val = 0 := by
        have hle := hk.1
        omega
      have hall := Occurrence.min_sum_eq_zero.mp hmin
      rw [List.all_eq_false] at hrequired
      obtain ⟨c', hc', hopt⟩ := hrequired
      exact hopt (by simpa using hall _ (List.mem_map_of_mem hc'))
    · intro hsingle
      simp only [decide_true, Bool.true_and, Bool.or_eq_false_iff, Bool.not_eq_false',
        List.isEmpty_iff] at hsingle
      obtain ⟨hfew, rfl⟩ := hsingle
      have hone : ([c].map Contribution.occurs).sum = c.occurs := by simp
      rw [hone] at hk
      exact hk.2.le_one hfew

/-- The element members of the interface that a complex type becomes are right about every word that
its content model allows: a member that is not optional occurs, a member that is not an array occurs
at most once, and every element of the word has one member. -/
theorem members_sound {policy : RepeatPolicy} {documents : String → Except FetchFault String}
    {limit : Nat} {url : String} {uri : Option String} {g : Graph} {entry : NamespaceId}
    (hload : Loading.load (m := Id) documents limit (Graph.initial policy) url uri = .ok (g, entry))
    (options : ExportOptions) {nss : List NamespaceId} (hnss : ∀ ns ∈ nss, ns < g.namespaces.size)
    {ms : List ModuleId} {t : Target}
    (hrun : (nss.mapM (exportNamespace options g)).run.run {} = (.ok ms, t))
    {n : NodeId} (htag : (g.nodeAt n).tag = .complexType) {id : TypeId}
    (hid : t.typeOf? n = some id) (hplain : g.PlainGroups n) {word : List QName}
    (hword : g.Allows n word) :
    (∀ m ∈ (t.model.typeAt id).members, m.kind = .element →
      (m.optional = false → ∃ q ∈ word, q.localName = m.xmlName) ∧
      (m.type.isArray = false → wordCount m.xmlName word ≤ 1)) ∧
    ∀ q ∈ word, ∃ m, ((t.model.typeAt id).members.filter fun m =>
      m.kind = .element ∧ m.xmlName = q.localName) = [m] := by
  have h := Loading.load_loaded hload
  obtain ⟨ms', t', hrun', hnext, _⟩ :=
    mapM_exportNamespace_succeeds h options hnss (Target.sound_empty g)
  cases hrun.symm.trans hrun'
  have hmem := hnext.sound.typeOf?_eq_some.mp hid
  have hn : n < g.nodes.size := hnext.sound.key_lt _ hmem
  obtain ⟨before, after, hcontent, houtlines⟩ :=
    (hnext.grows.lowered _ hmem).resolve_left (by simp) htag
  have hbefore : ∀ o ∈ before, o.kind = .content :=
    fun o ho => hcontent o (List.mem_append_left _ ho)
  have hfilter : ∀ x, ((t.model.typeAt id).members.filter fun m =>
      m.kind = .element ∧ m.xmlName = x).map Member.outline =
        (outlines (contentOf g n) before).filter (Outline.isElement x) := by
    intro x
    have hafter : after.filter (Outline.isElement x) = [] := by
      refine List.filter_eq_nil_iff.mpr fun o ho => ?_
      simp [Outline.isElement, hcontent o (List.mem_append_right _ ho)]
    rw [← List.append_nil ((outlines (contentOf g n) before).filter _), ← hafter,
      ← List.filter_append, ← houtlines, List.filter_map]
    refine congrArg (List.map Member.outline) (List.filter_congr fun m _ => ?_)
    rw [Bool.eq_iff_iff]
    simp only [Function.comp, Outline.isElement, Bool.and_eq_true, decide_eq_true_eq]
    rfl
  have hsound := fun x => outlines_sound (contentOf_within h hn htag hplain hword x) hbefore
  refine ⟨fun m hm hkind => ?_, fun q hq => ?_⟩
  · have hoq : m.outline ∈ (outlines (contentOf g n) before).filter (Outline.isElement m.xmlName) := by
      rw [← hfilter]
      exact List.mem_map_of_mem (List.mem_filter.mpr ⟨hm, by simp [hkind]⟩)
    obtain ⟨hrequired, hsingle⟩ := (hsound m.xmlName).2 m.outline hoq
    refine ⟨fun hopt => ?_, fun harray => hsingle harray⟩
    have hpos := hrequired hopt
    rw [wordCount, Nat.succ_le_iff, List.countP_pos_iff] at hpos
    obtain ⟨q, hq, heq⟩ := hpos
    exact ⟨q, hq, of_decide_eq_true heq⟩
  · rcases (hsound q.localName).1 with hzero | ⟨o, ho⟩
    · rw [wordCount, List.countP_eq_zero] at hzero
      exact absurd (by simp) (hzero q hq)
    · rw [← hfilter] at ho
      obtain ⟨m, hm, _⟩ := List.map_eq_singleton_iff.mp ho
      exact ⟨m, hm⟩

/-! ### A type that refers to a group -/

/-- A group that is a choice between two elements, and a type that refers to it. -/
def groupDocument (_ : String) : Except FetchFault String :=
  .ok ("<schema xmlns='http://www.w3.org/2001/XMLSchema' xmlns:b='b' targetNamespace='b'>" ++
    "<group name='G'><choice><element name='x'/><element name='y'/></choice></group>" ++
    "<complexType name='T'><sequence><group ref='b:G' maxOccurs='2'/><element name='z'/>" ++
    "</sequence></complexType></schema>")

/-- The parts of the group, which is the node 51, and of the type, which is the node 55. -/
def IsGroupDocument (g : Graph) : Prop :=
  ((g.nodeAt 51).tag = .group ∧ referredGroup? g 51 = none ∧ g.particles 51 = [52]) ∧
  ((g.nodeAt 52).tag = .choice ∧ (g.nodeAt 52).ownOccurs = .once ∧ g.particles 52 = [53, 54]) ∧
  ((g.nodeAt 53).tag = .element ∧ (g.nodeAt 53).name = some ⟨"", "x"⟩ ∧
    (g.nodeAt 53).ownOccurs = .once ∧ g.particles 53 = []) ∧
  ((g.nodeAt 54).tag = .element ∧ (g.nodeAt 54).name = some ⟨"", "y"⟩ ∧
    (g.nodeAt 54).ownOccurs = .once ∧ g.particles 54 = []) ∧
  ((g.nodeAt 55).tag = .complexType ∧ referredGroup? g 55 = none ∧ g.particles 55 = [56]) ∧
  ((g.nodeAt 56).tag = .sequence ∧ referredGroup? g 56 = none ∧ (g.nodeAt 56).ownOccurs = .once ∧
    g.particles 56 = [57, 58]) ∧
  ((g.nodeAt 57).tag = .group ∧ referredGroup? g 57 = some 51 ∧
    (g.nodeAt 57).ownOccurs = ⟨Count.one, .atMost (Count.cap 2)⟩ ∧ g.particles 57 = []) ∧
  ((g.nodeAt 58).tag = .element ∧ (g.nodeAt 58).name = some ⟨"", "z"⟩ ∧
    (g.nodeAt 58).ownOccurs = .once ∧ g.particles 58 = [])

instance (g : Graph) : Decidable (IsGroupDocument g) :=
  inferInstanceAs (Decidable (_ ∧ _))

namespace IsGroupDocument

variable {g : Graph}

/-- What the parts of a node are, given all that are in reach. -/
theorem mem_of_parts {a m : NodeId} {reach : List NodeId} (hfirst : g.particles a ⊆ reach)
    (hclosed : ∀ n ∈ reach, g.particles n ⊆ reach) (hm : TransGen g.IsPart a m) : m ∈ reach := by
  induction hm with
  | single hc => exact hfirst hc
  | tail _ hc ih => exact hclosed _ ih hc

theorem group_parts (h : IsGroupDocument g) {m : NodeId} (hm : TransGen g.IsPart 51 m) :
    m ∈ [52, 53, 54] := by
  obtain ⟨⟨_, _, h51⟩, ⟨_, _, h52⟩, ⟨_, _, _, h53⟩, ⟨_, _, _, h54⟩, _⟩ := h
  refine mem_of_parts (by simp [h51]) (fun n hn => ?_) hm
  simp only [List.mem_cons, List.not_mem_nil, or_false] at hn
  rcases hn with rfl | rfl | rfl <;> simp [h52, h53, h54]

theorem type_parts (h : IsGroupDocument g) {m : NodeId} (hm : TransGen g.IsPart 55 m) :
    m ∈ [56, 57, 58] := by
  obtain ⟨_, _, _, _, ⟨_, _, h55⟩, ⟨_, _, _, h56⟩, ⟨_, _, _, h57⟩, ⟨_, _, _, h58⟩⟩ := h
  refine mem_of_parts (by simp [h55]) (fun n hn => ?_) hm
  simp only [List.mem_cons, List.not_mem_nil, or_false] at hn
  rcases hn with rfl | rfl | rfl <;> simp [h56, h57, h58]

/-- The group refers to no group. -/
theorem group_plain (h : IsGroupDocument g) {m : NodeId} (hm : TransGen g.IsPart 51 m) :
    (g.nodeAt m).tag ≠ .group := by
  have hmem := h.group_parts hm
  obtain ⟨_, ⟨h52, _⟩, ⟨h53, _⟩, ⟨h54, _⟩, _⟩ := h
  simp only [List.mem_cons, List.not_mem_nil, or_false] at hmem
  rcases hmem with rfl | rfl | rfl <;> simp [h52, h53, h54]

/-- The type refers to the group. -/
theorem reference_eq (h : IsGroupDocument g) {m : NodeId} (hm : TransGen g.IsPart 55 m)
    (htag : (g.nodeAt m).tag = .group) : m = 57 := by
  have hmem := h.type_parts hm
  obtain ⟨_, _, _, _, _, ⟨h56, _⟩, _, ⟨h58, _⟩⟩ := h
  simp only [List.mem_cons, List.not_mem_nil, or_false] at hmem
  rcases hmem with rfl | rfl | rfl
  · rw [h56] at htag
    cases htag
  · rfl
  · rw [h58] at htag
    cases htag

theorem plainGroups (h : IsGroupDocument g) : g.PlainGroups 55 := by
  have hgroup : ∀ b, ¬ g.RefersTo 51 b := by
    rintro b ⟨reference, hpart, htag, _⟩
    exact h.group_plain hpart htag
  have htype : ∀ b, g.RefersTo 55 b → b = 51 := by
    rintro b ⟨reference, hpart, htag, htarget⟩
    rw [h.reference_eq hpart htag] at htarget
    obtain ⟨_, _, _, _, _, _, ⟨_, h57, _⟩, _⟩ := h
    exact Option.some.inj (htarget.symm.trans h57)
  have hreach : ∀ a, ReflTransGen g.RefersTo 55 a → a = 55 ∨ a = 51 := by
    intro a ha
    induction ha with
    | refl => exact .inl rfl
    | tail _ hstep ih =>
      rcases ih with rfl | rfl
      · exact .inr (htype _ hstep)
      · exact absurd hstep (hgroup _)
  constructor
  · intro a ha hcycle
    obtain ⟨b, hstep, hrest⟩ := TransGen.head'_iff.mp hcycle
    rcases hreach a ha with rfl | rfl
    · cases htype b hstep
      rcases ReflTransGen.cases_head hrest with heq | ⟨b, hstep, _⟩
      · cases heq
      · exact hgroup b hstep
    · exact hgroup b hstep
  · intro a reference ha hpart htag
    rcases hreach a ha with rfl | rfl
    · rw [h.reference_eq hpart htag]
      obtain ⟨_, _, _, _, _, _, ⟨_, _, _, h57⟩, _⟩ := h
      exact h57
    · exact absurd htag (h.group_plain hpart)

/-- The type allows the group twice, with different branches. -/
theorem allows (h : IsGroupDocument g) :
    g.Allows 55 [⟨"", "y"⟩, ⟨"", "x"⟩, ⟨"", "z"⟩] := by
  obtain ⟨⟨t51, r51, p51⟩, ⟨t52, o52, p52⟩, ⟨t53, n53, o53, _⟩, ⟨t54, n54, o54, _⟩, ⟨t55, r55, p55⟩,
    ⟨t56, r56, o56, p56⟩, ⟨t57, r57, o57, _⟩, ⟨t58, n58, o58, _⟩⟩ := h
  have hone : Occurrence.once.allows 1 := by decide
  have hchoice : ∀ c ∈ [53, 54], ∀ w, g.Allows c w → g.Allows 52 w := by
    intro c hc w hw
    have hown : (g.nodeAt c).ownOccurs = .once := by
      simp only [List.mem_cons, List.not_mem_nil, or_false] at hc
      rcases hc with rfl | rfl <;> assumption
    have hwords : g.Allows 52 [w].flatten :=
      .choice t52 (by rw [p52]; exact hc) (by rw [hown]; exact hone) (by simpa using hw)
    simpa using hwords
  have hgroup : ∀ w, g.Allows 52 w → g.Allows 57 w := by
    intro w hw
    have hwords := @Graph.Allows.series g 51 (fun _ => [w]) (by rw [t51]; rfl) r51
      (by rw [p51]; simpa [o52] using hone) (by rw [p51]; simpa using hw)
    rw [p51] at hwords
    exact .reference t57 r57 (by simpa using hwords)
  have hx : g.Allows 57 [⟨"", "x"⟩] := hgroup _ (hchoice 53 (by simp) _ (.element t53 n53))
  have hy : g.Allows 57 [⟨"", "y"⟩] := hgroup _ (hchoice 54 (by simp) _ (.element t54 n54))
  have hsequence := @Graph.Allows.series g 56
    (fun c => if c = 57 then [[⟨"", "y"⟩], [⟨"", "x"⟩]] else [[⟨"", "z"⟩]]) (by rw [t56]; rfl) r56
    (by rw [p56]; simp [o57, o58, hone]; decide)
    (by rw [p56]; simpa [hx, hy] using Graph.Allows.element t58 n58)
  rw [p56] at hsequence
  have htype := @Graph.Allows.series g 55 (fun _ => [[⟨"", "y"⟩, ⟨"", "x"⟩, ⟨"", "z"⟩]])
    (by rw [t55]; rfl) r55 (by rw [p55]; simpa [o56] using hone)
    (by rw [p55]; simpa using hsequence)
  rw [p55] at htype
  simpa using htype

end IsGroupDocument

set_option maxRecDepth 100000 in
theorem load_groupDocument :
    ∃ g entry ms t, Loading.load (m := Id) groupDocument 1 (Graph.initial .standard) "a" none =
        .ok (g, entry) ∧ entry < g.namespaces.size ∧
      ([entry].mapM (exportNamespace {} g)).run.run {} = (.ok ms, t) ∧ t.typeOf? 55 = some 0 ∧
      IsGroupDocument g := by
  have heval : ((Loading.load (m := Id) groupDocument 1 (Graph.initial .standard) "a"
        none).toOption.map fun r => decide (r.2 < r.1.namespaces.size ∧
      (([r.2].mapM (exportNamespace {} r.1)).run.run {}).2.typeOf? 55 = some 0 ∧
      IsGroupDocument r.1)) = some true :=
    Loading.load_of_letters (fun _ => .append (.append (.append (.ok _) _) _) _) (by decide +kernel)
  obtain ⟨r, hload, hresult⟩ := Sequencing.eq_ok_of_toOption heval
  obtain ⟨hentry, hid, hdocument⟩ := of_decide_eq_true hresult
  have hnss : ∀ ns ∈ [r.2], ns < r.1.namespaces.size := by simpa using hentry
  obtain ⟨ms, t, hrun, _⟩ := mapM_exportNamespace_succeeds (Loading.load_loaded hload) {} hnss
    (Target.sound_empty r.1)
  rw [hrun] at hid
  exact ⟨r.1, r.2, ms, t, hload, hentry, hrun, hid, hdocument⟩

theorem members_sound_example :
    ∃ g entry ms t, Loading.load (m := Id) groupDocument 1 (Graph.initial .standard) "a" none =
        .ok (g, entry) ∧
      ([entry].mapM (exportNamespace {} g)).run.run {} = (.ok ms, t) ∧ t.typeOf? 55 = some 0 ∧
      g.PlainGroups 55 ∧ g.Allows 55 [⟨"", "y"⟩, ⟨"", "x"⟩, ⟨"", "z"⟩] ∧
      (∀ m ∈ (t.model.typeAt 0).members, m.kind = .element → m.type.isArray = false →
        wordCount m.xmlName [⟨"", "y"⟩, ⟨"", "x"⟩, ⟨"", "z"⟩] ≤ 1) ∧
      ∃ m, ((t.model.typeAt 0).members.filter fun m =>
        m.kind = .element ∧ m.xmlName = "y") = [m] := by
  obtain ⟨g, entry, ms, t, hload, hentry, hrun, hid, hdocument⟩ := load_groupDocument
  obtain ⟨hmembers, hword⟩ := members_sound hload {} (by simpa using hentry) hrun
    hdocument.2.2.2.2.1.1 hid hdocument.plainGroups hdocument.allows
  exact ⟨g, entry, ms, t, hload, hrun, hid, hdocument.plainGroups, hdocument.allows,
    fun m hm hkind => (hmembers m hm hkind).2, hword ⟨"", "y"⟩ (by simp)⟩

end Lowering

end XsdTypes
