import XsdTypes.Proofs.Counting
import XsdTypes.Proofs.Schema.Announced
import XsdTypes.Proofs.Schema.Particles
import XsdTypes.Proofs.Schema.Ranges
import XsdTypes.Proofs.Schema.Reached

/-!
# Occurrences of nested particles

The occurrences of a particle are multiplied by those of all that stands between it and the type or
the group it belongs to. While a document is read, each open tag has the product so far, capped
again and again; what is declared at the end is the product of the numbers that the attributes give,
capped once.
-/

namespace XsdTypes

open Sequencing

namespace Tag

/-- The tags that put particles together. -/
def isCompositor : Tag → Bool
  | .sequence | .choice | .all => true
  | _ => false

/-- The tags that define something with particles of its own. -/
def isDefinition : Tag → Bool → Bool
  | .complexType, _ | .simpleType, _ => true
  | .group, isGlobal => isGlobal
  | _, _ => false

theorem opens_of_isDefinition {tag : Tag} {isGlobal : Bool} (h : tag.isDefinition isGlobal = true) :
    tag.opens isGlobal = true := by
  cases tag <;> first | rfl | exact h | cases h

/-- What passes occurrences on and defines nothing opens no scope. -/
theorem opens_of_carries {tag : Tag} {isGlobal : Bool} (hcarries : tag.carries true = true)
    (h : tag.isDefinition isGlobal = false) : tag.opens isGlobal = false := by
  cases tag <;> first | rfl | exact h | exact absurd hcarries (by decide)

/-- What passes occurrences on defines something or has them passed on to it. -/
theorem carries_around {p t : Tag} (hmay : p.mayContain t = true) (hcarries : t.carries true = true)
    (h : t.isDefinition (p = .schema || p = .redefineDoc) = false) : p.carries true = true := by
  have hall : (p.children.all fun t => !(t.carries true &&
      !t.isDefinition (p = .schema || p = .redefineDoc) && !p.carries true)) = true := by
    cases p <;> rfl
  have hnot := not_of_mayContain hall hmay
  rw [hcarries, h] at hnot
  simpa using hnot

/-- Elements and references to groups have occurrences passed on to them. -/
theorem carries_of_local {p t : Tag} (hmay : p.mayContain t = true) (ht : t = .element ∨ t = .group)
    (h : (p = .schema || p = .redefineDoc : Bool) = false) : p.carries true = true := by
  have hall : (p.children.all fun t => !((t = .element || t = .group : Bool) &&
      !(p = .schema || p = .redefineDoc : Bool) && !p.carries true)) = true := by
    cases p <;> rfl
  have hnot := not_of_mayContain hall hmay
  have ht' : (t = .element || t = .group : Bool) = true := by simpa using ht
  rw [ht', h] at hnot
  simpa using hnot

end Tag

/-- How often the content of a node may occur within what stands around the node. -/
def Node.factor (n : Node) : ℕ × ℕ∞ :=
  match n.tag with
  | .sequence | .all => n.givenOccurs.range
  | .choice => (0, 1) * n.givenOccurs.range
  | _ => 1

theorem Node.factor_of_not_isCompositor {n : Node} (h : n.tag.isCompositor = false) :
    n.factor = 1 := by
  unfold factor
  split <;> first | rfl | (rename_i htag; rw [htag] at h; cases h)

theorem Node.givenOccurs_eq {n n' : Node} (h : n'.attributes = n.attributes) :
    n'.givenOccurs = n.givenOccurs := by
  rw [givenOccurs, attribute?, attribute?, h, givenOccurs, attribute?, attribute?]

/-- Nothing is required within a choice, and otherwise the least numbers are multiplied. -/
theorem prod_factor_fst (l : List Node) :
    (l.map Node.factor).prod.1 = if l.any fun n => n.tag = .choice then 0 else
      ((l.filter fun n => n.tag.isCompositor).map fun n => n.givenOccurs.min.val).prod := by
  induction l with
  | nil => rfl
  | cons n l ih =>
    rw [List.map_cons, List.prod_cons, Prod.fst_mul, ih, List.any_cons]
    cases htag : n.tag.isCompositor with
    | false =>
      have hchoice : n.tag ≠ .choice := by
        intro h
        rw [h] at htag
        cases htag
      rw [Node.factor_of_not_isCompositor htag, Prod.fst_one, one_mul, decide_eq_false hchoice,
        Bool.false_or, List.filter_cons_of_neg (by simp [htag])]
    | true =>
      rw [List.filter_cons_of_pos (by simp [htag]), List.map_cons, List.prod_cons]
      by_cases hchoice : n.tag = .choice
      · simp [Node.factor, hchoice]
      · have hfactor : n.factor = n.givenOccurs.range := by
          unfold Node.factor
          cases hn : n.tag <;> rw [hn] at htag hchoice <;>
            first | rfl | exact absurd rfl hchoice | cases htag
        rw [hfactor, decide_eq_false hchoice, Bool.false_or, mul_ite, mul_zero]
        rfl

/-- The greatest numbers are multiplied. -/
theorem prod_factor_snd (l : List Node) :
    (l.map Node.factor).prod.2 =
      ((l.filter fun n => n.tag.isCompositor).map fun n => n.givenOccurs.max.toENat).prod := by
  induction l with
  | nil => rfl
  | cons n l ih =>
    rw [List.map_cons, List.prod_cons, Prod.snd_mul, ih]
    cases htag : n.tag.isCompositor with
    | false =>
      rw [Node.factor_of_not_isCompositor htag, Prod.snd_one, one_mul,
        List.filter_cons_of_neg (by simp [htag])]
    | true =>
      rw [List.filter_cons_of_pos (by simp [htag]), List.map_cons, List.prod_cons]
      congr 1
      unfold Node.factor
      cases hn : n.tag <;> rw [hn] at htag <;> first | rfl | exact one_mul _ | cases htag

namespace Site

variable {s : Site} {e : Effect} {n : Node}

/-- A definition has particles of its own. -/
theorem childOccurs_definition (h : s.plan.effect = .ok e)
    (hdef : s.tag.isDefinition s.isGlobal = true) : e.childOccurs = .once := by
  cases ht : s.tag <;> rw [ht] at hdef
  case complexType | simpleType =>
    obtain ⟨payload, hplan⟩ := plan_type (s := s) (by rw [ht]; simp)
    rw [hplan] at h
    obtain ⟨declares, rfl, _⟩ := typeDefinition_effect h
    rfl
  case group =>
    rw [plan_group ht] at h
    rcases group_effect h with ⟨_, _, localName, rfl⟩ | ⟨hlocal, _⟩
    · rfl
    · rw [hlocal] at hdef
      cases hdef
  all_goals cases hdef

/-- Anything else multiplies the occurrences around it or passes them on. -/
theorem childOccurs_within (h : s.plan.effect = .ok e) (hcarries : s.tag.carries true = true)
    (hdef : s.tag.isDefinition s.isGlobal = false) (htag : s.tag = n.tag)
    (hattributes : s.attributes = n.attributes) {x : ℕ × ℕ∞} (hx : s.occurs = .cap x) :
    e.childOccurs = .cap (n.factor * x) := by
  have hpassed : e.childOccurs = s.occurs → n.tag.isCompositor = false →
      e.childOccurs = .cap (n.factor * x) := by
    intro hsame hcompositor
    rw [hsame, hx, Node.factor_of_not_isCompositor hcompositor, one_mul]
  cases ht : s.tag <;> rw [ht] at hcarries hdef
  case sequence | all =>
    obtain ⟨own, hown, _, rfl⟩ := plan_particle (s := s) (by rw [ht]; simp) h
    simp only [ht, Node.factor, ← htag, givenOccurs_eq hown hattributes, hx,
      ← Occurrence.cap_mul_range, mul_comm x]
    rfl
  case choice =>
    obtain ⟨own, hown, _, rfl⟩ := plan_particle (s := s) (by rw [ht]; simp) h
    simp only [ht, Node.factor, ← htag, givenOccurs_eq hown hattributes, hx,
      ← Occurrence.cap_mul_range, mul_comm x, mul_assoc]
    exact Occurrence.optional_cap _
  case group =>
    refine hpassed ?_ (by rw [← htag, ht]; rfl)
    rw [plan_group ht] at h
    rcases group_effect h with ⟨hglobal, _⟩ | ⟨_, _, _, _, rfl, _⟩
    · rw [hglobal] at hdef
      cases hdef
    · rfl
  case extension | restriction =>
    refine hpassed ?_ (by rw [← htag, ht]; rfl)
    obtain ⟨base, _, rfl⟩ := plan_derivation (s := s) (by rw [ht]; simp) h
    rfl
  case complexContent | simpleContent =>
    refine hpassed ?_ (by rw [← htag, ht]; rfl)
    exact (plan_inactive (by rw [ht]; rfl) h).2.2.2.1
  all_goals first | exact absurd hcarries (by decide) | cases hdef

end Site

namespace Graph

variable {g g' : Graph} {owner n p : NodeId} {between : List NodeId} {occurs : Occurrence}

/-- Whether a node stands directly in `schema` or `redefine`. -/
def isGlobal (g : Graph) (n : NodeId) : Bool :=
  ((g.nodeAt n).parent.map fun p => (g.nodeAt p).tag).any fun tag =>
    tag = .schema || tag = .redefineDoc

/-- Whether a node is the definition of a type or of a group. -/
def defines (g : Graph) (n : NodeId) : Bool :=
  (g.nodeAt n).tag.isDefinition (g.isGlobal n)

/-- The definition that the content of a node belongs to is the innermost one around it; `between`
are the nodes from there up to the definition. -/
inductive Around (g : Graph) (owner : NodeId) : NodeId → List NodeId → Prop
  | definition (hdef : g.defines owner = true) : Around g owner owner []
  | within {n p : NodeId} {between : List NodeId} (hdef : g.defines n = false)
      (hparent : (g.nodeAt n).parent = some p) (houter : Around g owner p between) :
      Around g owner n (n :: between)

/-- The content of a node stands in the scope of the definition it belongs to, with the product of
the occurrences of all that is between. -/
structure Belongs (g : Graph) (n : NodeId) (occurs : Occurrence) (owner : NodeId)
    (between : List NodeId) : Prop where
  lt : n < g.nodes.size
  around : g.Around owner n between
  scope : (g.nodeAt owner).ownScope = some (g.nodeAt n).contentScope
  occurs_eq : occurs = .cap (between.map fun m => (g.nodeAt m).factor).prod

theorem Around.le (h : g.Around owner n between) (hg : g.Sound) (hn : n < g.nodes.size) :
    owner ≤ n ∧ ∀ m ∈ between, m ≤ n := by
  induction h with
  | definition => exact ⟨Nat.le_refl _, fun m hm => absurd hm List.not_mem_nil⟩
  | within _ hparent _ ih =>
    have hlt := hg.tree.parent_lt _ _ hn hparent
    obtain ⟨howner, hbetween⟩ := ih (Nat.lt_trans hlt hn)
    refine ⟨Nat.le_trans howner (Nat.le_of_lt hlt), fun m hm => ?_⟩
    rcases List.mem_cons.mp hm with rfl | hm
    · exact Nat.le_refl _
    · exact Nat.le_trans (hbetween m hm) (Nat.le_of_lt hlt)

theorem Around.defines (h : g.Around owner n between) : g.defines owner = true := by
  induction h with
  | definition hdef => exact hdef
  | within _ _ _ ih => exact ih

theorem Extends.isGlobal (hext : g.Extends g') (hg : g.Sound) (hn : n < g.nodes.size) :
    g'.isGlobal n = g.isGlobal n := by
  unfold Graph.isGlobal
  rw [parent_eq_of_core (hext.core n hn)]
  cases hparent : (g.nodeAt n).parent with
  | none => rfl
  | some p => rw [Option.map_some, Option.map_some, hext.tag (hg.parent_lt_size hn hparent)]

theorem Extends.defines (hext : g.Extends g') (hg : g.Sound) (hn : n < g.nodes.size) :
    g'.defines n = g.defines n := by
  rw [Graph.defines, hext.tag hn, hext.isGlobal hg hn, Graph.defines]

theorem Extends.factor (hext : g.Extends g') (hn : n < g.nodes.size) :
    (g'.nodeAt n).factor = (g.nodeAt n).factor := by
  unfold Node.factor
  rw [hext.tag hn, Node.givenOccurs_eq (attributes_eq_of_core (hext.core n hn))]

theorem Around.mono (h : g.Around owner n between) (hg : g.Sound) (hext : g.Extends g')
    (hn : n < g.nodes.size) : g'.Around owner n between := by
  induction h with
  | definition hdef => exact .definition ((hext.defines hg hn).trans hdef)
  | within hdef hparent _ ih =>
    exact .within ((hext.defines hg hn).trans hdef)
      ((parent_eq_of_core (hext.core _ hn)).trans hparent) (ih (hg.parent_lt_size hn hparent))

theorem Belongs.mono (h : g.Belongs n occurs owner between) (hg : g.Sound) (hext : g.Extends g') :
    g'.Belongs n occurs owner between := by
  obtain ⟨howner, hbetween⟩ := h.around.le hg h.lt
  refine ⟨Nat.lt_of_lt_of_le h.lt hext.nodes_le, h.around.mono hg hext h.lt, ?_, ?_⟩
  · rw [ownScope_eq_of_core (hext.core _ (Nat.lt_of_le_of_lt howner h.lt)), hext.contentScope h.lt]
    exact h.scope
  · rw [h.occurs_eq]
    congr 2
    refine List.map_congr_left fun m hm => ?_
    rw [hext.factor (Nat.lt_of_le_of_lt (hbetween m hm) h.lt)]

namespace Traced

variable {s : Site} {e : Effect}

theorem isGlobal_iff (ht : g.Traced n p s e) : g.isGlobal n = s.isGlobal := by
  rw [Graph.isGlobal, ht.parent, ht.isGlobal_eq]
  rfl

/-- The content of a definition belongs to it. -/
theorem belongs_definition (ht : g.Traced n p s e) (hn : n < g.nodes.size)
    (hdef : g.defines n = true) : g.Belongs n e.childOccurs n [] := by
  rw [Graph.defines, ht.isGlobal_iff] at hdef
  refine ⟨hn, .definition (by rw [Graph.defines, ht.isGlobal_iff, hdef]), ?_, ?_⟩
  · have hsome := ht.ownScope_isSome
    rw [Tag.opens_of_isDefinition hdef] at hsome
    obtain ⟨own, hown⟩ := Option.isSome_iff_exists.mp hsome
    rw [Node.contentScope, hown]
    rfl
  · rw [List.map_nil, List.prod_nil, Occurrence.cap_one]
    exact Site.childOccurs_definition ht.effect (by rw [ht.tag]; exact hdef)

/-- The content of anything else belongs to what it stands in. -/
theorem belongs_within (ht : g.Traced n p s e) (hg : g.Sound) (hn : n < g.nodes.size)
    (hcarries : (g.nodeAt n).tag.carries true = true) (hdef : g.defines n = false)
    (h : g.Belongs p s.occurs owner between) :
    g.Belongs n e.childOccurs owner (n :: between) := by
  refine ⟨hn, .within hdef ht.parent h.around, ?_, ?_⟩
  all_goals rw [Graph.defines, ht.isGlobal_iff] at hdef
  · have hnone : (g.nodeAt n).ownScope = none := by
      rw [← Option.not_isSome_iff_eq_none, ht.ownScope_isSome, Tag.opens_of_carries hcarries hdef]
      exact Bool.false_ne_true
    rw [Node.contentScope, hnone, h.scope, ← hg.tree.parent_scope n p hn ht.parent]
    rfl
  · rw [List.map_cons, List.prod_cons]
    exact Site.childOccurs_within ht.effect (by rw [ht.tag]; exact hcarries)
      (by rw [ht.tag]; exact hdef) ht.tag ht.attributes h.occurs_eq

end Traced

/-- The elements and groups from `since` on were read with the occurrences around them. -/
def Nested (since : Nat) (g : Graph) : Prop :=
  ∀ n, since ≤ n → n < g.nodes.size →
    (g.nodeAt n).tag = .element ∨ (g.nodeAt n).tag = .group →
    ∃ p s e, g.Traced n p s e ∧
      (s.isGlobal = false → ∃ owner between, g.Belongs p s.occurs owner between)

/-- Nothing has been read since. -/
theorem nested_start (g : Graph) : g.Nested g.nodes.size :=
  fun _ hsince hn => absurd hn (Nat.not_lt.mpr hsince)

/-- What has been read stays as it is. -/
theorem Nested.old {since : Nat} (h : g.Nested since) (hg : g.Sound) (hext : g.Extends g')
    (hsince : since ≤ n) (hn : n < g.nodes.size)
    (htag : (g'.nodeAt n).tag = .element ∨ (g'.nodeAt n).tag = .group) :
    ∃ p s e, g'.Traced n p s e ∧
      (s.isGlobal = false → ∃ owner between, g'.Belongs p s.occurs owner between) := by
  rw [hext.tag hn] at htag
  obtain ⟨p, s, e, htraced, hbelongs⟩ := h n hsince hn htag
  refine ⟨p, s, e, htraced.mono hg hext hn, fun hlocal => ?_⟩
  obtain ⟨owner, between, hbelongs⟩ := hbelongs hlocal
  exact ⟨owner, between, hbelongs.mono hg hext⟩

/-- Nothing new is read. -/
theorem Nested.extend {since : Nat} (h : g.Nested since) (hg : g.Sound) (hext : g.Extends g')
    (hsize : g'.nodes.size = g.nodes.size) : g'.Nested since := by
  intro n hsince hn
  rw [hsize] at hn
  exact h.old hg hext hsince hn

end Graph

namespace Reading

variable {r r' : Reading} {request : Request} {f : Frame} {first since : Nat}

/-- After every event of a document: the open tags have the occurrences around their content. -/
structure Nests (since : Nat) (r : Reading) : Prop where
  frames : ∀ f ∈ r.frames, f.tag.carries true = true →
    ∃ owner between, r.graph.Belongs f.node f.occurs owner between
  nested : r.graph.Nested since

namespace Nests

/-- The graph grows and no tag opens. -/
theorem extend (h : r.Nests since) (hg : r.graph.Sound) (hext : r.graph.Extends r'.graph)
    (hsize : r'.graph.nodes.size = r.graph.nodes.size) (hframes : r'.frames ⊆ r.frames) :
    r'.Nests since := by
  refine ⟨fun f hf hcarries => ?_, h.nested.extend hg hext hsize⟩
  obtain ⟨owner, between, hbelongs⟩ := h.frames f (hframes hf) hcarries
  exact ⟨owner, between, hbelongs.mono hg hext⟩

/-- One more tag is open. -/
theorem push (h : r.Nests since) (hg : r.graph.Sound) {node : Node}
    (hnew : r.graph.Newest r'.graph node) (hframes : r'.frames = f :: r.frames)
    (hframe : f.tag.carries true = true →
      ∃ owner between, r'.graph.Belongs f.node f.occurs owner between)
    (hnode : node.tag = .element ∨ node.tag = .group →
      ∃ p s e, r'.graph.Traced r.graph.nodes.size p s e ∧
        (s.isGlobal = false → ∃ owner between, r'.graph.Belongs p s.occurs owner between)) :
    r'.Nests since := by
  refine ⟨fun f' hf' hcarries => ?_, fun n hsince hn htag => ?_⟩
  · rw [hframes] at hf'
    rcases List.mem_cons.mp hf' with rfl | hold
    · exact hframe hcarries
    · obtain ⟨owner, between, hbelongs⟩ := h.frames f' hold hcarries
      exact ⟨owner, between, hbelongs.mono hg hnew.ext⟩
  · rw [hnew.size] at hn
    rcases Nat.lt_or_eq_of_le (Nat.le_of_lt_succ hn) with hold | rfl
    · exact h.nested.old hg hnew.ext hsince hold htag
    · rw [hnew.tag] at htag
      exact hnode htag

/-- A tag within another one opens. -/
theorem opens (h : r.Nests since) (hg : r.graph.Sound) (hf : f ∈ r.frames) {node : Node} {s : Site}
    {e : Effect} {own : ScopeId} (hmay : f.tag.mayContain node.tag = true)
    (hopens : r.Opens r' f node s e own) : r'.Nests since := by
  have htraced := hopens.traced
  have hnewest := hopens.newest
  have hglobal : s.isGlobal = (f.tag = .schema || f.tag = .redefineDoc : Bool) := by
    rw [Site.isGlobal, hopens.place.2.2]
    simp
  -- the occurrences around the new tag are those of the content of the tag it stands in
  have houter : f.tag.carries true = true →
      ∃ owner between, r'.graph.Belongs f.node s.occurs owner between := by
    intro hcarries
    obtain ⟨owner, between, hbelongs⟩ := h.frames f hf hcarries
    rw [hopens.occurs]
    exact ⟨owner, between, hbelongs.mono hg hnewest.ext⟩
  refine h.push hg hnewest hopens.frames (fun hcarries => ?_) fun htag => ?_
  · change node.tag.carries true = true at hcarries
    cases hdef : r'.graph.defines r.graph.nodes.size with
    | true => exact ⟨_, _, htraced.belongs_definition hnewest.lt hdef⟩
    | false =>
      have hnot := hdef
      rw [Graph.defines, htraced.isGlobal_iff, hnewest.tag, hglobal] at hnot
      obtain ⟨owner, between, hbelongs⟩ := houter (Tag.carries_around hmay hcarries hnot)
      refine ⟨_, _, htraced.belongs_within hnewest.sound hnewest.lt ?_ hdef hbelongs⟩
      rw [hnewest.tag]
      exact hcarries
  · refine ⟨_, s, e, htraced, fun hlocal => houter ?_⟩
    exact Tag.carries_of_local hmay htag (hglobal.symm.trans hlocal)

/-- One event of a document. -/
theorem step (h : r.Nests since) (hr : r.Intact first) {event : Position × Markup.Event}
    (hok : Reading.step request r event = .ok r') : r'.Nests since := by
  have hlistens : ∀ {r' : Reading}, r.Listens r' → r'.Nests since := by
    intro r' hlistens
    rcases hlistens.graph with heq | ⟨id, f, hf, heq⟩
    · refine h.extend hr.graph.sound ?_ ?_ hlistens.frames <;> rw [heq]
      exact Graph.Extends.refl _
    · refine h.extend hr.graph.sound ?_ ?_ hlistens.frames <;> rw [heq]
      · exact Graph.Extends.modifyNode _ _ hf.core
      · exact Graph.modifyNode_nodes_size _ _ _
  obtain ⟨position, event⟩ := event
  cases event with
  | opened name attributes =>
    have h₁ : (r.within attributes).Nests since := ⟨h.frames, h.nested⟩
    have hr₁ : (r.within attributes).Intact first := ⟨hr.graph, hr.stands, hr.outer⟩
    rw [step_opened] at hok
    rcases opened_cases request r position name attributes with
      ⟨skipped, diagnostics, heq⟩ | ⟨error, heq⟩ | heq | ⟨f, tag, hf, hmay, heq⟩
    · cases heq.symm.trans hok
      exact h.extend hr.graph.sound (reported hr.graph.sound diagnostics).2 rfl (List.Subset.refl _)
    · cases heq.symm.trans hok
    · cases heq.symm.trans hok
      obtain ⟨node, document, hopens⟩ := openSchema_opens hr₁.graph.sound
        hr₁.graph.schemaNamespace_lt request position (plainAttributes attributes)
      refine h₁.push hr₁.graph.sound hopens.newest hopens.frames (fun hcarries => by cases hcarries)
        fun htag => ?_
      rw [hopens.outermost.1] at htag
      rcases htag with htag | htag <;> cases htag
    · obtain ⟨node, s, e, own, rfl, hopens⟩ :=
        openTag_opens hr₁.graph.sound (hr₁.stands f hf) hmay (heq.symm.trans hok)
      exact h₁.opens hr₁.graph.sound hf hmay hopens
  | closed =>
    cases hok
    exact hlistens r.closed_listens
  | text content =>
    cases hok
    exact hlistens (r.text_listens content)

end Nests

/-- The elements and groups of a document that is read have the occurrences around them. -/
theorem read_nested {g g' : Graph} (hg : g.Intact first) (h : g.Nested since) {text : String}
    {parsed : Parsed} (hok : Reading.read request g text = .ok (g', parsed)) : g'.Nested since := by
  unfold Reading.read readStream at hok
  obtain ⟨r, hr, hfinish⟩ := bind_eq_ok.mp hok
  have hboth : r.Intact first ∧ r.Nests since := by
    refine foldlM_keeps (P := fun r => r.Intact first ∧ r.Nests since)
      (fun r event _ r' hr hstep => ⟨?_, hr.2.step hr.1 hstep⟩)
      ⟨.start hg, fun _ hf => absurd hf List.not_mem_nil, h⟩ hr
    have hyields := hr.1.step request event
    rw [hstep] at hyields
    exact hyields
  rw [(finish_eq_ok hfinish).1]
  exact hboth.2.nested

end Reading

namespace Loading

variable {l l' : Loading} {first since : Nat} {documents : String → Except FetchFault String}

theorem enqueueAll_nested (hl : l.graph.Intact first) (h : l.graph.Nested since)
    (requests : List Request) : (requests.foldl enqueue l).graph.Nested since := by
  refine (List.foldlRecOn (motive := fun l : Loading => l.graph.Intact first ∧
    l.graph.Nested since) requests enqueue ⟨hl, h⟩ fun l hboth request _ =>
      ⟨hboth.1.enqueue request, ?_⟩).2
  rcases (enqueue_cases l request).2.2 with heq | ⟨uri, heq⟩ <;> rw [heq]
  · exact hboth.2
  · exact hboth.2.extend hboth.1.sound (Graph.Extends.register _ uri) (by rw [Graph.register_nodes])

/-- All documents that are read one after the other. -/
theorem answers_nested (hl : l.graph.Intact first) (h : l.graph.Nested since)
    (hanswers : Relation.ReflTransGen (Answers documents) l l') :
    l'.graph.Intact first ∧ l'.graph.Nested since := by
  induction hanswers with
  | refl => exact ⟨hl, h⟩
  | @tail l₁ _ _ hlast ih =>
    obtain ⟨hintact, hnested⟩ := ih
    obtain ⟨request, pending, _, hok⟩ := hlast
    have hreceive := Graph.Intact.receive (l := { l₁ with pending }) hintact request
      (documents request.url)
    rw [hok] at hreceive
    refine ⟨hreceive, ?_⟩
    rcases receive_eq_ok hok with ⟨_, _, _, rfl⟩ | ⟨text, graph, _, _, hread, rfl⟩
    · exact hnested
    · have hgraph : graph.Intact first := by
        have hyields := Reading.read_intact hintact request text
        rw [hread] at hyields
        exact hyields
      exact enqueueAll_nested hgraph (Reading.read_nested hintact hnested hread) _

/-- The elements and groups of all documents that a load reads have the occurrences around them. -/
theorem load_nested {g g' : Graph} (hg : g.Intact first) {limit : Nat} {url : String}
    {ns : Option String} {entry : NamespaceId}
    (hok : load (m := Id) documents limit g url ns = .ok (g', entry)) :
    g'.Nested g.nodes.size := by
  cases hread : g.documentId? url with
  | some id =>
    unfold load at hok
    rw [hread] at hok
    cases hok
    exact Graph.nested_start g
  | none =>
    obtain ⟨l, resolved, hrun, hresolve, rfl⟩ := load_eq_ok hread hok
    have hstart : (start g url ns).graph.Nested g.nodes.size :=
      enqueueAll_nested (l := { graph := g }) hg (Graph.nested_start g) [.entry url ns]
    obtain ⟨hintact, hnested⟩ := answers_nested
      (Graph.Intact.enqueue (l := { graph := g }) hg (.entry url ns)) hstart (run_eq_ok hrun).1
    obtain ⟨hext, hsize⟩ := resolveAll_extends hresolve
    have hresolved : Yields (Graph.Intact first) (fun halt => halt.graph.Intact first)
        (Resolution.resolveAll l.graph g.nodes.size) :=
      Yields.foldlM (fun g id hg => hg.resolveNode id) _ hintact
    rw [hresolve] at hresolved
    exact (hnested.extend hintact.sound hext hsize).extend hresolved.sound
      (extends_markLoaded resolved) rfl

end Loading

namespace Graph

variable {g g' : Graph}

/-- What is declared in one scope is declared nowhere else. -/
theorem Sound.entries_of_node (h : g.Sound) {d : Declaration} {own : ScopeId}
    (hd : d ∈ (g.scopeAt own).entries) (s : ScopeId) :
    ((g.scopeAt s).entries.filter fun d' => d'.node = d.node) = if s = own then [d] else [] := by
  split
  · rename_i hs
    subst hs
    exact filter_eq_singleton (h.declared.nodup s) hd
  · rename_i hs
    refine List.filter_eq_nil_iff.mpr fun d' hd' heq => hs ?_
    rw [← (h.declared.entry s d' hd').scope, of_decide_eq_true heq, (h.declared.entry own d hd).scope]

/-- The particle and the compositors among the nodes around it. -/
def multipliers (g : Graph) (n : NodeId) (between : List NodeId) : List Node :=
  g.nodeAt n :: (between.map g.nodeAt).filter fun m => m.tag.isCompositor

/-- An element or a reference to a group is declared with the occurrences around it. -/
theorem Traced.declares_local {n p : NodeId} {s : Site} {e : Effect} (ht : g.Traced n p s e)
    (htag : (g.nodeAt n).tag = .element ∨ (g.nodeAt n).tag = .group)
    (hlocal : s.isGlobal = false) :
    ∃ name, e.declares = some ⟨name, if (g.nodeAt n).tag = .element then .element else .groupRef,
      s.occurs.times (g.nodeAt n).givenOccurs⟩ := by
  rw [← ht.tag] at htag ⊢
  rcases htag with htag | htag
  · obtain ⟨_, _, name, occurs, _, rfl, htimes⟩ := Site.plan_element htag ht.effect
    obtain ⟨own, hown, rfl⟩ := htimes hlocal
    rw [if_pos htag, Site.givenOccurs_eq hown ht.attributes]
    exact ⟨some name, rfl⟩
  · have heffect := ht.effect
    rw [Site.plan_group htag] at heffect
    rcases Site.group_effect heffect with ⟨hglobal, _⟩ | ⟨_, _, occurs, _, rfl, htimes⟩
    · rw [hlocal] at hglobal
      cases hglobal
    · obtain ⟨own, hown, rfl⟩ := htimes htag
      rw [if_neg (by rw [htag]; decide), Site.givenOccurs_eq hown ht.attributes]
      exact ⟨none, rfl⟩

/-- The occurrences of a particle, as numbers. -/
theorem Belongs.bounds {p owner : NodeId} {between : List NodeId} {occurs : Occurrence}
    (h : g.Belongs p occurs owner between) (n : NodeId) :
    (occurs.times (g.nodeAt n).givenOccurs).min.val =
        (if (between.map g.nodeAt).any fun m => m.tag = .choice then 0 else
          min ((g.multipliers n between).map fun m => m.givenOccurs.min.val).prod Count.limit) ∧
      (occurs.times (g.nodeAt n).givenOccurs).max =
        .cap ((g.multipliers n between).map fun m => m.givenOccurs.max.toENat).prod := by
  have hfactors : (between.map fun m => (g.nodeAt m).factor) =
      (between.map g.nodeAt).map Node.factor := by
    rw [List.map_map]
    rfl
  rw [h.occurs_eq, ← Occurrence.cap_mul_range, hfactors, mul_comm]
  constructor
  · change min ((g.nodeAt n).givenOccurs.min.val * _) Count.limit = _
    rw [prod_factor_fst]
    split
    · rw [Nat.mul_zero, Nat.zero_min]
    · rfl
  · change Bound.cap ((g.nodeAt n).givenOccurs.max.toENat * _) = _
    rw [prod_factor_snd]
    rfl

/-- What a call leads to if it succeeds. -/
def Call.outcome (g : Graph) : Call → Except Halt Graph
  | .read request text => (Reading.read request g text).map Prod.fst
  | .load documents limit url ns => (Loading.load (m := Id) documents limit g url ns).map Prod.fst

theorem Intact.outcome {first : Nat} (h : g.Intact first) {call : Call} (hok : call.outcome g = .ok g') :
    g'.Intact first ∧ g'.Nested g.nodes.size := by
  cases call with
  | read request text =>
    obtain ⟨⟨_, parsed⟩, hread, rfl⟩ := map_eq_ok.mp hok
    have hintact := Reading.read_intact h request text
    rw [hread] at hintact
    exact ⟨hintact, Reading.read_nested h (nested_start g) hread⟩
  | load documents limit url ns =>
    obtain ⟨⟨_, entry⟩, hload, rfl⟩ := map_eq_ok.mp hok
    have hintact := h.load documents limit url ns
    rw [hload] at hintact
    exact ⟨hintact, Loading.load_nested h hload⟩

/-- In documents that are accepted, every local element and every reference to a group is declared
once, in the scope of the innermost type or group definition around it. Its least number is the
product of the least numbers that the particle and the compositors between give, or nothing if one of
them is a choice; its greatest number is the product of the greatest ones. -/
theorem particle_occurs_product (policy : RepeatPolicy) (calls : List Call) {call : Call}
    (hg : calls.foldl Call.perform (initial policy) = g) (hok : call.outcome g = .ok g') {n : NodeId}
    (hnew : g.nodes.size ≤ n) (hn : n < g'.nodes.size)
    (htag : (g'.nodeAt n).tag = .element ∨ (g'.nodeAt n).tag = .group)
    (hlocal : g'.isGlobal n = false) :
    ∃ p owner own between d, (g'.nodeAt n).parent = some p ∧ g'.Around owner p between ∧
      (g'.nodeAt owner).ownScope = some own ∧
      (∀ s, ((g'.scopeAt s).entries.filter fun d' => d'.node = n) = if s = own then [d] else []) ∧
      d.space = (if (g'.nodeAt n).tag = .element then .element else .groupRef) ∧
      d.occurs.min.val = (if (between.map g'.nodeAt).any fun m => m.tag = .choice then 0 else
        min ((g'.multipliers n between).map fun m => m.givenOccurs.min.val).prod Count.limit) ∧
      d.occurs.max = .cap ((g'.multipliers n between).map fun m => m.givenOccurs.max.toENat).prod := by
  have hintact : g.Intact (initial policy).nodes.size := hg ▸ (intact_initial policy).calls calls
  obtain ⟨hintact', hnested⟩ := hintact.outcome hok
  have hsound := hintact'.sound
  obtain ⟨p, s, e, htraced, hbelongs⟩ := hnested n hnew hn htag
  rw [htraced.isGlobal_iff] at hlocal
  obtain ⟨owner, between, hbelongs⟩ := hbelongs hlocal
  have hscope := hsound.tree.parent_scope n p hn htraced.parent
  obtain ⟨howner, _⟩ := hbelongs.around.le hsound hbelongs.lt
  have hinner : (g'.scopeAt (g'.nodeAt n).scope).parent ≠ none := by
    rw [hscope]
    rcases hsound.tree.own_parent owner _ (Nat.lt_of_le_of_lt howner hbelongs.lt) hbelongs.scope with
      hparent | ⟨_, _, hschema⟩
    · rw [hparent]
      exact Option.some_ne_none _
    · have hdef := hbelongs.around.defines
      rw [defines, hschema] at hdef
      cases hdef
  obtain ⟨name, hdeclares⟩ := htraced.declares_local htag hlocal
  have hentry := (htraced.declares _ hdeclares).2 hinner
  obtain ⟨hmin, hmax⟩ := hbelongs.bounds n
  rw [hscope] at hentry
  exact ⟨p, owner, _, between, _, htraced.parent, hbelongs.around, hbelongs.scope,
    hsound.entries_of_node hentry, rfl, hmin, hmax⟩

/-- An element in two sequences, one within the other, which is required more often than a count can
tell. -/
def deepDocument : String :=
  "<x:schema xmlns:x='http://www.w3.org/2001/XMLSchema'><x:complexType name='T'>" ++
    "<x:sequence minOccurs='65536' maxOccurs='unbounded'><x:sequence minOccurs='65536'>" ++
    "<x:element name='e'/></x:sequence></x:sequence></x:complexType></x:schema>"

set_option maxRecDepth 100000 in
theorem particle_occurs_product_example : ∃ g',
    (Call.read (.entry "a" none) deepDocument).outcome (initial .standard) = .ok g' ∧
    (g'.nodeAt 54).tag = .element ∧
    ((g'.scopeAt 3).entries.map fun d => (d.node, d.occurs)) =
      [(54, ⟨Count.cap (65536 * 65536), .unbounded⟩)] ∧
    ∃ p owner own between d, (g'.nodeAt 54).parent = some p ∧ g'.Around owner p between ∧
      (g'.nodeAt owner).ownScope = some own ∧
      ((g'.scopeAt own).entries.filter fun d' => d'.node = 54) = [d] ∧
      d.occurs.max =
        .cap ((g'.multipliers 54 between).map fun m => m.givenOccurs.max.toENat).prod := by
  have heval : (((Call.read (.entry "a" none) deepDocument).outcome (initial .standard)).toOption.map
      fun g' => (decide ((initial .standard).nodes.size ≤ 54 ∧ 54 < g'.nodes.size),
        (g'.nodeAt 54).tag, g'.isGlobal 54,
        (g'.scopeAt 3).entries.map fun d => (d.node, d.occurs))) =
      some (true, .element, false, [(54, ⟨Count.cap (65536 * 65536), .unbounded⟩)]) := by
    have htext : deepDocument.toList = _ :=
      Loading.toList_append_ofList (Loading.toList_append_ofList String.toList_ofList)
    rw [Call.outcome, Loading.read_of_toList htext]
    decide +kernel
  obtain ⟨g', hok, hresult⟩ := eq_ok_of_toOption heval
  simp only [Prod.mk.injEq] at hresult
  obtain ⟨hsize, htag, hlocal, hentries⟩ := hresult
  obtain ⟨hnew, hn⟩ := of_decide_eq_true hsize
  obtain ⟨p, owner, own, between, d, hparent, haround, hown, honly, _, _, hmax⟩ :=
    particle_occurs_product .standard [] rfl hok hnew hn (Or.inl htag) hlocal
  refine ⟨g', hok, htag, hentries, p, owner, own, between, d, hparent, haround, hown, ?_, hmax⟩
  rw [honly, if_pos rfl]

/-- A complex type with an attribute whose type, a simple one, has an element. -/
def innerDocument : String :=
  "<schema xmlns='http://www.w3.org/2001/XMLSchema'><complexType name='T'><attribute name='a'>" ++
    "<simpleType><restriction base='string'><sequence><element name='e' type='string'/>" ++
    "</sequence></restriction></simpleType></attribute></complexType></schema>"

set_option maxRecDepth 100000 in
/-- An element need not be declared by a complex type or a group: there is one within a complex type
that the simple type between them declares. -/
theorem element_declared_by_simpleType : ∃ g',
    (Call.read (.entry "a.xsd" none) innerDocument).outcome (initial .standard) = .ok g' ∧
    (g'.nodeAt 56).tag = .element ∧ g'.isGlobal 56 = false ∧
    ((g'.scopeAt 5).entries.map Declaration.node) = [56] ∧
    ∀ owner < g'.nodes.size, ∀ own, (g'.nodeAt owner).ownScope = some own →
      56 ∈ (g'.scopeAt own).entries.map Declaration.node → (g'.nodeAt owner).tag = .simpleType := by
  have heval : (((Call.read (.entry "a.xsd" none) innerDocument).outcome
      (initial .standard)).toOption.map fun g' =>
        ((g'.nodeAt 56).tag, g'.isGlobal 56, (g'.scopeAt 5).entries.map Declaration.node,
          decide (∀ owner < g'.nodes.size, ∀ own ∈ (g'.nodeAt owner).ownScope,
            56 ∈ (g'.scopeAt own).entries.map Declaration.node →
              (g'.nodeAt owner).tag = .simpleType))) =
      some (.element, false, [56], true) := by
    have htext : innerDocument.toList = _ :=
      Loading.toList_append_ofList (Loading.toList_append_ofList String.toList_ofList)
    rw [Call.outcome, Loading.read_of_toList htext]
    decide +kernel
  obtain ⟨g', hok, hresult⟩ := eq_ok_of_toOption heval
  simp only [Prod.mk.injEq] at hresult
  obtain ⟨htag, hlocal, hentries, howner⟩ := hresult
  exact ⟨g', hok, htag, hlocal, hentries, of_decide_eq_true howner⟩

end Graph

end XsdTypes
