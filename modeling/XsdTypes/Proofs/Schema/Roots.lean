import XsdTypes.Proofs.Schema.Spelling

/-!
# One document for each outermost tag

Reading knows no end of a document but the end of the text. After the outermost tag has closed, no tag
is open, as before it opened, so the next tag is an outermost one as well: it has to be a `schema` tag,
and another document begins with it. So a text has as many documents as it has outermost tags
(`Markup.roots`), all with the URL that was asked for. The nodes of each document come together
(`Graph.owners`), and what is given back as the document is the last one.
-/

namespace XsdTypes

open Sequencing

/-- The names and attributes of the tags that open where no tag is open, if `depth` tags are open
before. -/
def Markup.roots {α : Type} : Nat → List (α × Event) → List (String × List (String × String))
  | _, [] => []
  | depth, (_, .opened name attributes) :: items =>
    if depth = 0 then (name, attributes) :: roots 1 items else roots (depth + 1) items
  | depth, (_, .closed) :: items => roots (depth - 1) items
  | depth, (_, .text _) :: items => roots depth items

theorem Markup.map_roots {α : Type} (depth : Nat) (items : List (α × Event)) :
    (roots depth items).map Prod.snd = outermost depth items := by
  fun_induction roots depth items with
  | case1 => rfl
  | case2 place name attributes items ih => rw [outermost, if_pos rfl, List.map_cons, ih]
  | case3 depth place name attributes items hdepth ih => rw [outermost, if_neg hdepth, ih]
  | case4 depth place items ih => rw [outermost, ih]
  | case5 depth place content items ih => rw [outermost, ih]

theorem Tag.ofQName?_eq_schema {q : QName} (h : ofQName? q = some .schema) :
    q = QName.schema "schema" := by
  obtain ⟨uri, localName⟩ := q
  unfold ofQName? at h
  split at h
  · rename_i huri
    simp only at huri h
    subst huri
    unfold ofLocal? at h
    split at h <;> first | rfl | cases h
  · cases h

namespace Graph

variable {g g' : Graph} {id : NodeId}

/-- The documents that the nodes belong to. -/
def owners (g : Graph) : List (Option DocumentId) :=
  (List.range g.nodes.size).map fun id => (g.nodeAt id).document

theorem owners_length (g : Graph) : g.owners.length = g.nodes.size := by
  rw [owners, List.length_map, List.length_range]

theorem owners_getElem? (g : Graph) (id : NodeId) :
    g.owners[id]? = if id < g.nodes.size then some (g.nodeAt id).document else none := by
  unfold owners
  split
  · rename_i hid
    simp [hid]
  · rename_i hid
    simpa using Nat.le_of_not_lt hid

theorem owners_congr (hsize : g'.nodes.size = g.nodes.size)
    (hkept : ∀ id, id < g.nodes.size → (g'.nodeAt id).document = (g.nodeAt id).document) :
    g'.owners = g.owners := by
  unfold owners
  rw [hsize]
  exact List.map_congr_left fun id hid => hkept id (List.mem_range.mp hid)

theorem owners_concat (hsize : g'.nodes.size = g.nodes.size + 1)
    (hkept : ∀ id, id < g.nodes.size → (g'.nodeAt id).document = (g.nodeAt id).document) :
    g'.owners = g.owners ++ [(g'.nodeAt g.nodes.size).document] := by
  unfold owners
  rw [hsize, List.range_succ, List.map_append, List.map_singleton]
  congr 1
  exact List.map_congr_left fun id hid => hkept id (List.mem_range.mp hid)

theorem owners_of_nodes (hnodes : g'.nodes = g.nodes) : g'.owners = g.owners :=
  owners_congr (congrArg Array.size hnodes) fun id _ => by rw [nodeAt, hnodes, nodeAt]

theorem owners_modifyNode (g : Graph) (id : NodeId) {f : Node → Node}
    (hf : ∀ n, (f n).document = n.document) : (g.modifyNode id f).owners = g.owners := by
  refine owners_congr (g.modifyNode_nodes_size id f) fun n _ => ?_
  rw [nodeAt_modifyNode]
  split
  · exact hf _
  · rfl

theorem owners_addNode (g : Graph) (node : Node) :
    (g.addNode node).1.owners = g.owners ++ [node.document] := by
  have hconcat := owners_concat (g.addNode_nodes_size node) fun id hid => by
    rw [nodeAt_addNode_of_lt _ _ hid]
  rw [nodeAt_addNode_self] at hconcat
  exact hconcat

/-- The last node may be given to another document. -/
theorem owners_modifyNode_last {node : Node} (hnodes : g'.nodes = g.nodes.push node)
    (f : Node → Node) :
    (g'.modifyNode g.nodes.size f).owners = g.owners ++ [(f node).document] := by
  have hat : ∀ id, g'.nodeAt id = (g.addNode node).1.nodeAt id := fun id => by
    rw [nodeAt, hnodes]
    rfl
  have hsize : g'.nodes.size = g.nodes.size + 1 := by rw [hnodes, Array.size_push]
  have hkept : ∀ id, id < g.nodes.size →
      ((g'.modifyNode g.nodes.size f).nodeAt id).document = (g.nodeAt id).document := by
    intro id hid
    rw [nodeAt_modifyNode_ne _ _ _ (Nat.ne_of_lt hid), hat, nodeAt_addNode_of_lt _ _ hid]
  have hconcat := owners_concat ((modifyNode_nodes_size ..).trans hsize) hkept
  rw [nodeAt_modifyNode_self _ _ _ (hsize ▸ Nat.lt_succ_self _), hat, nodeAt_addNode_self] at hconcat
  exact hconcat

end Graph

namespace Reading

variable {request : Request} {g g' : Graph} {r r' : Reading}

/-! ## To which document a node belongs -/

theorem owners_of_keeps (g : Graph) (id : NodeId) {f : Node → Node} (hf : Node.Keeps f) :
    (g.modifyNode id f).owners = g.owners :=
  g.owners_modifyNode id fun n => document_eq_of_core (hf.core n)

theorem owners_of_register {id : NodeId} {parentTag : Option Tag} {reg : Registration}
    (hok : register g id parentTag reg = .ok g') : g'.owners = g.owners := by
  have hdeclare : ∀ {d : Declaration} {target : ScopeId}, g.declare d target = .ok g' →
      g'.owners = g.owners := by
    intro d target hd
    rcases Graph.declare_eq_ok hd with ⟨rfl, _⟩ | ⟨scope, _, rfl⟩
    · rfl
    · exact Graph.owners_modifyNode _ d.node fun _ => rfl
  unfold register at hok
  simp only at hok
  split at hok
  · split at hok
    · cases hok
      exact Graph.owners_modifyNode _ id fun _ => rfl
    · exact hdeclare hok
  · exact hdeclare hok

theorem perform_owners {id : NodeId} {scope own : ScopeId} {f : Frame} {e : Effect}
    (hok : perform g id scope f e = .ok (g', own)) : g'.owners = g.owners := by
  have hmark : (g.mark f.node e).owners = g.owners := by
    unfold Graph.mark
    split
    · exact owners_of_keeps g f.node Graph.keeps_markMixed
    · rfl
  have hcontribute : ((g.mark f.node e).contribute f.node e).owners = g.owners := by
    unfold Graph.contribute
    split
    · exact (owners_of_keeps _ f.node (Graph.keeps_addEnumeration _)).trans hmark
    · exact hmark
  have hbear : (((g.mark f.node e).contribute f.node e).bear id e).owners = g.owners := by
    unfold Graph.bear
    split
    · refine (Graph.owners_modifyNode _ id ?_).trans hcontribute
      exact fun _ => rfl
    · exact hcontribute
  obtain ⟨g₁, hnone, hsome, hopen, hclosed⟩ := Graph.perform_eq_ok hok
  have hdeclared : g₁.owners = g.owners := by
    cases hdeclares : e.declares with
    | none => rw [hnone hdeclares, hbear]
    | some reg => exact (owners_of_register (hsome reg hdeclares)).trans hbear
  cases hopens : e.opensScope with
  | false =>
    obtain ⟨_, rfl⟩ := hclosed hopens
    exact hdeclared
  | true =>
    obtain ⟨_, rfl⟩ := hopen hopens
    refine (Graph.owners_modifyNode _ id ?_).trans hdeclared
    exact fun _ => rfl

/-- A tag within another one adds a node, to the document that is being read. -/
theorem openTag_owners {f : Frame} {tag : Tag} {position : Position}
    {attributes : List (String × String)}
    (hok : openTag request (r.addTagNode (some f) tag position attributes).1
      (r.addTagNode (some f) tag position attributes).2 f tag position attributes = .ok r') :
    r'.graph.owners = r.graph.owners ++ [r.document] := by
  obtain ⟨e, own, g, _, hperform, rfl⟩ := openTag_eq_ok hok
  calc g.owners
      = (r.addTagNode (some f) tag position attributes).1.graph.owners :=
        (perform_owners hperform).trans (Graph.owners_modifyNode _ _ fun _ => rfl)
    _ = (r.graph.addNode (r.tagNode f tag position attributes)).1.owners :=
        Graph.owners_modifyNode _ _ fun _ => rfl
    _ = r.graph.owners ++ [r.document] := Graph.owners_addNode _ _

/-- The node of an outermost tag belongs to the document that begins with the tag. -/
theorem openSchema_owners (r : Reading) (request : Request) (position : Position)
    (attributes : List (String × String)) :
    (openSchema request (r.addTagNode none .schema position attributes).1
      (r.addTagNode none .schema position attributes).2 attributes).graph.owners =
        r.graph.owners ++ [some r.graph.documents.size] := by
  set uri := documentUri request (attributes.lookup "targetNamespace") with huri
  set g₁ := ((r.addTagNode none .schema position attributes).1.graph.register uri).1 with hg₁
  have hdocuments : g₁.documents = r.graph.documents := Graph.register_documents _ uri
  have hnodes := Graph.register_nodes (r.addTagNode none .schema position attributes).1.graph uri
  rw [← hdocuments]
  exact Graph.owners_modifyNode_last (g := r.graph) hnodes _

theorem Listens.owners (h : r.Listens r') : r'.graph.owners = r.graph.owners := by
  rcases h.graph with heq | ⟨id, f, hf, heq⟩ <;> rw [heq]
  exact owners_of_keeps _ id hf

/-- What an event adds: nothing, or a node of the document that is being read, or a document with its
first node. -/
theorem step_owners {item : Position × Markup.Event} (hok : step request r item = .ok r') :
    (r.Continues r' ∧ r'.frames ⊆ r.frames ∧ r'.graph.owners = r.graph.owners) ∨
    (r.Continues r' ∧ r.frames ≠ [] ∧ r'.graph.owners = r.graph.owners ++ [r.document]) ∨
    ∃ uri document, r.Begins request r' uri document ∧
      r'.graph.owners = r.graph.owners ++ [some r.graph.documents.size] := by
  have hlistens : r.Listens r' →
      r.Continues r' ∧ r'.frames ⊆ r.frames ∧ r'.graph.owners = r.graph.owners :=
    fun h => ⟨h.continues, h.frames, h.owners⟩
  obtain ⟨position, event⟩ := item
  cases event with
  | opened name attributes =>
    rw [step_opened] at hok
    rcases opened_eq_ok hok with ⟨_, _, rfl⟩ | ⟨_, diagnostics, rfl⟩ |
      ⟨f, frames, tag, hframes, _, _, hopen⟩
    · obtain ⟨document, hbegins⟩ :=
        openSchema_begins (r.within attributes) request position (plainAttributes attributes)
      refine Or.inr (Or.inr
        ⟨documentUri request ((plainAttributes attributes).lookup "targetNamespace"), document, ?_,
          openSchema_owners (r.within attributes) ..⟩)
      exact ⟨hbegins.url, hbegins.ns, hbegins.documents, hbegins.namespaces, hbegins.current,
        hbegins.requests⟩
    · exact Or.inl ⟨⟨rfl, rfl, rfl⟩, List.Subset.refl _, Graph.owners_of_nodes rfl⟩
    · obtain ⟨hcontinues, _⟩ := openTag_continues hopen
      refine Or.inr (Or.inl ⟨⟨hcontinues.documents, hcontinues.namespaces, hcontinues.current⟩, ?_,
        openTag_owners (r := r.within attributes) hopen⟩)
      rw [hframes]
      exact List.cons_ne_nil _ _
  | closed =>
    cases hok
    exact Or.inl (hlistens r.closed_listens)
  | text content =>
    cases hok
    exact Or.inl (hlistens (r.text_listens content))

/-- The nodes that are new, from the graph `g` on, belong to the documents `ds`: first those of the
first document that is new, then those of the next one. The last document is the one that is being
read. -/
structure Owned (g : Graph) (r : Reading) (ds : List DocumentId) : Prop where
  owners : r.graph.owners = g.owners ++ ds.map some
  sorted : ds.Pairwise (· ≤ ·)
  owned : ∀ d, d ∈ ds ↔ g.documents.size ≤ d ∧ d < r.graph.documents.size
  last : ∀ d, r.document = some d → d + 1 = r.graph.documents.size
  started : r.frames ≠ [] → r.document ≠ none

namespace Owned

variable {ds : List DocumentId}

theorem start (g : Graph) : Owned g { graph := g } [] where
  owners := (List.append_nil _).symm
  sorted := .nil
  owned d := by
    refine ⟨fun hd => absurd hd List.not_mem_nil, fun hd => ?_⟩
    exact absurd hd.2 (Nat.not_lt.mpr hd.1)
  last _ hd := nomatch hd
  started hframes := absurd rfl hframes

/-- A node of the last document, which may have begun with it. -/
theorem concat (h : Owned g r ds) {d : DocumentId} (hge : g.documents.size ≤ d)
    (hsize : r'.graph.documents.size = d + 1) (hle : d ≤ r.graph.documents.size)
    (hlast : r.graph.documents.size ≤ d + 1)
    (howners : r'.graph.owners = r.graph.owners ++ [some d]) (hdocument : r'.document = some d) :
    Owned g r' (ds ++ [d]) where
  owners := by rw [howners, h.owners, List.append_assoc, List.map_append, List.map_singleton]
  sorted := by
    refine List.pairwise_append.mpr ⟨h.sorted, List.pairwise_singleton _ _, fun d' hd' d'' hd'' => ?_⟩
    rw [List.mem_singleton.mp hd'']
    exact Nat.le_of_lt_succ (Nat.lt_of_lt_of_le ((h.owned d').mp hd').2 hlast)
  owned d' := by
    rw [List.mem_append, List.mem_singleton, h.owned, hsize]
    constructor
    · rintro (⟨hnew, hlt⟩ | rfl)
      · exact ⟨hnew, Nat.lt_of_lt_of_le hlt hlast⟩
      · exact ⟨hge, Nat.lt_succ_self _⟩
    · rintro ⟨hnew, hlt⟩
      rcases Nat.lt_succ_iff_lt_or_eq.mp hlt with hbefore | heq
      · exact Or.inl ⟨hnew, Nat.lt_of_lt_of_le hbefore hle⟩
      · exact Or.inr heq
  last d' hd' := by
    rw [hdocument] at hd'
    cases hd'
    exact hsize.symm
  started _ := by
    rw [hdocument]
    exact Option.some_ne_none d

theorem step (h : Owned g r ds) (hfiles : r.Files request g) {item : Position × Markup.Event}
    (hok : Reading.step request r item = .ok r') : ∃ ds', Owned g r' ds' := by
  rcases step_owners hok with ⟨hcontinues, hframes, howners⟩ | ⟨hcontinues, hframes, howners⟩ |
    ⟨uri, document, hbegins, howners⟩
  · refine ⟨ds, howners.trans h.owners, h.sorted, ?_, ?_, fun hne => ?_⟩
    · rw [hcontinues.documents]
      exact h.owned
    · rw [hcontinues.documents, hcontinues.current]
      exact h.last
    · rw [hcontinues.current]
      refine h.started fun hnil => hne ?_
      rw [hnil] at hframes
      exact List.subset_nil.mp hframes
  · obtain ⟨d, hd⟩ := Option.ne_none_iff_exists'.mp (h.started hframes)
    have hlast := h.last d hd
    rw [hd] at howners
    refine ⟨_, h.concat (hfiles.current d hd).1 ?_ (Nat.le_of_succ_le (Nat.le_of_eq hlast))
      (Nat.le_of_eq hlast.symm) howners (hcontinues.current.trans hd)⟩
    rw [hcontinues.documents]
    exact hlast.symm
  · exact ⟨_, h.concat hfiles.follows.documents_le hbegins.documents_size (Nat.le_refl _)
      (Nat.le_succ _) howners hbegins.current⟩

/-- A node that is new belongs to a document that is new. -/
theorem exists_mem (h : Owned g r ds) {id : NodeId} (hnew : g.nodes.size ≤ id)
    (hid : id < r.graph.nodes.size) : ∃ d ∈ ds, (r.graph.nodeAt id).document = some d := by
  have hget := r.graph.owners_getElem? id
  rw [if_pos hid, h.owners, List.getElem?_append_right (g.owners_length.le.trans hnew)] at hget
  obtain ⟨d, hd, heq⟩ := List.mem_map.mp (List.mem_of_getElem? hget)
  exact ⟨d, hd, heq.symm⟩

end Owned

/-! ## What outermost tags are -/

theorem eq_schema_of_admission_none {tag : Option Tag} (h : admission none tag ≠ .refuse) :
    tag = some .schema := by
  unfold admission at h
  split at h
  · rfl
  · exact absurd rfl h
  · rename_i hsome
    cases hsome

/-- A tag that opens where no tag is open is a `schema` tag. -/
theorem opened_root {position : Position} {name : String} {attributes : List (String × String)}
    (hframes : r.frames = []) (hzero : r.skipped = 0)
    (hok : r.opened request position name attributes = .ok r') :
    (bindAll r.bindings attributes).resolve name = .ok (QName.schema "schema") := by
  cases hname : (r.within attributes).bindings.resolve name with
  | error cause =>
    rw [opened_unbound request position hzero hname] at hok
    cases hok
  | ok q =>
    rw [opened_named request position hzero hname, hframes, List.head?_nil, Option.map_none] at hok
    have hadmitted : admission none (Tag.ofQName? q) ≠ .refuse := by
      intro hrefuse
      rw [hrefuse] at hok
      cases hok
    rw [← Tag.ofQName?_eq_schema (eq_schema_of_admission_none hadmitted)]
    exact hname

/-- The bindings are in step with the open tags whatever the events are: an end tag without a start tag
changes nothing. -/
theorem Scoped.step_any {tags : List (List (String × String))} (h : r.Scoped request tags)
    {item : Position × Markup.Event} (hok : Reading.step request r item = .ok r') :
    ∃ tags', r'.Scoped request tags' := by
  obtain ⟨position, event⟩ := item
  cases event with
  | opened name attributes =>
    rw [step_opened] at hok
    exact ⟨_, h.opened hok⟩
  | text content =>
    cases hok
    exact ⟨_, h.text content⟩
  | closed =>
    cases hok
    cases tags with
    | cons attributes tags => exact ⟨_, h.closed⟩
    | nil =>
      obtain ⟨hframes, hzero⟩ := Nat.add_eq_zero_iff.mp h.depth
      have hclosed : r.closed = r := by
        simp [Reading.closed, List.length_eq_zero_iff.mp hframes, hzero]
      rw [hclosed]
      exact ⟨_, h⟩

/-- Whatever is read, all outermost tags are `schema` tags. -/
theorem run_roots {tags : List (List (String × String))} {items : List (Position × Markup.Event)}
    (hscoped : r.Scoped request tags) (hok : items.foldlM (step request) r = .ok r') :
    ∀ root ∈ Markup.roots r.depth items,
      (bindAll .initial root.2).resolve root.1 = .ok (QName.schema "schema") := by
  induction items generalizing r tags with
  | nil => exact fun root hroot => absurd hroot List.not_mem_nil
  | cons item items ih =>
    rw [List.foldlM_cons] at hok
    obtain ⟨r₁, hstep, hrest⟩ := bind_eq_ok.mp hok
    obtain ⟨tags₁, hscoped₁⟩ := hscoped.step_any hstep
    have hlater := ih hscoped₁ hrest
    obtain ⟨position, event⟩ := item
    cases event with
    | opened name attributes =>
      rw [step_opened] at hstep
      have hdepth : r₁.depth = r.depth + 1 := by
        rw [depth, (hscoped.opened hstep).depth, List.length_cons, ← hscoped.depth, depth]
      rw [hdepth] at hlater
      rw [Markup.roots]
      split
      · rename_i hzero
        rw [hzero] at hlater
        obtain ⟨hframes, hskipped⟩ := Nat.add_eq_zero_iff.mp hzero
        have htags : tags = [] := List.length_eq_zero_iff.mp (hscoped.depth.symm.trans hzero)
        have hroot := opened_root (List.length_eq_zero_iff.mp hframes) hskipped hstep
        rw [hscoped.bindings, htags] at hroot
        exact List.forall_mem_cons.mpr ⟨hroot, hlater⟩
      · exact hlater
    | closed =>
      cases hstep
      rw [(closed_depth hscoped.outer).1] at hlater
      exact hlater
    | text content =>
      cases hstep
      rw [(text_depth hscoped.outer content).1] at hlater
      exact hlater

/-- A text that is read has one or more outermost tags, all of them `schema` tags, and a document is
added for each of them, with the URL that was asked for. What is given back is the last of these
documents. The nodes that are added belong to these documents, to each of them at least one, and in
their order. So if there is one outermost tag, there is one document, and all nodes belong to it. -/
theorem readStream_documents {parsed : Parsed} {s : Markup.Stream Position}
    (hok : readStream request g s = .ok (g', parsed)) :
    Markup.roots 0 s.items ≠ [] ∧
    (∀ root ∈ Markup.roots 0 s.items,
      (bindAll .initial root.2).resolve root.1 = .ok (QName.schema "schema")) ∧
    g'.documents.size = g.documents.size + (Markup.roots 0 s.items).length ∧
    (∀ d, d < g.documents.size → g'.documentAt d = g.documentAt d) ∧
    (∀ d, g.documents.size ≤ d → d < g'.documents.size → (g'.documentAt d).url = request.url) ∧
    parsed.document + 1 = g'.documents.size ∧
    (∃ ds : List DocumentId, g'.owners = g.owners ++ ds.map some ∧ ds.Pairwise (· ≤ ·) ∧
      ∀ d, d ∈ ds ↔ g.documents.size ≤ d ∧ d < g'.documents.size) ∧
    ((Markup.roots 0 s.items).length = 1 → parsed.document = g.documents.size ∧
      ∀ id, g.nodes.size ≤ id → id < g'.nodes.size →
        (g'.nodeAt id).document = some parsed.document) := by
  unfold readStream at hok
  obtain ⟨r, hr, hfinish⟩ := bind_eq_ok.mp hok
  obtain ⟨rfl, hdocument, _⟩ := finish_eq_ok hfinish
  have hkept : r.Files request g ∧ ∃ ds, Owned g r ds := by
    refine foldlM_keeps (P := fun r => r.Files request g ∧ ∃ ds, Owned g r ds)
      (fun r item _ r' hr hstep => ?_) ⟨Files.start request g, [], Owned.start g⟩ hr
    obtain ⟨hfiles, ds, howned⟩ := hr
    exact ⟨hfiles.step hstep, howned.step hfiles hstep⟩
  obtain ⟨hfiles, ds, howned⟩ := hkept
  have hscoped : ({ graph := g } : Reading).Scoped request [] :=
    ⟨rfl, rfl, fun hpos => absurd hpos (Nat.lt_irrefl 0)⟩
  have hcount : r.graph.documents.size = g.documents.size + (Markup.roots 0 s.items).length := by
    rw [← List.length_map Prod.snd, Markup.map_roots]
    exact run_documents_size hscoped.outer hr
  have hschema := run_roots hscoped hr
  have hlast := howned.last _ hdocument
  obtain ⟨hge, hlt⟩ := hfiles.current _ hdocument
  refine ⟨fun hnil => ?_, hschema, hcount, hfiles.follows.document, hfiles.url, hlast,
    ⟨ds, howned.owners, howned.sorted, howned.owned⟩, fun hone => ?_⟩
  · rw [hnil, List.length_nil, Nat.add_zero] at hcount
    exact absurd (hcount ▸ hlt) (Nat.not_lt.mpr hge)
  · rw [hone] at hcount
    have hfirst : parsed.document = g.documents.size := Nat.succ_injective (hlast.trans hcount)
    refine ⟨hfirst, fun id hnew hid => ?_⟩
    obtain ⟨d, hd, heq⟩ := howned.exists_mem hnew hid
    obtain ⟨hd₁, hd₂⟩ := (howned.owned d).mp hd
    rw [hcount] at hd₂
    rw [heq, hfirst, Nat.le_antisymm (Nat.le_of_lt_succ hd₂) hd₁]

/-- A `schema` tag with an element in it. -/
def elementSchema (ns : String) : List (Position × Markup.Event) :=
  [(.first, .opened "schema" [("xmlns", QName.schemaUri), ("targetNamespace", ns)]),
    (.first, .opened "element" [("name", "e")]), (.first, .closed), (.first, .closed)]

/-- Two `schema` tags, one after the other. -/
def twoSchemas : Markup.Stream Position :=
  ⟨elementSchema "a" ++ elementSchema "b", .complete .first⟩

theorem readStream_twoSchemas : ∃ g' parsed,
    readStream (.entry "a.xsd" none) (Graph.initial .standard) twoSchemas = .ok (g', parsed) := by
  have hread : (readStream (.entry "a.xsd" none) (Graph.initial .standard) twoSchemas).toOption.map
      (fun _ => ()) = some () := by
    decide +kernel
  obtain ⟨⟨g', parsed⟩, hok, _⟩ := eq_ok_of_toOption hread
  exact ⟨g', parsed, hok⟩

theorem readStream_documents_example :
    (∃ g' parsed, readStream (.entry "a.xsd" none) (Graph.initial .standard) twoSchemas =
        .ok (g', parsed) ∧
      g'.documents.size = 2 ∧ (g'.documentAt 0).url = "a.xsd" ∧ parsed.document = 1) ∧
    ∃ g' parsed, readStream (.entry "a.xsd" none) (Graph.initial .standard)
        ⟨elementSchema "a", .complete .first⟩ = .ok (g', parsed) ∧
      parsed.document = 0 ∧
      (g'.nodeAt ((Graph.initial .standard).nodes.size + 1)).document = some 0 := by
  have hnone : (Graph.initial .standard).documents.size = 0 :=
    congrArg Array.size (Array.isEmpty_iff.mp (Graph.initial_documents .standard))
  constructor
  · obtain ⟨g', parsed, hok⟩ := readStream_twoSchemas
    obtain ⟨_, _, hcount, _, hurl, hlast, _, _⟩ := readStream_documents hok
    have htwo : (Markup.roots 0 twoSchemas.items).length = 2 := by decide
    rw [hnone, htwo] at hcount
    rw [hnone, hcount] at hurl
    rw [hcount] at hlast
    exact ⟨g', parsed, hok, hcount, hurl 0 (by decide) (by decide), Nat.succ_injective hlast⟩
  · have hread : (readStream (.entry "a.xsd" none) (Graph.initial .standard)
        ⟨elementSchema "a", .complete .first⟩).toOption.map
          (fun result => decide ((Graph.initial .standard).nodes.size + 1 < result.1.nodes.size)) =
            some true := by
      decide +kernel
    obtain ⟨⟨g', parsed⟩, hok, hsize⟩ := eq_ok_of_toOption hread
    obtain ⟨_, _, _, _, _, _, _, hone⟩ := readStream_documents hok
    obtain ⟨hfirst, hnodes⟩ := hone (by decide)
    rw [hfirst, hnone] at hnodes
    exact ⟨g', parsed, hok, hfirst.trans hnone,
      hnodes _ (Nat.le_succ _) (of_decide_eq_true hsize)⟩

/-- A text with all its tags closed may be read although it has more than one outermost tag, and then
it has more than one document. -/
theorem not_every_text_one_document : ¬ ∀ (request : Request) (g g' : Graph) (parsed : Parsed)
    (s : Markup.Stream Position), Markup.openTags [] s.items = some [] →
      readStream request g s = .ok (g', parsed) →
        (Markup.roots 0 s.items).length = 1 ∧ g'.documents.size = g.documents.size + 1 := by
  intro hall
  obtain ⟨g', parsed, hok⟩ := readStream_twoSchemas
  obtain ⟨hone, _⟩ := hall _ _ g' parsed twoSchemas (by decide) hok
  exact absurd hone (by decide)

end Reading

end XsdTypes
