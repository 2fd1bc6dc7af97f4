import XsdTypes.Proofs.Markup.Openings
import XsdTypes.Proofs.Schema.Loading

/-!
# Which documents a graph has

A document is added to the graph where its `schema` tag opens, and to the namespace in which it
declares things; nothing else changes documents, and no document is ever lost. So a namespace lists
its documents in order (`Catalogued`), and what a namespace has makes the same imports redundant from
then on (`Follows`).
-/

namespace XsdTypes

open Sequencing

namespace Graph

/-- Every namespace lists the documents that declare things in it, in order. -/
structure Catalogued (g : Graph) : Prop where
  ns_lt : ∀ d, d < g.documents.size → (g.documentAt d).ns < g.namespaces.size
  listed : ∀ i, i < g.namespaces.size → (g.namespaceAt i).documents =
    (List.range g.documents.size).filter fun d => (g.documentAt d).ns = i

/-- The graph `g'` comes after `g`: documents and namespaces stay. -/
structure Follows (g g' : Graph) : Prop where
  documents_le : g.documents.size ≤ g'.documents.size
  document : ∀ d, d < g.documents.size → g'.documentAt d = g.documentAt d
  namespaces_le : g.namespaces.size ≤ g'.namespaces.size
  uri : ∀ i, i < g.namespaces.size → (g'.namespaceAt i).uri = (g.namespaceAt i).uri
  listed : ∀ i, i < g.namespaces.size →
    (g.namespaceAt i).documents ⊆ (g'.namespaceAt i).documents

variable {g g' g'' : Graph}

theorem Catalogued.congr (h : g.Catalogued) (hdocuments : g'.documents = g.documents)
    (hsize : g'.namespaces.size = g.namespaces.size)
    (hlisted : ∀ i, (g'.namespaceAt i).documents = (g.namespaceAt i).documents) :
    g'.Catalogued := by
  have hat : ∀ d, g'.documentAt d = g.documentAt d := fun d => by
    rw [documentAt, hdocuments, documentAt]
  refine ⟨fun d hd => ?_, fun i hi => ?_⟩
  · rw [hat, hsize]
    exact h.ns_lt d (hdocuments ▸ hd)
  · rw [hlisted, hdocuments]
    simp only [hat]
    exact h.listed i (hsize ▸ hi)

theorem documentAt_eq_getElem {d : DocumentId} (hd : d < g.documents.size) :
    g.documentAt d = g.documents[d] := by
  simp [documentAt, Array.getD, hd]

theorem Catalogued.register (h : g.Catalogued) (uri : String) : (g.register uri).1.Catalogued := by
  have hat : ∀ d, (g.register uri).1.documentAt d = g.documentAt d := fun d => by
    rw [documentAt, register_documents, documentAt]
  refine ⟨fun d hd => ?_, fun i hi => ?_⟩
  · rw [register_documents] at hd
    rw [hat]
    exact Nat.lt_of_lt_of_le (h.ns_lt d hd) (register_namespaces_le g uri)
  · rw [register_documents]
    simp only [hat]
    rcases Nat.lt_or_ge i g.namespaces.size with hold | hnew
    · rw [register_namespaceAt_of_lt g uri hold]
      exact h.listed i hold
    -- no document declares things in a namespace that is new
    · rw [(register_new_namespace g uri hnew hi).2.2.1]
      refine (List.filter_eq_nil_iff.mpr fun d hd => ?_).symm
      have hlt := Nat.lt_of_lt_of_le (h.ns_lt d (List.mem_range.mp hd)) hnew
      simpa using Nat.ne_of_lt hlt

theorem documentAt_addDocument (g : Graph) (document : Document) (d : DocumentId) :
    (g.addDocument document).1.documentAt d =
      if d = g.documents.size then document else g.documentAt d :=
  getD_push g.documents document d

theorem addDocument_documents_size (g : Graph) (document : Document) :
    (g.addDocument document).1.documents.size = g.documents.size + 1 :=
  Array.size_push _

theorem addDocument_listed (g : Graph) (document : Document) {i : NamespaceId}
    (hi : i < g.namespaces.size) :
    ((g.addDocument document).1.namespaceAt i).documents =
      (g.namespaceAt i).documents ++ if document.ns = i then [g.documents.size] else [] := by
  simp only [addDocument]
  rw [namespaceAt_modifyNamespace]
  by_cases hns : document.ns = i
  · rw [if_pos ⟨hns.symm, hi⟩, if_pos hns]
    rfl
  · rw [if_neg fun h => hns h.1.symm, if_neg hns, List.append_nil]
    rfl

theorem Catalogued.addDocument (h : g.Catalogued) {document : Document}
    (hns : document.ns < g.namespaces.size) : (g.addDocument document).1.Catalogued := by
  refine ⟨fun d hd => ?_, fun i hi => ?_⟩
  · rw [addDocument_documents_size] at hd
    rw [documentAt_addDocument, addDocument_namespaces_size]
    split
    · exact hns
    · rename_i hold
      exact h.ns_lt d (Nat.lt_of_le_of_ne (Nat.le_of_lt_succ hd) hold)
  · rw [addDocument_namespaces_size] at hi
    have hold : ∀ d ∈ List.range g.documents.size,
        decide (((g.addDocument document).1.documentAt d).ns = i) =
          decide ((g.documentAt d).ns = i) := by
      intro d hd
      rw [documentAt_addDocument, if_neg (Nat.ne_of_lt (List.mem_range.mp hd))]
    have hnew : [g.documents.size].filter
        (fun d => decide (((g.addDocument document).1.documentAt d).ns = i)) =
          if document.ns = i then [g.documents.size] else [] := by
      simp only [List.filter_cons, List.filter_nil, documentAt_addDocument, if_pos,
        decide_eq_true_eq]
    rw [addDocument_listed g document hi, addDocument_documents_size, List.range_succ,
      List.filter_append, List.filter_congr hold, hnew, h.listed i hi]

/-! ## What comes later -/

namespace Follows

theorem of_eq (hdocuments : g'.documents = g.documents) (hnamespaces : g'.namespaces = g.namespaces) :
    g.Follows g' where
  documents_le := Nat.le_of_eq (by rw [hdocuments])
  document d _ := by rw [documentAt, hdocuments, documentAt]
  namespaces_le := Nat.le_of_eq (by rw [hnamespaces])
  uri i _ := by rw [namespaceAt, hnamespaces, namespaceAt]
  listed i _ := by
    rw [namespaceAt, namespaceAt, hnamespaces]
    exact List.Subset.refl _

theorem refl (g : Graph) : g.Follows g := of_eq rfl rfl

theorem trans (h : g.Follows g') (h' : g'.Follows g'') : g.Follows g'' where
  documents_le := Nat.le_trans h.documents_le h'.documents_le
  document d hd := (h'.document d (Nat.lt_of_lt_of_le hd h.documents_le)).trans (h.document d hd)
  namespaces_le := Nat.le_trans h.namespaces_le h'.namespaces_le
  uri i hi := (h'.uri i (Nat.lt_of_lt_of_le hi h.namespaces_le)).trans (h.uri i hi)
  listed i hi := List.Subset.trans (h.listed i hi)
    (h'.listed i (Nat.lt_of_lt_of_le hi h.namespaces_le))

theorem register (g : Graph) (uri : String) : g.Follows (g.register uri).1 where
  documents_le := Nat.le_of_eq (by rw [register_documents])
  document d _ := by rw [documentAt, register_documents, documentAt]
  namespaces_le := register_namespaces_le g uri
  uri i hi := by rw [register_namespaceAt_of_lt g uri hi]
  listed i hi := by
    rw [register_namespaceAt_of_lt g uri hi]
    exact List.Subset.refl _

theorem addDocument (g : Graph) (document : Document) : g.Follows (g.addDocument document).1 where
  documents_le := by
    rw [addDocument_documents_size]
    exact Nat.le_succ _
  document d hd := by rw [documentAt_addDocument, if_neg (Nat.ne_of_lt hd)]
  namespaces_le := Nat.le_of_eq (addDocument_namespaces_size g document).symm
  uri i _ := (addDocument_namespaceAt g document i).1
  listed i hi := by
    rw [addDocument_listed g document hi]
    exact List.subset_append_left _ _

end Follows

theorem documentId?_isSome {url : String} :
    (g.documentId? url).isSome ↔ ∃ d, d < g.documents.size ∧ (g.documentAt d).url = url := by
  rw [documentId?, Array.findIdx?_isSome, Array.any_eq_true]
  constructor
  · rintro ⟨d, hd, hurl⟩
    exact ⟨d, hd, by rw [documentAt_eq_getElem hd]; exact of_decide_eq_true hurl⟩
  · rintro ⟨d, hd, hurl⟩
    exact ⟨d, hd, by rw [documentAt_eq_getElem hd] at hurl; exact decide_eq_true hurl⟩

/-- A document that has been read stays read. -/
theorem Follows.documentId? (h : g.Follows g') {url : String} (hread : (g.documentId? url).isSome) :
    (g'.documentId? url).isSome := by
  obtain ⟨d, hd, hurl⟩ := documentId?_isSome.mp hread
  refine documentId?_isSome.mpr ⟨d, Nat.lt_of_lt_of_le hd h.documents_le, ?_⟩
  rw [h.document d hd]
  exact hurl

theorem Follows.namespaceId? (h : g.Follows g') {uri : String} {i : NamespaceId}
    (hi : g.namespaceId? uri = some i) : g'.namespaceId? uri = some i := by
  obtain ⟨hlt, huri, hfirst⟩ := namespaceId?_first.mp hi
  refine namespaceId?_first.mpr ⟨Nat.lt_of_lt_of_le hlt h.namespaces_le, ?_, fun j hj => ?_⟩
  · rw [h.uri i hlt]
    exact huri
  · rw [h.uri j (Nat.lt_trans hj hlt)]
    exact hfirst j hj

/-- An import that is not needed never becomes needed. -/
theorem Follows.isRedundant (h : g.Follows g') {request : Request}
    (hredundant : Loading.isRedundant g request = true) : Loading.isRedundant g' request = true := by
  unfold Loading.isRedundant at hredundant ⊢
  rw [Bool.and_eq_true] at hredundant ⊢
  obtain ⟨hroute, hnonempty⟩ := hredundant
  refine ⟨hroute, ?_⟩
  cases hns : request.ns.bind g.namespaceId? with
  | none =>
    rw [hns] at hnonempty
    cases hnonempty
  | some i =>
    rw [hns] at hnonempty
    obtain ⟨uri, huri, hi⟩ := Option.bind_eq_some_iff.mp hns
    have hi' : request.ns.bind g'.namespaceId? = some i :=
      Option.bind_eq_some_iff.mpr ⟨uri, huri, h.namespaceId? hi⟩
    rw [hi']
    have hsub := h.listed i (namespaceId?_eq_some hi).1
    cases hdocuments : (g.namespaceAt i).documents with
    | nil =>
      simp [hdocuments] at hnonempty
    | cons d ds =>
      have hd : d ∈ (g'.namespaceAt i).documents := hsub (by rw [hdocuments]; exact List.mem_cons_self)
      simpa using List.ne_nil_of_mem hd

theorem Follows.markLoaded (g : Graph) : g.Follows (Loading.markLoaded g) where
  documents_le := Nat.le_refl _
  document _ _ := rfl
  namespaces_le := Nat.le_of_eq (Loading.markLoaded_namespaces_size g).symm
  uri i _ := Loading.markLoaded_uri g i
  listed i _ := by
    rw [Loading.markLoaded_documents]
    exact List.Subset.refl _

end Graph

/-! ## Reading a document -/

namespace Reading

variable {r r' : Reading} {request : Request}

/-- The `schema` tag of the document opens: the document is added, to a namespace that may be new. -/
structure Begins (request : Request) (r r' : Reading) (uri : String) (document : Document) : Prop where
  url : document.url = request.url
  ns : document.ns = (r.graph.register uri).2
  documents : r'.graph.documents = ((r.graph.register uri).1.addDocument document).1.documents
  namespaces : r'.graph.namespaces = ((r.graph.register uri).1.addDocument document).1.namespaces
  current : r'.document = some r.graph.documents.size
  requests : r'.requests = r.requests

/-- No document begins. -/
structure Continues (r r' : Reading) : Prop where
  documents : r'.graph.documents = r.graph.documents
  namespaces : r'.graph.namespaces = r.graph.namespaces
  current : r'.document = r.document

theorem openSchema_begins (r : Reading) (request : Request) (position : Position)
    (attributes : List (String × String)) :
    ∃ document, r.Begins request (openSchema request
      (r.addTagNode none .schema position attributes).1
      (r.addTagNode none .schema position attributes).2 attributes)
        (documentUri request (attributes.lookup "targetNamespace")) document := by
  set node : Node := { Node.ofTag .schema (r.graph.namespaceAt Graph.schemaNamespace).root position with
    attributes, document := r.document } with hnode
  set uri := documentUri request (attributes.lookup "targetNamespace") with huri
  -- a node makes no difference to namespaces and documents
  have hregister : (((r.graph.addNode node).1.register uri).1.namespaces =
      (r.graph.register uri).1.namespaces) ∧
      (((r.graph.addNode node).1.register uri).1.documents = (r.graph.register uri).1.documents) ∧
      ((r.graph.addNode node).1.register uri).2 = (r.graph.register uri).2 := by
    have hfind : (r.graph.addNode node).1.namespaceId? uri = r.graph.namespaceId? uri := rfl
    rw [Graph.register, Graph.register, hfind]
    cases r.graph.namespaceId? uri <;> exact ⟨rfl, rfl, rfl⟩
  obtain ⟨hnamespaces, hdocuments, hns⟩ := hregister
  refine ⟨
    { url := request.url
      ns := (r.graph.register uri).2
      route := request.route
      elementQualified := attributes.lookup "elementFormDefault" = some "qualified"
      attributeQualified := attributes.lookup "attributeFormDefault" = some "qualified" },
    rfl, rfl, ?_, ?_, ?_, rfl⟩
  · simp only [Graph.addDocument, Graph.modifyNamespace]
    rw [← hdocuments, ← hns]
    rfl
  · simp only [Graph.addDocument, Graph.modifyNamespace]
    rw [← hdocuments, ← hns, ← hnamespaces]
    rfl
  · rw [← Graph.register_documents r.graph uri, ← hdocuments]
    rfl

theorem openTag_continues {id : NodeId} {f : Frame} {tag : Tag} {position : Position}
    {attributes : List (String × String)}
    (hok : openTag request r id f tag position attributes = .ok r') :
    r.Continues r' ∧ ∃ new, r'.requests = r.requests ++ new ∧ new.length ≤ 1 := by
  obtain ⟨e, own, g, _, hperform, rfl⟩ := openTag_eq_ok hok
  obtain ⟨hdocuments, hnamespaces⟩ := Graph.perform_documents hperform
  refine ⟨⟨hdocuments, hnamespaces, rfl⟩, e.request.toList, rfl, ?_⟩
  cases e.request <;> simp

theorem Listens.continues (h : r.Listens r') : r.Continues r' := by
  rcases h.graph with heq | ⟨id, f, _, heq⟩
  · exact ⟨by rw [heq], by rw [heq], h.document⟩
  · exact ⟨by rw [heq]; rfl, by rw [heq]; rfl, h.document⟩

/-- What an event does to the documents and to what is asked for. -/
theorem step_documents {event : Position × Markup.Event} (hok : step request r event = .ok r') :
    (∃ new, r'.requests = r.requests ++ new ∧ new.length ≤ event.2.openings) ∧
      (r.Continues r' ∨ ∃ uri document, r.Begins request r' uri document) := by
  have hnone : r'.requests = r.requests →
      ∃ new, r'.requests = r.requests ++ new ∧ new.length ≤ event.2.openings :=
    fun h => ⟨[], by rw [h, List.append_nil], Nat.zero_le _⟩
  obtain ⟨position, event⟩ := event
  cases event with
  | opened name attributes =>
    rcases opened_cases request r position name attributes with
      ⟨skipped, diagnostics, heq⟩ | ⟨error, heq⟩ | heq | ⟨f, tag, _, _, heq⟩
    · cases heq.symm.trans hok
      exact ⟨hnone rfl, Or.inl ⟨rfl, rfl, rfl⟩⟩
    · cases heq.symm.trans hok
    · cases heq.symm.trans hok
      obtain ⟨document, hbegins⟩ :=
        openSchema_begins (r.within attributes) request position (plainAttributes attributes)
      refine ⟨hnone hbegins.requests,
        Or.inr ⟨documentUri request ((plainAttributes attributes).lookup "targetNamespace"), document, ?_⟩⟩
      exact ⟨hbegins.url, hbegins.ns, hbegins.documents, hbegins.namespaces, hbegins.current,
        hbegins.requests⟩
    · obtain ⟨hcontinues, new, hnew, hlength⟩ := openTag_continues (heq.symm.trans hok)
      exact ⟨⟨new, hnew, hlength⟩,
        Or.inl ⟨hcontinues.documents, hcontinues.namespaces, hcontinues.current⟩⟩
  | closed =>
    cases hok
    exact ⟨hnone r.closed_listens.requests, Or.inl r.closed_listens.continues⟩
  | text content =>
    cases hok
    exact ⟨hnone (r.text_listens content).requests, Or.inl (r.text_listens content).continues⟩

/-- No document is lost when another one begins. -/
theorem Begins.follows {uri : String} {document : Document} (h : r.Begins request r' uri document) :
    r.graph.Follows r'.graph :=
  ((Graph.Follows.register _ uri).trans (Graph.Follows.addDocument _ document)).trans
    (.of_eq h.documents h.namespaces)

theorem Begins.catalogued {uri : String} {document : Document}
    (h : r.Begins request r' uri document) (hr : r.graph.Catalogued) : r'.graph.Catalogued := by
  have hns : document.ns < (r.graph.register uri).1.namespaces.size := by
    rw [h.ns]
    exact Graph.register_lt r.graph uri
  refine ((hr.register uri).addDocument hns).congr h.documents (by rw [h.namespaces]) fun i => ?_
  rw [Graph.namespaceAt, h.namespaces, Graph.namespaceAt]

theorem Begins.documents_size {uri : String} {document : Document}
    (h : r.Begins request r' uri document) :
    r'.graph.documents.size = r.graph.documents.size + 1 := by
  rw [h.documents, Graph.addDocument_documents_size, Graph.register_documents]

theorem Begins.documentAt {uri : String} {document : Document} (h : r.Begins request r' uri document)
    (d : DocumentId) : r'.graph.documentAt d =
      if d = r.graph.documents.size then document else r.graph.documentAt d := by
  have hadd := Graph.documentAt_addDocument (r.graph.register uri).1 document d
  rw [Graph.documentAt, h.documents]
  rw [Graph.register_documents] at hadd
  refine hadd.trans ?_
  split
  · rfl
  · rw [Graph.documentAt, Graph.register_documents, Graph.documentAt]

/-- What has been read of a document that is asked for with `request`, from the graph `g` on. -/
structure Files (request : Request) (g : Graph) (r : Reading) : Prop where
  follows : g.Follows r.graph
  /-- The documents that are new have the URL that was asked for. -/
  url : ∀ d, g.documents.size ≤ d → d < r.graph.documents.size →
    (r.graph.documentAt d).url = request.url
  current : ∀ d, r.document = some d → g.documents.size ≤ d ∧ d < r.graph.documents.size

/-- Nothing has been read yet. -/
theorem Files.start (request : Request) (g : Graph) : ({ graph := g } : Reading).Files request g where
  follows := .refl g
  url _ hd hlt := absurd hlt (Nat.not_lt.mpr hd)
  current _ hd := by cases hd

theorem Files.step {g : Graph} (h : r.Files request g) {event : Position × Markup.Event}
    (hok : Reading.step request r event = .ok r') : r'.Files request g := by
  rcases (step_documents hok).2 with hcontinues | ⟨uri, document, hbegins⟩
  · have hfollows := Graph.Follows.of_eq hcontinues.documents hcontinues.namespaces
    refine ⟨h.follows.trans hfollows, fun d hd hlt => ?_, fun d hd => ?_⟩
    · rw [hcontinues.documents] at hlt
      rw [hfollows.document d hlt]
      exact h.url d hd hlt
    · rw [hcontinues.documents]
      exact h.current d (hcontinues.current ▸ hd)
  · have hsize := hbegins.documents_size
    refine ⟨h.follows.trans hbegins.follows, fun d hd hlt => ?_, fun d hd => ?_⟩
    · rw [hbegins.documentAt]
      split
      · exact hbegins.url
      · rename_i hold
        rw [hsize] at hlt
        exact h.url d hd (Nat.lt_of_le_of_ne (Nat.le_of_lt_succ hlt) hold)
    · rw [hbegins.current] at hd
      cases hd
      rw [hsize]
      exact ⟨h.follows.documents_le, Nat.lt_succ_self _⟩

/-- A document that has been read is in the graph, and no other is new. -/
theorem read_files {g g' : Graph} {parsed : Parsed} {text : String}
    (hok : Reading.read request g text = .ok (g', parsed)) :
    g.Follows g' ∧ (g'.documentId? request.url).isSome ∧
      ∀ d, g.documents.size ≤ d → d < g'.documents.size → (g'.documentAt d).url = request.url := by
  unfold Reading.read readStream at hok
  obtain ⟨r, hr, hfinish⟩ := bind_eq_ok.mp hok
  have hfiles : r.Files request g :=
    foldlM_keeps (P := fun r => r.Files request g) (fun r event _ r' hr hstep => hr.step hstep)
      (Files.start request g) hr
  obtain ⟨rfl, hdocument, _⟩ := finish_eq_ok hfinish
  obtain ⟨hnew, hlt⟩ := hfiles.current _ hdocument
  exact ⟨hfiles.follows, Graph.documentId?_isSome.mpr ⟨_, hlt, hfiles.url _ hnew hlt⟩, hfiles.url⟩

/-- What has been read was there or was asked for. -/
theorem documentId?_of_read {g g' : Graph} {parsed : Parsed} {text url : String}
    (hok : Reading.read request g text = .ok (g', parsed)) (hurl : (g'.documentId? url).isSome) :
    (g.documentId? url).isSome ∨ url = request.url := by
  obtain ⟨hfollows, _, hnew⟩ := read_files hok
  obtain ⟨d, hd, rfl⟩ := Graph.documentId?_isSome.mp hurl
  rcases Nat.lt_or_ge d g.documents.size with hold | hge
  · rw [hfollows.document d hold]
    exact Or.inl (Graph.documentId?_isSome.mpr ⟨d, hold, rfl⟩)
  · exact Or.inr (hnew d hge hd)

theorem requests_length {events : List (Position × Markup.Event)}
    (hok : events.foldlM (step request) r = .ok r') :
    r'.requests.length ≤ r.requests.length + (events.map fun event => event.2.openings).sum := by
  induction events generalizing r with
  | nil =>
    cases hok
    exact Nat.le_add_right _ _
  | cons event events ih =>
    rw [List.foldlM_cons] at hok
    obtain ⟨r₁, hstep, hrest⟩ := bind_eq_ok.mp hok
    obtain ⟨new, hnew, hlength⟩ := (step_documents hstep).1
    have hrest := ih hrest
    rw [hnew, List.length_append] at hrest
    rw [List.map_cons, List.sum_cons]
    omega

/-- A document asks for no more documents than it has characters. -/
theorem read_requests {g g' : Graph} {parsed : Parsed} {text : String}
    (hok : Reading.read request g text = .ok (g', parsed)) :
    parsed.requests.length ≤ text.length := by
  unfold Reading.read readStream at hok
  obtain ⟨r, hr, hfinish⟩ := bind_eq_ok.mp hok
  obtain ⟨_, _, hrequests⟩ := finish_eq_ok hfinish
  calc parsed.requests.length
      = r.requests.length := by rw [hrequests]
    _ ≤ (Markup.stream text.toList).openings :=
        (requests_length hr).trans (Nat.le_of_eq (Nat.zero_add _))
    _ ≤ text.toList.length := Markup.stream_openings _
    _ = text.length := String.length_toList

end Reading

/-! ## Loading -/

namespace Loading

variable {documents : String → Except FetchFault String} {l l' : Loading}

theorem enqueue_follows (l : Loading) (request : Request) :
    l.graph.Follows (l.enqueue request).graph := by
  rcases (enqueue_cases l request).2.2 with heq | ⟨uri, heq⟩ <;> rw [heq]
  · exact .refl _
  · exact .register _ uri

theorem enqueue_documentId? (l : Loading) (request : Request) (url : String) :
    (l.enqueue request).graph.documentId? url = l.graph.documentId? url := by
  rcases (enqueue_cases l request).2.2 with heq | ⟨uri, heq⟩ <;> rw [heq]
  rw [Graph.documentId?, Graph.register_documents, Graph.documentId?]

theorem enqueueAll_documentId? (l : Loading) (requests : List Request) (url : String) :
    (requests.foldl enqueue l).graph.documentId? url = l.graph.documentId? url :=
  List.foldlRecOn (motive := fun l' => l'.graph.documentId? url = l.graph.documentId? url) requests
    enqueue rfl fun l' hl' request _ => (enqueue_documentId? l' request url).trans hl'

theorem enqueueAll_follows (l : Loading) (requests : List Request) :
    l.graph.Follows (requests.foldl enqueue l).graph :=
  List.foldlRecOn (motive := fun l' => l.graph.Follows l'.graph) requests enqueue (.refl _)
    fun l' hl' request _ => hl'.trans (enqueue_follows l' request)

theorem Answers.follows (h : Answers documents l l') : l.graph.Follows l'.graph := by
  obtain ⟨request, pending, _, hok⟩ := h
  rcases receive_eq_ok hok with ⟨_, _, _, rfl⟩ | ⟨_, graph, parsed, _, hread, rfl⟩
  · exact .refl _
  · exact (Reading.read_files hread).1.trans (enqueueAll_follows { l with graph, pending, entry := _ } _)

theorem answers_follows (h : Relation.ReflTransGen (Answers documents) l l') :
    l.graph.Follows l'.graph := by
  induction h with
  | refl => exact .refl _
  | tail _ hlast ih => exact ih.trans hlast.follows

theorem resolveAll_documents {g g' : Graph} {first : NodeId}
    (hok : Resolution.resolveAll g first = .ok g') :
    g'.documents = g.documents ∧ g'.namespaces = g.namespaces := by
  refine foldlM_keeps (P := fun g' : Graph => g'.documents = g.documents ∧
    g'.namespaces = g.namespaces) (fun g₁ id _ g₂ hg₁ hstep => ?_) ⟨rfl, rfl⟩ hok
  unfold Resolution.resolveNode at hstep
  split at hstep
  · cases hstep
    exact hg₁
  · split at hstep
    · cases hstep
    · cases hstep
      exact hg₁

/-- A load that succeeds keeps the documents that are there, and adds those of its run. -/
theorem load_follows {g g' : Graph} {url : String} {ns : Option String} {limit : Nat}
    {entry : NamespaceId} (hunread : g.documentId? url = none)
    (hok : load (m := Id) documents limit g url ns = .ok (g', entry)) :
    ∃ l, run (m := Id) documents limit (start g url ns) = .ok l ∧ g.Follows l.graph ∧
      l.graph.Follows g' ∧ g'.documents = l.graph.documents := by
  obtain ⟨l, resolved, hrun, hresolve, rfl⟩ := load_eq_ok hunread hok
  obtain ⟨hdocuments, hnamespaces⟩ := resolveAll_documents hresolve
  refine ⟨l, hrun, ?_, (Graph.Follows.of_eq hdocuments hnamespaces).trans (.markLoaded resolved),
    hdocuments⟩
  exact (enqueue_follows { graph := g } _).trans (answers_follows (run_eq_ok hrun).1)

end Loading

end XsdTypes
