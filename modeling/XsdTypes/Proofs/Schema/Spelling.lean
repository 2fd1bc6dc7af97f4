import XsdTypes.Proofs.Place.Normal
import XsdTypes.Proofs.Schema.Inclusion

/-!
# One path for every document

A document is known by its path. All locations are normalised, so documents that refer to another one
in different ways mean the same path, and it is read once. The path that a load starts from is taken as
it is written. If it is not normal, the document can be read once more, under the normal path.
-/

namespace XsdTypes

open Sequencing Relation

/-- Where a tag says that another document is. -/
def Payload.location? : Payload → Option String
  | .documentRef _ location => location
  | _ => none

theorem Payload.location?_written (payload : Payload) :
    payload.written.location? = payload.location? := by
  cases payload <;> rfl

/-- How many outermost tags a text has. A document begins with each of them. -/
def Markup.rootCount (text : String) : Nat :=
  (outermost 0 (stream text.toList).items).length

namespace Graph

variable {g g' : Graph} {url : String}

/-- A tag of a document refers to the URL. -/
def Cites (g : Graph) (url : String) : Prop :=
  ∃ n d location, n < g.nodes.size ∧ d < g.documents.size ∧ (g.nodeAt n).document = some d ∧
    (g.nodeAt n).payload.location? = some location ∧
    url = Place.resolve (g.documentAt d).url location

theorem Cites.mono (h : g.Cites url) (hext : g.Extends g') (hfollows : g.Follows g') :
    g'.Cites url := by
  obtain ⟨n, d, location, hn, hd, hdocument, hlocation, rfl⟩ := h
  have hcore := hext.core n hn
  refine ⟨n, d, location, Nat.lt_of_lt_of_le hn hext.nodes_le,
    Nat.lt_of_lt_of_le hd hfollows.documents_le, ?_, ?_, ?_⟩
  · rw [document_eq_of_core hcore]
    exact hdocument
  · rw [← Payload.location?_written, written_eq_of_core hcore, Payload.location?_written]
    exact hlocation
  · rw [hfollows.document d hd]

theorem Newest.document {node : Node} (h : g.Newest g' node) :
    (g'.nodeAt g.nodes.size).document = node.document := by
  rw [← h.node_eq]
  rfl

end Graph

namespace Reading

variable {request : Request} {g : Graph} {r r' : Reading} {first : Nat}

/-! ## What a document refers to -/

theorem step_follows {event : Position × Markup.Event} (hok : step request r event = .ok r') :
    r.graph.Follows r'.graph := by
  rcases (step_documents hok).2 with hcontinues | ⟨uri, document, hbegins⟩
  · exact .of_eq hcontinues.documents hcontinues.namespaces
  · exact hbegins.follows

/-- The node of a tag that asks for a document is in the document that is read. -/
theorem openTag_cites (hintact : r.Intact first) (hfiles : r.Files request g) (hissues : r.Issues)
    {f : Frame} (hf : f ∈ r.frames) {tag : Tag} (hmay : f.tag.mayContain tag) {position : Position}
    {attributes : List (String × String)}
    (hok : openTag request (r.addTagNode (some f) tag position attributes).1
      (r.addTagNode (some f) tag position attributes).2 f tag position attributes = .ok r') :
    r.graph.Extends r'.graph ∧ ∀ q ∈ r'.requests, q ∈ r.requests ∨ r'.graph.Cites q.url := by
  have hfollows : r.graph.Follows r'.graph := by
    obtain ⟨hcontinues, _⟩ := openTag_continues hok
    exact .of_eq hcontinues.documents hcontinues.namespaces
  obtain ⟨e, own, g', heffect, hperform, rfl⟩ := openTag_eq_ok hok
  have hopens := opens_of_perform hintact.graph.sound (hintact.stands f hf) hmay rfl rfl heffect
    ((r.addTagNode (some f) tag position attributes).1.requests ++ e.request.toList) hperform
  have hnewest := hopens.newest
  refine ⟨hnewest.ext, fun q hq => ?_⟩
  rcases List.mem_append.mp hq with hold | hnew
  · exact Or.inl hold
  obtain ⟨htag, _, _, ns, location, hpayload, hurl⟩ :=
    plan_request heffect (Option.mem_toList.mp hnew)
  obtain ⟨d, hd, _⟩ := hissues.schema f hf (eq_schema_of_mayContain hmay htag)
  obtain ⟨hge, hlt⟩ := hfiles.current d hd
  refine Or.inr ⟨r.graph.nodes.size, d, location, hnewest.lt,
    Nat.lt_of_lt_of_le hlt hfollows.documents_le, ?_, ?_, ?_⟩
  · rw [hnewest.document]
    exact hd
  · rw [hnewest.payload_eq]
    exact congrArg Payload.location? hpayload
  · rw [hurl, hfollows.document d hlt, hfiles.url d hge hlt]
    rfl

theorem step_cites (hintact : r.Intact first) (hfiles : r.Files request g) (hissues : r.Issues)
    (hcites : ∀ q ∈ r.requests, r.graph.Cites q.url) {item : Position × Markup.Event}
    (hok : step request r item = .ok r') :
    r.graph.Extends r'.graph ∧ ∀ q ∈ r'.requests, r'.graph.Cites q.url := by
  have hfollows := step_follows hok
  have hkept : r.graph.Extends r'.graph → (∀ q ∈ r'.requests, q ∈ r.requests ∨ r'.graph.Cites q.url) →
      r.graph.Extends r'.graph ∧ ∀ q ∈ r'.requests, r'.graph.Cites q.url := by
    intro hext hrequests
    refine ⟨hext, fun q hq => ?_⟩
    rcases hrequests q hq with hold | hnew
    · exact (hcites q hold).mono hext hfollows
    · exact hnew
  have hlistens : r.Listens r' →
      r.graph.Extends r'.graph ∧ ∀ q ∈ r'.requests, r'.graph.Cites q.url := by
    intro hlistens
    refine hkept ?_ fun q hq => Or.inl (hlistens.requests ▸ hq)
    rcases hlistens.graph with heq | ⟨id, f, hf, heq⟩ <;> rw [heq]
    · exact .refl _
    · exact Graph.Extends.modifyNode _ _ hf.core
  obtain ⟨position, event⟩ := item
  cases event with
  | opened name attributes =>
    rw [step_opened] at hok
    rcases opened_eq_ok hok with ⟨_, _, rfl⟩ | ⟨_, diagnostics, rfl⟩ |
      ⟨f, frames, tag, hframes, _, hmay, hopen⟩
    · obtain ⟨node, _, hopens⟩ := openSchema_opens (r := r.within attributes) hintact.graph.sound
        hintact.graph.schemaNamespace_lt request position (plainAttributes attributes)
      obtain ⟨_, hbegins⟩ :=
        openSchema_begins (r.within attributes) request position (plainAttributes attributes)
      exact hkept hopens.newest.ext fun q hq => Or.inl (hbegins.requests ▸ hq)
    · exact hkept (reported hintact.graph.sound diagnostics).2 fun q hq => Or.inl hq
    · have hf : f ∈ (r.within attributes).frames := by
        rw [within, hframes]
        exact List.mem_cons_self
      obtain ⟨hext, hrequests⟩ := openTag_cites (r := r.within attributes)
        ⟨hintact.graph, hintact.stands, hintact.outer⟩ ⟨hfiles.follows, hfiles.url, hfiles.current⟩
        ⟨hissues.schema, hissues.requests⟩ hf hmay hopen
      exact hkept hext hrequests
  | closed =>
    cases hok
    exact hlistens r.closed_listens
  | text content =>
    cases hok
    exact hlistens (r.text_listens content)

/-- A document asks for what its tags refer to. -/
theorem read_cites {g' : Graph} {parsed : Parsed} {text : String} (hg : g.Intact first)
    (hok : Reading.read request g text = .ok (g', parsed)) :
    g.Extends g' ∧ ∀ q ∈ parsed.requests, g'.Cites q.url := by
  unfold Reading.read readStream at hok
  obtain ⟨r, hr, hfinish⟩ := bind_eq_ok.mp hok
  obtain ⟨rfl, _, hrequests⟩ := finish_eq_ok hfinish
  have hkept : (r.Intact first ∧ r.Files request g ∧ r.Issues) ∧ g.Extends r.graph ∧
      ∀ q ∈ r.requests, r.graph.Cites q.url := by
    refine foldlM_keeps (P := fun r => (r.Intact first ∧ r.Files request g ∧ r.Issues) ∧
      g.Extends r.graph ∧ ∀ q ∈ r.requests, r.graph.Cites q.url) (fun r item _ r' hr hstep => ?_)
      ⟨⟨Intact.start hg, Files.start request g, fun _ hf => absurd hf List.not_mem_nil,
        fun _ hq => absurd hq List.not_mem_nil⟩, .refl g, fun _ hq => absurd hq List.not_mem_nil⟩ hr
    obtain ⟨⟨hintact, hfiles, hissues⟩, hext, hcites⟩ := hr
    have hintact' := hintact.step request item
    rw [hstep] at hintact'
    obtain ⟨hext', hcites'⟩ := step_cites hintact hfiles hissues hcites hstep
    exact ⟨⟨hintact', hfiles.step hstep, hissues.step hintact hfiles hstep⟩, hext.trans hext', hcites'⟩
  rw [hrequests]
  exact hkept.2

/-! ## How many documents a text has -/

theorem run_documents_size {items : List (Position × Markup.Event)}
    (hnested : 0 < r.skipped → r.frames ≠ []) (hok : items.foldlM (step request) r = .ok r') :
    r'.graph.documents.size =
      r.graph.documents.size + (Markup.outermost r.depth items).length := by
  induction items generalizing r with
  | nil =>
    cases hok
    rfl
  | cons item items ih =>
    rw [List.foldlM_cons] at hok
    obtain ⟨r₁, hstep, hrest⟩ := bind_eq_ok.mp hok
    obtain ⟨hnested₁, ⟨hcontinues, houtermost⟩ | ⟨attributes, document, hbegins, houtermost⟩⟩ :=
      step_outermost hnested hstep
    · rw [ih hnested₁ hrest, hcontinues.documents, houtermost]
    · rw [ih hnested₁ hrest, hbegins.documents_size, houtermost, List.length_cons]
      omega

theorem read_documents_size {g' : Graph} {parsed : Parsed} {text : String}
    (hok : Reading.read request g text = .ok (g', parsed)) :
    g'.documents.size = g.documents.size + Markup.rootCount text := by
  unfold Reading.read readStream at hok
  obtain ⟨r, hr, hfinish⟩ := bind_eq_ok.mp hok
  obtain ⟨rfl, _, _⟩ := finish_eq_ok hfinish
  exact run_documents_size (fun hpos => absurd hpos (Nat.lt_irrefl 0)) hr

end Reading

namespace Loading

variable {documents : String → Except FetchFault String} {l₀ l l' : Loading} {request : Request}
  {pending log : List Request} {url : String} {limit first : Nat}

/-! ## Loading -/

/-- Where the documents come from: but for the entry, others refer to them, and two documents with one
URL are in one text. -/
structure Sourced (documents : String → Except FetchFault String) (url : String) (l : Loading) :
    Prop where
  pending : ∀ q ∈ l.pending, q.url = url ∨ l.graph.Cites q.url
  read : ∀ d, d < l.graph.documents.size →
    (l.graph.documentAt d).url = url ∨ l.graph.Cites (l.graph.documentAt d).url
  shared : ∀ d d', d < d' → d' < l.graph.documents.size →
    (l.graph.documentAt d).url = (l.graph.documentAt d').url →
    ∃ text, documents (l.graph.documentAt d).url = .ok text ∧ 1 < Markup.rootCount text

theorem Sourced.extend (h : Sourced documents url l) {graph : Graph} (hext : l.graph.Extends graph)
    (hfollows : l.graph.Follows graph) (hdocuments : graph.documents = l.graph.documents)
    {pending : List Request} (hpending : ∀ q ∈ pending, q.url = url ∨ graph.Cites q.url)
    (queued : List String) (entry : Option NamespaceId) :
    Sourced documents url { l with graph, pending, queued, entry } := by
  have hat : ∀ d, graph.documentAt d = l.graph.documentAt d := by
    intro d
    rw [Graph.documentAt, hdocuments, Graph.documentAt]
  refine ⟨hpending, fun d hd => ?_, fun d d' hlt hd' hurl => ?_⟩
  · simp only [hdocuments, hat] at hd ⊢
    exact (h.read d hd).imp_right fun hcites => hcites.mono hext hfollows
  · simp only [hdocuments, hat] at hd' hurl ⊢
    exact h.shared d d' hlt hd' hurl

theorem Sourced.enqueue (h : Sourced documents url l) (hcites : l.graph.Cites request.url) :
    Sourced documents url (l.enqueue request) ∧ l.graph.Extends (l.enqueue request).graph := by
  have hfollows := enqueue_follows l request
  rcases enqueue_eq l request with ⟨heq, _⟩ | ⟨_, _, graph, heq, hgraph⟩ <;> rw [heq] at hfollows ⊢
  · exact ⟨h, .refl _⟩
  · have hkept : l.graph.Extends graph ∧ graph.documents = l.graph.documents := by
      rcases hgraph with rfl | ⟨uri, rfl⟩
      · exact ⟨.refl _, rfl⟩
      · exact ⟨.register _ uri, Graph.register_documents _ uri⟩
    refine ⟨h.extend hkept.1 hfollows hkept.2 (fun q hq => ?_) _ _, hkept.1⟩
    rcases List.mem_append.mp hq with hold | hnew
    · exact (h.pending q hold).imp_right fun hcites => hcites.mono hkept.1 hfollows
    · rw [List.mem_singleton.mp hnew]
      exact Or.inr (hcites.mono hkept.1 hfollows)

theorem Sourced.enqueueAll (h : Sourced documents url l) {requests : List Request}
    (hcites : ∀ q ∈ requests, l.graph.Cites q.url) :
    Sourced documents url (requests.foldl Loading.enqueue l) := by
  induction requests generalizing l with
  | nil => exact h
  | cons request requests ih =>
    obtain ⟨hfirst, hext⟩ := h.enqueue (hcites request List.mem_cons_self)
    refine ih hfirst fun q hq => ?_
    exact (hcites q (List.mem_cons_of_mem _ hq)).mono hext (enqueue_follows l request)

/-- The documents that are new have the URL that was asked for, and no other document has it. -/
theorem Sourced.receive (h : Sourced documents url l) (hled : Led documents l₀ first log l)
    (hpending : l.pending = request :: pending)
    (hok : ({ l with pending } : Loading).receive request (documents request.url) = .ok l') :
    Sourced documents url l' := by
  have hrest : ∀ q ∈ pending, q.url = url ∨ l.graph.Cites q.url := fun q hq =>
    h.pending q (hpending ▸ List.mem_cons_of_mem _ hq)
  rcases receive_eq_ok hok with ⟨_, _, _, rfl⟩ | ⟨text, graph, parsed, htext, hread, rfl⟩
  · exact ⟨hrest, h.read, h.shared⟩
  obtain ⟨hfollows, _, hnew⟩ := Reading.read_files hread
  obtain ⟨hext, hcites⟩ := Reading.read_cites hled.intact hread
  have hcount : graph.documents.size = l.graph.documents.size + Markup.rootCount text :=
    Reading.read_documents_size hread
  have hmono : ∀ {u}, u = url ∨ l.graph.Cites u → u = url ∨ graph.Cites u := fun hu =>
    hu.imp_right fun hcites => hcites.mono hext hfollows
  have hunread : ∀ d, d < l.graph.documents.size → (l.graph.documentAt d).url ≠ request.url := by
    intro d hd hurl
    have hsome := Graph.documentId?_isSome.mpr ⟨d, hd, hurl⟩
    rw [hled.unread request (hpending ▸ List.mem_cons_self)] at hsome
    cases hsome
  refine Sourced.enqueueAll ⟨fun q hq => hmono (hrest q hq), fun d hd => ?_,
    fun d d' hlt hd' hurl => ?_⟩ hcites
  · rcases Nat.lt_or_ge d l.graph.documents.size with hold | hge
    · simp only [hfollows.document d hold]
      exact hmono (h.read d hold)
    · simp only [hnew d hge hd]
      exact hmono (h.pending request (hpending ▸ List.mem_cons_self))
  · simp only at hd' hurl ⊢
    rcases Nat.lt_or_ge d' l.graph.documents.size with hold' | hge'
    · have hold := Nat.lt_trans hlt hold'
      rw [hfollows.document d hold, hfollows.document d' hold'] at hurl
      rw [hfollows.document d hold]
      exact h.shared d d' hlt hold' hurl
    · rw [hnew d' hge' hd'] at hurl
      rcases Nat.lt_or_ge d l.graph.documents.size with hold | hge
      · rw [hfollows.document d hold] at hurl
        exact absurd hurl (hunread d hold)
      -- both are new, so the text has two outermost tags
      · exact ⟨text, hurl ▸ htext, by omega⟩

theorem Sourced.reaches (h : Sourced documents url l₀) (hled : Led documents l₀ first log l₀)
    (hreach : ReflTransGen (Answers documents) l₀ l) : Sourced documents url l := by
  have hall : Sourced documents url l ∧ ∃ log, Led documents l₀ first log l := by
    induction hreach with
    | refl => exact ⟨h, log, hled⟩
    | tail hreach hlast ih =>
      obtain ⟨hsourced, log, hled⟩ := ih
      obtain ⟨request, pending, hpending, hok⟩ := hlast
      exact ⟨hsourced.receive hled hpending hok, _, hled.receive hreach hpending hok⟩
  exact hall.1

theorem sourced_start (documents : String → Except FetchFault String) (policy : RepeatPolicy)
    (url : String) (ns : Option String) :
    Sourced documents url (start (Graph.initial policy) url ns) := by
  have hempty : ∀ d, ¬ d < (Graph.initial policy).documents.size := by
    intro d hd
    rw [Array.isEmpty_iff.mp (Graph.initial_documents policy)] at hd
    exact Nat.not_lt_zero d hd
  rw [start_initial]
  refine ⟨fun q hq => ?_, fun d hd => absurd hd (hempty d), fun _ d' _ hd' => absurd hd' (hempty d')⟩
  rw [List.mem_singleton.mp hq]
  exact Or.inl rfl

/-- After a load, another document refers to each document other than the entry. -/
theorem load_cites {policy : RepeatPolicy} {ns : Option String} {g : Graph} {entry : NamespaceId}
    (hok : load (m := Id) documents limit (Graph.initial policy) url ns = .ok (g, entry)) :
    (∀ d, d < g.documents.size → (g.documentAt d).url = url ∨ g.Cites (g.documentAt d).url) ∧
      ∀ d d', d < d' → d' < g.documents.size → (g.documentAt d).url = (g.documentAt d').url →
        ∃ text, documents (g.documentAt d).url = .ok text ∧ 1 < Markup.rootCount text := by
  obtain ⟨l, resolved, hrun, hresolve, rfl⟩ := load_eq_ok (documentId?_initial policy url) hok
  have hsourced := (sourced_start documents policy url ns).reaches
    (led_start documents policy url ns) (run_eq_ok hrun).1
  obtain ⟨hdocuments, hnamespaces⟩ := resolveAll_documents hresolve
  have hfinal := hsourced.extend
    ((resolveAll_extends hresolve).1.trans (extends_markLoaded resolved))
    ((Graph.Follows.of_eq hdocuments hnamespaces).trans (.markLoaded resolved)) hdocuments
    (fun _ hq => absurd hq List.not_mem_nil) [] none
  exact ⟨hfinal.read, hfinal.shared⟩

/-! ## Spellings -/

/-- A document at a plain path to which another one refers is at a normal path. -/
theorem normalText_of_cites {g : Graph}
    (hplain : ∀ d, d < g.documents.size → Place.isUrl (g.documentAt d).url = false)
    (hbackslash : ∀ d, d < g.documents.size → '\\' ∉ (g.documentAt d).url.toList)
    (hlocations : ∀ n, n < g.nodes.size → ∀ location ∈ (g.nodeAt n).payload.location?,
      '\\' ∉ location.toList)
    (hurl : Place.isUrl url = false) (hcites : g.Cites url) : UnixPath.normalText url = url := by
  obtain ⟨n, d, location, hn, hd, _, hlocation, rfl⟩ := hcites
  exact Place.normalText_resolve (hplain d hd) hurl (hbackslash d hd) (hlocations n hn _ hlocation)

/-- If all documents are at plain paths, and neither the path of the entry nor any location has a
backslash, then no two documents have paths with the same normal form, but for two exceptions: the
path of the entry need not be normal, and then the entry may be there once more under another path;
and a text with more than one outermost tag has several documents. -/
theorem load_spells_once {policy : RepeatPolicy} {ns : Option String} {g : Graph}
    {entry : NamespaceId}
    (hok : load (m := Id) documents limit (Graph.initial policy) url ns = .ok (g, entry))
    (hplain : ∀ d, d < g.documents.size → Place.isUrl (g.documentAt d).url = false)
    (hentry : '\\' ∉ url.toList)
    (hlocations : ∀ n, n < g.nodes.size → ∀ location ∈ (g.nodeAt n).payload.location?,
      '\\' ∉ location.toList)
    {d d' : DocumentId} (hd' : d' < g.documents.size) (hlt : d < d')
    (hsame : UnixPath.normalText (g.documentAt d).url = UnixPath.normalText (g.documentAt d').url) :
    (UnixPath.normalText url ≠ url ∧ (g.documentAt d).url ≠ (g.documentAt d').url ∧
      ((g.documentAt d).url = url ∨ (g.documentAt d').url = url)) ∨
    ((g.documentAt d).url = (g.documentAt d').url ∧
      ∃ text, documents (g.documentAt d).url = .ok text ∧ 1 < Markup.rootCount text) := by
  obtain ⟨hcites, hshared⟩ := load_cites hok
  have hd := Nat.lt_trans hlt hd'
  by_cases heq : (g.documentAt d).url = (g.documentAt d').url
  · exact Or.inr ⟨heq, hshared d d' hlt hd' heq⟩
  have hbackslash : ∀ d, d < g.documents.size → '\\' ∉ (g.documentAt d).url.toList := by
    intro d hd
    rcases hcites d hd with hfirst | ⟨_, base, location, _, hbase, _, _, hresolve⟩
    · rw [hfirst]
      exact hentry
    · have hurl := hplain d hd
      rw [hresolve] at hurl ⊢
      exact Place.backslash_notMem_resolve (hplain base hbase) hurl
  have hnormal : ∀ d, d < g.documents.size → (g.documentAt d).url ≠ url →
      UnixPath.normalText (g.documentAt d).url = (g.documentAt d).url := fun d hd hne =>
    normalText_of_cites hplain hbackslash hlocations (hplain d hd) ((hcites d hd).resolve_left hne)
  refine Or.inl ⟨fun hurl => heq ?_, heq, ?_⟩
  -- if the entry is at a normal path, all documents are
  · have hall : ∀ d, d < g.documents.size →
        UnixPath.normalText (g.documentAt d).url = (g.documentAt d).url := by
      intro d hd
      by_cases hfirst : (g.documentAt d).url = url
      · rw [hfirst, hurl]
      · exact hnormal d hd hfirst
    rw [← hall d hd, hsame, hall d' hd']
  · by_contra hneither
    rw [not_or] at hneither
    refine heq ?_
    rw [← hnormal d hd hneither.1, hsame, hnormal d' hd' hneither.2]

/-- Two documents that include each other. The first one is also there under another path. -/
def dottedDocuments (url : String) : Except FetchFault String :=
  if url = "a.xsd" ∨ url = "./a.xsd" then
    .ok ("<schema xmlns='http://www.w3.org/2001/XMLSchema' targetNamespace='a'>" ++
      "<include schemaLocation='b.xsd'/></schema>")
  else if url = "b.xsd" then
    .ok ("<schema xmlns='http://www.w3.org/2001/XMLSchema' targetNamespace='a'>" ++
      "<include schemaLocation='a.xsd'/></schema>")
  else .error .unknown

set_option maxRecDepth 100000 in
theorem load_dottedDocuments : ∃ g entry,
    load (m := Id) dottedDocuments 3 (Graph.initial .standard) "./a.xsd" none = .ok (g, entry) ∧
      2 < g.documents.size ∧ (g.documentAt 0).url = "./a.xsd" ∧ (g.documentAt 2).url = "a.xsd" ∧
      (∀ d, d < g.documents.size → Place.isUrl (g.documentAt d).url = false) ∧
      ∀ n, n < g.nodes.size → ∀ location ∈ (g.nodeAt n).payload.location?,
        '\\' ∉ location.toList := by
  have hload : ((load (m := Id) dottedDocuments 3 (Graph.initial .standard) "./a.xsd"
      none).toOption.map fun result => decide (2 < result.1.documents.size ∧
        (result.1.documentAt 0).url = "./a.xsd" ∧ (result.1.documentAt 2).url = "a.xsd" ∧
        (∀ d, d < result.1.documents.size → Place.isUrl (result.1.documentAt d).url = false) ∧
        ∀ n, n < result.1.nodes.size → ∀ location ∈ (result.1.nodeAt n).payload.location?,
          '\\' ∉ location.toList)) = some true :=
    load_of_letters (fun _ => .ite (.append (.ok _) _) (.ite (.append (.ok _) _) (.error _)))
      (by decide +kernel)
  obtain ⟨⟨g, entry⟩, hok, hchecks⟩ := eq_ok_of_toOption hload
  exact ⟨g, entry, hok, of_decide_eq_true hchecks⟩

theorem load_spells_once_example : ∃ g entry,
    load (m := Id) dottedDocuments 3 (Graph.initial .standard) "./a.xsd" none = .ok (g, entry) ∧
      UnixPath.normalText (g.documentAt 0).url = UnixPath.normalText (g.documentAt 2).url ∧
      (g.documentAt 0).url ≠ (g.documentAt 2).url ∧ UnixPath.normalText "./a.xsd" ≠ "./a.xsd" := by
  obtain ⟨g, entry, hok, hsize, hfirst, hlast, hplain, hlocations⟩ := load_dottedDocuments
  have hsame : UnixPath.normalText (g.documentAt 0).url =
      UnixPath.normalText (g.documentAt 2).url := by
    rw [hfirst, hlast]
    decide +kernel
  refine ⟨g, entry, hok, hsame, ?_⟩
  rcases load_spells_once hok hplain (by decide) hlocations hsize (by decide) hsame with
    ⟨hentry, hne, _⟩ | ⟨heq, _⟩
  · exact ⟨hne, hentry⟩
  · rw [hfirst, hlast] at heq
    exact absurd heq (by decide)

/-- A document at a plain path may be read twice, under two paths with the same normal form. -/
theorem not_every_document_spelled_once : ¬ ∀ (documents : String → Except FetchFault String)
    (limit : Nat) (policy : RepeatPolicy) (url : String) (ns : Option String) (g : Graph)
    (entry : NamespaceId),
    load (m := Id) documents limit (Graph.initial policy) url ns = .ok (g, entry) →
      (∀ d, d < g.documents.size → Place.isUrl (g.documentAt d).url = false) →
      '\\' ∉ url.toList →
      (∀ n, n < g.nodes.size → ∀ location ∈ (g.nodeAt n).payload.location?,
        '\\' ∉ location.toList) →
      (∀ url text, documents url = .ok text → Markup.rootCount text = 1) →
      ∀ d d', d < d' → d' < g.documents.size →
        UnixPath.normalText (g.documentAt d).url ≠ UnixPath.normalText (g.documentAt d').url := by
  intro hall
  obtain ⟨g, entry, hok, hsize, hfirst, hlast, hplain, hlocations⟩ := load_dottedDocuments
  refine hall _ _ _ _ _ g entry hok hplain (by decide) hlocations (fun url text htext => ?_) 0 2
    (by decide) hsize ?_
  · unfold dottedDocuments at htext
    split at htext
    · cases htext
      decide +kernel
    · split at htext
      · cases htext
        decide +kernel
      · cases htext
  · rw [hfirst, hlast]
    decide +kernel

end Loading

end XsdTypes
