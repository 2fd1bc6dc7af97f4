import XsdTypes.Proofs.Schema.Documents
import XsdTypes.Proofs.Schema.Loaded

/-!
# What becomes of requests

A URL is asked for once, so one request stands for all others with its URL. If it is an import whose
namespace is known by other documents, it may fail; and then a document that another one includes
under the same URL is missing too, and nobody is told. This is the only way in which a document that
is included or redefined can be missing after a load.
-/

namespace XsdTypes.Loading

open Sequencing Relation

variable {documents : String → Except FetchFault String} {l₀ l l' : Loading} {request : Request}
  {url : String}

/-- A document that is read in a load asks for another one. -/
def Asks (documents : String → Except FetchFault String) (l₀ : Loading) (request : Request) : Prop :=
  ∃ l reader pending text graph parsed, ReflTransGen (Answers documents) l₀ l ∧
    l.pending = reader :: pending ∧ documents reader.url = .ok text ∧
    Reading.read reader l.graph text = .ok (graph, parsed) ∧ request ∈ parsed.requests

/-- The URL was asked for with an import that is not needed, and there is no document. -/
def Forgone (documents : String → Except FetchFault String) (l₀ : Loading) (g : Graph)
    (url : String) : Prop :=
  (∃ fault, documents url = .error fault) ∧
    ∃ request, Asks documents l₀ request ∧ request.url = url ∧ isRedundant g request = true

/-- The URL is taken care of. -/
def Settled (l : Loading) (url : String) : Prop :=
  url ∈ l.queued ∨ (l.graph.documentId? url).isSome

/-- What waits was asked for, and what was asked for waits, or has been read, or is forgone. -/
structure Pursued (documents : String → Except FetchFault String) (l₀ l : Loading) : Prop where
  pending : ∀ request ∈ l.pending, request.route = .entry ∨ Asks documents l₀ request
  queued : ∀ url ∈ l.queued, (∃ request ∈ l.pending, request.url = url) ∨
    (l.graph.documentId? url).isSome ∨ Forgone documents l₀ l.graph url
  read : ∀ url, (l.graph.documentId? url).isSome → ∃ text, documents url = .ok text

theorem Forgone.mono {g g' : Graph} (h : Forgone documents l₀ g url) (hfollows : g.Follows g') :
    Forgone documents l₀ g' url := by
  obtain ⟨hfault, request, hasks, hurl, hredundant⟩ := h
  exact ⟨hfault, request, hasks, hurl, hfollows.isRedundant hredundant⟩

/-! ## Asking -/

theorem Settled.enqueue (h : l.Settled url) (request : Request) :
    (l.enqueue request).Settled url := by
  rcases h with hqueued | hread
  · rcases enqueue_eq l request with ⟨heq, _⟩ | ⟨_, _, _, heq, _⟩ <;> rw [heq]
    · exact Or.inl hqueued
    · exact Or.inl (List.mem_cons_of_mem _ hqueued)
  · exact Or.inr ((enqueue_follows l request).documentId? hread)

/-- What is not imported is taken care of when it has been asked for. -/
theorem settled_enqueue (l : Loading) (hroute : request.route ≠ .imported) :
    (l.enqueue request).Settled request.url := by
  rcases enqueue_eq l request with ⟨heq, hknown⟩ | ⟨_, _, _, heq, _⟩ <;> rw [heq]
  · rcases hknown with hqueued | hread | himported
    · exact Or.inl hqueued
    · exact Or.inr hread
    · exact absurd himported hroute
  · exact Or.inl List.mem_cons_self

theorem Settled.enqueueAll (h : l.Settled url) (requests : List Request) :
    (requests.foldl Loading.enqueue l).Settled url :=
  List.foldlRecOn (motive := fun l => l.Settled url) requests Loading.enqueue h
    fun _ hl request _ => hl.enqueue request

theorem settled_enqueueAll (l : Loading) {requests : List Request} (hmem : request ∈ requests)
    (hroute : request.route ≠ .imported) :
    (requests.foldl enqueue l).Settled request.url := by
  induction requests generalizing l with
  | nil => cases hmem
  | cons first requests ih =>
    rcases List.mem_cons.mp hmem with rfl | hrest
    · exact (settled_enqueue l hroute).enqueueAll requests
    · exact ih _ hrest

theorem Pursued.enqueue (h : Pursued documents l₀ l) (hasks : Asks documents l₀ request) :
    Pursued documents l₀ (l.enqueue request) := by
  have hfollows := enqueue_follows l request
  have hread : ∀ url, ((l.enqueue request).graph.documentId? url).isSome →
      ∃ text, documents url = .ok text := by
    intro url hurl
    rw [enqueue_documentId?] at hurl
    exact h.read url hurl
  rcases enqueue_eq l request with ⟨heq, _⟩ | ⟨_, _, graph, heq, _⟩
  · rw [heq]
    exact h
  · rw [heq] at hfollows hread ⊢
    refine ⟨fun r hr => ?_, fun url hurl => ?_, hread⟩
    · rcases List.mem_append.mp hr with hold | hnew
      · exact h.pending r hold
      · rw [List.mem_singleton.mp hnew]
        exact Or.inr hasks
    · rcases List.mem_cons.mp hurl with rfl | hold
      · exact Or.inl ⟨request, List.mem_append_right _ (List.mem_singleton.mpr rfl), rfl⟩
      · rcases h.queued url hold with ⟨r, hr, hurl⟩ | hread | hforgone
        · exact Or.inl ⟨r, List.mem_append_left _ hr, hurl⟩
        · exact Or.inr (Or.inl (hfollows.documentId? hread))
        · exact Or.inr (Or.inr (hforgone.mono hfollows))

theorem Pursued.enqueueAll (h : Pursued documents l₀ l) {requests : List Request}
    (hasks : ∀ request ∈ requests, Asks documents l₀ request) :
    Pursued documents l₀ (requests.foldl Loading.enqueue l) :=
  List.foldlRecOn requests Loading.enqueue h fun _ hl request hmem => hl.enqueue (hasks request hmem)

/-! ## Answers -/

theorem Pursued.answers (h : Pursued documents l₀ l) (hreaches : ReflTransGen (Answers documents) l₀ l)
    (hanswers : Answers documents l l') : Pursued documents l₀ l' := by
  obtain ⟨request, pending, hpending, hok⟩ := hanswers
  have hrest : ∀ r ∈ pending, r.route = .entry ∨ Asks documents l₀ r := fun r hr =>
    h.pending r (hpending ▸ List.mem_cons_of_mem _ hr)
  -- what was asked for with the request that is answered has no document or is read now
  have hqueued : ∀ url ∈ l.queued, url = request.url ∨ (∃ r ∈ pending, r.url = url) ∨
      (l.graph.documentId? url).isSome ∨ Forgone documents l₀ l.graph url := by
    intro url hurl
    rcases h.queued url hurl with ⟨r, hr, hrurl⟩ | hdone
    · rw [hpending] at hr
      rcases List.mem_cons.mp hr with rfl | hr
      · exact Or.inl hrurl.symm
      · exact Or.inr (Or.inl ⟨r, hr, hrurl⟩)
    · exact Or.inr (Or.inr hdone)
  rcases receive_eq_ok hok with ⟨fault, hfault, hredundant, rfl⟩ | ⟨text, graph, parsed, htext, hread, rfl⟩
  · refine ⟨hrest, fun url hurl => ?_, h.read⟩
    rcases hqueued url hurl with rfl | hothers
    · refine Or.inr (Or.inr ⟨⟨fault, hfault⟩, request, ?_, rfl, hredundant⟩)
      rcases h.pending request (hpending ▸ List.mem_cons_self) with hentry | hasks
      · rw [route_of_isRedundant hredundant] at hentry
        cases hentry
      · exact hasks
    · exact hothers
  · obtain ⟨hfollows, hdocument, _⟩ := Reading.read_files hread
    refine Pursued.enqueueAll ⟨hrest, fun url hurl => ?_, fun url hurl => ?_⟩ fun r hr =>
      ⟨l, request, pending, text, graph, parsed, hreaches, hpending, htext, hread, hr⟩
    · rcases hqueued url hurl with rfl | hwaits | hold | hforgone
      · exact Or.inr (Or.inl hdocument)
      · exact Or.inl hwaits
      · exact Or.inr (Or.inl (hfollows.documentId? hold))
      · exact Or.inr (Or.inr (hforgone.mono hfollows))
    · rcases Reading.documentId?_of_read hread hurl with hold | rfl
      · exact h.read url hold
      · exact ⟨text, htext⟩

theorem Settled.answers (h : l.Settled url) (hanswers : Answers documents l l') : l'.Settled url := by
  obtain ⟨request, pending, _, hok⟩ := hanswers
  rcases receive_eq_ok hok with ⟨_, _, _, rfl⟩ | ⟨text, graph, parsed, _, hread, rfl⟩
  · exact h
  · refine Settled.enqueueAll ?_ _
    rcases h with hqueued | hdone
    · exact Or.inl hqueued
    · exact Or.inr ((Reading.read_files hread).1.documentId? hdone)

theorem Settled.run (h : l.Settled url) (hanswers : ReflTransGen (Answers documents) l l') :
    l'.Settled url := by
  induction hanswers with
  | refl => exact h
  | tail _ hlast ih => exact ih.answers hlast

theorem Pursued.run (h : Pursued documents l₀ l₀) (hanswers : ReflTransGen (Answers documents) l₀ l) :
    Pursued documents l₀ l := by
  induction hanswers with
  | refl => exact h
  | tail hreaches hlast ih => exact ih.answers hreaches hlast

/-- A request has one answer. -/
theorem answers_rightUnique : Relator.RightUnique (Answers documents) := by
  rintro l l₁ l₂ ⟨r₁, p₁, hpending₁, hok₁⟩ ⟨r₂, p₂, hpending₂, hok₂⟩
  cases hpending₁.symm.trans hpending₂
  cases hok₁.symm.trans hok₂
  rfl

/-- Whatever a load comes to leads to its end. -/
theorem reaches_end (hend : ReflTransGen (Answers documents) l₀ l') (hpending : l'.pending = [])
    (hreaches : ReflTransGen (Answers documents) l₀ l) : ReflTransGen (Answers documents) l l' := by
  rcases ReflTransGen.total_of_right_unique answers_rightUnique hreaches hend with h | h
  · exact h
  · rcases ReflTransGen.cases_head h with rfl | ⟨_, ⟨request, pending, hcons, _⟩, _⟩
    · exact .refl
    · rw [hpending] at hcons
      cases hcons

/-- What is asked for and is not imported is taken care of in the end. -/
theorem settled_of_asks (hend : ReflTransGen (Answers documents) l₀ l') (hpending : l'.pending = [])
    (hasks : Asks documents l₀ request) (hroute : request.route ≠ .imported) :
    l'.Settled request.url := by
  obtain ⟨l, reader, pending, text, graph, parsed, hreaches, hcons, htext, hread, hmem⟩ := hasks
  rcases ReflTransGen.cases_head (reaches_end hend hpending hreaches) with rfl | ⟨next, hnext, hrest⟩
  · rw [hpending] at hcons
    cases hcons
  · refine Settled.run ?_ hrest
    obtain ⟨r, p, hpending', hok⟩ := hnext
    cases hcons.symm.trans hpending'
    rcases receive_eq_ok hok with ⟨fault, hfault, _, _⟩ | ⟨text', graph', parsed', htext', hread', rfl⟩
    · cases htext.symm.trans hfault
    · cases htext.symm.trans htext'
      cases hread.symm.trans hread'
      exact settled_enqueueAll _ hmem hroute

/-! ## A load from the start -/

section Load

variable {policy : RepeatPolicy} {ns : Option String}

theorem pursued_start : Pursued documents (start (Graph.initial policy) url ns)
    (start (Graph.initial policy) url ns) := by
  rw [start_initial]
  refine ⟨fun request hrequest => ?_, fun u hu => ?_, fun u hu => ?_⟩
  · rw [List.mem_singleton.mp hrequest]
    exact Or.inl rfl
  · rw [List.mem_singleton.mp hu]
    exact Or.inl ⟨.entry url ns, List.mem_singleton.mpr rfl, rfl⟩
  · rw [documentId?_initial] at hu
    cases hu

/-- After a load, a document that was included or redefined is there if and only if its URL has a
document. If it is not there, the same URL was imported for a namespace that has other documents. -/
theorem load_requires (documents : String → Except FetchFault String) (limit : Nat)
    (policy : RepeatPolicy) (url : String) (ns : Option String) {g : Graph} {entry : NamespaceId}
    (hok : load (m := Id) documents limit (Graph.initial policy) url ns = .ok (g, entry))
    {request : Request} (hasks : Asks documents (start (Graph.initial policy) url ns) request)
    (hroute : request.route = .included ∨ request.route = .redefined) :
    ((g.documentId? request.url).isSome ↔ ∃ text, documents request.url = .ok text) ∧
      (g.documentId? request.url = none →
        Forgone documents (start (Graph.initial policy) url ns) g request.url) := by
  obtain ⟨l, hrun, _, hfollows, hdocuments⟩ := load_follows (documentId?_initial policy url) hok
  obtain ⟨hend, hpending⟩ := run_eq_ok hrun
  have hpursued := pursued_start.run hend
  have hsame : g.documentId? request.url = l.graph.documentId? request.url := by
    rw [Graph.documentId?, hdocuments, Graph.documentId?]
  have himported : request.route ≠ .imported := by
    rcases hroute with h | h <;> rw [h] <;> exact Route.noConfusion
  -- nothing waits any more, so what is taken care of has been read or is forgone
  have hdone : (l.graph.documentId? request.url).isSome ∨
      Forgone documents (start (Graph.initial policy) url ns) l.graph request.url := by
    rcases settled_of_asks hend hpending hasks himported with hqueued | hread
    · rcases hpursued.queued request.url hqueued with ⟨r, hr, _⟩ | hdone
      · rw [hpending] at hr
        cases hr
      · exact hdone
    · exact Or.inl hread
  rw [hsame]
  refine ⟨⟨hpursued.read request.url, fun htext => ?_⟩, fun hnone => ?_⟩
  · obtain ⟨text, htext⟩ := htext
    rcases hdone with hread | ⟨⟨fault, hfault⟩, _⟩
    · exact hread
    · cases htext.symm.trans hfault
  · rcases hdone with hread | hforgone
    · rw [hnone] at hread
      cases hread
    · exact hforgone.mono hfollows

/-- A document that imports a URL for the namespace of another document, and then includes it. -/
def forgoingDocument : String :=
  "<schema xmlns='http://www.w3.org/2001/XMLSchema' targetNamespace='m'>" ++
    "<import schemaLocation='shared.xsd'/><import namespace='s' schemaLocation='extra.xsd'/>" ++
    "<include schemaLocation='extra.xsd'/></schema>"

/-- The other document is there, and there is none with the URL. -/
def forgoneDocuments (url : String) : Except FetchFault String :=
  if url = "main.xsd" then .ok forgoingDocument
  else if url = "shared.xsd" then
    .ok "<schema xmlns='http://www.w3.org/2001/XMLSchema' targetNamespace='s'/>"
  else .error .unknown

set_option maxRecDepth 100000 in
theorem load_forgoneDocuments : ∃ g entry request,
    load (m := Id) forgoneDocuments 3 (Graph.initial .standard) "main.xsd" none = .ok (g, entry) ∧
      Asks forgoneDocuments (start (Graph.initial .standard) "main.xsd" none) request ∧
      request.route = .included ∧ g.documentId? request.url = none := by
  have hload : ((load (m := Id) forgoneDocuments 3 (Graph.initial .standard) "main.xsd" none).toOption.map
      fun result => result.1.documentId? "extra.xsd") = some none :=
    load_of_letters (fun _ => .ite (.append (.append (.ok _) _) _) (.ite (.ok _) (.error _)))
      (by decide +kernel)
  have hread : ((Reading.read (.entry "main.xsd" none) (Graph.initial .standard)
      forgoingDocument).toOption.map fun result => result.2.requests.any fun request =>
        request.route = .included && request.url = "extra.xsd") = some true := by
    have htext : forgoingDocument.toList = _ :=
      toList_append_ofList (toList_append_ofList String.toList_ofList)
    rw [read_of_toList htext]
    decide +kernel
  obtain ⟨result, hok, hnone⟩ := eq_ok_of_toOption hload
  obtain ⟨parsed, hparsed, hany⟩ := eq_ok_of_toOption hread
  obtain ⟨request, hmem, hrequest⟩ := List.any_eq_true.mp hany
  rw [Bool.and_eq_true, decide_eq_true_eq, decide_eq_true_eq] at hrequest
  refine ⟨result.1, result.2, request, hok, ?_, hrequest.1, hrequest.2 ▸ hnone⟩
  refine ⟨start (Graph.initial .standard) "main.xsd" none, .entry "main.xsd" none, [],
    forgoingDocument, parsed.1, parsed.2, .refl, ?_, rfl, ?_, hmem⟩ <;> rw [start_initial]
  exact hparsed

theorem load_requires_example : ∃ g entry request,
    load (m := Id) forgoneDocuments 3 (Graph.initial .standard) "main.xsd" none = .ok (g, entry) ∧
      Asks forgoneDocuments (start (Graph.initial .standard) "main.xsd" none) request ∧
      request.route = .included ∧
      Forgone forgoneDocuments (start (Graph.initial .standard) "main.xsd" none) g request.url := by
  obtain ⟨g, entry, request, hload, hasks, hroute, hnone⟩ := load_forgoneDocuments
  exact ⟨g, entry, request, hload, hasks, hroute,
    (load_requires _ _ _ _ _ hload hasks (Or.inl hroute)).2 hnone⟩

/-- A load that succeeds may lack a document that is included. -/
theorem not_all_included_loaded : ¬ ∀ (documents : String → Except FetchFault String) (limit : Nat)
    (policy : RepeatPolicy) (url : String) (ns : Option String) (g : Graph) (entry : NamespaceId)
    (request : Request),
    load (m := Id) documents limit (Graph.initial policy) url ns = .ok (g, entry) →
      Asks documents (start (Graph.initial policy) url ns) request → request.route = .included →
      (g.documentId? request.url).isSome := by
  intro hall
  obtain ⟨g, entry, request, hload, hasks, hroute, hnone⟩ := load_forgoneDocuments
  have hsome := hall _ _ _ _ _ g entry request hload hasks hroute
  rw [hnone] at hsome
  cases hsome

end Load

end XsdTypes.Loading
