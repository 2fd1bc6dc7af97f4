import XsdTypes.Proofs.Schema.Adoption
import XsdTypes.Proofs.Schema.Announced
import XsdTypes.Proofs.Schema.Fetching
import XsdTypes.Proofs.Schema.Requests

/-!
# Documents that take over a namespace

A document is read once, however many others ask for it, and a document without a target namespace
takes over the one that the request for it gives it. So it belongs to the document that asks for it
first: if documents of different namespaces include it, it takes effect in one of these namespaces
and not in the others.
-/

namespace XsdTypes

open Sequencing Relation

namespace Graph

/-- The namespace has a document with the URL, and what stands directly in the `schema` tag of a
document with the URL is declared in the root scope of the namespace. -/
structure TakesEffect (g : Graph) (url : String) (i : NamespaceId) : Prop where
  listed : ∃ d ∈ (g.namespaceAt i).documents, (g.documentAt d).url = url
  declared : ∀ n p d, n < g.nodes.size → (g.nodeAt n).parent = some p → (g.nodeAt p).tag = .schema →
    (g.nodeAt p).document = some d → (g.documentAt d).url = url →
    (g.nodeAt n).scope = (g.namespaceAt i).root ∧ g.Announces n

variable {g : Graph} {first : Nat}

theorem Catalogued.mem_documents (h : g.Catalogued) {d : DocumentId} {i : NamespaceId} :
    d ∈ (g.namespaceAt i).documents ↔ d < g.documents.size ∧ (g.documentAt d).ns = i := by
  rcases Nat.lt_or_ge i g.namespaces.size with hi | hi
  · rw [h.listed i hi, List.mem_filter, List.mem_range, decide_eq_true_eq]
  · have hnone : (g.namespaceAt i).documents = [] := by
      rw [namespaceAt, Array.getD_eq_getD_getElem?, Array.getElem?_eq_none hi]
      rfl
    rw [hnone]
    constructor
    · intro hd
      cases hd
    · rintro ⟨hd, rfl⟩
      exact absurd (h.ns_lt d hd) (Nat.not_lt.mpr hi)

/-- If all documents with a URL are in one namespace, they take effect there and nowhere else. -/
theorem Intact.takesEffect_iff (h : g.Intact first) (hannounced : g.Announced first)
    (hnew : ∀ p, (g.nodeAt p).tag = .schema → first ≤ p) {url : String} {d : DocumentId}
    (hd : d < g.documents.size) (hurl : (g.documentAt d).url = url)
    (hsame : ∀ d', d' < g.documents.size → (g.documentAt d').url = url →
      (g.documentAt d').ns = (g.documentAt d).ns) (i : NamespaceId) :
    g.TakesEffect url i ↔ i = (g.documentAt d).ns := by
  constructor
  · rintro ⟨⟨d', hlisted, hurl'⟩, _⟩
    obtain ⟨hd', hns⟩ := h.catalogued.mem_documents.mp hlisted
    exact hns.symm.trans (hsame d' hd' hurl')
  · rintro rfl
    refine ⟨⟨d, h.catalogued.mem_documents.mpr ⟨hd, rfl⟩, hurl⟩,
      fun n p d' hn hparent htag hdocument hurl' => ?_⟩
    have hp := h.sound.tree.parent_lt n p hn hparent
    obtain ⟨d'', hdocument', hd'', hscope, hown⟩ := h.placed.schema p (Nat.lt_trans hp hn) htag
    cases hdocument.symm.trans hdocument'
    refine ⟨?_, hannounced n (Nat.le_trans (hnew p htag) (Nat.le_of_lt hp)) hn⟩
    rw [h.sound.tree.parent_scope n p hn hparent, Node.contentScope, hown, Option.getD_some, hscope,
      hsame d' hd'' hurl']

end Graph

namespace Loading

variable {documents : String → Except FetchFault String} {l₀ l l' : Loading} {request : Request}
  {pending log : List Request} {url : String} {limit first : Nat}

/-! ## The requests of a run -/

/-- The requests of the document that is asked for. -/
def requestsOf (documents : String → Except FetchFault String) (g : Graph) (request : Request) :
    List Request :=
  match documents request.url with
  | .error _ => []
  | .ok text =>
    match Reading.read request g text with
    | .error _ => []
    | .ok result => result.2.requests

/-- The requests that the documents of a run make, in order, whatever becomes of them. -/
def asked (documents : String → Except FetchFault String) : Nat → Loading → List Request
  | 0, _ => []
  | limit + 1, l =>
    match l.pending with
    | [] => []
    | request :: pending =>
      requestsOf documents l.graph request ++
        match ({ l with pending } : Loading).receive request (documents request.url) with
        | .error _ => []
        | .ok l => asked documents limit l

/-- The request is the first one for the URL, but for imports that are passed over. -/
def Leads (log : List Request) (url : String) (request : Request) : Prop :=
  ∃ before after, log = before ++ request :: after ∧ request.url = url ∧
    ∀ earlier ∈ before, earlier.url = url → earlier.route = .imported

theorem asked_nil (hpending : l.pending = []) (limit : Nat) : asked documents limit l = [] := by
  cases limit with
  | zero => rfl
  | succ limit => rw [asked, hpending]

theorem asked_cons (hpending : l.pending = request :: pending) (limit : Nat)
    (hok : ({ l with pending } : Loading).receive request (documents request.url) = .ok l') :
    asked documents (limit + 1) l =
      requestsOf documents l.graph request ++ asked documents limit l' := by
  rw [asked, hpending]
  simp only [hok]

/-- A run that ends gives answers until nothing waits. -/
theorem run_rec {motive : Nat → Loading → Prop} (hok : run (m := Id) documents limit l = .ok l')
    (idle : ∀ limit, l'.pending = [] → motive limit l')
    (answer : ∀ limit l next request pending, l.pending = request :: pending →
      ({ l with pending } : Loading).receive request (documents request.url) = .ok next →
      run (m := Id) documents limit next = .ok l' → motive limit next → motive (limit + 1) l) :
    motive limit l := by
  have hend := (run_eq_ok hok).2
  induction limit generalizing l with
  | zero =>
    unfold Loading.run at hok
    split at hok
    · cases hok
      exact idle 0 hend
    · cases hok
  | succ limit ih =>
    cases hpending : l.pending with
    | nil =>
      rw [run_nil hpending] at hok
      cases hok
      exact idle (limit + 1) hend
    | cons request pending =>
      rw [run_cons documents limit hpending] at hok
      cases hreceive : ({ l with pending } : Loading).receive request (documents request.url) with
      | error halt =>
        rw [hreceive] at hok
        cases hok
      | ok next =>
        rw [hreceive] at hok
        exact answer limit l next request pending hpending hreceive hok (ih hok)

theorem receive_asks (hok : l.receive request (documents request.url) = .ok l') :
    (∃ fault, documents request.url = .error fault ∧ requestsOf documents l.graph request = [] ∧
      l' = l) ∨
    ∃ text graph parsed, documents request.url = .ok text ∧
      Reading.read request l.graph text = .ok (graph, parsed) ∧
      requestsOf documents l.graph request = parsed.requests ∧
      l' = parsed.requests.foldl enqueue { l with
        graph
        entry := if request.route = .entry then some parsed.ns else l.entry } := by
  rcases receive_eq_ok hok with ⟨fault, hfault, _, rfl⟩ | ⟨text, graph, parsed, htext, hread, rfl⟩
  · exact Or.inl ⟨fault, hfault, by rw [requestsOf, hfault], rfl⟩
  · refine Or.inr ⟨text, graph, parsed, htext, hread, ?_, rfl⟩
    rw [requestsOf, htext]
    simp only [hread]

theorem mem_requestsOf {g : Graph} {reader : Request} :
    request ∈ requestsOf documents g reader ↔ ∃ text graph parsed, documents reader.url = .ok text ∧
      Reading.read reader g text = .ok (graph, parsed) ∧ request ∈ parsed.requests := by
  unfold requestsOf
  cases htext : documents reader.url with
  | error fault => simp
  | ok text =>
    cases hread : Reading.read reader g text with
    | error halt => simp [hread]
    | ok result =>
      obtain ⟨graph, parsed⟩ := result
      simp [hread]

/-- The requests of a run that ends are those of all documents that are read in it. -/
theorem mem_asked_iff (hok : run (m := Id) documents limit l = .ok l') :
    request ∈ asked documents limit l ↔ Asks documents l request := by
  refine run_rec (motive := fun limit l => request ∈ asked documents limit l ↔
    Asks documents l request) hok (fun limit hnil => ?_)
    fun limit l next reader pending hpending hreceive _ ih => ?_
  · rw [asked_nil hnil]
    constructor
    · intro hmem
      cases hmem
    · rintro ⟨m, reader, pending, _, _, _, hreach, hpending, _⟩
      rcases hreach.cases_head with rfl | ⟨next, ⟨_, _, hcons, _⟩, _⟩
      · cases hnil.symm.trans hpending
      · cases hnil.symm.trans hcons
  · rw [asked_cons hpending limit hreceive, List.mem_append, mem_requestsOf, ih]
    constructor
    · rintro (⟨text, graph, parsed, hread⟩ | ⟨m, r, rest, text, graph, parsed, hreach, hrest⟩)
      · exact ⟨l, reader, pending, text, graph, parsed, .refl, hpending, hread⟩
      · exact ⟨m, r, rest, text, graph, parsed, .head ⟨reader, pending, hpending, hreceive⟩ hreach,
          hrest⟩
    · rintro ⟨m, r, rest, text, graph, parsed, hreach, hrest, hread⟩
      -- the same request is answered first on the way to `m`, in the same way
      rcases hreach.cases_head with rfl | ⟨next', ⟨_, _, hcons, hreceive'⟩, hreach⟩
      · cases hpending.symm.trans hrest
        exact Or.inl ⟨text, graph, parsed, hread⟩
      · cases hpending.symm.trans hcons
        cases hreceive.symm.trans hreceive'
        exact Or.inr ⟨m, r, rest, text, graph, parsed, hreach, hrest, hread⟩

/-- What the documents of a run include or redefine is asked for in their namespaces. -/
theorem run_issued (h : l.graph.Intact first) (hok : run (m := Id) documents limit l = .ok l')
    (hmem : request ∈ asked documents limit l) (hroute : request.route ≠ .imported) :
    l'.graph.Issued request := by
  refine run_rec (motive := fun limit l => l.graph.Intact first →
    request ∈ asked documents limit l → l'.graph.Issued request) hok (fun limit hnil _ hmem => ?_)
    (fun limit l next reader pending hpending hreceive hrun ih h hmem => ?_) h hmem
  · rw [asked_nil hnil] at hmem
    cases hmem
  · have hnext := Graph.Intact.receive (l := { l with pending }) h reader (documents reader.url)
    rw [hreceive] at hnext
    rw [asked_cons hpending limit hreceive] at hmem
    rcases List.mem_append.mp hmem with hnow | hlater
    · have hfollows := answers_follows (run_eq_ok hrun).1
      rcases receive_asks hreceive with ⟨_, _, hnone, _⟩ | ⟨text, graph, parsed, _, hread, hsome, rfl⟩
      · rw [hnone] at hnow
        cases hnow
      · rw [hsome] at hnow
        have hgraph := Reading.read_intact h reader text
        rw [hread] at hgraph
        refine (Reading.read_issues h hread hnow hroute).mono hgraph.catalogued ?_
        exact (enqueueAll_follows { l with pending, graph, entry := _ } _).trans hfollows
    · exact ih hnext hlater

/-! ## The request that is answered -/

/-- A run comes to the request. -/
def Answered (documents : String → Except FetchFault String) (l₀ : Loading) (request : Request) :
    Prop :=
  ∃ l pending, ReflTransGen (Answers documents) l₀ l ∧ l.pending = request :: pending

/-- What a run no longer awaits does not wait again. -/
theorem Orderly.reaches (h : l.Orderly) (hreach : ReflTransGen (Answers documents) l l') :
    l'.Orderly ∧ ∀ url, l'.Awaits url → l.Awaits url := by
  induction hreach with
  | refl => exact ⟨h, fun _ hurl => hurl⟩
  | tail _ hanswers ih =>
    obtain ⟨r, pending, hpending, hok⟩ := hanswers
    obtain ⟨horderly, hawaits⟩ := ih.1.receive hpending hok
    exact ⟨horderly, fun url hurl => ih.2 url ((hawaits url).mp hurl).1⟩

theorem Orderly.eq_of_reaches (h : l.Orderly) {r r' : Request} {rest rest' : List Request}
    (hpending : l.pending = r :: rest) (hreach : ReflTransGen (Answers documents) l l')
    (hpending' : l'.pending = r' :: rest') (hurl : r'.url = r.url) : r' = r := by
  rcases hreach.cases_head with rfl | ⟨next, ⟨_, _, hcons, hok⟩, hreach⟩
  · cases hpending.symm.trans hpending'
    rfl
  -- once `r` is answered, its URL is not awaited
  · cases hpending.symm.trans hcons
    obtain ⟨horderly, hawaits⟩ := h.receive hpending hok
    have hwaits := (horderly.reaches hreach).2 _ (awaits_first hpending')
    exact absurd hurl ((hawaits _).mp hwaits).2

/-- A run comes to one request for a URL. -/
theorem Orderly.answered_unique (h : l₀.Orderly) {r r' : Request} (hr : Answered documents l₀ r)
    (hr' : Answered documents l₀ r') (hurl : r'.url = r.url) : r' = r := by
  obtain ⟨l, rest, hreach, hpending⟩ := hr
  obtain ⟨l', rest', hreach', hpending'⟩ := hr'
  rcases hreach.total_of_right_unique answers_rightUnique hreach' with hlater | hlater
  · exact (h.reaches hreach).1.eq_of_reaches hpending hlater hpending' hurl
  · exact ((h.reaches hreach').1.eq_of_reaches hpending' hlater hpending hurl.symm).symm

/-! ## The first request for a URL -/

theorem Leads.url_eq (h : Leads log url request) : request.url = url := by
  obtain ⟨_, _, _, hurl, _⟩ := h
  exact hurl

theorem Leads.append {log : List Request} (h : Leads log url request) (more : List Request) :
    Leads (log ++ more) url request := by
  obtain ⟨before, after, rfl, hurl, hbefore⟩ := h
  exact ⟨before, after ++ more, by simp, hurl, hbefore⟩

/-- The request has been answered. Its document is read if there is one. If it has no target
namespace, it is in the namespace that the request gives it. -/
structure Filed (documents : String → Except FetchFault String) (l₀ : Loading) (g : Graph)
    (request : Request) : Prop where
  answered : Answered documents l₀ request
  read : ∀ text, documents request.url = .ok text → (g.documentId? request.url).isSome
  uri : ∀ text, documents request.url = .ok text → IsChameleon text → ∀ d, d < g.documents.size →
    (g.documentAt d).url = request.url →
      (g.namespaceAt (g.documentAt d).ns).uri = Reading.documentUri request none

theorem Filed.mono {g g' : Graph} (h : Filed documents l₀ g request) (hg : g.Catalogued)
    (hfollows : g.Follows g') (hnew : ∀ d, g.documents.size ≤ d → d < g'.documents.size →
      (g'.documentAt d).url ≠ request.url) : Filed documents l₀ g' request := by
  refine ⟨h.answered, fun text htext => hfollows.documentId? (h.read text htext),
    fun text htext hchameleon d hd hurl => ?_⟩
  rcases Nat.lt_or_ge d g.documents.size with hold | hge
  · rw [hfollows.document d hold] at hurl ⊢
    rw [hfollows.uri _ (hg.ns_lt d hold)]
    exact h.uri text htext hchameleon d hold hurl
  · exact absurd hurl (hnew d hge hd)

/-- What has been asked for so far, in order, and what has become of it: for every URL that has been
put in the queue, the first request waits or has been answered, and then no other waits. -/
structure Led (documents : String → Except FetchFault String) (l₀ : Loading) (first : Nat)
    (log : List Request) (l : Loading) : Prop where
  intact : l.graph.Intact first
  orderly : l.Orderly
  asked : ∀ request ∈ log, request.route ≠ .imported → request.url ∈ l.queued
  read : ∀ url, (l.graph.documentId? url).isSome → url ∈ l.queued
  unread : ∀ request ∈ l.pending, l.graph.documentId? request.url = none
  leads : ∀ url ∈ l.queued, ∃ request, Leads log url request ∧
    (request ∈ l.pending ∨
      url ∉ l.pending.map Request.url ∧ Filed documents l₀ l.graph request)

theorem Led.enqueue (h : Led documents l₀ first log l) (request : Request) :
    Led documents l₀ first (log ++ [request]) (l.enqueue request) := by
  have hfollows := enqueue_follows l request
  have hdocumentId? := enqueue_documentId? l request
  have hintact := h.intact.enqueue request
  have horderly := h.orderly.enqueue request
  have hsize : (l.enqueue request).graph.documents = l.graph.documents := by
    rcases (enqueue_cases l request).2.2 with heq | ⟨uri, heq⟩ <;> rw [heq]
    rw [Graph.register_documents]
  -- what has been answered stays as it is
  have hfiled : ∀ r, Filed documents l₀ l.graph r → Filed documents l₀ (l.enqueue request).graph r := by
    intro r hr
    refine hr.mono h.intact.catalogued hfollows fun d hd hlt => ?_
    rw [hsize] at hlt
    exact absurd hlt (Nat.not_lt.mpr hd)
  rcases enqueue_eq l request with ⟨heq, hknown⟩ | ⟨hnew, hunread, graph, heq, _⟩
  -- passed over: an import, or its URL has been asked for
  · rw [heq] at hintact horderly hdocumentId? ⊢
    refine ⟨h.intact, h.orderly, fun r hr hroute => ?_, h.read, h.unread, fun url hurl => ?_⟩
    · rcases List.mem_append.mp hr with hold | hself
      · exact h.asked r hold hroute
      · rw [List.mem_singleton.mp hself] at hroute ⊢
        rcases hknown with hqueued | hread | himported
        · exact hqueued
        · exact h.read _ hread
        · exact absurd himported hroute
    · obtain ⟨r, hleads, hdone⟩ := h.leads url hurl
      exact ⟨r, hleads.append _, hdone⟩
  · rw [heq] at hintact horderly hdocumentId? hfiled ⊢
    refine ⟨hintact, horderly, fun r hr hroute => ?_, fun url hurl => ?_, fun r hr => ?_,
      fun url hurl => ?_⟩
    · rcases List.mem_append.mp hr with hold | hself
      · exact List.mem_cons_of_mem _ (h.asked r hold hroute)
      · rw [List.mem_singleton.mp hself]
        exact List.mem_cons_self
    · rw [hdocumentId?] at hurl
      exact List.mem_cons_of_mem _ (h.read url hurl)
    · rw [hdocumentId?]
      rcases List.mem_append.mp hr with hold | hself
      · exact h.unread r hold
      · rw [List.mem_singleton.mp hself]
        exact hunread
    · rcases List.mem_cons.mp hurl with rfl | hold
      · refine ⟨request, ⟨log, [], rfl, rfl, fun earlier hearlier hsame => ?_⟩,
          Or.inl (List.mem_append_right _ (List.mem_singleton.mpr rfl))⟩
        -- anything but an import would have put the URL in the queue
        by_contra hroute
        exact hnew (hsame ▸ h.asked earlier hearlier hroute)
      · obtain ⟨r, hleads, hdone⟩ := h.leads url hold
        refine ⟨r, hleads.append _, hdone.imp (List.mem_append_left _) fun hread => ⟨?_, hfiled r hread.2⟩⟩
        rw [List.map_append, List.mem_append, not_or]
        refine ⟨hread.1, fun hself => hnew ?_⟩
        rw [← List.mem_singleton.mp hself]
        exact hold

theorem Led.enqueueAll (h : Led documents l₀ first log l) (requests : List Request) :
    Led documents l₀ first (log ++ requests) (requests.foldl Loading.enqueue l) := by
  induction requests generalizing log l with
  | nil =>
    rw [List.append_nil]
    exact h
  | cons request requests ih =>
    have hrest := ih (h.enqueue request)
    rw [List.append_assoc] at hrest
    exact hrest

/-- When a request is answered, it is the first one for its URL, and what is known of the first
requests for other URLs stays. -/
theorem Led.rest (h : Led documents l₀ first log l) (hpending : l.pending = request :: pending)
    (hurl : url ∈ l.queued) :
    (url = request.url ∧ Leads log url request) ∨
      ∃ r, Leads log url r ∧ (r ∈ pending ∨
        url ≠ request.url ∧ url ∉ pending.map Request.url ∧ Filed documents l₀ l.graph r) := by
  obtain ⟨r, hr, hwaits | ⟨hanswered, hfiled⟩⟩ := h.leads url hurl
  · rw [hpending] at hwaits
    rcases List.mem_cons.mp hwaits with rfl | hrest
    · exact Or.inl ⟨hr.url_eq.symm, hr⟩
    · exact Or.inr ⟨r, hr, Or.inl hrest⟩
  · rw [hpending, List.map_cons, List.mem_cons, not_or] at hanswered
    exact Or.inr ⟨r, hr, Or.inr ⟨hanswered.1, hanswered.2, hfiled⟩⟩

/-- The document that answers a request is the only one with its URL. -/
theorem filed_of_read {g g' : Graph} {parsed : Parsed} {text : String} (hg : g.Catalogued)
    (hread : Reading.read request g text = .ok (g', parsed))
    (htext : documents request.url = .ok text) (hunread : g.documentId? request.url = none)
    (hanswered : Answered documents l₀ request) : Filed documents l₀ g' request := by
  obtain ⟨hfollows, hfound, _⟩ := Reading.read_files hread
  refine ⟨hanswered, fun _ _ => hfound, fun text' htext' hchameleon d hd hurl => ?_⟩
  cases htext.symm.trans htext'
  refine Reading.read_chameleon hg hread hchameleon ?_ hd
  by_contra hold
  have hlt := Nat.lt_of_not_le hold
  have hsome := Graph.documentId?_isSome.mpr ⟨d, hlt, (hfollows.document d hlt) ▸ hurl⟩
  rw [hunread] at hsome
  cases hsome

theorem Led.receive (h : Led documents l₀ first log l)
    (hreach : ReflTransGen (Answers documents) l₀ l) (hpending : l.pending = request :: pending)
    (hok : ({ l with pending } : Loading).receive request (documents request.url) = .ok l') :
    Led documents l₀ first (log ++ requestsOf documents l.graph request) l' := by
  have hnodup := h.orderly.nodup
  rw [hpending, List.map_cons, List.nodup_cons] at hnodup
  have hself := h.unread request (hpending ▸ List.mem_cons_self)
  have hanswered : Answered documents l₀ request := ⟨l, pending, hreach, hpending⟩
  rcases receive_asks hok with ⟨fault, hfault, hnone, rfl⟩ |
    ⟨text, graph, parsed, htext, hread, hrequests, rfl⟩
  -- without a document nothing is read, and nothing more is asked for
  · rw [hnone, List.append_nil]
    refine ⟨h.intact, h.orderly.rest hpending _ _, h.asked, h.read,
      fun r hr => h.unread r (hpending ▸ List.mem_cons_of_mem _ hr), fun url hurl => ?_⟩
    rcases h.rest hpending hurl with ⟨rfl, hr⟩ | ⟨r, hr, hwaits | ⟨_, hfiled⟩⟩
    · refine ⟨request, hr,
        Or.inr ⟨hnodup.1, hanswered, fun text htext => ?_, fun text htext => ?_⟩⟩ <;>
        cases hfault.symm.trans htext
    · exact ⟨r, hr, Or.inl hwaits⟩
    · exact ⟨r, hr, Or.inr hfiled⟩
  · obtain ⟨hfollows, _, hnew⟩ := Reading.read_files hread
    have hgraph := Reading.read_intact h.intact request text
    rw [hread] at hgraph
    rw [hrequests]
    -- the document is read first, and then its requests join the queue
    refine Led.enqueueAll (l := { l with pending, graph, entry := _ })
      ⟨hgraph, h.orderly.rest hpending graph _, h.asked, fun url hurl => ?_, fun r hr => ?_,
        fun url hurl => ?_⟩ parsed.requests
    · rcases Reading.documentId?_of_read hread hurl with hold | rfl
      · exact h.read url hold
      · exact h.orderly.queued request (hpending ▸ List.mem_cons_self)
    · rw [← Option.not_isSome_iff_eq_none]
      intro hsome
      rcases Reading.documentId?_of_read hread hsome with hold | hsame
      · rw [h.unread r (hpending ▸ List.mem_cons_of_mem _ hr)] at hold
        cases hold
      · exact hnodup.1 (hsame ▸ List.mem_map_of_mem hr)
    · rcases h.rest hpending hurl with ⟨rfl, hr⟩ | ⟨r, hr, hwaits | ⟨hne, hout, hfiled⟩⟩
      · exact ⟨request, hr, Or.inr ⟨hnodup.1,
          filed_of_read h.intact.catalogued hread htext hself hanswered⟩⟩
      · exact ⟨r, hr, Or.inl hwaits⟩
      · refine ⟨r, hr, Or.inr ⟨hout, hfiled.mono h.intact.catalogued hfollows fun d hd hlt => ?_⟩⟩
        rw [hnew d hd hlt, hr.url_eq]
        exact hne.symm

theorem Led.run (h : Led documents l₀ first log l) (hreach : ReflTransGen (Answers documents) l₀ l)
    (hok : run (m := Id) documents limit l = .ok l') :
    Led documents l₀ first (log ++ Loading.asked documents limit l) l' := by
  refine run_rec (motive := fun limit l => ∀ log, Led documents l₀ first log l →
    ReflTransGen (Answers documents) l₀ l →
      Led documents l₀ first (log ++ Loading.asked documents limit l) l') hok
    (fun limit hnil log h _ => ?_)
    (fun limit l next request pending hpending hreceive _ ih log h hreach => ?_) log h hreach
  · rw [asked_nil hnil, List.append_nil]
    exact h
  · rw [asked_cons hpending limit hreceive, ← List.append_assoc]
    exact ih _ (h.receive hreach hpending hreceive)
      (hreach.tail ⟨request, pending, hpending, hreceive⟩)

theorem led_start (documents : String → Except FetchFault String) (policy : RepeatPolicy)
    (url : String) (ns : Option String) :
    Led documents (start (Graph.initial policy) url ns) (Graph.initial policy).nodes.size
      [.entry url ns] (start (Graph.initial policy) url ns) := by
  have hempty : Led documents (start (Graph.initial policy) url ns)
      (Graph.initial policy).nodes.size [] { graph := Graph.initial policy } := by
    refine ⟨Graph.intact_initial policy, ⟨List.nodup_nil, fun _ hr => absurd hr List.not_mem_nil⟩,
      fun _ hr => absurd hr List.not_mem_nil, fun u hu => ?_, fun _ hr => absurd hr List.not_mem_nil,
      fun _ hu => absurd hu List.not_mem_nil⟩
    rw [documentId?_initial] at hu
    cases hu
  exact hempty.enqueue (.entry url ns)

/-- What is included and has no target namespace takes effect in one namespace, the one that the
only request for it that is answered gives it. This is the first request, but for imports that are
passed over. The include asks for it in the namespace of its own document. -/
theorem chameleon_joins_first_request {policy : RepeatPolicy} {ns : Option String} {g : Graph}
    {entry : NamespaceId} {text : String}
    (hok : load (m := Id) documents limit (Graph.initial policy) url ns = .ok (g, entry))
    (hasks : Asks documents (start (Graph.initial policy) url ns) request)
    (hroute : request.route = .included ∨ request.route = .redefined)
    (htext : documents request.url = .ok text) (hchameleon : IsChameleon text) :
    g.Issued request ∧ ∃ leader i,
      (∀ r, Answered documents (start (Graph.initial policy) url ns) r ∧ r.url = request.url ↔
        r = leader) ∧
      Leads (.entry url ns :: asked documents limit (start (Graph.initial policy) url ns))
        request.url leader ∧
      g.namespaceId? (Reading.documentUri leader none) = some i ∧
      ∀ j, g.TakesEffect request.url j ↔ j = i := by
  have himported : request.route ≠ .imported := by
    rcases hroute with h | h <;> rw [h] <;> decide
  have hintact := (Graph.intact_initial policy).load documents limit url ns
  rw [hok] at hintact
  obtain ⟨l, hrun, _, hfollows, hdocuments⟩ := load_follows (documentId?_initial policy url) hok
  have hasked := (mem_asked_iff hrun).mpr hasks
  have hstart := led_start documents policy url ns
  have hled := hstart.run .refl hrun
  have hissued := run_issued hstart.intact hrun hasked himported
  refine ⟨hissued.mono hled.intact.catalogued hfollows, ?_⟩
  -- the first request for the URL has been answered, as nothing waits any more
  obtain ⟨leader, hleads, hwaits | ⟨_, hfiled⟩⟩ := hled.leads request.url
    (hled.asked request (List.mem_append_right _ hasked) himported)
  · rw [(run_eq_ok hrun).2] at hwaits
    cases hwaits
  have hsame := hleads.url_eq
  have hfinal : Filed documents (start (Graph.initial policy) url ns) g leader :=
    hfiled.mono hled.intact.catalogued hfollows fun d hd hlt =>
      absurd (hdocuments ▸ hlt) (Nat.not_lt.mpr hd)
  have huri := hfinal.uri text (hsame ▸ htext) hchameleon
  obtain ⟨d, hd, hurl⟩ := Graph.documentId?_isSome.mp (hfinal.read text (hsame ▸ htext))
  have hlt := hintact.catalogued.ns_lt
  refine ⟨leader, (g.documentAt d).ns, fun r => ⟨fun hr => ?_, ?_⟩, hleads,
    (Graph.namespaceId?_eq_some_iff hintact.sound.registry).mpr ⟨hlt d hd, huri d hd hurl⟩, ?_⟩
  · exact hstart.orderly.answered_unique hfinal.answered hr.1 (hr.2.trans hsame.symm)
  · rintro rfl
    exact ⟨hfinal.answered, hsame⟩
  refine hintact.takesEffect_iff (load_announced hok) (fun p htag => ?_) hd (hurl.trans hsame)
    fun d' hd' hurl' => ?_
  · exact (load_loaded hok).toGrown.new_of_tag (by rw [htag]; decide) (by rw [htag]; decide)
  · exact hintact.sound.registry.uri_inj _ _ (hlt d' hd') (hlt d hd)
      ((huri d' hd' (hurl'.trans hsame.symm)).trans (huri d hd hurl).symm)

/-- Documents of the namespaces `a` and `b` that both include a third one, which has none. -/
def sharedDocuments (url : String) : Except FetchFault String :=
  if url = "main.xsd" then
    .ok ("<schema xmlns='http://www.w3.org/2001/XMLSchema' targetNamespace='a'>" ++
      "<include schemaLocation='c.xsd'/><import namespace='b' schemaLocation='b.xsd'/></schema>")
  else if url = "b.xsd" then
    .ok ("<schema xmlns='http://www.w3.org/2001/XMLSchema' targetNamespace='b'>" ++
      "<include schemaLocation='c.xsd'/></schema>")
  else if url = "c.xsd" then
    .ok "<schema xmlns='http://www.w3.org/2001/XMLSchema'><element name='e'/></schema>"
  else .error .unknown

set_option maxRecDepth 100000 in
theorem load_sharedDocuments : ∃ g entry request text,
    load (m := Id) sharedDocuments 3 (Graph.initial .standard) "main.xsd" none = .ok (g, entry) ∧
      Asks sharedDocuments (start (Graph.initial .standard) "main.xsd" none) request ∧
      request.route = .included ∧ request.ns = some "b" ∧
      sharedDocuments request.url = .ok text ∧ IsChameleon text ∧
      ∀ i, g.namespaceId? "b" = some i → ¬ g.TakesEffect request.url i := by
  -- one evaluation, so that the documents are read once
  obtain ⟨hload, hany⟩ :
      ((load (m := Id) sharedDocuments 3 (Graph.initial .standard) "main.xsd" none).toOption.map
        fun result => (result.1.namespaceId? "b").all fun i =>
          (result.1.namespaceAt i).documents.all fun d =>
            (result.1.documentAt d).url != "c.xsd") = some true ∧
      ((asked sharedDocuments 3 (start (Graph.initial .standard) "main.xsd" none)).any fun request =>
        request.route = .included ∧ request.ns = some "b" ∧ request.url = "c.xsd") = true := by
    decide +kernel
  obtain ⟨⟨g, entry⟩, hok, hnone⟩ := eq_ok_of_toOption hload
  obtain ⟨l, hrun, _⟩ := load_follows (documentId?_initial .standard "main.xsd") hok
  obtain ⟨request, hmem, hrequest⟩ := List.any_eq_true.mp hany
  obtain ⟨hroute, hns, hurl⟩ := of_decide_eq_true hrequest
  refine ⟨g, entry, request, _, hok, (mem_asked_iff hrun).mp hmem, hroute, hns, by rw [hurl]; rfl,
    by decide +kernel, fun i hi heffect => ?_⟩
  obtain ⟨d, hd, hd'⟩ := heffect.listed
  rw [hi] at hnone
  have hne := List.all_eq_true.mp hnone d hd
  rw [hd', hurl] at hne
  cases hne

theorem chameleon_joins_first_request_example : ∃ g entry request leader i,
    load (m := Id) sharedDocuments 3 (Graph.initial .standard) "main.xsd" none = .ok (g, entry) ∧
      Asks sharedDocuments (start (Graph.initial .standard) "main.xsd" none) request ∧
      g.Issued request ∧ request.ns = some "b" ∧
      (∀ r, Answered sharedDocuments (start (Graph.initial .standard) "main.xsd" none) r ∧
        r.url = request.url ↔ r = leader) ∧
      Leads (.entry "main.xsd" none ::
        asked sharedDocuments 3 (start (Graph.initial .standard) "main.xsd" none))
        request.url leader ∧
      g.namespaceId? (Reading.documentUri leader none) = some i ∧
      ∀ j, g.TakesEffect request.url j ↔ j = i := by
  obtain ⟨g, entry, request, text, hok, hasks, hroute, hns, htext, hchameleon, _⟩ :=
    load_sharedDocuments
  obtain ⟨hissued, leader, i, hanswered, hleads, hi, heffect⟩ :=
    chameleon_joins_first_request hok hasks (Or.inl hroute) htext hchameleon
  exact ⟨g, entry, request, leader, i, hok, hasks, hissued, hns, hanswered, hleads, hi, heffect⟩

/-- What is included and has no target namespace may have no effect in the namespace of the
document that includes it. -/
theorem not_every_include_takes_effect : ¬ ∀ (documents : String → Except FetchFault String)
    (limit : Nat) (policy : RepeatPolicy) (url : String) (ns : Option String) (g : Graph)
    (entry : NamespaceId) (request : Request) (text : String),
    load (m := Id) documents limit (Graph.initial policy) url ns = .ok (g, entry) →
      Asks documents (start (Graph.initial policy) url ns) request → request.route = .included →
      documents request.url = .ok text → IsChameleon text →
      ∃ i, request.ns.bind g.namespaceId? = some i ∧ g.TakesEffect request.url i := by
  intro hall
  obtain ⟨g, entry, request, text, hok, hasks, hroute, hns, htext, hchameleon, hnone⟩ :=
    load_sharedDocuments
  obtain ⟨i, hi, heffect⟩ := hall _ _ _ _ _ g entry request text hok hasks hroute htext hchameleon
  rw [hns, Option.bind_some] at hi
  exact hnone i hi heffect

end Loading

end XsdTypes
