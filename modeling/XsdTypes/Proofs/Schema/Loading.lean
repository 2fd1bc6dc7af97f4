import XsdTypes.Proofs.Schema.Initial
import XsdTypes.Proofs.Schema.Reading
import XsdTypes.Schema.Loading

/-!
# What loading leaves behind

Every answer to a request leaves the graph read, so when no request is left all documents are in the
graph and only their references are not bound yet. The document that loading starts from is among
them.
-/

namespace XsdTypes

open Sequencing

variable {g₀ g : Graph}

theorem Graph.Read.register (h : g₀.Read g) (uri : String) : g₀.Read (g.register uri).1 := by
  have hnodes := Graph.register_nodes g uri
  refine h.extend (h.sound.register uri) (Graph.Extends.register g uri) (by rw [hnodes]) fun n => ?_
  rw [Graph.nodeAt, hnodes, Graph.nodeAt]

namespace Loading

/-! ## Namespaces that are loaded -/

theorem markLoaded_namespaces_size (g : Graph) :
    (markLoaded g).namespaces.size = g.namespaces.size :=
  Array.size_map ..

theorem markLoaded_uri (g : Graph) (i : NamespaceId) :
    ((markLoaded g).namespaceAt i).uri = (g.namespaceAt i).uri :=
  getD_map _ (fun ns => by split <;> rfl) i

theorem markLoaded_root (g : Graph) (i : NamespaceId) :
    ((markLoaded g).namespaceAt i).root = (g.namespaceAt i).root :=
  getD_map _ (fun ns => by split <;> rfl) i

theorem markLoaded_documents (g : Graph) (i : NamespaceId) :
    ((markLoaded g).namespaceAt i).documents = (g.namespaceAt i).documents :=
  getD_map _ (fun ns => by split <;> rfl) i

theorem sound_markLoaded (h : g.Sound) : (markLoaded g).Sound :=
  h.of_namespaces rfl rfl (markLoaded_namespaces_size g) (markLoaded_uri g) (markLoaded_root g) rfl

theorem extends_markLoaded (g : Graph) : g.Extends (markLoaded g) :=
  Graph.Extends.of_namespaces (markLoaded_namespaces_size g) (markLoaded_uri g) (markLoaded_root g)
    rfl rfl rfl

/-! ## Requests -/

/-- The graph is read, and the document that loading starts from is in it or has been asked for. -/
structure Valid (g₀ : Graph) (l : Loading) : Prop where
  read : g₀.Read l.graph
  entry : l.entry.isSome ∨ ∃ request ∈ l.pending, request.route = .entry

variable {l l' : Loading} {request : Request}

/-- What asking for a document can do: it has been asked for or read, or its namespace is known, or
it waits as the last one. An import may add its namespace to the graph. -/
theorem enqueue_eq (l : Loading) (request : Request) :
    (l.enqueue request = l ∧ (request.url ∈ l.queued ∨ (l.graph.documentId? request.url).isSome ∨
      request.route = .imported)) ∨
    (request.url ∉ l.queued ∧ l.graph.documentId? request.url = none ∧ ∃ graph,
      l.enqueue request = { l with
        graph
        pending := l.pending ++ [request]
        queued := request.url :: l.queued } ∧
      (graph = l.graph ∨ ∃ uri, graph = (l.graph.register uri).1)) := by
  unfold enqueue
  extract_lets ask uri
  split
  · rename_i hknown
    rw [Bool.or_eq_true, List.contains_iff_mem] at hknown
    exact Or.inl ⟨rfl, hknown.imp_right Or.inl⟩
  rename_i hnew
  rw [Bool.or_eq_true, List.contains_iff_mem, not_or, Option.not_isSome_iff_eq_none] at hnew
  split
  · rename_i hroute
    split
    · exact Or.inl ⟨rfl, Or.inr (Or.inr hroute)⟩
    · exact Or.inr ⟨hnew.1, hnew.2, _, rfl, Or.inr ⟨uri, rfl⟩⟩
  · exact Or.inr ⟨hnew.1, hnew.2, _, rfl, Or.inl rfl⟩

/-- Asking for a document keeps all that waits, and adds at most a namespace to the graph. -/
theorem enqueue_cases (l : Loading) (request : Request) :
    l.pending ⊆ (l.enqueue request).pending ∧ (l.enqueue request).entry = l.entry ∧
      ((l.enqueue request).graph = l.graph ∨
        ∃ uri, (l.enqueue request).graph = (l.graph.register uri).1) := by
  rcases enqueue_eq l request with ⟨heq, _⟩ | ⟨_, _, graph, heq, hgraph⟩ <;> rw [heq]
  · exact ⟨List.Subset.refl _, rfl, Or.inl rfl⟩
  · exact ⟨List.subset_append_left _ _, rfl, hgraph⟩

theorem Valid.enqueue (h : l.Valid g₀) (request : Request) : (l.enqueue request).Valid g₀ := by
  obtain ⟨hpending, hentry, hgraph⟩ := enqueue_cases l request
  refine ⟨?_, ?_⟩
  · rcases hgraph with heq | ⟨uri, heq⟩ <;> rw [heq]
    · exact h.read
    · exact h.read.register uri
  · rw [hentry]
    rcases h.entry with hsome | ⟨r, hr, hroute⟩
    · exact Or.inl hsome
    · exact Or.inr ⟨r, hpending hr, hroute⟩

theorem Valid.enqueueAll (h : l.Valid g₀) (requests : List Request) :
    (requests.foldl Loading.enqueue l).Valid g₀ :=
  List.foldlRecOn requests Loading.enqueue h fun _ hl request _ => hl.enqueue request

/-- What an answer can do: an import that is not needed may have none, and a document asks for
others. -/
theorem receive_eq_ok {answer : Except FetchFault String}
    (hok : l.receive request answer = .ok l') :
    (∃ fault, answer = .error fault ∧ isRedundant l.graph request = true ∧ l' = l) ∨
    ∃ text graph parsed, answer = .ok text ∧
      Reading.read request l.graph text = .ok (graph, parsed) ∧
      l' = parsed.requests.foldl enqueue { l with
        graph
        entry := if request.route = .entry then some parsed.ns else l.entry } := by
  unfold Loading.receive at hok
  split at hok
  · rename_i fault
    split at hok
    · rename_i hredundant
      cases hok
      exact Or.inl ⟨fault, rfl, hredundant, rfl⟩
    · cases hok
  · rename_i text
    obtain ⟨⟨graph, parsed⟩, hread, hrest⟩ := bind_eq_ok.mp hok
    cases hrest
    exact Or.inr ⟨text, graph, parsed, rfl, hread, rfl⟩

theorem route_of_isRedundant {g : Graph} (h : isRedundant g request = true) :
    request.route = .imported := by
  rw [isRedundant, Bool.and_eq_true] at h
  exact of_decide_eq_true h.1

/-- The first request that waits is answered. -/
def Answers (documents : String → Except FetchFault String) (l l' : Loading) : Prop :=
  ∃ request pending, l.pending = request :: pending ∧
    ({ l with pending } : Loading).receive request (documents request.url) = .ok l'

theorem Valid.answers {documents : String → Except FetchFault String} (h : l.Valid g₀)
    (hanswers : Answers documents l l') : l'.Valid g₀ := by
  obtain ⟨request, pending, hpending, hok⟩ := hanswers
  -- only an answer to the entry request may take the entry request away
  have hentry : request.route ≠ .entry →
      l.entry.isSome ∨ ∃ r ∈ pending, r.route = .entry := by
    intro hroute
    rcases h.entry with hsome | ⟨r, hr, hr'⟩
    · exact Or.inl hsome
    · rw [hpending] at hr
      rcases List.mem_cons.mp hr with rfl | hr
      · exact absurd hr' hroute
      · exact Or.inr ⟨r, hr, hr'⟩
  rcases receive_eq_ok hok with ⟨_, _, hredundant, rfl⟩ | ⟨_, _, parsed, _, hread, rfl⟩
  · refine ⟨h.read, hentry fun hroute => ?_⟩
    rw [route_of_isRedundant hredundant] at hroute
    cases hroute
  · refine Valid.enqueueAll ⟨Reading.read_keeps h.read hread, ?_⟩ _
    by_cases hroute : request.route = .entry
    · exact Or.inl (by simp [hroute])
    · rcases hentry hroute with hsome | hwaits
      · exact Or.inl (by simpa [hroute] using hsome)
      · exact Or.inr hwaits

/-- Requests are answered one by one, until none is left. -/
theorem run_cons (documents : String → Except FetchFault String) (limit : Nat) {request : Request}
    {pending : List Request} (hpending : l.pending = request :: pending) :
    Loading.run (m := Id) documents (limit + 1) l =
      match ({ l with pending } : Loading).receive request (documents request.url) with
      | .error halt => .error halt
      | .ok l => Loading.run (m := Id) documents limit l := by
  rw [Loading.run, hpending]
  rfl

/-- A run that succeeds is made of answers, and nothing waits afterwards. -/
theorem run_eq_ok {documents : String → Except FetchFault String} {limit : Nat}
    (hok : Loading.run (m := Id) documents limit l = .ok l') :
    Relation.ReflTransGen (Answers documents) l l' ∧ l'.pending = [] := by
  induction limit generalizing l with
  | zero =>
    unfold Loading.run at hok
    split at hok
    · rename_i hempty
      cases hok
      exact ⟨.refl, hempty⟩
    · cases hok
  | succ limit ih =>
    cases hpending : l.pending with
    | nil =>
      unfold Loading.run at hok
      rw [hpending] at hok
      cases hok
      exact ⟨.refl, hpending⟩
    | cons request pending =>
      rw [run_cons documents limit hpending] at hok
      split at hok
      · cases hok
      · rename_i next hnext
        exact (ih hok).imp_left fun hrest => .head ⟨request, pending, hpending, hnext⟩ hrest

theorem Valid.run {documents : String → Except FetchFault String} {limit : Nat} (h : l.Valid g₀)
    (hok : Loading.run (m := Id) documents limit l = .ok l') : l'.Valid g₀ := by
  have hanswers := (run_eq_ok hok).1
  clear hok
  induction hanswers with
  | refl => exact h
  | tail _ hlast ih => exact ih.answers hlast

/-! ## A load from the start -/

section Load

variable {policy : RepeatPolicy} {url : String} {ns : Option String}

theorem documentId?_initial (policy : RepeatPolicy) (url : String) :
    (Graph.initial policy).documentId? url = none := by
  have hempty := Array.isEmpty_iff.mp (Graph.initial_documents policy)
  rw [Graph.documentId?, hempty, Array.findIdx?_empty]

theorem start_initial : start (Graph.initial policy) url ns =
    { graph := Graph.initial policy, pending := [.entry url ns], queued := [url] } := by
  simp [start, enqueue, Request.entry, documentId?_initial]

theorem valid_start : (start (Graph.initial policy) url ns).Valid (Graph.initial policy) := by
  rw [start_initial]
  exact ⟨Graph.read_initial policy, Or.inr ⟨.entry url ns, List.mem_singleton.mpr rfl, rfl⟩⟩

/-- A load reads what has not been read. -/
theorem load_unread (documents : String → Except FetchFault String) (limit : Nat)
    (hunread : g.documentId? url = none) :
    load (m := Id) documents limit g url ns =
      match run (m := Id) documents limit (start g url ns) with
      | .error halt => .error halt
      | .ok l => l.finish url g.nodes.size := by
  unfold load
  rw [hunread]
  change (match run (m := Id) documents limit (start g url ns) with
    | .error halt => (pure (.error halt) : Id (Except Halt (Graph × NamespaceId)))
    | .ok l => pure (l.finish url g.nodes.size)) = _
  split <;> rfl

/-- A load that succeeds has read all documents and bound all references. -/
theorem load_eq_ok {documents : String → Except FetchFault String} {limit : Nat} {g' : Graph}
    {entry : NamespaceId} (hunread : g.documentId? url = none)
    (hok : load (m := Id) documents limit g url ns = .ok (g', entry)) :
    ∃ l resolved, run (m := Id) documents limit (start g url ns) = .ok l ∧
      Resolution.resolveAll l.graph g.nodes.size = .ok resolved ∧ g' = markLoaded resolved := by
  rw [load_unread documents limit hunread] at hok
  split at hok
  · cases hok
  · rename_i l hrun
    obtain ⟨resolved, hresolve, hrest⟩ := bind_eq_ok.mp hok
    refine ⟨l, resolved, hrun, hresolve, ?_⟩
    split at hrest
    · cases hrest
      rfl
    · cases hrest

/-! ## Characters

To take a text apart into its characters costs more than to read them. So what documents leave is
evaluated from their characters, by a load that is answered with these. -/

theorem toList_append_ofList {s : String} {cs ds : List Char} (hs : s.toList = cs) :
    (s ++ String.ofList ds).toList = cs ++ ds := by
  rw [String.toList_append, hs, String.toList_ofList]

theorem read_of_toList {text : String} {cs : List Char} (htext : text.toList = cs)
    (request : Request) (g : Graph) :
    Reading.read request g text = Reading.readStream request g (Markup.stream cs) := by
  rw [Reading.read, htext]

/-- The answer, if it is a text, has these characters. -/
def Spelled (answer : Except FetchFault String) (letters : Except FetchFault (List Char)) : Prop :=
  answer = letters.map String.ofList

namespace Spelled

theorem error (fault : FetchFault) : Spelled (.error fault) (.error fault) := rfl

theorem ok (cs : List Char) : Spelled (.ok (String.ofList cs)) (.ok cs) := rfl

theorem append {s : String} {cs : List Char} (h : Spelled (.ok s) (.ok cs)) (ds : List Char) :
    Spelled (.ok (s ++ String.ofList ds)) (.ok (cs ++ ds)) := by
  rw [Spelled, Except.ok.inj h]
  exact congrArg Except.ok String.ofList_append.symm

theorem ite {p : Prop} [Decidable p] {answer answer' : Except FetchFault String}
    {letters letters' : Except FetchFault (List Char)} (h : Spelled answer letters)
    (h' : Spelled answer' letters') :
    Spelled (if p then answer else answer') (if p then letters else letters') := by
  split
  · exact h
  · exact h'

end Spelled

/-- Takes the characters that answer a request. -/
def receiveLetters (l : Loading) (request : Request) :
    Except FetchFault (List Char) → Except Halt Loading
  | .error fault => l.receive request (.error fault)
  | .ok cs => do
    let (graph, parsed) ← Reading.readStream request l.graph (Markup.stream cs)
    let entry := if request.route = .entry then some parsed.ns else l.entry
    return parsed.requests.foldl enqueue { l with graph, entry }

/-- Answers at most `limit` requests with characters, in order. -/
def runLetters (letters : String → Except FetchFault (List Char)) :
    Nat → Loading → Except Halt Loading
  | 0, l =>
    match l.pending with
    | [] => .ok l
    | request :: _ => .error ⟨.fetch request.url .tooMany request.origin, l.graph⟩
  | limit + 1, l =>
    match l.pending with
    | [] => .ok l
    | request :: pending =>
      (({ l with pending } : Loading).receiveLetters request (letters request.url)).bind
        (runLetters letters limit)

section Letters

variable {documents : String → Except FetchFault String}
  {letters : String → Except FetchFault (List Char)}

theorem receive_eq_receiveLetters {answer : Except FetchFault String}
    {letters : Except FetchFault (List Char)} (h : Spelled answer letters) (l : Loading)
    (request : Request) : l.receive request answer = l.receiveLetters request letters := by
  rw [h]
  cases letters with
  | error fault => rfl
  | ok cs =>
    change l.receive request (.ok (String.ofList cs)) = _
    rw [receive, read_of_toList String.toList_ofList]
    rfl

theorem run_eq_runLetters (h : ∀ url, Spelled (documents url) (letters url)) (limit : Nat)
    (l : Loading) : run (m := Id) documents limit l = runLetters letters limit l := by
  induction limit generalizing l with
  | zero => rfl
  | succ limit ih =>
    rw [runLetters]
    cases hpending : l.pending with
    | nil =>
      rw [run, hpending]
      rfl
    | cons request pending =>
      rw [run_cons documents limit hpending, receive_eq_receiveLetters (h request.url)]
      dsimp only
      cases receiveLetters { l with pending } request (letters request.url) with
      | error halt => rfl
      | ok next => exact ih next

/-! What is read off a result can be evaluated from the characters of the documents. -/

theorem receive_of_letters {l : Loading} {request : Request} {answer : Except FetchFault String}
    {letters : Except FetchFault (List Char)} {α : Type} {f : Loading → α} {a : α}
    (h : Spelled answer letters)
    (heval : (l.receiveLetters request letters).toOption.map f = some a) :
    (l.receive request answer).toOption.map f = some a := by
  rw [receive_eq_receiveLetters h]
  exact heval

theorem run_of_letters {limit : Nat} {l : Loading} {α : Type} {f : Loading → α} {a : α}
    (h : ∀ url, Spelled (documents url) (letters url))
    (heval : (runLetters letters limit l).toOption.map f = some a) :
    (run (m := Id) documents limit l).toOption.map f = some a := by
  rw [run_eq_runLetters h]
  exact heval

theorem load_of_letters {limit : Nat} {α : Type} {f : Graph × NamespaceId → α} {a : α}
    (h : ∀ url, Spelled (documents url) (letters url))
    (heval : ((runLetters letters limit (start (Graph.initial policy) url ns)).bind fun l =>
      l.finish url (Graph.initial policy).nodes.size).toOption.map f = some a) :
    (load (m := Id) documents limit (Graph.initial policy) url ns).toOption.map f = some a := by
  rw [load_unread documents limit (documentId?_initial policy url), run_eq_runLetters h, ← heval]
  generalize Graph.initial policy = g
  cases runLetters letters limit (start g url ns) <;> rfl

end Letters

end Load

end Loading

end XsdTypes
