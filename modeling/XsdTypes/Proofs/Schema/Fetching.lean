import XsdTypes.Fetch.Source
import XsdTypes.Proofs.Counting
import XsdTypes.Proofs.Schema.Reached

/-!
# How often documents are asked for

A load asks for every URL at most once, because a URL that has been asked for is never put in the
queue again. So what the documents on a shelf can ask for is used up sooner or later, and loading
ends. A document that has been read is not asked for in later loads either.
-/

namespace XsdTypes

open Relation

namespace Shelf

/-- What the shelf answers. -/
def answer (shelf : Shelf) (url : String) : Except FetchFault String :=
  match shelf.documents.lookup url with
  | some text => .ok text
  | none => .error .unknown

/-- The shelf after URLs have been asked for. -/
def record (shelf : Shelf) (urls : List String) : Shelf :=
  { shelf with asked := urls.reverse ++ shelf.asked }

variable (shelf : Shelf) (url : String) (urls : List String)

theorem source_run : Shelf.source url shelf =
    (match shelf.documents.lookup url with
      | some text => (pure (.ok text) : StateM Shelf (Except FetchFault String))
      | none => pure (.error .unknown)) (shelf.record [url]) := rfl

theorem source_eq : Shelf.source url shelf = (shelf.answer url, shelf.record [url]) := by
  rw [source_run]
  unfold answer
  cases shelf.documents.lookup url <;> rfl

theorem record_answer : (shelf.record urls).answer = shelf.answer := rfl

theorem record_record (urls' : List String) :
    (shelf.record urls).record urls' = shelf.record (urls ++ urls') := by
  simp [record]

theorem timesAsked_record :
    (shelf.record urls).timesAsked url = shelf.timesAsked url + urls.count url := by
  simp [timesAsked, record, Nat.add_comm]

theorem mem_of_answer {text : String} (h : shelf.answer url = .ok text) :
    (url, text) ∈ shelf.documents := by
  unfold answer at h
  split at h
  · rename_i found hfound
    cases h
    obtain ⟨before, after, hsplit, _⟩ := List.lookup_eq_some_iff.mp hfound
    rw [hsplit]
    exact List.mem_append_right _ List.mem_cons_self
  · cases h

/-- All documents are on the shelf. -/
def Holds (documents : String → Except FetchFault String) : Prop :=
  ∀ url text, documents url = .ok text → (url, text) ∈ shelf.documents

theorem holds_answer : shelf.Holds shelf.answer := by
  intro url text htext
  exact shelf.mem_of_answer url htext

theorem requestLimit_eq :
    shelf.requestLimit = (shelf.documents.map fun document => document.2.length).sum + 1 := by
  have hfold : ∀ (documents : List (String × String)) (count : Nat),
      documents.foldl (fun count document => count + document.2.length) count =
        (documents.map fun document => document.2.length).sum + count := by
    intro documents
    induction documents with
    | nil => exact fun count => (Nat.zero_add count).symm
    | cons document documents ih =>
      intro count
      rw [List.foldl_cons, ih, List.map_cons, List.sum_cons]
      omega
  exact hfold _ 1

end Shelf

namespace Loading

/-- Answers are given until nothing waits or a request cannot be answered. -/
inductive Ends (documents : String → Except FetchFault String) : Loading → Except Halt Loading → Prop
  | done {l : Loading} : l.pending = [] → Ends documents l (.ok l)
  | halt {l : Loading} {request : Request} {pending : List Request} {halt : Halt} :
    l.pending = request :: pending →
    ({ l with pending } : Loading).receive request (documents request.url) = .error halt →
    Ends documents l (.error halt)
  | answer {l l' : Loading} {result : Except Halt Loading} :
    Answers documents l l' → Ends documents l' result → Ends documents l result

/-- The URLs that a run asks for, in order. -/
def fetched (documents : String → Except FetchFault String) : Nat → Loading → List String
  | 0, _ => []
  | limit + 1, l =>
    match l.pending with
    | [] => []
    | request :: pending =>
      request.url ::
        match ({ l with pending } : Loading).receive request (documents request.url) with
        | .error _ => []
        | .ok l => fetched documents limit l

variable {documents : String → Except FetchFault String} {l l' : Loading} {request : Request}
  {pending : List Request} {url : String} {limit : Nat} {shelf : Shelf}

theorem run_nil (hpending : l.pending = []) (limit : Nat) :
    run (m := Id) documents limit l = .ok l := by
  cases limit <;> rw [run, hpending] <;> rfl

theorem fetched_nil (hpending : l.pending = []) (limit : Nat) : fetched documents limit l = [] := by
  cases limit with
  | zero => rfl
  | succ limit => rw [fetched, hpending]

theorem fetched_cons (hpending : l.pending = request :: pending) (limit : Nat) :
    fetched documents (limit + 1) l = request.url ::
      match ({ l with pending } : Loading).receive request (documents request.url) with
      | .error _ => []
      | .ok l => fetched documents limit l := by
  rw [fetched, hpending]

/-- What a run asks for is the first request that waits, or is asked for after its answer. -/
theorem mem_fetched_succ (hurl : url ∈ fetched documents (limit + 1) l) :
    ∃ request pending, l.pending = request :: pending ∧ (url = request.url ∨
      ∃ next, ({ l with pending } : Loading).receive request (documents request.url) = .ok next ∧
        url ∈ fetched documents limit next) := by
  cases hpending : l.pending with
  | nil =>
    rw [fetched_nil hpending] at hurl
    cases hurl
  | cons request pending =>
    refine ⟨request, pending, rfl, ?_⟩
    rw [fetched_cons hpending] at hurl
    rcases List.mem_cons.mp hurl with hself | hrest
    · exact Or.inl hself
    · cases hreceive :
          ({ l with pending } : Loading).receive request (documents request.url) with
      | error halt =>
        rw [hreceive] at hrest
        cases hrest
      | ok next =>
        rw [hreceive] at hrest
        exact Or.inr ⟨next, rfl, hrest⟩

theorem run_cons_shelf (hpending : l.pending = request :: pending) (limit : Nat) (shelf : Shelf) :
    run Shelf.source (limit + 1) l shelf =
      match ({ l with pending } : Loading).receive request (shelf.answer request.url) with
      | .error halt => (.error halt, shelf.record [request.url])
      | .ok l => run Shelf.source limit l (shelf.record [request.url]) := by
  rw [run, hpending]
  simp only [bind, StateT.bind, Shelf.source_eq]
  cases ({ l with pending } : Loading).receive request (shelf.answer request.url) <;> rfl

/-- A run that asks the shelf gives what a run with the answers of the shelf gives, and the shelf
knows what was asked for. -/
theorem run_shelf (limit : Nat) (l : Loading) (shelf : Shelf) :
    run Shelf.source limit l shelf =
      (run (m := Id) shelf.answer limit l, shelf.record (fetched shelf.answer limit l)) := by
  induction limit generalizing l shelf with
  | zero =>
    unfold run
    cases l.pending <;> rfl
  | succ limit ih =>
    cases hpending : l.pending with
    | nil =>
      rw [run_nil hpending, fetched_nil hpending, run, hpending]
      rfl
    | cons request pending =>
      rw [run_cons_shelf hpending, run_cons shelf.answer limit hpending, fetched_cons hpending]
      cases ({ l with pending } : Loading).receive request (shelf.answer request.url) with
      | error halt => rfl
      | ok next =>
        simp only
        rw [ih, Shelf.record_answer, Shelf.record_record, List.singleton_append]

theorem start_read {g : Graph} {id : DocumentId} (hread : g.documentId? url = some id)
    (ns : Option String) : (start g url ns).pending = [] := by
  simp [start, enqueue, Request.entry, hread]

theorem load_shelf (limit : Nat) (g : Graph) (url : String) (ns : Option String) (shelf : Shelf) :
    load Shelf.source limit g url ns shelf =
      (load (m := Id) shelf.answer limit g url ns,
        shelf.record (fetched shelf.answer limit (start g url ns))) := by
  cases hread : g.documentId? url with
  | some id =>
    rw [fetched_nil (start_read hread ns), load, hread, load, hread]
    rfl
  | none =>
    rw [load_unread shelf.answer limit hread, load, hread]
    simp only [bind, StateT.bind, run_shelf]
    cases run (m := Id) shelf.answer limit (start g url ns) <;> rfl

/-! ## The queue -/

/-- What waits is in the queue, and no URL waits twice. -/
structure Orderly (l : Loading) : Prop where
  nodup : (l.pending.map Request.url).Nodup
  queued : ∀ request ∈ l.pending, request.url ∈ l.queued

/-- The URL waits or may still be asked for. -/
def Awaits (l : Loading) (url : String) : Prop :=
  url ∉ l.queued ∨ url ∈ l.pending.map Request.url

instance (l : Loading) (url : String) : Decidable (l.Awaits url) :=
  inferInstanceAs (Decidable (_ ∨ _))

theorem Orderly.enqueue (h : l.Orderly) (request : Request) : (l.enqueue request).Orderly := by
  rcases enqueue_eq l request with ⟨heq, _⟩ | ⟨hnew, _, _, heq, _⟩ <;> rw [heq]
  · exact h
  · refine ⟨?_, fun r hr => ?_⟩
    · rw [List.map_append, List.map_singleton]
      refine List.nodup_append.mpr ⟨h.nodup, List.nodup_singleton _, fun u hu v hv huv => ?_⟩
      obtain ⟨r, hr, rfl⟩ := List.mem_map.mp hu
      rw [List.mem_singleton.mp hv] at huv
      exact hnew (huv ▸ h.queued r hr)
    · rcases List.mem_append.mp hr with hold | hself
      · exact List.mem_cons_of_mem _ (h.queued r hold)
      · rw [List.mem_singleton.mp hself]
        exact List.mem_cons_self

theorem Orderly.enqueueAll (h : l.Orderly) (requests : List Request) :
    (requests.foldl Loading.enqueue l).Orderly :=
  List.foldlRecOn requests Loading.enqueue h fun _ hl request _ => hl.enqueue request

/-- A URL that is put in the queue waits, and all others are as they were. -/
theorem awaits_enqueue (l : Loading) (request : Request) :
    (l.enqueue request).Awaits url ↔ l.Awaits url := by
  rcases enqueue_eq l request with ⟨heq, _⟩ | ⟨hnew, _, _, heq, _⟩ <;> rw [heq]
  simp only [Awaits, List.map_append, List.map_cons, List.map_nil, List.mem_append, List.mem_cons,
    List.not_mem_nil, or_false, not_or]
  by_cases hurl : url = request.url
  · subst hurl
    exact ⟨fun _ => Or.inl hnew, fun _ => Or.inr (Or.inr rfl)⟩
  · simp [hurl]

theorem awaits_enqueueAll (l : Loading) (requests : List Request) :
    (requests.foldl Loading.enqueue l).Awaits url ↔ l.Awaits url :=
  List.foldlRecOn (motive := fun l' => l'.Awaits url ↔ l.Awaits url) requests Loading.enqueue Iff.rfl
    fun l' hl' request _ => (awaits_enqueue l' request).trans hl'

/-- The request that is answered no longer waits. -/
theorem Orderly.awaits_rest (h : l.Orderly) (hpending : l.pending = request :: pending) :
    ({ l with pending } : Loading).Awaits url ↔ l.Awaits url ∧ url ≠ request.url := by
  have hnodup := h.nodup
  have hqueued := h.queued request (hpending ▸ List.mem_cons_self)
  rw [hpending, List.map_cons, List.nodup_cons] at hnodup
  simp only [Awaits, hpending, List.map_cons, List.mem_cons]
  constructor
  · rintro (hout | hin)
    · exact ⟨Or.inl hout, fun hurl => hout (hurl ▸ hqueued)⟩
    · exact ⟨Or.inr (Or.inr hin), fun hurl => hnodup.1 (hurl ▸ hin)⟩
  · rintro ⟨hout | hself | hin, hne⟩
    · exact Or.inl hout
    · exact absurd hself hne
    · exact Or.inr hin

/-- What waits behind the first request. -/
theorem Orderly.rest (h : l.Orderly) (hpending : l.pending = request :: pending) (graph : Graph)
    (entry : Option NamespaceId) : ({ l with graph, entry, pending } : Loading).Orderly := by
  have hnodup := h.nodup
  rw [hpending, List.map_cons, List.nodup_cons] at hnodup
  exact ⟨hnodup.2, fun r hr => h.queued r (hpending ▸ List.mem_cons_of_mem _ hr)⟩

/-- What an answer leaves of the queue. -/
theorem Orderly.receive (h : l.Orderly) (hpending : l.pending = request :: pending)
    (hok : ({ l with pending } : Loading).receive request (documents request.url) = .ok l') :
    l'.Orderly ∧ ∀ url, l'.Awaits url ↔ l.Awaits url ∧ url ≠ request.url := by
  rcases receive_eq_ok hok with ⟨_, _, _, rfl⟩ | ⟨_, graph, parsed, _, _, rfl⟩
  · exact ⟨h.rest hpending _ _, fun url => h.awaits_rest hpending⟩
  · refine ⟨(h.rest hpending graph _).enqueueAll _, fun url => ?_⟩
    exact (awaits_enqueueAll _ _).trans (h.awaits_rest hpending)

theorem orderly_start (g : Graph) (url : String) (ns : Option String) : (start g url ns).Orderly :=
  Orderly.enqueue (l := { graph := g }) ⟨List.nodup_nil, fun _ hr => absurd hr List.not_mem_nil⟩ _

theorem awaits_first (hpending : l.pending = request :: pending) : l.Awaits request.url := by
  refine Or.inr ?_
  rw [hpending]
  exact List.mem_cons_self

/-- A run asks for what waits or may be asked for. -/
theorem Orderly.awaits_fetched (h : l.Orderly) (limit : Nat)
    (hurl : url ∈ Loading.fetched documents limit l) : l.Awaits url := by
  induction limit generalizing l with
  | zero => cases hurl
  | succ limit ih =>
    obtain ⟨request, pending, hpending, rfl | ⟨next, hnext, hrest⟩⟩ := mem_fetched_succ hurl
    · exact awaits_first hpending
    · obtain ⟨horderly, hawaits⟩ := h.receive hpending hnext
      exact ((hawaits url).mp (ih horderly hrest)).1

/-- A run asks for every URL at most once. -/
theorem Orderly.nodup_fetched (h : l.Orderly) (documents : String → Except FetchFault String)
    (limit : Nat) : (fetched documents limit l).Nodup := by
  induction limit generalizing l with
  | zero => exact List.nodup_nil
  | succ limit ih =>
    cases hpending : l.pending with
    | nil =>
      rw [fetched_nil hpending]
      exact List.nodup_nil
    | cons request pending =>
      rw [fetched_cons hpending]
      cases hreceive :
          ({ l with pending } : Loading).receive request (documents request.url) with
      | error halt => exact List.nodup_singleton _
      | ok next =>
        obtain ⟨horderly, hawaits⟩ := h.receive hpending hreceive
        refine List.nodup_cons.mpr ⟨fun hmem => ?_, ih horderly⟩
        exact ((hawaits _).mp (horderly.awaits_fetched limit hmem)).2 rfl

/-! ## Loading ends -/

/-- How many answers the documents on the shelf can still give rise to. -/
def remaining (shelf : Shelf) (l : Loading) : Nat :=
  l.pending.length +
    (shelf.documents.map fun document =>
      if l.Awaits document.1 then document.2.length else 0).sum

theorem remaining_enqueue (shelf : Shelf) (l : Loading) (request : Request) :
    remaining shelf (l.enqueue request) ≤ remaining shelf l + 1 := by
  have hlength : (l.enqueue request).pending.length ≤ l.pending.length + 1 := by
    rcases enqueue_eq l request with ⟨heq, _⟩ | ⟨_, _, _, heq, _⟩ <;> rw [heq]
    · exact Nat.le_succ _
    · simp
  simp only [remaining, awaits_enqueue]
  omega

theorem remaining_enqueueAll (shelf : Shelf) (l : Loading) (requests : List Request) :
    remaining shelf (requests.foldl enqueue l) ≤ remaining shelf l + requests.length := by
  induction requests generalizing l with
  | nil => exact Nat.le_refl _
  | cons request requests ih =>
    have hone := remaining_enqueue shelf l request
    have hrest := ih (l.enqueue request)
    rw [List.foldl_cons, List.length_cons]
    omega

/-- An answer uses up what the document on the shelf could ask for. -/
theorem Orderly.remaining_lt (h : l.Orderly) (hholds : shelf.Holds documents)
    (hpending : l.pending = request :: pending)
    (hok : ({ l with pending } : Loading).receive request (documents request.url) = .ok l') :
    remaining shelf l' < remaining shelf l := by
  have hless : ∀ document ∈ shelf.documents,
      (if ({ l with pending } : Loading).Awaits document.1 then document.2.length else 0) ≤
        if l.Awaits document.1 then document.2.length else 0 := by
    intro document _
    split
    · rename_i hawaits
      rw [if_pos ((h.awaits_rest hpending).mp hawaits).1]
    · exact Nat.zero_le _
  have hlength : l.pending.length = pending.length + 1 := by
    rw [hpending, List.length_cons]
  rcases receive_eq_ok hok with ⟨_, _, _, rfl⟩ | ⟨text, graph, parsed, htext, hread, rfl⟩
  · have hsum := List.sum_le_sum hless
    simp only [remaining]
    omega
  · have hnot : ¬ ({ l with pending } : Loading).Awaits request.url :=
      fun hawaits => ((h.awaits_rest hpending).mp hawaits).2 rfl
    have hsum := sum_map_add_le hless (hholds _ _ htext) (k := text.length)
      (by rw [if_neg hnot, if_pos (awaits_first hpending), Nat.zero_add])
    have hrequests := Reading.read_requests hread
    have hadded := remaining_enqueueAll shelf ({ l with
      graph
      pending
      entry := if request.route = .entry then some parsed.ns else l.entry } : Loading) parsed.requests
    -- the weight of the text pays for its requests, and the request itself is gone
    refine Nat.lt_of_le_of_lt hadded ?_
    change pending.length + (shelf.documents.map fun document =>
      if ({ l with pending } : Loading).Awaits document.1 then document.2.length else 0).sum +
        parsed.requests.length < remaining shelf l
    unfold remaining
    omega

theorem pending_eq_nil (h : remaining shelf l ≤ 0) : l.pending = [] := by
  refine List.length_eq_zero_iff.mp ?_
  unfold remaining at h
  omega

/-- With as many answers as can be given rise to, a run comes to an end. -/
theorem Orderly.run_ends_of_holds (h : l.Orderly) (hholds : shelf.Holds documents)
    (hlimit : remaining shelf l ≤ limit) :
    Ends documents l (Loading.run (m := Id) documents limit l) := by
  induction limit generalizing l with
  | zero =>
    have hpending := pending_eq_nil hlimit
    rw [run_nil hpending]
    exact .done hpending
  | succ limit ih =>
    cases hpending : l.pending with
    | nil =>
      rw [run_nil hpending]
      exact .done hpending
    | cons request pending =>
      rw [run_cons documents limit hpending]
      cases hreceive :
          ({ l with pending } : Loading).receive request (documents request.url) with
      | error halt => exact .halt hpending hreceive
      | ok next =>
        have hless := h.remaining_lt hholds hpending hreceive
        refine .answer ⟨request, pending, hpending, hreceive⟩ ?_
        exact ih (h.receive hpending hreceive).1 (by omega)

theorem Orderly.run_ends (h : l.Orderly) (hlimit : remaining shelf l ≤ limit) :
    Ends shelf.answer l (Loading.run (m := Id) shelf.answer limit l) :=
  h.run_ends_of_holds shelf.holds_answer hlimit

/-- More answers than can be given rise to make no difference. -/
theorem Orderly.run_of_le (h : l.Orderly) (hlimit : remaining shelf l ≤ limit) {more : Nat}
    (hmore : limit ≤ more) :
    Loading.run (m := Id) shelf.answer more l = Loading.run (m := Id) shelf.answer limit l ∧
      Loading.fetched shelf.answer more l = Loading.fetched shelf.answer limit l := by
  induction limit generalizing l more with
  | zero =>
    have hpending := pending_eq_nil hlimit
    simp only [run_nil hpending, fetched_nil hpending, and_self]
  | succ limit ih =>
    obtain ⟨more, rfl⟩ := Nat.exists_eq_succ_of_ne_zero (Nat.ne_zero_of_lt hmore)
    cases hpending : l.pending with
    | nil => simp only [run_nil hpending, fetched_nil hpending, and_self]
    | cons request pending =>
      simp only [Nat.succ_eq_add_one, run_cons shelf.answer _ hpending, fetched_cons hpending]
      cases hreceive :
          ({ l with pending } : Loading).receive request (shelf.answer request.url) with
      | error halt => exact ⟨rfl, rfl⟩
      | ok next =>
        have hless := h.remaining_lt shelf.holds_answer hpending hreceive
        obtain ⟨hrun, hfetched⟩ := ih (h.receive hpending hreceive).1 (by omega)
          (Nat.le_of_succ_le_succ hmore)
        exact ⟨hrun, congrArg (request.url :: ·) hfetched⟩

theorem remaining_start (shelf : Shelf) (g : Graph) (url : String) (ns : Option String) :
    remaining shelf (start g url ns) ≤ shelf.requestLimit := by
  have hadded := remaining_enqueue shelf { graph := g } (.entry url ns)
  have hall : remaining shelf { graph := g } =
      (shelf.documents.map fun document => document.2.length).sum := by
    simp [remaining, Awaits]
  rw [hall] at hadded
  rw [Shelf.requestLimit_eq]
  exact hadded

theorem load_of_le (shelf : Shelf) (g : Graph) (url : String) (ns : Option String)
    (hlimit : shelf.requestLimit ≤ limit) : load Shelf.source limit g url ns shelf =
      load Shelf.source shelf.requestLimit g url ns shelf := by
  obtain ⟨hrun, hfetched⟩ :=
    (orderly_start g url ns).run_of_le (remaining_start shelf g url ns) hlimit
  rw [load_shelf, load_shelf, hfetched]
  cases hread : g.documentId? url with
  | some id => rw [load, hread, load, hread]
  | none => rw [load_unread _ _ hread, load_unread _ _ hread, hrun]

/-! ## Loads on one shelf -/

/-- What waits in a load has not been read before it. -/
structure Ahead (g : Graph) (l : Loading) : Prop where
  follows : g.Follows l.graph
  unread : ∀ request ∈ l.pending, g.documentId? request.url = none

theorem Ahead.enqueue {g : Graph} (h : l.Ahead g) (request : Request) :
    (l.enqueue request).Ahead g := by
  refine ⟨h.follows.trans (enqueue_follows l request), ?_⟩
  rcases enqueue_eq l request with ⟨heq, _⟩ | ⟨_, hunread, _, heq, _⟩ <;> rw [heq]
  · exact h.unread
  · intro r hr
    rcases List.mem_append.mp hr with hold | hself
    · exact h.unread r hold
    · rw [List.mem_singleton.mp hself, ← Option.not_isSome_iff_eq_none]
      intro hread
      have hread' := h.follows.documentId? hread
      rw [hunread] at hread'
      cases hread'

theorem Ahead.enqueueAll {g : Graph} (h : l.Ahead g) (requests : List Request) :
    (requests.foldl Loading.enqueue l).Ahead g :=
  List.foldlRecOn requests Loading.enqueue h fun _ hl request _ => hl.enqueue request

theorem Ahead.receive {g : Graph} (h : l.Ahead g) (hpending : l.pending = request :: pending)
    (hok : ({ l with pending } : Loading).receive request (documents request.url) = .ok l') :
    l'.Ahead g := by
  have hrest : ∀ r ∈ pending, g.documentId? r.url = none := fun r hr =>
    h.unread r (hpending ▸ List.mem_cons_of_mem _ hr)
  rcases receive_eq_ok hok with ⟨_, _, _, rfl⟩ | ⟨_, graph, parsed, _, hread, rfl⟩
  · exact ⟨h.follows, hrest⟩
  · exact Ahead.enqueueAll ⟨h.follows.trans (Reading.read_files hread).1, hrest⟩ _

theorem ahead_start (g : Graph) (url : String) (ns : Option String) : (start g url ns).Ahead g :=
  Ahead.enqueue (l := { graph := g }) ⟨.refl g, fun _ hr => absurd hr List.not_mem_nil⟩ _

/-- A load does not ask for what has been read. -/
theorem Ahead.unread_fetched {g : Graph} (h : l.Ahead g) (limit : Nat)
    (hurl : url ∈ fetched documents limit l) : g.documentId? url = none := by
  induction limit generalizing l with
  | zero => cases hurl
  | succ limit ih =>
    obtain ⟨request, pending, hpending, rfl | ⟨next, hnext, hrest⟩⟩ := mem_fetched_succ hurl
    · exact h.unread request (hpending ▸ List.mem_cons_self)
    · exact ih (h.receive hpending hnext) hrest

/-- What a run asks for and gets is read. -/
theorem read_of_fetched {text : String} (hok : run (m := Id) documents limit l = .ok l')
    (hurl : url ∈ fetched documents limit l) (htext : documents url = .ok text) :
    (l'.graph.documentId? url).isSome := by
  induction limit generalizing l with
  | zero => cases hurl
  | succ limit ih =>
    obtain ⟨request, pending, hpending, hcases⟩ := mem_fetched_succ hurl
    rw [run_cons documents limit hpending] at hok
    cases hreceive :
        ({ l with pending } : Loading).receive request (documents request.url) with
    | error halt =>
      rw [hreceive] at hok
      cases hok
    | ok next =>
      rw [hreceive] at hok
      rcases hcases with rfl | ⟨next', hnext', hrest⟩
      · refine (answers_follows (run_eq_ok hok).1).documentId? ?_
        rcases receive_eq_ok hreceive with ⟨fault, hfault, _, _⟩ | ⟨_, graph, parsed, _, hread, rfl⟩
        · cases htext.symm.trans hfault
        · exact (enqueueAll_follows _ _).documentId? (Reading.read_files hread).2.1
      · cases hreceive.symm.trans hnext'
        exact ih hok hrest

/-- What a run reads was asked for. -/
theorem fetched_of_read (hok : run (m := Id) documents limit l = .ok l')
    (hread : (l'.graph.documentId? url).isSome) :
    (l.graph.documentId? url).isSome ∨ url ∈ fetched documents limit l := by
  induction limit generalizing l with
  | zero =>
    unfold run at hok
    split at hok
    · cases hok
      exact Or.inl hread
    · cases hok
  | succ limit ih =>
    cases hpending : l.pending with
    | nil =>
      rw [run_nil hpending] at hok
      cases hok
      exact Or.inl hread
    | cons request pending =>
      rw [run_cons documents limit hpending] at hok
      rw [fetched_cons hpending]
      cases hreceive :
          ({ l with pending } : Loading).receive request (documents request.url) with
      | error halt =>
        rw [hreceive] at hok
        cases hok
      | ok next =>
        rw [hreceive] at hok
        rcases ih hok with hold | hmem
        · rcases receive_eq_ok hreceive with ⟨_, _, _, rfl⟩ | ⟨_, graph, parsed, _, hread, rfl⟩
          · exact Or.inl hold
          · rw [enqueueAll_documentId?] at hold
            rcases Reading.documentId?_of_read hread hold with hold | rfl
            · exact Or.inl hold
            · exact Or.inr List.mem_cons_self
        · exact Or.inr (List.mem_cons_of_mem _ hmem)

/-- A load that succeeds has read what it asked for and got, and nothing else. -/
theorem load_reads {g g' : Graph} {url u text : String} {ns : Option String} {entry : NamespaceId}
    (hok : load (m := Id) documents limit g url ns = .ok (g', entry)) (htext : documents u = .ok text) :
    (g'.documentId? u).isSome ↔
      (g.documentId? u).isSome ∨ u ∈ fetched documents limit (start g url ns) := by
  cases hread : g.documentId? url with
  | some id =>
    rw [load, hread] at hok
    cases hok
    rw [fetched_nil (start_read hread ns)]
    exact ⟨Or.inl, fun h => h.resolve_right List.not_mem_nil⟩
  | none =>
    obtain ⟨l, hrun, hbefore, hafter, hdocuments⟩ := load_follows hread hok
    have hstart : (start g url ns).graph.documentId? u = g.documentId? u :=
      enqueue_documentId? { graph := g } _ u
    constructor
    · intro hu
      rw [Graph.documentId?, hdocuments, ← Graph.documentId?] at hu
      rw [← hstart]
      exact fetched_of_read hrun hu
    · rintro (hold | hmem)
      · exact (hbefore.trans hafter).documentId? hold
      · exact hafter.documentId? (read_of_fetched hrun hmem htext)

/-- A load that succeeds, on a graph and a shelf. -/
def Loads (before after : Graph × Shelf) : Prop :=
  ∃ limit url ns entry,
    load Shelf.source limit before.1 url ns before.2 = (.ok (after.1, entry), after.2)

/-- The shelf has been asked for its documents in the graph, and once for each. -/
structure Kept (first : Nat) (shelf : Shelf) (state : Graph × Shelf) : Prop where
  intact : state.1.Intact first
  answer : state.2.answer = shelf.answer
  asked : ∀ url text, shelf.answer url = .ok text → state.2.timesAsked url =
    shelf.timesAsked url + if (state.1.documentId? url).isSome then 1 else 0

theorem Kept.loads {first : Nat} {before after : Graph × Shelf} (h : Kept first shelf before)
    (hloads : Loads before after) : Kept first shelf after := by
  obtain ⟨limit, url, ns, entry, hload⟩ := hloads
  rw [load_shelf, h.answer] at hload
  obtain ⟨hok, hshelf⟩ := Prod.mk.inj hload
  have hintact := h.intact.load shelf.answer limit url ns
  rw [hok] at hintact
  refine ⟨hintact, by rw [← hshelf, Shelf.record_answer]; exact h.answer, fun u text htext => ?_⟩
  have hnodup := (orderly_start before.1 url ns).nodup_fetched shelf.answer limit
  rw [← hshelf, Shelf.timesAsked_record, h.asked u text htext]
  simp only [load_reads hok htext]
  by_cases hmem : u ∈ fetched shelf.answer limit (start before.1 url ns)
  · have hunread : before.1.documentId? u = none :=
      (ahead_start before.1 url ns).unread_fetched limit hmem
    rw [List.count_eq_one_of_mem hnodup hmem, hunread]
    simp [hmem]
  · rw [List.count_eq_zero_of_not_mem hmem]
    simp [hmem]

theorem kept_initial (policy : RepeatPolicy) (shelf : Shelf) :
    Kept (Graph.initial policy).nodes.size shelf (Graph.initial policy, shelf) where
  intact := Graph.intact_initial policy
  answer := rfl
  asked url _ _ := by
    rw [documentId?_initial]
    rfl

theorem kept_of_loads {policy : RepeatPolicy} {state : Graph × Shelf}
    (h : ReflTransGen Loads (Graph.initial policy, shelf) state) :
    Kept (Graph.initial policy).nodes.size shelf state := by
  induction h with
  | refl => exact kept_initial policy shelf
  | tail _ hlast ih => exact ih.loads hlast

/-- Loading from a shelf ends, within a number of answers that the shelf determines, and asks for
every URL at most once. Over any loads that succeed, one after the other on one graph, the shelf is
asked once for each of its documents that comes to be in the graph, and not at all for the others;
and every namespace of the graph is registered once and has one root scope. -/
theorem load_asks_once (policy : RepeatPolicy) (shelf : Shelf) :
    (∀ g url ns,
      (∃ result, Ends shelf.answer (start g url ns) result ∧ ∀ limit, shelf.requestLimit ≤ limit →
        (run Shelf.source limit (start g url ns) shelf).1 = result ∧
          load Shelf.source limit g url ns shelf =
            load Shelf.source shelf.requestLimit g url ns shelf) ∧
      ∀ limit u, (load Shelf.source limit g url ns shelf).2.timesAsked u ≤ shelf.timesAsked u + 1) ∧
    ∀ g shelf', ReflTransGen Loads (Graph.initial policy, shelf) (g, shelf') →
      (∀ u text, shelf.answer u = .ok text → shelf'.timesAsked u =
        shelf.timesAsked u + if (g.documentId? u).isSome then 1 else 0) ∧
      ∀ i, i < g.namespaces.size →
        (∀ j, j < g.namespaces.size → (g.namespaceAt j).uri = (g.namespaceAt i).uri → j = i) ∧
        ∃! s, s < g.scopes.size ∧ (g.scopeAt s).parent = none ∧ (g.scopeAt s).ns = i := by
  refine ⟨fun g url ns => ⟨?_, fun limit u => ?_⟩, fun g shelf' hloads => ?_⟩
  · have horderly := orderly_start g url ns
    have hremaining := remaining_start shelf g url ns
    refine ⟨_, horderly.run_ends hremaining, fun limit hlimit => ?_⟩
    rw [run_shelf]
    exact ⟨(horderly.run_of_le hremaining hlimit).1, load_of_le shelf g url ns hlimit⟩
  · have hnodup := (orderly_start g url ns).nodup_fetched shelf.answer limit
    rw [load_shelf, Shelf.timesAsked_record]
    exact Nat.add_le_add_left (List.nodup_iff_count_le_one.mp hnodup u) _
  · have hkept := kept_of_loads hloads
    have hregistry := hkept.intact.sound.registry
    refine ⟨hkept.asked, fun i hi => ⟨fun j hj => hregistry.uri_inj j i hj hi, ?_⟩⟩
    refine ⟨(g.namespaceAt i).root, ⟨hregistry.root_lt i hi, hregistry.root_parent i hi,
      hregistry.root_ns i hi⟩, ?_⟩
    rintro s ⟨hs, hnone, rfl⟩
    exact (hregistry.root_of_parent s hs hnone).symm

/-- A document that imports another one, which imports the first. -/
def pairShelf : Shelf where
  documents :=
    [("a", "<schema xmlns='http://www.w3.org/2001/XMLSchema' targetNamespace='a'>" ++
        "<import namespace='b' schemaLocation='b'/></schema>"),
      ("b", "<schema xmlns='http://www.w3.org/2001/XMLSchema' targetNamespace='b'>" ++
        "<import namespace='a' schemaLocation='a'/></schema>")]

set_option maxRecDepth 100000 in
theorem loads_pairShelf : ∃ g shelf,
    ReflTransGen Loads (Graph.initial .standard, pairShelf) (g, shelf) ∧
      (g.documentId? "b").isSome := by
  have heval : (match load Shelf.source 2 (Graph.initial .standard) "a" none pairShelf with
      | (.ok (g, _), shelf) =>
        match load Shelf.source 2 g "b" none shelf with
        | (.ok (g, _), _) => (g.documentId? "b").isSome
        | (.error _, _) => false
      | (.error _, _) => false) = true := by decide +kernel
  split at heval
  · rename_i g entry shelf hfirst
    split at heval
    · rename_i g' entry' shelf' hsecond
      have hone : Loads (Graph.initial .standard, pairShelf) (g, shelf) :=
        ⟨2, "a", none, entry, hfirst⟩
      have htwo : Loads (g, shelf) (g', shelf') := ⟨2, "b", none, entry', hsecond⟩
      exact ⟨g', shelf', .tail (.single hone) htwo, heval⟩
    · cases heval
  · cases heval

theorem load_asks_once_example :
    (∃ g shelf, ReflTransGen Loads (Graph.initial .standard, pairShelf) (g, shelf) ∧
      shelf.timesAsked "b" = 1) ∧
    (load Shelf.source 1000 (Graph.initial .standard) "a" none pairShelf).2.timesAsked "a" ≤ 1 := by
  obtain ⟨hone, hall⟩ := load_asks_once .standard pairShelf
  obtain ⟨g, shelf, hloads, hread⟩ := loads_pairShelf
  refine ⟨⟨g, shelf, hloads, ?_⟩, (hone _ "a" none).2 1000 "a"⟩
  have hasked := (hall g shelf hloads).1 "b" _ rfl
  rw [hasked, if_pos hread]
  rfl

end Loading

end XsdTypes
