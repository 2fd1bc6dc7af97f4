import XsdTypes.Proofs.Schema.Fetching

/-!
# Fetches that overlap

Documents are fetched all at once and read in the order in which they were asked for: an answer that
comes early waits until all requests before it have been answered. A load is a machine with two kinds
of steps here. Any fetch that is under way may be completed at any time, and the first request is
answered once its fetch is complete. What is read depends on the second kind only, so every way in
which fetches can be completed leads to the same end, which is that of a load that fetches one
document after the other.
-/

namespace XsdTypes.Loading

open Relation

/-- A request whose fetch has begun, with the answer once there is one. -/
structure Outstanding where
  request : Request
  answer : Option (Except FetchFault String) := none

/-- A load whose requests are all being fetched, in the order in which they were made. -/
structure Flight where
  graph : Graph
  outstanding : List Outstanding
  queued : List String
  entry : Option NamespaceId

/-- A load goes on, or it has come to its result. -/
inductive Course where
  | running (f : Flight)
  | ended (result : Except Halt (Graph × NamespaceId))

/-- What is known of the load without the answers that have come early. -/
def Flight.loading (f : Flight) : Loading where
  graph := f.graph
  pending := f.outstanding.map Outstanding.request
  queued := f.queued
  entry := f.entry

/-- Begins to fetch what waits behind the requests whose fetches have begun. -/
def launch (l : Loading) (begun : List Outstanding) : Flight where
  graph := l.graph
  outstanding := begun ++ (l.pending.drop begun.length).map fun request => { request }
  queued := l.queued
  entry := l.entry

/-- Answers the first request if its fetch is complete, and ends the load if there is none. -/
def Flight.next? (f : Flight) (url : String) (first : NodeId) : Option Course :=
  match f.outstanding with
  | [] => some (.ended (f.loading.finish url first))
  | ⟨_, none⟩ :: _ => none
  | ⟨request, some answer⟩ :: rest =>
    match ({ f with outstanding := rest } : Flight).loading.receive request answer with
    | .error halt => some (.ended (.error halt))
    | .ok l => some (.running (l.launch rest))

/-- The steps of a load: a fetch is completed, or the first request is answered. -/
inductive Advances (documents : String → Except FetchFault String) (url : String)
    (first : NodeId) : Course → Course → Prop
  | complete {f : Flight} {before after : List Outstanding} {request : Request} :
    f.outstanding = before ++ ⟨request, none⟩ :: after →
    Advances documents url first (.running f) (.running { f with
      outstanding := before ++ ⟨request, some (documents request.url)⟩ :: after })
  | answer {f : Flight} {c : Course} :
    f.next? url first = some c → Advances documents url first (.running f) c

/-- Where a load begins. A document that has been read is not asked for. -/
def Course.start (g : Graph) (url : String) (ns : Option String) : Course :=
  match g.documentId? url with
  | some id => .ended (.ok (g, (g.documentAt id).ns))
  | none => .running ((Loading.start g url ns).launch [])

/-- A run from the start that makes steps as long as there are any, and then stays where it is. -/
structure MaximalRun (documents : String → Except FetchFault String) (g : Graph) (url : String)
    (ns : Option String) (run : Nat → Course) : Prop where
  start : run 0 = Course.start g url ns
  goesOn : ∀ n, Advances documents url g.nodes.size (run n) (run (n + 1)) ∨
    run (n + 1) = run n ∧ ∀ c, ¬ Advances documents url g.nodes.size (run n) c

/-- The run comes to the result and to nothing else. -/
def EndsWith (run : Nat → Course) (result : Except Halt (Graph × NamespaceId)) : Prop :=
  ∃ n, ∀ k, n ≤ k → run k = .ended result

variable {documents : String → Except FetchFault String} {l l' : Loading} {request : Request}
  {f : Flight} {c c' : Course} {url : String} {first : NodeId} {limit : Nat}
  {result : Except Halt (Graph × NamespaceId)}

theorem not_advances_ended : ¬ Advances documents url first (.ended result) c := by
  intro h
  cases h

/-! ## Answers that come early -/

/-- The answers that are there are those that the documents give. -/
def Flight.Faithful (documents : String → Except FetchFault String) (f : Flight) : Prop :=
  ∀ o ∈ f.outstanding, ∀ answer, o.answer = some answer → answer = documents o.request.url

theorem Flight.Faithful.complete (h : f.Faithful documents) {before after : List Outstanding}
    (hf : f.outstanding = before ++ ⟨request, none⟩ :: after) :
    ({ f with outstanding := before ++ ⟨request, some (documents request.url)⟩ :: after } :
      Flight).Faithful documents := by
  intro o ho answer hanswer
  have hold : ∀ o ∈ before ++ after, o ∈ f.outstanding := by
    intro o ho
    rw [hf]
    simp only [List.mem_append, List.mem_cons] at ho ⊢
    exact ho.imp_right Or.inr
  simp only [List.mem_append, List.mem_cons] at ho
  rcases ho with hbefore | rfl | hafter
  · exact h o (hold o (List.mem_append_left _ hbefore)) answer hanswer
  · exact (Option.some.inj hanswer).symm
  · exact h o (hold o (List.mem_append_right _ hafter)) answer hanswer

theorem loading_complete {before after : List Outstanding}
    (hf : f.outstanding = before ++ ⟨request, none⟩ :: after)
    (answer : Option (Except FetchFault String)) :
    ({ f with outstanding := before ++ ⟨request, answer⟩ :: after } : Flight).loading =
      f.loading := by
  simp [Flight.loading, hf]

/-! ## Requests join the queue at its end -/

theorem pending_enqueue (l : Loading) (request : Request) :
    l.pending <+: (l.enqueue request).pending := by
  rcases enqueue_eq l request with ⟨heq, _⟩ | ⟨_, _, _, heq, _⟩ <;> rw [heq]
  exact List.prefix_append _ _

theorem pending_receive {answer : Except FetchFault String}
    (hok : l.receive request answer = .ok l') : l.pending <+: l'.pending := by
  rcases receive_eq_ok hok with ⟨_, _, _, rfl⟩ | ⟨_, graph, parsed, _, _, rfl⟩
  · exact List.prefix_rfl
  · refine List.foldlRecOn (motive := fun l' => l.pending <+: l'.pending) parsed.requests enqueue
      ?_ fun l' hl' request _ => hl'.trans (pending_enqueue l' request)
    exact List.prefix_rfl

theorem loading_launch {begun : List Outstanding}
    (hbegun : begun.map Outstanding.request <+: l.pending) : (l.launch begun).loading = l := by
  obtain ⟨new, hnew⟩ := hbegun
  have hdrop : l.pending.drop begun.length = new := by
    rw [← hnew]
    simp
  have hpending : (l.launch begun).loading.pending = l.pending := by
    show (begun ++ (l.pending.drop begun.length).map fun request => ({ request } : Outstanding)).map
      Outstanding.request = l.pending
    rw [hdrop, List.map_append, List.map_map, ← hnew]
    congr 1
    exact List.map_id new
  show ({ l with pending := (l.launch begun).loading.pending } : Loading) = l
  rw [hpending]

theorem faithful_launch {begun : List Outstanding}
    (hbegun : ∀ o ∈ begun, ∀ answer, o.answer = some answer → answer = documents o.request.url) :
    (l.launch begun).Faithful documents := by
  intro o ho answer hanswer
  rcases List.mem_append.mp ho with hold | hnew
  · exact hbegun o hold answer hanswer
  · obtain ⟨_, _, rfl⟩ := List.mem_map.mp hnew
    cases hanswer

theorem Flight.next?_of_ok {request : Request} {answer : Except FetchFault String}
    {rest : List Outstanding} {l : Loading} (hf : f.outstanding = ⟨request, some answer⟩ :: rest)
    (hreceive : ({ f with outstanding := rest } : Flight).loading.receive request answer = .ok l) :
    f.next? url first = some (.running (l.launch rest)) := by
  rw [Flight.next?, hf]
  simp only [hreceive]

/-- What an answer in flight leads to is what an answer leads to when documents are fetched one
after the other. -/
theorem Flight.Faithful.next? (h : f.Faithful documents) (hnext : f.next? url first = some c) :
    (f.loading.pending = [] ∧ c = .ended (f.loading.finish url first)) ∨
    ∃ request pending, f.loading.pending = request :: pending ∧
      ((∃ halt, ({ f.loading with pending } : Loading).receive request (documents request.url) =
          .error halt ∧ c = .ended (.error halt)) ∨
        ∃ f' : Flight, ({ f.loading with pending } : Loading).receive request
          (documents request.url) = .ok f'.loading ∧ f'.Faithful documents ∧ c = .running f') := by
  cases hf : f.outstanding with
  | nil =>
    have hempty : f.loading.pending = [] := by simp [Flight.loading, hf]
    simp only [Flight.next?, hf, Option.some.injEq] at hnext
    exact Or.inl ⟨hempty, hnext.symm⟩
  | cons o rest =>
    obtain ⟨request, answer⟩ := o
    cases answer with
    | none =>
      simp only [Flight.next?, hf] at hnext
      cases hnext
    | some answer =>
      have hself : answer = documents request.url :=
        h ⟨request, some answer⟩ (hf ▸ List.mem_cons_self) answer rfl
      have hrest : ∀ o ∈ rest, ∀ answer, o.answer = some answer → answer = documents o.request.url :=
        fun o ho => h o (hf ▸ List.mem_cons_of_mem _ ho)
      have hpending : f.loading.pending = request :: rest.map Outstanding.request := by
        simp [Flight.loading, hf]
      refine Or.inr ⟨request, rest.map Outstanding.request, hpending, ?_⟩
      rw [← hself]
      show (∃ halt, ({ f with outstanding := rest } : Flight).loading.receive request answer =
          .error halt ∧ _) ∨ ∃ f' : Flight,
        ({ f with outstanding := rest } : Flight).loading.receive request answer = .ok f'.loading ∧ _
      cases hreceive : ({ f with outstanding := rest } : Flight).loading.receive request answer with
      | error halt =>
        simp only [Flight.next?, hf, hreceive] at hnext
        exact Or.inl ⟨halt, rfl, (Option.some.inj hnext).symm⟩
      | ok l =>
        rw [Flight.next?_of_ok hf hreceive] at hnext
        have hl : (l.launch rest).loading = l := loading_launch (pending_receive hreceive)
        exact Or.inr ⟨l.launch rest, by rw [hl], faithful_launch hrest,
          (Option.some.inj hnext).symm⟩

/-- Unless the load is at its end, there is a step. -/
theorem exists_advances (documents : String → Except FetchFault String) (url : String)
    (first : NodeId) (f : Flight) : ∃ c, Advances documents url first (.running f) c := by
  cases hnext : f.next? url first with
  | some c => exact ⟨c, .answer hnext⟩
  | none =>
    -- only a first request without an answer keeps the load from going on
    cases hf : f.outstanding with
    | nil =>
      simp only [Flight.next?, hf] at hnext
      cases hnext
    | cons o rest =>
      obtain ⟨request, answer⟩ := o
      cases answer with
      | none =>
        have hsplit : f.outstanding = [] ++ ⟨request, none⟩ :: rest := hf
        exact ⟨_, .complete hsplit⟩
      | some answer =>
        cases hreceive :
            ({ f with outstanding := rest } : Flight).loading.receive request answer with
        | error halt =>
          simp only [Flight.next?, hf, hreceive] at hnext
          cases hnext
        | ok l =>
          rw [Flight.next?_of_ok hf hreceive] at hnext
          cases hnext

/-! ## All runs come to one result -/

/-- Whatever steps are made, they lead to the result in the end. -/
inductive Inevitable (documents : String → Except FetchFault String) (url : String) (first : NodeId)
    (result : Except Halt (Graph × NamespaceId)) : Course → Prop
  | ended : Inevitable documents url first result (.ended result)
  | step {f : Flight} : (∀ c, Advances documents url first (.running f) c →
      Inevitable documents url first result c) →
    Inevitable documents url first result (.running f)

/-- Completing fetches comes to an end, and then the first request has to be answered. -/
theorem inevitable_of_next? (hnext : ∀ f : Flight, f.loading = l → f.Faithful documents →
      ∀ c, f.next? url first = some c → Inevitable documents url first result c)
    (f : Flight) (hf : f.loading = l) (hfaithful : f.Faithful documents) :
    Inevitable documents url first result (.running f) := by
  -- by induction on the number of fetches that are not complete
  generalize hcount : f.outstanding.countP (fun o => o.answer.isNone) = count
  induction count generalizing f with
  | zero =>
    apply Inevitable.step
    intro c hc
    cases hc with
    | complete hsplit => simp [hsplit] at hcount
    | answer hc => exact hnext f hf hfaithful c hc
  | succ count ih =>
    apply Inevitable.step
    intro c hc
    cases hc with
    | complete hsplit =>
      apply ih _ ((loading_complete hsplit _).trans hf) (hfaithful.complete hsplit)
      simp only [hsplit, List.countP_append, List.countP_cons, Option.isNone_none,
        Option.isNone_some] at hcount ⊢
      simp only [Bool.false_eq_true, if_false, if_true] at hcount ⊢
      omega
    | answer hc => exact hnext f hf hfaithful c hc

/-- If a load that fetches one document after the other comes to an end, then so does every other,
and to the same one. -/
theorem inevitable_of_ends {outcome : Except Halt Loading} (hends : Ends documents l outcome)
    (f : Flight) (hf : f.loading = l) (hfaithful : f.Faithful documents) :
    Inevitable documents url first (outcome.bind fun l => l.finish url first) (.running f) := by
  induction hends generalizing f with
  | done hpending =>
    apply inevitable_of_next? _ f hf hfaithful
    intro f hf hfaithful c hc
    rcases hfaithful.next? hc with ⟨_, rfl⟩ | ⟨request, pending, hcons, _⟩
    · rw [hf]
      exact .ended
    · rw [hf, hpending] at hcons
      cases hcons
  | halt hpending hhalt =>
    apply inevitable_of_next? _ f hf hfaithful
    intro f hf hfaithful c hc
    rcases hfaithful.next? hc with ⟨hnil, _⟩ | ⟨r, p, hcons, hreceive⟩
    · rw [hf, hpending] at hnil
      cases hnil
    · rw [hf] at hcons hreceive
      cases hpending.symm.trans hcons
      rcases hreceive with ⟨halt, herror, rfl⟩ | ⟨f', hok, _⟩
      · cases hhalt.symm.trans herror
        exact .ended
      · cases hhalt.symm.trans hok
  | answer hanswers _ ih =>
    obtain ⟨request, pending, hpending, hnext⟩ := hanswers
    apply inevitable_of_next? _ f hf hfaithful
    intro f hf hfaithful c hc
    rcases hfaithful.next? hc with ⟨hnil, _⟩ | ⟨r, p, hcons, hreceive⟩
    · rw [hf, hpending] at hnil
      cases hnil
    · rw [hf] at hcons hreceive
      cases hpending.symm.trans hcons
      rcases hreceive with ⟨halt, herror, _⟩ | ⟨f', hok, hfaithful', rfl⟩
      · cases hnext.symm.trans herror
      · exact ih f' (Except.ok.inj (hok.symm.trans hnext)) hfaithful'

/-! ## What a run has come from -/

theorem Ends.of_reaches {outcome : Except Halt Loading}
    (hreach : ReflTransGen (Answers documents) l l') (hends : Ends documents l' outcome) :
    Ends documents l outcome := by
  induction hreach using ReflTransGen.head_induction_on with
  | refl => exact hends
  | head hanswers _ ih => exact .answer hanswers ih

theorem Ends.unique {outcome outcome' : Except Halt Loading} (hends : Ends documents l outcome)
    (hends' : Ends documents l outcome') : outcome' = outcome := by
  induction hends with
  | done hpending =>
    cases hends' with
    | done _ => rfl
    | halt hcons _ => cases hpending.symm.trans hcons
    | answer hanswers _ =>
      obtain ⟨_, _, hcons, _⟩ := hanswers
      cases hpending.symm.trans hcons
  | halt hpending hhalt =>
    cases hends' with
    | done hnil => cases hpending.symm.trans hnil
    | halt hcons hhalt' =>
      cases hpending.symm.trans hcons
      cases hhalt.symm.trans hhalt'
      rfl
    | answer hanswers _ =>
      obtain ⟨_, _, hcons, hok⟩ := hanswers
      cases hpending.symm.trans hcons
      cases hhalt.symm.trans hok
  | answer hanswers _ ih =>
    obtain ⟨_, _, hpending, hok⟩ := hanswers
    cases hends' with
    | done hnil => cases hpending.symm.trans hnil
    | halt hcons hhalt =>
      cases hpending.symm.trans hcons
      cases hhalt.symm.trans hok
    | answer hanswers' hrest =>
      obtain ⟨_, _, hcons, hok'⟩ := hanswers'
      cases hpending.symm.trans hcons
      cases hok.symm.trans hok'
      exact ih hrest

/-- What a load comes to is what it comes to when documents are fetched one after the other. -/
def Accounted (documents : String → Except FetchFault String) (l₀ : Loading) (url : String)
    (first : NodeId) : Course → Prop
  | .running f => f.Faithful documents ∧ ReflTransGen (Answers documents) l₀ f.loading
  | .ended result => ∃ outcome, Ends documents l₀ outcome ∧
    result = outcome.bind fun l => l.finish url first

theorem Accounted.advances {l₀ : Loading} (h : Accounted documents l₀ url first c)
    (hstep : Advances documents url first c c') : Accounted documents l₀ url first c' := by
  cases hstep with
  | complete hsplit =>
    obtain ⟨hfaithful, hreach⟩ := h
    refine ⟨hfaithful.complete hsplit, ?_⟩
    rw [loading_complete hsplit]
    exact hreach
  | answer hnext =>
    obtain ⟨hfaithful, hreach⟩ := h
    rcases hfaithful.next? hnext with ⟨hnil, rfl⟩ | ⟨request, pending, hcons, hreceive⟩
    · exact ⟨.ok _, .of_reaches hreach (.done hnil), rfl⟩
    · rcases hreceive with ⟨halt, herror, rfl⟩ | ⟨f', hok, hfaithful', rfl⟩
      · exact ⟨.error halt, .of_reaches hreach (.halt hcons herror), rfl⟩
      · exact ⟨hfaithful', hreach.tail ⟨request, pending, hcons, hok⟩⟩

/-! ## Maximal runs -/

section Runs

variable {g : Graph} {ns : Option String} {run : Nat → Course}

theorem launch_start (g : Graph) (url : String) (ns : Option String) :
    ((start g url ns).launch []).loading = start g url ns :=
  loading_launch (List.nil_prefix)

theorem course_start (hunread : g.documentId? url = none) :
    Course.start g url ns = .running ((start g url ns).launch []) := by
  simp only [Course.start, hunread]

theorem accounted_start (hunread : g.documentId? url = none) :
    Accounted documents (start g url ns) url first (Course.start g url ns) := by
  rw [course_start hunread]
  refine ⟨faithful_launch fun o ho => ?_, ?_⟩
  · cases ho
  · rw [launch_start]

theorem MaximalRun.accounted (h : MaximalRun documents g url ns run)
    (hunread : g.documentId? url = none) (n : Nat) :
    Accounted documents (Loading.start g url ns) url g.nodes.size (run n) := by
  induction n with
  | zero =>
    rw [h.start]
    exact accounted_start hunread
  | succ n ih =>
    rcases h.goesOn n with hstep | ⟨hstays, _⟩
    · exact ih.advances hstep
    · rw [hstays]
      exact ih

theorem MaximalRun.stays (h : MaximalRun documents g url ns run) {n : Nat}
    (hn : run n = .ended result) : EndsWith run result := by
  refine ⟨n, fun k hk => ?_⟩
  induction k, hk using Nat.le_induction with
  | base => exact hn
  | succ k _ ih =>
    rcases h.goesOn k with hstep | ⟨hstays, _⟩
    · rw [ih] at hstep
      exact absurd hstep not_advances_ended
    · exact hstays.trans ih

theorem MaximalRun.endsWith_of_inevitable (h : MaximalRun documents g url ns run) {n : Nat}
    (hn : Inevitable documents url g.nodes.size result (run n)) : EndsWith run result := by
  generalize hc : run n = c at hn
  induction hn generalizing n with
  | ended => exact h.stays hc
  | @step f _ ih =>
    rcases h.goesOn n with hstep | ⟨_, hstuck⟩
    · rw [hc] at hstep
      exact ih _ hstep rfl
    · rw [hc] at hstuck
      obtain ⟨c, hstep⟩ := exists_advances documents url g.nodes.size f
      exact absurd hstep (hstuck c)

theorem MaximalRun.endsWith_of_ends (h : MaximalRun documents g url ns run)
    (hunread : g.documentId? url = none) {outcome : Except Halt Loading}
    (hends : Ends documents (Loading.start g url ns) outcome) :
    EndsWith run (outcome.bind fun l => l.finish url g.nodes.size) := by
  apply h.endsWith_of_inevitable (n := 0)
  rw [h.start, course_start hunread]
  apply inevitable_of_ends hends _ (launch_start g url ns)
  apply faithful_launch
  intro o ho
  cases ho

theorem MaximalRun.endsWith_of_read (h : MaximalRun documents g url ns run) {id : DocumentId}
    (hread : g.documentId? url = some id) : EndsWith run (.ok (g, (g.documentAt id).ns)) := by
  apply h.stays (n := 0)
  rw [h.start]
  simp only [Course.start, hread]

/-- Finitely many documents fit on a shelf. -/
theorem exists_holds (hfinite : {url | ∃ text, documents url = .ok text}.Finite) :
    ∃ shelf : Shelf, shelf.Holds documents := by
  refine ⟨{ documents := hfinite.toFinset.toList.map fun url =>
    (url, (documents url).toOption.getD "") }, fun url text htext => ?_⟩
  apply List.mem_map.mpr
  refine ⟨url, ?_, by rw [htext]; rfl⟩
  rw [Finset.mem_toList, Set.Finite.mem_toFinset]
  exact ⟨text, htext⟩

theorem load_eq_bind (hunread : g.documentId? url = none) :
    load (m := Id) documents limit g url ns =
      Except.bind (Loading.run (m := Id) documents limit (start g url ns))
        fun l => l.finish url g.nodes.size := by
  rw [load_unread documents limit hunread]
  cases Loading.run (m := Id) documents limit (start g url ns) <;> rfl

/-- Steps that have been made can be gone on from, as long as there are any. -/
theorem exists_maximalRun
    (hreach : ReflTransGen (Advances documents url g.nodes.size) (Course.start g url ns) c) :
    ∃ run, MaximalRun documents g url ns run ∧ ∃ n, run n = c := by
  suffices hrun : ∃ run : Nat → Course, run 0 = Course.start g url ns ∧
      (∀ n, Advances documents url g.nodes.size (run n) (run (n + 1)) ∨
        run (n + 1) = run n ∧ ∀ c, ¬ Advances documents url g.nodes.size (run n) c) ∧
      ∃ n, run n = c by
    obtain ⟨run, hstart, hgoesOn, hn⟩ := hrun
    exact ⟨run, ⟨hstart, hgoesOn⟩, hn⟩
  generalize Course.start g url ns = c₀ at hreach
  induction hreach using ReflTransGen.head_induction_on with
  | refl =>
    have hnext : ∀ c, ∃ c', Advances documents url g.nodes.size c c' ∨
        c' = c ∧ ∀ c', ¬ Advances documents url g.nodes.size c c' := by
      intro c
      by_cases hstep : ∃ c', Advances documents url g.nodes.size c c'
      · exact hstep.imp fun _ => Or.inl
      · exact ⟨c, Or.inr ⟨rfl, not_exists.mp hstep⟩⟩
    choose next hnext using hnext
    refine ⟨fun n => next^[n] c, rfl, fun n => ?_, 0, rfl⟩
    have hsucc : next^[n + 1] c = next (next^[n] c) := Function.iterate_succ_apply' next n c
    show Advances documents url g.nodes.size (next^[n] c) (next^[n + 1] c) ∨
      next^[n + 1] c = next^[n] c ∧ ∀ c', ¬ Advances documents url g.nodes.size (next^[n] c) c'
    rw [hsucc]
    exact hnext _
  | @head c₀ c₁ hstep _ ih =>
    obtain ⟨run, hstart, hgoesOn, n, hn⟩ := ih
    refine ⟨Stream'.cons c₀ run, rfl, fun k => ?_, n + 1, hn⟩
    cases k with
    | zero =>
      rw [← hstart] at hstep
      exact Or.inl hstep
    | succ k => exact hgoesOn k

/-- If one maximal run ends, they all do, and with the same result: the same namespace and graph, or
the same error and graph. If finitely many URLs have documents, they do end, and the result is that
of a load that fetches one document after the other. -/
theorem load_ignores_latency (documents : String → Except FetchFault String) (g : Graph)
    (url : String) (ns : Option String) :
    (∀ run run' result, MaximalRun documents g url ns run → MaximalRun documents g url ns run' →
      EndsWith run result → EndsWith run' result) ∧
    ({url | ∃ text, documents url = .ok text}.Finite → ∃ result,
      (∃ enough, ∀ limit, enough ≤ limit →
        load (m := Id) documents limit g url ns = result) ∧
      ∀ run, MaximalRun documents g url ns run → EndsWith run result) := by
  cases hread : g.documentId? url with
  | some id =>
    have hall : ∀ run, MaximalRun documents g url ns run →
        EndsWith run (.ok (g, (g.documentAt id).ns)) := fun run h => h.endsWith_of_read hread
    constructor
    · intro run run' result h h' hresult
      obtain ⟨n, hn⟩ := hresult
      obtain ⟨k, hk⟩ := hall run h
      have heq := (hn _ (Nat.le_max_left n k)).symm.trans (hk _ (Nat.le_max_right n k))
      cases heq
      exact hall run' h'
    · intro _
      refine ⟨_, ⟨0, fun limit _ => ?_⟩, hall⟩
      rw [load, hread]
      rfl
  | none =>
    constructor
    · intro run run' result h h' hresult
      obtain ⟨n, hn⟩ := hresult
      have haccounted := h.accounted hread n
      rw [hn n (Nat.le_refl n)] at haccounted
      obtain ⟨outcome, hends, rfl⟩ := haccounted
      exact h'.endsWith_of_ends hread hends
    · intro hfinite
      obtain ⟨shelf, hholds⟩ := exists_holds hfinite
      have horderly := orderly_start g url ns
      have hends := horderly.run_ends_of_holds hholds (Nat.le_refl (remaining shelf _))
      refine ⟨_, ⟨remaining shelf (start g url ns), fun limit hlimit => ?_⟩,
        fun run h => h.endsWith_of_ends hread hends⟩
      rw [load_eq_bind hread, hends.unique (horderly.run_ends_of_holds hholds hlimit)]

/-- A document that includes two others. -/
def splitShelf : Shelf where
  documents :=
    [("split.xsd", "<schema xmlns='http://www.w3.org/2001/XMLSchema' targetNamespace='s'>" ++
        "<include schemaLocation='first.xsd'/><include schemaLocation='second.xsd'/></schema>"),
      ("first.xsd", "<schema xmlns='http://www.w3.org/2001/XMLSchema' targetNamespace='s'>" ++
        "<element name='alpha'/></schema>"),
      ("second.xsd", "<schema xmlns='http://www.w3.org/2001/XMLSchema' targetNamespace='s'>" ++
        "<element name='beta'/></schema>")]

theorem finite_answer (shelf : Shelf) : {url | ∃ text, shelf.answer url = .ok text}.Finite := by
  refine (shelf.documents.map Prod.fst).finite_toSet.subset ?_
  rintro url ⟨text, htext⟩
  exact List.mem_map.mpr ⟨(url, text), shelf.mem_of_answer url htext, rfl⟩

set_option maxRecDepth 100000 in
/-- The second of the two documents is there first. -/
theorem overtakes_splitShelf : ∃ (first second : Request) (answer : Except FetchFault String)
    (f : Flight), f.outstanding = [⟨first, none⟩, ⟨second, some answer⟩] ∧
      ReflTransGen (Advances splitShelf.answer "split.xsd" (Graph.initial .standard).nodes.size)
        (Course.start (Graph.initial .standard) "split.xsd" none) (.running f) := by
  have heval : ((({ graph := Graph.initial .standard, queued := ["split.xsd"] } : Loading).receive
      (.entry "split.xsd" none) (splitShelf.answer "split.xsd")).toOption.map fun l =>
        l.pending.map Request.url) = some ["first.xsd", "second.xsd"] :=
    receive_of_letters (.append (.ok _) _) (by decide +kernel)
  set entry := Request.entry "split.xsd" none
  obtain ⟨l, hreceive, hurls⟩ := Sequencing.eq_ok_of_toOption heval
  obtain ⟨first, rest, hpending, _, hrest⟩ := List.map_eq_cons_iff.mp hurls
  obtain ⟨second, rest, rfl, _, hnil⟩ := List.map_eq_cons_iff.mp hrest
  cases List.map_eq_nil_iff.mp hnil
  have hlaunch : (l.launch []).outstanding = [⟨first, none⟩] ++ ⟨second, none⟩ :: [] := by
    simp [launch, hpending]
  refine ⟨first, second, splitShelf.answer second.url, { l.launch [] with
    outstanding := [⟨first, none⟩, ⟨second, some (splitShelf.answer second.url)⟩] }, rfl, ?_⟩
  rw [course_start (documentId?_initial _ _), start_initial]
  have hbegun : ({ graph := Graph.initial .standard, pending := [entry], queued := ["split.xsd"] } :
      Loading).launch [] = ⟨Graph.initial .standard, [⟨entry, none⟩], ["split.xsd"], none⟩ := rfl
  rw [hbegun]
  -- the entry is fetched and read, and then the second of its requests is fetched
  have hbegin : Advances splitShelf.answer "split.xsd" (Graph.initial .standard).nodes.size
      (.running ⟨Graph.initial .standard, [] ++ [⟨entry, none⟩], ["split.xsd"], none⟩)
      (.running ⟨Graph.initial .standard, [] ++ [⟨entry, some (splitShelf.answer entry.url)⟩],
        ["split.xsd"], none⟩) := .complete rfl
  have hnext : (⟨Graph.initial .standard, [⟨entry, some (splitShelf.answer "split.xsd")⟩],
      ["split.xsd"], none⟩ : Flight).next? "split.xsd" (Graph.initial .standard).nodes.size =
        some (.running (l.launch [])) := Flight.next?_of_ok rfl hreceive
  exact .tail (.tail (.single hbegin) (.answer hnext)) (.complete hlaunch)

theorem load_ignores_latency_example : ∃ run result,
    MaximalRun splitShelf.answer (Graph.initial .standard) "split.xsd" none run ∧
      (∃ n f first second answer, run n = .running f ∧
        f.outstanding = [⟨first, none⟩, ⟨second, some answer⟩]) ∧
      EndsWith run result ∧ ∃ enough, ∀ limit, enough ≤ limit →
        load (m := Id) splitShelf.answer limit (Graph.initial .standard) "split.xsd" none =
          result := by
  obtain ⟨first, second, answer, f, hf, hreach⟩ := overtakes_splitShelf
  obtain ⟨run, hrun, n, hn⟩ := exists_maximalRun hreach
  obtain ⟨result, hload, hall⟩ := (load_ignores_latency splitShelf.answer (Graph.initial .standard)
    "split.xsd" none).2 (finite_answer splitShelf)
  exact ⟨run, result, hrun, ⟨n, f, first, second, answer, hn, hf⟩, hall run hrun, hload⟩

end Runs

end XsdTypes.Loading
