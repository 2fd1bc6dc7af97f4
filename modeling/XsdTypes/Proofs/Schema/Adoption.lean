import XsdTypes.Proofs.Schema.Placement
import XsdTypes.Proofs.Schema.Prefixes

/-!
# In which namespace a document is read

A document is read in the namespace that its outermost tag names, or else in the one that the request
for it gives it. Which tags of a text are outermost can be told from its events
(`Markup.outermost`). What a document includes or redefines is asked for in the namespace of the
document (`Graph.Issued`).
-/

namespace XsdTypes

open Sequencing

/-- The attributes of the tags that open where no tag is open, if `depth` tags are open before. -/
def Markup.outermost {α : Type} : Nat → List (α × Event) → List (List (String × String))
  | _, [] => []
  | depth, (_, .opened _ attributes) :: items =>
    if depth = 0 then attributes :: outermost 1 items else outermost (depth + 1) items
  | depth, (_, .closed) :: items => outermost (depth - 1) items
  | depth, (_, .text _) :: items => outermost depth items

/-- No outermost tag of the text names a namespace. -/
def IsChameleon (text : String) : Prop :=
  ∀ attributes ∈ Markup.outermost 0 (Markup.stream text.toList).items,
    attributes.lookup "targetNamespace" = none

instance (text : String) : Decidable (IsChameleon text) :=
  inferInstanceAs (Decidable (∀ attributes ∈ _, _))

/-- The request was made within a document, and in the namespace of the document. -/
def Graph.Issued (g : Graph) (request : Request) : Prop :=
  ∃ d, d < g.documents.size ∧ request.origin.map Location.source = some (g.documentAt d).url ∧
    request.ns = some (g.namespaceAt (g.documentAt d).ns).uri

theorem Graph.Issued.mono {g g' : Graph} {request : Request} (h : g.Issued request)
    (hg : g.Catalogued) (hfollows : g.Follows g') : g'.Issued request := by
  obtain ⟨d, hd, hurl, hns⟩ := h
  refine ⟨d, Nat.lt_of_lt_of_le hd hfollows.documents_le, ?_, ?_⟩
  · rw [hfollows.document d hd]
    exact hurl
  · rw [hfollows.document d hd, hfollows.uri _ (hg.ns_lt d hd)]
    exact hns

namespace Reading

variable {request : Request} {g : Graph} {r r' : Reading} {first : Nat}

/-! ## Outermost tags -/

/-- The number of open tags. -/
def depth (r : Reading) : Nat := r.frames.length + r.skipped

theorem Begins.uri {uri : String} {document : Document} (h : r.Begins request r' uri document) :
    (r'.graph.namespaceAt document.ns).uri = uri := by
  rw [Graph.namespaceAt, h.namespaces, ← Graph.namespaceAt, (Graph.addDocument_namespaceAt _ _ _).1,
    h.ns, Graph.register_uri]

theorem closed_depth (hnested : 0 < r.skipped → r.frames ≠ []) :
    r.closed.depth = r.depth - 1 ∧ (0 < r.closed.skipped → r.closed.frames ≠ []) := by
  unfold Reading.closed depth
  split
  · rename_i hskipped
    refine ⟨?_, fun _ => hnested hskipped⟩
    simp only
    omega
  · rename_i hskipped
    split
    · rename_i hframes
      refine ⟨?_, hnested⟩
      rw [hframes, List.length_nil]
      omega
    · rename_i frame frames hframes
      refine ⟨?_, fun hpos => absurd hpos hskipped⟩
      rw [hframes, List.length_cons]
      simp only
      omega

theorem text_depth (hnested : 0 < r.skipped → r.frames ≠ []) (content : String) :
    (r.text content).depth = r.depth ∧ (0 < (r.text content).skipped → (r.text content).frames ≠ []) := by
  unfold Reading.text
  split
  · exact ⟨rfl, hnested⟩
  · split
    · exact ⟨rfl, hnested⟩
    · exact ⟨rfl, hnested⟩

/-- An event goes on with a document, or begins one with an outermost tag. -/
theorem step_outermost (hnested : 0 < r.skipped → r.frames ≠ []) {item : Position × Markup.Event}
    (hok : step request r item = .ok r') : (0 < r'.skipped → r'.frames ≠ []) ∧
    ((r.Continues r' ∧ ∀ items, Markup.outermost r.depth (item :: items) =
        Markup.outermost r'.depth items) ∨
      ∃ attributes document,
        r.Begins request r' (documentUri request (attributes.lookup "targetNamespace")) document ∧
        ∀ items, Markup.outermost r.depth (item :: items) =
          attributes :: Markup.outermost r'.depth items) := by
  obtain ⟨position, event⟩ := item
  cases event with
  | opened name attributes =>
    rw [step_opened] at hok
    have hinner : 0 < r.depth → r'.depth = r.depth + 1 → ∀ items,
        Markup.outermost r.depth ((position, .opened name attributes) :: items) =
          Markup.outermost r'.depth items := by
      intro hpos hdepth items
      rw [Markup.outermost, if_neg (by omega), hdepth]
    rcases opened_eq_ok hok with ⟨hframes, hzero, rfl⟩ | ⟨hin, diagnostics, rfl⟩ |
      ⟨f, frames, tag, hframes, hzero, _, hopen⟩
    · have hdepth : r.depth = 0 := by simp [depth, hframes, hzero]
      obtain ⟨document, hbegins⟩ :=
        openSchema_begins (r.within attributes) request position (plainAttributes attributes)
      rw [lookup_plainAttributes (by decide)] at hbegins
      refine ⟨fun _ => List.cons_ne_nil _ _, Or.inr ⟨attributes, document, ?_, fun items => ?_⟩⟩
      · exact ⟨hbegins.url, hbegins.ns, hbegins.documents, hbegins.namespaces, hbegins.current,
          hbegins.requests⟩
      · have hone : (openSchema request
            ((r.within attributes).addTagNode none .schema position (plainAttributes attributes)).1
            ((r.within attributes).addTagNode none .schema position (plainAttributes attributes)).2
            (plainAttributes attributes)).depth = 1 := by
          simp [depth, openSchema, addTagNode, within, hframes, hzero]
        rw [Markup.outermost, if_pos hdepth, hone]
    · have hframes : r.frames ≠ [] := hin.elim id hnested
      have hpos := List.length_pos_iff.mpr hframes
      refine ⟨fun _ => hframes, Or.inl ⟨⟨rfl, rfl, rfl⟩, hinner ?_ ?_⟩⟩
      · unfold depth
        omega
      · rfl
    · obtain ⟨hcontinues, _⟩ := openTag_continues hopen
      obtain ⟨e, own, g, _, _, rfl⟩ := openTag_eq_ok hopen
      refine ⟨fun _ => List.cons_ne_nil _ _, Or.inl ⟨⟨hcontinues.documents, hcontinues.namespaces,
        hcontinues.current⟩, hinner ?_ ?_⟩⟩
      · simp [depth, hframes]
      · simp [depth, within, addTagNode]
        omega
  | closed =>
    cases hok
    obtain ⟨hdepth, hnested'⟩ := closed_depth hnested
    refine ⟨hnested', Or.inl ⟨r.closed_listens.continues, fun items => ?_⟩⟩
    rw [Markup.outermost, hdepth]
  | text content =>
    cases hok
    obtain ⟨hdepth, hnested'⟩ := text_depth hnested content
    refine ⟨hnested', Or.inl ⟨(r.text_listens content).continues, fun items => ?_⟩⟩
    rw [Markup.outermost, hdepth]

/-- The documents that are new after some events are in namespaces that outermost tags give them. -/
theorem run_outermost {items : List (Position × Markup.Event)} (hr : r.graph.Catalogued)
    (hnested : 0 < r.skipped → r.frames ≠ []) (hok : items.foldlM (step request) r = .ok r') :
    r.graph.Follows r'.graph ∧ ∀ d, r.graph.documents.size ≤ d → d < r'.graph.documents.size →
      ∃ attributes ∈ Markup.outermost r.depth items,
        (r'.graph.namespaceAt (r'.graph.documentAt d).ns).uri =
          documentUri request (attributes.lookup "targetNamespace") := by
  induction items generalizing r with
  | nil =>
    cases hok
    exact ⟨.refl _, fun d hd hlt => absurd hlt (Nat.not_lt.mpr hd)⟩
  | cons item items ih =>
    rw [List.foldlM_cons] at hok
    obtain ⟨r₁, hstep, hrest⟩ := bind_eq_ok.mp hok
    obtain ⟨hnested₁, ⟨hcontinues, houtermost⟩ | ⟨attributes, document, hbegins, houtermost⟩⟩ :=
      step_outermost hnested hstep
    · have hr₁ : r₁.graph.Catalogued := hr.congr hcontinues.documents (by rw [hcontinues.namespaces])
        fun i => by rw [Graph.namespaceAt, hcontinues.namespaces, Graph.namespaceAt]
      obtain ⟨hfollows, hnew⟩ := ih hr₁ hnested₁ hrest
      rw [hcontinues.documents, ← houtermost] at hnew
      exact ⟨(Graph.Follows.of_eq hcontinues.documents hcontinues.namespaces).trans hfollows, hnew⟩
    · have hr₁ := hbegins.catalogued hr
      obtain ⟨hfollows, hnew⟩ := ih hr₁ hnested₁ hrest
      refine ⟨hbegins.follows.trans hfollows, fun d hd hlt => ?_⟩
      rw [houtermost]
      rcases Nat.lt_or_eq_of_le hd with hlater | rfl
      · obtain ⟨attributes', hmem, huri⟩ := hnew d (by rw [hbegins.documents_size]; exact hlater) hlt
        exact ⟨attributes', List.mem_cons_of_mem _ hmem, huri⟩
      -- the document that begins stays in its namespace
      · have hlt₁ : r.graph.documents.size < r₁.graph.documents.size := by
          rw [hbegins.documents_size]
          exact Nat.lt_succ_self _
        have hself : r₁.graph.documentAt r.graph.documents.size = document := by
          rw [hbegins.documentAt, if_pos rfl]
        refine ⟨attributes, List.mem_cons_self, ?_⟩
        rw [hfollows.document _ hlt₁, hfollows.uri _ (hr₁.ns_lt _ hlt₁), hself, hbegins.uri]

/-- A document without a target namespace is in the namespace that the request gives it. -/
theorem read_chameleon {g' : Graph} {parsed : Parsed} {text : String} (hg : g.Catalogued)
    (hok : Reading.read request g text = .ok (g', parsed)) (hchameleon : IsChameleon text)
    {d : DocumentId} (hd : g.documents.size ≤ d) (hlt : d < g'.documents.size) :
    (g'.namespaceAt (g'.documentAt d).ns).uri = documentUri request none := by
  unfold Reading.read readStream at hok
  obtain ⟨r, hr, hfinish⟩ := bind_eq_ok.mp hok
  obtain ⟨rfl, _, _⟩ := finish_eq_ok hfinish
  obtain ⟨attributes, hmem, huri⟩ :=
    (run_outermost (r := { graph := g }) hg (fun hpos => absurd hpos (Nat.lt_irrefl 0)) hr).2 d hd hlt
  rw [huri, hchameleon attributes hmem]

/-! ## What a document asks for -/

theorem request_of_isActive {s : Site} {e : Effect} (hactive : Site.isActive s.tag = true)
    (heffect : s.plan.effect = .ok e) : e.request = none := by
  cases htag : s.tag
  case element =>
    obtain ⟨_, _, _, _, _, rfl, _⟩ := Site.plan_element htag heffect
    rfl
  case attr =>
    obtain ⟨_, _, _, _, _, _, rfl⟩ := Site.plan_attr htag heffect
    rfl
  case complexType | simpleType =>
    obtain ⟨payload, hplan⟩ := Site.plan_type (s := s) (by rw [htag]; simp)
    rw [hplan] at heffect
    obtain ⟨_, rfl, _⟩ := Site.typeDefinition_effect heffect
    rfl
  case extension | restriction =>
    obtain ⟨_, _, rfl⟩ := Site.plan_derivation (by rw [htag]; simp) heffect
    rfl
  case enumeration =>
    obtain ⟨_, _, rfl⟩ := Site.plan_enumeration htag heffect
    rfl
  case list =>
    obtain ⟨_, _, rfl⟩ := Site.plan_list htag heffect
    rfl
  case union =>
    obtain ⟨_, _, rfl⟩ := Site.plan_union htag heffect
    rfl
  case sequence | choice | all =>
    obtain ⟨_, _, _, rfl⟩ := Site.plan_particle (by rw [htag]; simp) heffect
    rfl
  case group | attrGroup =>
    obtain ⟨definition, reference, hplan⟩ := Site.plan_groups (s := s) (by rw [htag]; simp)
    rw [hplan] at heffect
    rcases Site.group_effect heffect with ⟨_, _, _, rfl⟩ | ⟨_, _, _, _, rfl, _⟩ <;> rfl
  all_goals
    rw [htag] at hactive
    cases hactive

/-- Only a tag that refers to another document asks for one. Its location is resolved from where the
tag stands. -/
theorem plan_request {s : Site} {e : Effect} {q : Request} (heffect : s.plan.effect = .ok e)
    (hq : e.request = some q) :
    (s.tag = .importDoc ∨ s.tag = .includeDoc ∨ s.tag = .redefineDoc) ∧
      q.origin = some s.place ∧ (q.route ≠ .imported → q.ns = some s.uri) ∧
      ∃ ns location, s.plan.payload = .documentRef ns (some location) ∧
        q.url = Place.resolve s.place.source location := by
  by_cases hactive : Site.isActive s.tag = false
  · rcases Site.plan_inactive_cases hactive with ⟨route, hplan, htag⟩ | ⟨marksMixed, hplan⟩
    · rw [hplan] at heffect ⊢
      simp only [Site.documentRef] at heffect ⊢
      split at heffect
      · split at heffect
        · cases heffect
          cases hq
        · cases heffect
      · rename_i location hlocation
        cases heffect
        cases hq
        refine ⟨htag, rfl, fun hroute => by simp only [if_neg hroute], s.attribute? "namespace",
          location, ?_, rfl⟩
        rw [hlocation]
    · rw [hplan] at heffect
      cases heffect
      cases hq
  · rw [request_of_isActive (by simpa using hactive) heffect] at hq
    cases hq

theorem eq_schema_of_mayContain {p tag : Tag} (hmay : p.mayContain tag)
    (htag : tag = .importDoc ∨ tag = .includeDoc ∨ tag = .redefineDoc) : p = .schema := by
  rcases htag with rfl | rfl | rfl <;> cases p <;> first | rfl | cases hmay

/-- An open `schema` tag is that of the document, and what the document includes or redefines is asked
for in its namespace. -/
structure Issues (r : Reading) : Prop where
  schema : ∀ f ∈ r.frames, f.tag = .schema → ∃ d, r.document = some d ∧
    f.scope = (r.graph.namespaceAt (r.graph.documentAt d).ns).root
  requests : ∀ q ∈ r.requests, q.route ≠ .imported → r.graph.Issued q

namespace Issues

/-- No document begins. -/
theorem continues (h : r.Issues) (hr : r.graph.Catalogued) (hcontinues : r.Continues r')
    (hframes : ∀ f ∈ r'.frames, f ∈ r.frames ∨ f.tag ≠ .schema)
    (hrequests : ∀ q ∈ r'.requests, q ∈ r.requests ∨ (q.route ≠ .imported → r.graph.Issued q)) :
    r'.Issues := by
  have hfollows := Graph.Follows.of_eq hcontinues.documents hcontinues.namespaces
  refine ⟨fun f hf htag => ?_, fun q hq hroute => ?_⟩
  · obtain ⟨d, hd, hscope⟩ := h.schema f ((hframes f hf).resolve_right fun hne => hne htag) htag
    refine ⟨d, hcontinues.current.trans hd, ?_⟩
    rw [hscope, Graph.namespaceAt, Graph.documentAt, Graph.namespaceAt, Graph.documentAt,
      hcontinues.documents, hcontinues.namespaces]
  · rcases hrequests q hq with hold | hnew
    · exact (h.requests q hold hroute).mono hr hfollows
    · exact (hnew hroute).mono hr hfollows

/-- A tag that refers to another document stands in the document that is read. -/
theorem issued (h : r.Issues) (hintact : r.Intact first) (hfiles : r.Files request g) {f : Frame}
    (hf : f ∈ r.frames) {tag : Tag} (hmay : f.tag.mayContain tag) {position : Position}
    {attributes : List (String × String)} {e : Effect} {q : Request}
    (heffect : (siteOf request (r.addTagNode (some f) tag position attributes).1 r.graph.nodes.size f tag
      position attributes).plan.effect = .ok e) (hq : e.request = some q) (hroute : q.route ≠ .imported) :
    r.graph.Issued q := by
  obtain ⟨htag, horigin, hns, _⟩ := plan_request heffect hq
  obtain ⟨d, hd, hscope⟩ := h.schema f hf (eq_schema_of_mayContain hmay htag)
  obtain ⟨hnew, hlt⟩ := hfiles.current d hd
  refine ⟨d, hlt, ?_, ?_⟩
  · rw [horigin, hfiles.url d hnew hlt]
    rfl
  · have hroot := hintact.graph.sound.registry.root_ns _ (hintact.graph.catalogued.ns_lt d hlt)
    rw [hns hroute]
    change some ((r.addTagNode (some f) tag position attributes).1.graph.targetUri r.graph.nodes.size) = _
    rw [Graph.targetUri, nodeAt_addTagNode (hintact.stands f hf)]
    change some (r.graph.namespaceAt (r.graph.scopeAt f.scope).ns).uri = _
    rw [hscope, hroot]

theorem step (h : r.Issues) (hintact : r.Intact first) (hfiles : r.Files request g)
    {item : Position × Markup.Event} (hok : Reading.step request r item = .ok r') : r'.Issues := by
  have hr := hintact.graph.catalogued
  have hlistens : r.Listens r' → r'.Issues := fun hlistens =>
    h.continues hr hlistens.continues (fun f hf => Or.inl (hlistens.frames hf))
      fun q hq => Or.inl (hlistens.requests ▸ hq)
  obtain ⟨position, event⟩ := item
  cases event with
  | opened name attributes =>
    rw [step_opened] at hok
    rcases opened_eq_ok hok with ⟨hframes, hzero, rfl⟩ | ⟨hin, diagnostics, rfl⟩ |
      ⟨f, frames, tag, hframes, hzero, hmay, hopen⟩
    · obtain ⟨node, document, hopens⟩ := openSchema_opens (r := r.within attributes) hintact.graph.sound
        hintact.graph.schemaNamespace_lt request position (plainAttributes attributes)
      obtain ⟨_, hbegins⟩ :=
        openSchema_begins (r.within attributes) request position (plainAttributes attributes)
      refine ⟨fun f hf htag => ?_, fun q hq hroute => ?_⟩
      · rw [hopens.frames] at hf
        rcases List.mem_cons.mp hf with rfl | hold
        · exact ⟨_, hbegins.current, by rw [hopens.documentAt]; exact hopens.scope⟩
        · rw [within, hframes] at hold
          cases hold
      · rw [hbegins.requests] at hq
        exact (h.requests q hq hroute).mono hr hbegins.follows
    · exact h.continues hr ⟨rfl, rfl, rfl⟩ (fun f hf => Or.inl hf) fun q hq => Or.inl hq
    · have hf : f ∈ (r.within attributes).frames := by
        rw [within, hframes]
        exact List.mem_cons_self
      obtain ⟨hcontinues, _⟩ := openTag_continues hopen
      obtain ⟨e, own, g', heffect, _, rfl⟩ := openTag_eq_ok hopen
      refine h.continues hr ⟨hcontinues.documents, hcontinues.namespaces, hcontinues.current⟩
        (fun f' hf' => ?_) fun q hq => ?_
      · rcases List.mem_cons.mp hf' with rfl | hold
        · refine Or.inr fun htag => ?_
          cases htag
          rw [not_mayContain_schema] at hmay
          cases hmay
        · exact Or.inl hold
      · rcases List.mem_append.mp hq with hold | hnew
        · exact Or.inl hold
        · refine Or.inr fun hroute => ?_
          exact issued (r := r.within attributes) ⟨h.schema, h.requests⟩
            ⟨hintact.graph, hintact.stands, hintact.outer⟩ ⟨hfiles.follows, hfiles.url, hfiles.current⟩
            hf hmay heffect (Option.mem_toList.mp hnew) hroute
  | closed =>
    cases hok
    exact hlistens r.closed_listens
  | text content =>
    cases hok
    exact hlistens (r.text_listens content)

end Issues

/-- What a document includes or redefines is asked for in its namespace. -/
theorem read_issues {g' : Graph} {parsed : Parsed} {text : String} (hg : g.Intact first)
    (hok : Reading.read request g text = .ok (g', parsed)) {q : Request} (hq : q ∈ parsed.requests)
    (hroute : q.route ≠ .imported) : g'.Issued q := by
  unfold Reading.read readStream at hok
  obtain ⟨r, hr, hfinish⟩ := bind_eq_ok.mp hok
  obtain ⟨rfl, _, hrequests⟩ := finish_eq_ok hfinish
  have hkept : r.Intact first ∧ r.Files request g ∧ r.Issues := by
    refine foldlM_keeps (P := fun r => r.Intact first ∧ r.Files request g ∧ r.Issues)
      (fun r item _ r' hr hstep => ⟨?_, hr.2.1.step hstep, hr.2.2.step hr.1 hr.2.1 hstep⟩)
      ⟨Intact.start hg, Files.start request g, fun _ hf => absurd hf List.not_mem_nil,
        fun _ hq => absurd hq List.not_mem_nil⟩ hr
    have hintact := hr.1.step request item
    rw [hstep] at hintact
    exact hintact
  rw [hrequests] at hq
  exact hkept.2.2.requests q hq hroute

end Reading

end XsdTypes
