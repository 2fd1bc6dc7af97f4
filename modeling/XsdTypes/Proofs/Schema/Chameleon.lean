import XsdTypes.Proofs.Schema.Overlay

/-!
# Documents without a namespace of their own

A document that names no namespace takes over the one it is asked for in. It then reads as if this
namespace were written out on its outermost tag, as the target namespace and as the default namespace:
names are declared in the same namespace and in the same scope, names without a prefix mean the same
all over the document, and it asks for the same documents. Only the attributes of the outermost tag,
which its node keeps as written, tell the two apart.
-/

namespace XsdTypes

open Sequencing

namespace Reading

/-- The attributes name neither a target namespace nor a default namespace. -/
def Silent (attributes : List (String × String)) : Prop :=
  ∀ a ∈ attributes, a.1 ≠ "targetNamespace" ∧ boundPrefix? a.1 ≠ some ""

/-- The attributes are written with `uri` as the target namespace and the default namespace added to
them, wherever this is. -/
structure WrittenOut (uri : String) (attributes written : List (String × String)) : Prop where
  target : ("targetNamespace", uri) ∈ written
  default : ("xmlns", uri) ∈ written
  others : written.filter (fun a => a ∉ [("targetNamespace", uri), ("xmlns", uri)]) = attributes

variable {request : Request} {g : Graph} {uri : String} {attributes written : List (String × String)}

/-! ## What the attributes say -/

namespace WrittenOut

theorem mem (h : WrittenOut uri attributes written) {a : String × String} (ha : a ∈ written) :
    a = ("targetNamespace", uri) ∨ a = ("xmlns", uri) ∨ a ∈ attributes := by
  by_cases hadded : a ∈ [("targetNamespace", uri), ("xmlns", uri)]
  · rcases List.mem_cons.mp hadded with htarget | hdefault
    · exact Or.inl htarget
    · exact Or.inr (Or.inl (List.mem_singleton.mp hdefault))
  · refine Or.inr (Or.inr ?_)
    rw [← h.others]
    exact List.mem_filter.mpr ⟨ha, decide_eq_true hadded⟩

theorem lookup_target (h : WrittenOut uri attributes written) (hsilent : Silent attributes) :
    written.lookup "targetNamespace" = some uri := by
  cases hlookup : written.lookup "targetNamespace" with
  | none =>
    have habsent := List.lookup_eq_none_iff.mp hlookup _ h.target
    simp at habsent
  | some value =>
    obtain ⟨l₁, l₂, heq, _⟩ := List.lookup_eq_some_iff.mp hlookup
    have hmem : ("targetNamespace", value) ∈ written := by
      rw [heq]
      exact List.mem_append_right _ List.mem_cons_self
    rcases h.mem hmem with htarget | hdefault | hother
    · rw [(Prod.mk.inj htarget).2]
    · exact absurd (Prod.mk.inj hdefault).1 (by decide)
    · exact absurd rfl (hsilent _ hother).1

theorem lookup_other (h : WrittenOut uri attributes written) {key : String}
    (htarget : key ≠ "targetNamespace") (hdefault : key ≠ "xmlns") :
    written.lookup key = attributes.lookup key := by
  rw [← h.others]
  refine (lookup_filter (fun value => ?_) written).symm
  simp [htarget, hdefault]

theorem boundPrefix?_target : boundPrefix? "targetNamespace" = none := by decide

theorem declaredOn_default (h : WrittenOut uri attributes written) (hsilent : Silent attributes) :
    declaredOn "" written = some uri := by
  unfold declaredOn
  cases hfind : written.reverse.find? fun a => boundPrefix? a.1 = some "" with
  | none =>
    have habsent := List.find?_eq_none.mp hfind _ (List.mem_reverse.mpr h.default)
    exact absurd rfl habsent
  | some a =>
    have hbound : boundPrefix? a.1 = some "" := by simpa using List.find?_some hfind
    rcases h.mem (List.mem_reverse.mp (List.mem_of_find?_eq_some hfind)) with rfl | rfl | hother
    · rw [boundPrefix?_target] at hbound
      cases hbound
    · rfl
    · exact absurd hbound (hsilent a hother).2

theorem declaredOn_other (h : WrittenOut uri attributes written) {pfx : String} (hpfx : pfx ≠ "") :
    declaredOn pfx written = declaredOn pfx attributes := by
  unfold declaredOn
  rw [← h.others, ← List.filter_reverse, List.find?_filter]
  refine congrArg (Option.map Prod.snd) (List.find?_congr fun a _ => ?_)
  by_cases hadded : a ∈ [("targetNamespace", uri), ("xmlns", uri)]
  · -- what is added binds no prefix but the empty one
    have hnot : boundPrefix? a.1 ≠ some pfx := by
      rcases List.mem_cons.mp hadded with rfl | hdefault
      · simp [boundPrefix?_target]
      · rw [List.mem_singleton.mp hdefault]
        exact fun hbound => hpfx (Option.some.inj hbound).symm
    simp [hadded, hnot]
  · simp [hadded]

end WrittenOut

theorem Silent.declaredOn_default (h : Silent attributes) : declaredOn "" attributes = none := by
  rw [declaredOn, Option.map_eq_none_iff, List.find?_eq_none]
  intro a ha hbound
  exact (h a (List.mem_reverse.mp ha)).2 (of_decide_eq_true hbound)

theorem Silent.lookup_target (h : Silent attributes) : attributes.lookup "targetNamespace" = none := by
  rw [List.lookup_eq_none_iff]
  intro a ha
  simpa using (h a ha).1.symm

/-! ## The outermost tag -/

/-- The prefixes mean the same within the outermost tag. -/
theorem WrittenOut.agree (h : WrittenOut uri attributes written) (hsilent : Silent attributes)
    (b : Bindings) : ((bindAll b attributes).bind "" uri).Agree (bindAll b written) := by
  rw [bindAll_eq, bindAll_eq]
  refine .cons (fun pfx => ?_) (List.forall₂_same.mpr fun _ _ _ => rfl)
  change ((("", uri) :: (declarations attributes).reverse).lookup pfx) =
    (declarations written).reverse.lookup pfx
  rw [List.lookup_cons, lookup_declarations, lookup_declarations]
  by_cases hpfx : pfx = ""
  · rw [hpfx, h.declaredOn_default hsilent]
    rfl
  · have hne : (pfx == "") = false := beq_eq_false_iff_ne.mpr hpfx
    rw [hne, h.declaredOn_other hpfx]

/-- A name with a prefix means the same on the outermost tag. -/
theorem WrittenOut.resolve (h : WrittenOut uri attributes written) (b : Bindings)
    {name pfx localName : String} (hname : Text.splitOnce ':' (Text.trim name) = some (pfx, localName))
    (hpfx : pfx ≠ "") : (bindAll b written).resolve name = (bindAll b attributes).resolve name := by
  have hlookup : (bindAll b written).lookup pfx = (bindAll b attributes).lookup pfx := by
    rw [lookup_bindAll, lookup_bindAll, h.declaredOn_other hpfx]
  have hne : pfx.isEmpty = false := by simpa using hpfx
  simp only [Bindings.resolve, hname, hne, hlookup]
  rfl

/-- What the outermost tag does depends on its attributes by the namespace and the defaults for local
names. -/
theorem openSchema_congr (r : Reading) (id : NodeId)
    (huri : documentUri request (written.lookup "targetNamespace") =
      documentUri request (attributes.lookup "targetNamespace"))
    (helement : written.lookup "elementFormDefault" = attributes.lookup "elementFormDefault")
    (hattribute : written.lookup "attributeFormDefault" = attributes.lookup "attributeFormDefault") :
    openSchema request r id written =
      { openSchema request r id attributes with
        bindings := adopt r.bindings (written.lookup "targetNamespace")
          (documentUri request (written.lookup "targetNamespace")) } := by
  simp only [openSchema, huri, helement, hattribute]

/-- The node with the number `id` has the attributes as they are written out, and nothing else
differs. -/
def rewritten (id : NodeId) (written : List (String × String)) : Overlay where
  written n attributes := if n = id then plainAttributes written else attributes

theorem overlay_rewritten (g : Graph) (written : List (String × String)) :
    g.overlay (rewritten g.nodes.size written) = g := by
  have hnodes : (g.overlay (rewritten g.nodes.size written)).nodes = g.nodes := by
    apply Array.ext
    · simp
    · intro i hi hi'
      have hne : i ≠ g.nodes.size := Nat.ne_of_lt hi'
      simp [Graph.overlay, rewritten, hne]
  exact congrArg (fun nodes => { g with nodes := nodes }) hnodes

theorem addNode_rewritten (g : Graph) (node : Node) (written : List (String × String)) :
    (g.addNode node).1.overlay (rewritten g.nodes.size written) =
      (g.addNode { node with attributes := plainAttributes written }).1 := by
  have hold := congrArg Graph.nodes (overlay_rewritten g written)
  simp only [Graph.overlay] at hold
  simp only [Graph.overlay, Graph.addNode, Array.mapIdx_push, hold]
  simp [rewritten]

theorem spares_rewritten {id : NodeId} (hid : id < g.nodes.size) (written : List (String × String)) :
    g.Spares (rewritten id written) := by
  intro n attributes hn
  have hne : n ≠ id := Nat.ne_of_gt (Nat.lt_of_lt_of_le hid hn)
  simp [rewritten, hne]

theorem modifyNode_rewritten (g : Graph) (id : NodeId) (written : List (String × String)) :
    g.overlay (rewritten id written) =
      g.modifyNode id fun n => { n with attributes := plainAttributes written } := by
  have hnodes : (g.overlay (rewritten id written)).nodes =
      (g.modifyNode id fun n => { n with attributes := plainAttributes written }).nodes := by
    apply Array.ext
    · simp
    · intro i hi hi'
      by_cases heq : i = id
      · simp [Graph.overlay, rewritten, Graph.modifyNode, Array.getElem_modify, heq]
      · have hne : id ≠ i := fun h => heq h.symm
        simp [Graph.overlay, rewritten, Graph.modifyNode, Array.getElem_modify, heq, hne]
  exact congrArg (fun nodes => { g with nodes := nodes }) hnodes

/-- The outermost tag does the same with the namespace it takes over as with the same namespace
written out. -/
theorem WrittenOut.root (h : WrittenOut uri attributes written) (hsilent : Silent attributes)
    (hroute : request.route ≠ .imported) (hns : request.ns = some uri) (huri : uri ≠ "") (g : Graph)
    (position : Position) {entered entered' : Reading × NodeId}
    (hentered : (within { graph := g } attributes).addTagNode none .schema position
      (plainAttributes attributes) = entered)
    (hentered' : (within { graph := g } written).addTagNode none .schema position
      (plainAttributes written) = entered') :
    Matches (rewritten g.nodes.size written)
      (.ok (openSchema request entered.1 entered.2 (plainAttributes attributes)))
      (.ok (openSchema request entered'.1 entered'.2 (plainAttributes written))) := by
  have htarget : (plainAttributes written).lookup "targetNamespace" = some uri := by
    rw [lookup_plainAttributes boundPrefix?_target, h.lookup_target hsilent]
  have hnone : (plainAttributes attributes).lookup "targetNamespace" = none := by
    rw [lookup_plainAttributes boundPrefix?_target, hsilent.lookup_target]
  have htaken : documentUri request none = uri := by simp [documentUri, hroute, hns]
  have hsame : documentUri request (some uri) = documentUri request none := by
    rw [htaken]
    rfl
  have hother : ∀ key, boundPrefix? key = none → key ≠ "targetNamespace" → key ≠ "xmlns" →
      (plainAttributes written).lookup key = (plainAttributes attributes).lookup key := by
    intro key hplain hkey hkey'
    rw [lookup_plainAttributes hplain, lookup_plainAttributes hplain, h.lookup_other hkey hkey']
  have hunder : entered' =
      (entered.1.under (rewritten g.nodes.size written) (bindAll .initial written), entered.2) := by
    have hnode := addNode_rewritten g
      { Node.ofTag .schema (g.namespaceAt Graph.schemaNamespace).root position with
        attributes := plainAttributes attributes } written
    rw [← hentered, ← hentered']
    exact congrArg (fun graph => (({ graph, bindings := bindAll .initial written } : Reading),
      g.nodes.size)) hnode.symm
  have hdefault : (bindAll .initial attributes).defaultUri = "" := by
    rw [Bindings.defaultUri, lookup_bindAll, hsilent.declaredOn_default]
    rfl
  have hadopts : (openSchema request entered.1 entered.2 (plainAttributes attributes)).bindings =
      (bindAll .initial attributes).bind "" uri := by
    have hbindings : entered.1.bindings = bindAll .initial attributes := by
      rw [← hentered]
      rfl
    change adopt entered.1.bindings _ _ = _
    rw [hbindings, hnone, htaken]
    exact if_pos ⟨rfl, huri, hdefault⟩
  have hkeeps : adopt (bindAll .initial written) (some uri) (documentUri request (some uri)) =
      bindAll .initial written := if_neg fun hadopted => by simpa using hadopted.1
  have hagree : (openSchema request entered.1 entered.2 (plainAttributes attributes)).bindings.Agree
      (bindAll .initial written) := hadopts ▸ h.agree hsilent .initial
  rw [hunder, openSchema_congr (entered.1.under _ _) entered.2 (by rw [htarget, hnone, hsame])
    (hother _ (by decide) (by decide) (by decide)) (hother _ (by decide) (by decide) (by decide)),
    openSchema_under, htarget]
  simp only [under, hkeeps]
  exact .ok hagree

theorem WrittenOut.opens (h : WrittenOut uri attributes written) (hsilent : Silent attributes)
    (hroute : request.route ≠ .imported) (hns : request.ns = some uri) (huri : uri ≠ "")
    {name pfx localName : String} (hname : Text.splitOnce ':' (Text.trim name) = some (pfx, localName))
    (hpfx : pfx ≠ "") (g : Graph) (position : Position) :
    Matches (rewritten g.nodes.size written)
      (Reading.opened request { graph := g } position name attributes)
      (Reading.opened request { graph := g } position name written) := by
  have hrefused : ∀ error, Matches (rewritten g.nodes.size written) (.error ⟨error, g⟩)
      (.error ⟨error, g⟩) := by
    intro error
    have hsame := Matches.error (v := rewritten g.nodes.size written) error g
    rw [overlay_rewritten] at hsame
    exact hsame
  have hresolve : (within { graph := g } written).bindings.resolve name =
      (within { graph := g } attributes).bindings.resolve name := h.resolve .initial hname hpfx
  cases hq : (within { graph := g } attributes).bindings.resolve name with
  | error cause =>
    rw [opened_unbound request position rfl hq, opened_unbound request position rfl (hresolve.trans hq)]
    exact hrefused _
  | ok q =>
    have hhead : (({ graph := g } : Reading).frames.head?.map Frame.tag) = none := rfl
    rw [opened_named request position rfl hq, opened_named request position rfl (hresolve.trans hq), hhead]
    rcases admission_none_cases (Tag.ofQName? q) with henter | hrefuse
    · rw [henter]
      exact h.root hsilent hroute hns huri g position rfl rfl
    · rw [hrefuse]
      exact hrefused _

/-! ## The whole document -/

/-- Nothing is read before a tag has opened. -/
theorem run_outside {r : Reading} (hskipped : r.skipped = 0) (hframes : r.frames = [])
    {items : List (Position × Markup.Event)}
    (hitems : ∀ item ∈ items, ∀ name attributes, item.2 ≠ .opened name attributes) :
    items.foldlM (step request) r = .ok r := by
  induction items with
  | nil => rfl
  | cons item items ih =>
    have hstep : step request r item = .ok r := by
      obtain ⟨position, event⟩ := item
      cases event with
      | opened name attributes => exact absurd rfl (hitems _ List.mem_cons_self name attributes)
      | closed => exact congrArg Except.ok (closed_outermost (by omega) hframes)
      | text content => exact congrArg Except.ok (text_outermost hframes)
    rw [List.foldlM_cons, hstep]
    exact ih fun item hitem => hitems item (List.mem_cons_of_mem _ hitem)

/-- What reading comes to, with other attributes at one node. -/
def relabelled (id : NodeId) (attributes : List (String × String)) :
    Except Halt (Graph × Parsed) → Except Halt (Graph × Parsed)
  | .ok (g, parsed) => .ok (g.modifyNode id fun n => { n with attributes }, parsed)
  | .error halt => .error ⟨halt.error, halt.graph.modifyNode id fun n => { n with attributes }⟩

theorem overlaid_rewritten (id : NodeId) (written : List (String × String))
    (result : Except Halt (Graph × Parsed)) :
    overlaid (rewritten id written) result = relabelled id (plainAttributes written) result := by
  cases result with
  | error halt => simp only [overlaid, Halt.overlay, relabelled, modifyNode_rewritten]
  | ok result => simp only [overlaid, relabelled, modifyNode_rewritten]

/-- The first node of a document is that of its outermost tag. -/
theorem opened_outermost {r : Reading} {position : Position} {name : String}
    (hok : Reading.opened request { graph := g } position name attributes = .ok r) :
    g.nodes.size < r.graph.nodes.size ∧ (r.graph.nodeAt g.nodes.size).tag = .schema := by
  cases hq : (within { graph := g } attributes).bindings.resolve name with
  | error cause =>
    rw [opened_unbound request position rfl hq] at hok
    cases hok
  | ok q =>
    have hhead : (({ graph := g } : Reading).frames.head?.map Frame.tag) = none := rfl
    rw [opened_named request position rfl hq, hhead] at hok
    rcases admission_none_cases (Tag.ofQName? q) with henter | hrefuse
    · rw [henter] at hok
      cases hok
      set entered := (within { graph := g } attributes).addTagNode none .schema position
        (plainAttributes attributes) with hentered
      have hretains := openSchema_retains request entered.1 entered.2 (plainAttributes attributes)
      have hnew : g.nodes.size < entered.1.graph.nodes.size := by
        simp [hentered, addTagNode, within]
      refine ⟨Nat.lt_of_lt_of_le hnew hretains.size, ?_⟩
      rw [hretains.tag _ hnew, hentered]
      exact congrArg Node.tag (Graph.nodeAt_addNode_self g _)
    · rw [hrefuse] at hok
      cases hok

/-- A document with a prefixed outermost tag that names neither a target namespace nor a default one
reads, in the namespace `uri` that it takes over, as it does with this namespace written out as both:
the result is the same, success or error, and so is the graph but for the attributes that the node of
the outermost tag keeps. -/
theorem chameleon_reads_as_declared {uri : String} (hroute : request.route ≠ .imported)
    (hns : request.ns = some uri) (huri : uri ≠ "") (g : Graph) (position : Position)
    {before : List (Position × Markup.Event)} (after : List (Position × Markup.Event))
    (ending : Markup.Ending Position) {name pfx localName : String}
    {attributes written : List (String × String)}
    (hbefore : ∀ item ∈ before, ∀ name attributes, item.2 ≠ .opened name attributes)
    (hname : Text.splitOnce ':' (Text.trim name) = some (pfx, localName)) (hpfx : pfx ≠ "")
    (hsilent : Silent attributes) (hwritten : WrittenOut uri attributes written) :
    readStream request g ⟨before ++ (position, .opened name written) :: after, ending⟩ =
      relabelled g.nodes.size (plainAttributes written)
        (readStream request g ⟨before ++ (position, .opened name attributes) :: after, ending⟩) ∧
    ∀ g' parsed,
      readStream request g ⟨before ++ (position, .opened name attributes) :: after, ending⟩ =
        .ok (g', parsed) → (g'.nodeAt g.nodes.size).tag = .schema := by
  have hread : ∀ attributes,
      readStream request g ⟨before ++ (position, .opened name attributes) :: after, ending⟩ =
        Reading.opened request { graph := g } position name attributes >>= fun r =>
          readOn request r after ending := by
    intro attributes
    rw [readStream_eq, readOn_append (run_outside rfl rfl hbefore), readOn_cons, step_opened]
  have hopens := hwritten.opens hsilent hroute hns huri hname hpfx g position
  have hfirst : ∀ r, Reading.opened request { graph := g } position name attributes = .ok r →
      g.nodes.size < r.graph.nodes.size ∧ (r.graph.nodeAt g.nodes.size).tag = .schema :=
    fun _ hok => opened_outermost hok
  rw [hread, hread]
  generalize Reading.opened request { graph := g } position name attributes = next,
    Reading.opened request { graph := g } position name written = next' at hopens hfirst ⊢
  refine ⟨?_, fun g' parsed hok => ?_⟩
  · rw [← overlaid_rewritten]
    cases hopens with
    | error => rfl
    | ok hagree => exact readOn_under (spares_rewritten (hfirst _ rfl).1 written) hagree after ending
  · obtain ⟨r, hnext, hrest⟩ := bind_eq_ok.mp hok
    obtain ⟨r', hrun, hfinish⟩ := bind_eq_ok.mp hrest
    obtain ⟨hlt, htag⟩ := hfirst r hnext
    rw [(finish_eq_ok hfinish).1, (run_retains hrun).tag _ hlt, htag]

/-- A request for an included document. -/
def inclusion : Request := { url := "part.xsd", route := .included, ns := some "n" }

/-- A type, an element that refers to it by a name without a prefix, and one more request. -/
def partItems : List (Position × Markup.Event) :=
  [(.first, .opened "x:include" [("schemaLocation", "rest.xsd")]), (.first, .closed),
    (.first, .opened "x:complexType" [("name", "t")]), (.first, .closed),
    (.first, .opened "x:element" [("name", "e"), ("type", "t")]), (.first, .closed), (.first, .closed)]

theorem partItems_read : (readStream inclusion (Graph.initial .standard)
    ⟨[(.first, .text " ")] ++ (.first, .opened "x:schema" [("xmlns:x", QName.schemaUri)]) :: partItems,
      .complete .first⟩).toOption.map (fun result => result.2.requests.map Request.ns) =
        some [some "n"] := by
  decide +kernel

theorem chameleon_reads_as_declared_example : ∃ g' parsed,
    readStream inclusion (Graph.initial .standard)
      ⟨[(.first, .text " ")] ++ (.first, .opened "x:schema" [("xmlns:x", QName.schemaUri)]) :: partItems,
        .complete .first⟩ = .ok (g', parsed) ∧
    parsed.requests.map Request.ns = [some "n"] ∧
    readStream inclusion (Graph.initial .standard)
      ⟨[(.first, .text " ")] ++ (.first, .opened "x:schema"
          [("targetNamespace", "n"), ("xmlns:x", QName.schemaUri), ("xmlns", "n")]) :: partItems,
        .complete .first⟩ =
      .ok (g'.modifyNode (Graph.initial .standard).nodes.size
        fun n => { n with attributes := [("targetNamespace", "n")] }, parsed) ∧
    (g'.nodeAt (Graph.initial .standard).nodes.size).tag = .schema := by
  obtain ⟨⟨g', parsed⟩, hok, hrequests⟩ := eq_ok_of_toOption partItems_read
  have hbefore : ∀ item ∈ [((.first : Position), Markup.Event.text " ")], ∀ name attributes,
      item.2 ≠ .opened name attributes := by
    intro item hitem name attributes
    rw [List.mem_singleton.mp hitem]
    exact Markup.Event.noConfusion
  have hsilent : Silent [("xmlns:x", QName.schemaUri)] := by
    intro a ha
    rw [List.mem_singleton.mp ha]
    decide
  have hwritten : WrittenOut "n" [("xmlns:x", QName.schemaUri)]
      [("targetNamespace", "n"), ("xmlns:x", QName.schemaUri), ("xmlns", "n")] :=
    ⟨by decide, by decide, by decide⟩
  have hroute : inclusion.route ≠ .imported := by decide
  have hname : Text.splitOnce ':' (Text.trim "x:schema") = some ("x", "schema") := by decide
  obtain ⟨hsame, hschema⟩ := chameleon_reads_as_declared hroute rfl (by decide) (Graph.initial .standard)
    .first partItems (.complete .first) hbefore hname (by decide) hsilent hwritten
  refine ⟨g', parsed, hok, hrequests, ?_, hschema g' parsed hok⟩
  rw [hsame, hok]
  rfl

end Reading

end XsdTypes
