import XsdTypes.Proofs.Schema.Reading

/-!
# What prefixes mean

A prefix means what the nearest tag around it says. Which tags are open can be told from the events
alone (`Markup.openTags`), and so can what a prefix means there (`Reading.meaning`). While a document
is read, prefixes are looked up in a stack of frames instead, which is kept in step with two other
things: the open tags that are read and the number of those that are passed over. The stack always
holds one frame for each open tag (`Reading.Scoped`), so both say the same.
-/

namespace XsdTypes

open Sequencing

/-- The attributes of the open tags after some events, innermost first, if no end tag is without its
start tag. The tags `around` are open before. -/
def Markup.openTags {α : Type} (around : List (List (String × String))) :
    List (α × Event) → Option (List (List (String × String)))
  | [] => some around
  | (_, .opened _ attributes) :: items => openTags (attributes :: around) items
  | (_, .text _) :: items => openTags around items
  | (_, .closed) :: items =>
    match around with
    | [] => none
    | _ :: around => openTags around items

theorem Markup.openTags_cons {α : Type} (around : List (List (String × String))) (item : α × Event)
    (items : List (α × Event)) :
    openTags around (item :: items) =
      (openTags around [item]).bind fun around => openTags around items := by
  obtain ⟨place, event⟩ := item
  cases event with
  | opened name attributes => rfl
  | text content => rfl
  | closed => cases around <;> rfl

namespace Reading

/-! ## What the tags say -/

/-- What a tag binds a prefix to: its last declaration counts. -/
def declaredOn (pfx : String) (attributes : List (String × String)) : Option String :=
  (attributes.reverse.find? fun a => boundPrefix? a.1 = some pfx).map Prod.snd

/-- The default namespace that a document takes over from the request for it, by the attributes of
its outermost tag. -/
def adoptedDefault (request : Request) (attributes : List (String × String)) : Option String :=
  if request.route = .imported ∨ attributes.lookup "targetNamespace" ≠ none ∨
      (declaredOn "" attributes).getD "" ≠ "" then none
  else request.ns.filter fun uri => uri ≠ ""

/-- What a prefix means within tags. A default namespace that is taken over counts as the last
declaration of the outermost tag. -/
def meaning (request : Request) (pfx : String) : List (List (String × String)) → Option String
  | [] => if pfx = "xml" then some QName.xmlUri else none
  | attributes :: around =>
    (if around = [] ∧ pfx = "" then adoptedDefault request attributes else none).or
      ((declaredOn pfx attributes).or (meaning request pfx around))

/-- The names of a tag are resolved with the bindings `b`: its own name, which decides what becomes
of it, and those in its attributes, if it is read. -/
structure Understood (request : Request) (r : Reading) (position : Position) (name : String)
    (attributes : List (String × String)) (b : Bindings) : Prop where
  unbound : ∀ cause, b.resolve name = .error cause → r.opened request position name attributes =
    .error ⟨.unboundPrefix cause ⟨request.url, position, none⟩, r.graph⟩
  outermost : ∀ q tag, b.resolve name = .ok q → r.frames = [] →
    admission none (Tag.ofQName? q) = .enter tag → ∃ r₁ id, r₁.bindings = b ∧
      r.opened request position name attributes =
        .ok (openSchema request r₁ id (plainAttributes attributes))
  inner : ∀ q tag f frames, b.resolve name = .ok q → r.frames = f :: frames →
    admission (some f.tag) (Tag.ofQName? q) = .enter tag → ∃ r₁ id, r₁.bindings = b ∧
      r.opened request position name attributes =
        openTag request r₁ id f tag position (plainAttributes attributes)

/-! ## What a tag binds -/

variable {request : Request} {g : Graph} {r r' : Reading} {pfx : String} {b : Bindings}
  {attributes : List (String × String)} {tags tags' : List (List (String × String))}

/-- The prefixes that a tag binds, in order. -/
def declarations (attributes : List (String × String)) : List (String × String) :=
  attributes.filterMap fun a => (boundPrefix? a.1).map fun pfx => (pfx, a.2)

theorem bindAll_concat (b : Bindings) (attributes : List (String × String)) (a : String × String) :
    bindAll b (attributes ++ [a]) =
      match boundPrefix? a.1 with
      | some pfx => (bindAll b attributes).bind pfx a.2
      | none => bindAll b attributes := by
  rw [bindAll, List.foldl_concat]
  rfl

theorem bindAll_eq (b : Bindings) (attributes : List (String × String)) :
    bindAll b attributes = ⟨(declarations attributes).reverse, b.top :: b.below⟩ := by
  induction attributes using List.reverseRecOn with
  | nil => rfl
  | append_singleton attributes a ih =>
    rw [bindAll_concat, ih]
    cases hpfx : boundPrefix? a.1 with
    | none => simp [declarations, hpfx]
    | some pfx => simp [declarations, hpfx, Bindings.bind]

theorem lookup_declarations (pfx : String) (attributes : List (String × String)) :
    (declarations attributes).reverse.lookup pfx = declaredOn pfx attributes := by
  rw [declarations, declaredOn, ← List.filterMap_reverse]
  induction attributes.reverse with
  | nil => rfl
  | cons a rest ih =>
    cases hpfx : boundPrefix? a.1 with
    | none => simp [hpfx, ih]
    | some bound =>
      by_cases hbound : bound = pfx
      · simp [hpfx, hbound]
      · have hne : (pfx == bound) = false := by simpa using Ne.symm hbound
        simp [hpfx, hbound, ih, List.lookup_cons, hne]

theorem lookup_bindAll (b : Bindings) (attributes : List (String × String)) (pfx : String) :
    (bindAll b attributes).lookup pfx = (declaredOn pfx attributes).or (b.lookup pfx) := by
  simp only [bindAll_eq, Bindings.lookup, Bindings.declared, List.flatten_cons, List.lookup_append,
    lookup_declarations]

theorem pop_bindAll (b : Bindings) (attributes : List (String × String)) :
    (bindAll b attributes).pop = b := by
  rw [bindAll_eq]
  rfl

/-- What is left out does not matter to a key that it does not have. -/
theorem lookup_filter {key : String} {p : String × String → Bool} (hp : ∀ value, p (key, value) = true)
    (attributes : List (String × String)) :
    (attributes.filter p).lookup key = attributes.lookup key := by
  induction attributes with
  | nil => rfl
  | cons a attributes ih =>
    obtain ⟨own, value⟩ := a
    by_cases hkey : key = own
    · subst hkey
      simp [hp value]
    · have hne : (key == own) = false := beq_eq_false_iff_ne.mpr hkey
      cases hkeep : p (own, value) <;> simp [hkeep, List.lookup_cons, hne, ih]

theorem lookup_plainAttributes {key : String} (hkey : boundPrefix? key = none)
    (attributes : List (String × String)) :
    (plainAttributes attributes).lookup key = attributes.lookup key :=
  lookup_filter (fun _ => by simp only [hkey, Option.isNone_none]) attributes

/-! ## What becomes of a tag that opens -/

section Opened

variable {name : String} {q : QName}

theorem opened_skipped (request : Request) (position : Position) (hskipped : 0 < r.skipped) :
    r.opened request position name attributes =
      .ok { r.within attributes with skipped := r.skipped + 1 } := by
  unfold Reading.opened
  exact if_pos hskipped

theorem opened_unbound (request : Request) (position : Position) {cause : UnboundPrefix}
    (hskipped : r.skipped = 0)
    (hname : (r.within attributes).bindings.resolve name = .error cause) :
    r.opened request position name attributes =
      .error ⟨.unboundPrefix cause ⟨request.url, position, none⟩, r.graph⟩ := by
  simp only [within] at hname
  simp [Reading.opened, hskipped, hname]

/-- The report of a tag that does not belong into the tag `parent`. -/
def misplaced (request : Request) (position : Position) (name : String) (parent : Tag) : SchemaError :=
  .unexpectedTag name parent.text ⟨request.url, position, some parent.text⟩

/-- A tag with a name that means something is dealt with by where it stands. -/
theorem opened_named (request : Request) (position : Position) (hskipped : r.skipped = 0)
    (hname : (r.within attributes).bindings.resolve name = .ok q) :
    r.opened request position name attributes =
      match admission (r.frames.head?.map Frame.tag) (Tag.ofQName? q) with
      | .refuse => .error ⟨.malformed ⟨request.url, position, none⟩ (.foreignRoot name), r.graph⟩
      | .ignore => .ok { r.within attributes with skipped := 1 }
      | .report parent =>
        .ok { r.within attributes with
          graph := { r.graph with
            diagnostics := r.graph.diagnostics ++ [misplaced request position name parent] }
          skipped := 1 }
      | .enter tag =>
        match r.frames.head? with
        | none =>
          .ok (openSchema request
            ((r.within attributes).addTagNode none tag position (plainAttributes attributes)).1
            ((r.within attributes).addTagNode none tag position (plainAttributes attributes)).2
            (plainAttributes attributes))
        | some f =>
          openTag request
            ((r.within attributes).addTagNode (some f) tag position (plainAttributes attributes)).1
            ((r.within attributes).addTagNode (some f) tag position (plainAttributes attributes)).2
            f tag position (plainAttributes attributes) := by
  have hnot : ¬ 0 < r.skipped := by omega
  simp only [within] at hname
  simp only [Reading.opened, if_neg hnot, hname]
  cases admission (r.frames.head?.map Frame.tag) (Tag.ofQName? q) with
  | enter tag => cases r.frames.head? <;> rfl
  | _ => rfl

theorem admission_none_cases (tag : Option Tag) :
    admission none tag = .enter .schema ∨ admission none tag = .refuse := by
  unfold admission
  split
  · exact Or.inl rfl
  · exact Or.inr rfl
  · rename_i hsome
    cases hsome

/-- What a tag that opens without an error does: it is the outermost one of a document, or it is passed
over within another one, or it is read within another one. -/
theorem opened_eq_ok {position : Position} (hok : r.opened request position name attributes = .ok r') :
    (r.frames = [] ∧ r.skipped = 0 ∧ r' = openSchema request
      ((r.within attributes).addTagNode none .schema position (plainAttributes attributes)).1
      ((r.within attributes).addTagNode none .schema position (plainAttributes attributes)).2
      (plainAttributes attributes)) ∨
    ((r.frames ≠ [] ∨ 0 < r.skipped) ∧ ∃ diagnostics, r' = { r.within attributes with
      skipped := r.skipped + 1
      graph := { r.graph with diagnostics } }) ∨
    ∃ f frames tag, r.frames = f :: frames ∧ r.skipped = 0 ∧ f.tag.mayContain tag ∧
      openTag request
        ((r.within attributes).addTagNode (some f) tag position (plainAttributes attributes)).1
        ((r.within attributes).addTagNode (some f) tag position (plainAttributes attributes)).2
        f tag position (plainAttributes attributes) = .ok r' := by
  by_cases hskipped : 0 < r.skipped
  · rw [opened_skipped request position hskipped] at hok
    cases hok
    exact Or.inr (Or.inl ⟨Or.inr hskipped, r.graph.diagnostics, rfl⟩)
  have hzero : r.skipped = 0 := by omega
  cases hname : (r.within attributes).bindings.resolve name with
  | error cause =>
    rw [opened_unbound request position hzero hname] at hok
    cases hok
  | ok q =>
    rw [opened_named request position hzero hname] at hok
    cases hframes : r.frames with
    | nil =>
      rw [hframes, List.head?_nil, Option.map_none] at hok
      rcases admission_none_cases (Tag.ofQName? q) with henter | hrefuse
      · rw [henter] at hok
        cases hok
        exact Or.inl ⟨rfl, hzero, rfl⟩
      · rw [hrefuse] at hok
        cases hok
    | cons f frames =>
      rw [hframes, List.head?_cons, Option.map_some] at hok
      cases hadmission : admission (some f.tag) (Tag.ofQName? q) with
      | refuse =>
        rw [hadmission] at hok
        cases hok
      | ignore =>
        rw [hadmission] at hok
        cases hok
        refine Or.inr (Or.inl ⟨Or.inl (List.cons_ne_nil _ _), r.graph.diagnostics, ?_⟩)
        simp only [hzero]
        rfl
      | report parent =>
        rw [hadmission] at hok
        cases hok
        refine Or.inr (Or.inl ⟨Or.inl (List.cons_ne_nil _ _),
          r.graph.diagnostics ++ [misplaced request position name parent], ?_⟩)
        simp only [hzero]
      | enter tag =>
        rw [hadmission] at hok
        rcases admission_eq_enter hadmission with ⟨hnone, _⟩ | ⟨p, hp, hmay⟩
        · cases hnone
        · cases hp
          exact Or.inr (Or.inr ⟨f, frames, tag, rfl, hzero, hmay, hok⟩)

theorem understood (request : Request) (position : Position) (hskipped : r.skipped = 0) :
    Understood request r position name attributes (r.within attributes).bindings where
  unbound cause hname := opened_unbound request position hskipped hname
  outermost q tag hname hframes hadmission := by
    have hopened := opened_named request position hskipped hname
    simp only [hframes, List.head?_nil, Option.map_none, hadmission] at hopened
    refine ⟨_, _, ?_, hopened⟩
    rfl
  inner q tag f frames hname hframes hadmission := by
    have hopened := opened_named request position hskipped hname
    simp only [hframes, List.head?_cons, Option.map_some, hadmission] at hopened
    refine ⟨_, _, ?_, hopened⟩
    rfl

end Opened

/-! ## Frames and open tags -/

/-- The bindings within tags, with one frame for each of them. -/
def bindingsWithin (request : Request) : List (List (String × String)) → Bindings
  | [] => .initial
  | attributes :: around =>
    let b := bindAll (bindingsWithin request around) attributes
    let declared := attributes.lookup "targetNamespace"
    if around = [] then adopt b declared (documentUri request declared) else b

/-- The bindings, the open tags that are read and those that are passed over are in step with the
tags that are open in the document. -/
structure Scoped (request : Request) (tags : List (List (String × String))) (r : Reading) : Prop where
  bindings : r.bindings = bindingsWithin request tags
  depth : r.frames.length + r.skipped = tags.length
  outer : 0 < r.skipped → r.frames ≠ []

theorem lookup_adopt (b : Bindings) (declared : Option String) (uri pfx : String) :
    (adopt b declared uri).lookup pfx =
      if pfx = "" ∧ declared.isNone ∧ uri ≠ "" ∧ b.defaultUri = "" then some uri
      else b.lookup pfx := by
  unfold adopt
  by_cases hadopts : declared.isNone ∧ uri ≠ "" ∧ b.defaultUri = ""
  · rw [if_pos hadopts]
    by_cases hpfx : pfx = ""
    · rw [if_pos ⟨hpfx, hadopts⟩, hpfx]
      rfl
    · rw [if_neg fun h => hpfx h.1]
      have hne : (pfx == "") = false := beq_eq_false_iff_ne.mpr hpfx
      simp [Bindings.lookup, Bindings.declared, Bindings.bind, List.lookup_cons, hne]
  · rw [if_neg hadopts, if_neg fun h => hadopts h.2]

theorem adoptedDefault_eq (request : Request) (attributes : List (String × String)) :
    let uri := documentUri request (attributes.lookup "targetNamespace")
    adoptedDefault request attributes =
      if (attributes.lookup "targetNamespace").isNone ∧ uri ≠ "" ∧
          (declaredOn "" attributes).getD "" = "" then some uri
      else none := by
  unfold adoptedDefault documentUri
  cases attributes.lookup "targetNamespace" with
  | some declared => simp
  | none =>
    by_cases himported : request.route = .imported
    · simp [himported]
    · cases request.ns with
      | none => simp
      | some uri =>
        by_cases huri : uri = "" <;> by_cases hdefault : (declaredOn "" attributes).getD "" = "" <;>
          simp [himported, huri, hdefault, Option.filter]

theorem lookup_bindingsWithin (request : Request) (tags : List (List (String × String)))
    (pfx : String) : (bindingsWithin request tags).lookup pfx = meaning request pfx tags := by
  induction tags with
  | nil =>
    by_cases hpfx : pfx = "xml"
    · simp [bindingsWithin, meaning, Bindings.initial, Bindings.lookup, Bindings.declared, hpfx]
    · have hne : (pfx == "xml") = false := beq_eq_false_iff_ne.mpr hpfx
      simp [bindingsWithin, meaning, Bindings.initial, Bindings.lookup, Bindings.declared, hpfx,
        List.lookup_cons, hne]
  | cons attributes around ih =>
    by_cases haround : around = []
    · have hdefault : (bindAll (bindingsWithin request around) attributes).defaultUri =
          (declaredOn "" attributes).getD "" := by
        rw [Bindings.defaultUri, lookup_bindAll, haround]
        cases declaredOn "" attributes <;> rfl
      rw [bindingsWithin, if_pos haround, lookup_adopt, hdefault, lookup_bindAll, ih, meaning,
        adoptedDefault_eq]
      by_cases hpfx : pfx = ""
      · simp only [haround, hpfx, true_and, and_self, if_true]
        split
        · rw [Option.some_or]
        · rw [Option.none_or]
      · rw [if_neg fun h => hpfx h.1, if_neg fun h => hpfx h.2, Option.none_or]
    · rw [bindingsWithin, if_neg haround, lookup_bindAll, ih, meaning,
        if_neg fun h => haround h.1, Option.none_or]

/-- A tag adds one frame to those of the tags around it. -/
theorem bindingsWithin_cons (request : Request) (attributes : List (String × String))
    (around : List (List (String × String))) :
    ∃ top, bindingsWithin request (attributes :: around) =
      ⟨top, (bindingsWithin request around).top :: (bindingsWithin request around).below⟩ := by
  rw [bindingsWithin, bindAll_eq]
  split
  · unfold adopt
    split
    · exact ⟨_, rfl⟩
    · exact ⟨_, rfl⟩
  · exact ⟨_, rfl⟩

theorem below_bindingsWithin (request : Request) (tags : List (List (String × String))) :
    (bindingsWithin request tags).below.length = tags.length := by
  induction tags with
  | nil => rfl
  | cons attributes around ih =>
    obtain ⟨top, htop⟩ := bindingsWithin_cons request attributes around
    rw [htop, List.length_cons, List.length_cons, ih]

/-! ## What an event keeps -/

namespace Scoped

/-- A tag within another one adds a frame with what it binds. -/
theorem inner (h : r.Scoped request tags) (hframes : r.frames ≠ []) :
    bindAll r.bindings attributes = bindingsWithin request (attributes :: tags) := by
  have htags : tags ≠ [] := by
    intro hnil
    have hdepth := h.depth
    have hlength := List.length_pos_iff.mpr hframes
    rw [hnil, List.length_nil] at hdepth
    omega
  rw [bindingsWithin, if_neg htags, h.bindings]

theorem opened (h : r.Scoped request tags) {position : Position} {name : String}
    (hok : r.opened request position name attributes = .ok r') :
    r'.Scoped request (attributes :: tags) := by
  have hdepth := h.depth
  rcases opened_eq_ok hok with ⟨hframes, hzero, rfl⟩ | ⟨hinner, diagnostics, rfl⟩ |
    ⟨f, frames, tag, hframes, hzero, _, hopen⟩
  · -- the outermost tag may take over a default namespace
    have htags : tags = [] := by
      rw [hframes, hzero] at hdepth
      exact List.length_eq_zero_iff.mp hdepth.symm
    refine ⟨?_, ?_, fun hpos => ?_⟩
    · rw [bindingsWithin, if_pos htags, ← h.bindings, ← lookup_plainAttributes (by decide) attributes]
      rfl
    · simp [openSchema, addTagNode, within, hframes, hzero, htags]
    · exact absurd hzero (Nat.ne_of_gt hpos)
  · have hframes : r.frames ≠ [] := hinner.elim id h.outer
    refine ⟨h.inner hframes, ?_, fun _ => hframes⟩
    simp only [within, List.length_cons]
    omega
  · obtain ⟨e, own, g, _, _, rfl⟩ := openTag_eq_ok hopen
    rw [hframes, List.length_cons] at hdepth
    refine ⟨h.inner (by rw [hframes]; exact List.cons_ne_nil _ _), ?_, fun _ => List.cons_ne_nil _ _⟩
    simp [within, addTagNode, hframes, hzero]
    omega

theorem closed (h : r.Scoped request (attributes :: tags)) : r.closed.Scoped request tags := by
  obtain ⟨hbindings, hdepth, houter⟩ := h
  have hpop : r.bindings.pop = bindingsWithin request tags := by
    obtain ⟨top, htop⟩ := bindingsWithin_cons request attributes tags
    rw [hbindings, htop]
    rfl
  rw [List.length_cons] at hdepth
  unfold Reading.closed
  split
  · rename_i hskipped
    refine ⟨hpop, ?_, fun _ => houter hskipped⟩
    simp only
    omega
  · rename_i hskipped
    split
    · rename_i hframes
      rw [hframes, List.length_nil] at hdepth
      omega
    · rename_i frame frames hframes
      rw [hframes, List.length_cons] at hdepth
      refine ⟨hpop, ?_, fun hpos => absurd hpos hskipped⟩
      simp only
      omega

theorem text (h : r.Scoped request tags) (content : String) : (r.text content).Scoped request tags := by
  unfold Reading.text
  split
  · exact h
  · split
    · exact h
    · exact ⟨h.bindings, h.depth, h.outer⟩

theorem step (h : r.Scoped request tags) {item : Position × Markup.Event}
    (hopen : Markup.openTags tags [item] = some tags') (hok : Reading.step request r item = .ok r') :
    r'.Scoped request tags' := by
  obtain ⟨position, event⟩ := item
  cases event with
  | opened name attributes =>
    cases hopen
    rw [step_opened] at hok
    exact h.opened hok
  | closed =>
    cases hok
    cases tags with
    | nil => cases hopen
    | cons attributes around =>
      cases hopen
      exact h.closed
  | text content =>
    cases hok
    cases hopen
    exact h.text content

theorem run (h : r.Scoped request tags) {items : List (Position × Markup.Event)}
    (hopen : Markup.openTags tags items = some tags')
    (hok : items.foldlM (Reading.step request) r = .ok r') : r'.Scoped request tags' := by
  induction items generalizing tags r with
  | nil =>
    cases hopen
    cases hok
    exact h
  | cons item items ih =>
    rw [Markup.openTags_cons] at hopen
    rw [List.foldlM_cons] at hok
    obtain ⟨tags₁, hfirst, hrest⟩ := Option.bind_eq_some_iff.mp hopen
    obtain ⟨r₁, hstep, hok⟩ := bind_eq_ok.mp hok
    exact ih (h.step hfirst hstep) hrest hok

end Scoped

/-- After any events in which no end tag is without its start tag, a prefix means what the nearest open
tag says that binds it, and the names of a tag that opens next are resolved by what this tag and those
around it say. There is one frame of bindings for every open tag, read or passed over, and a tag is
passed over only within one that is read. -/
theorem prefixes_scoped (request : Request) (g : Graph) {items : List (Position × Markup.Event)}
    {tags : List (List (String × String))} {r : Reading}
    (hopen : Markup.openTags [] items = some tags)
    (hok : items.foldlM (step request) { graph := g } = .ok r) :
    (∀ pfx, r.bindings.lookup pfx = meaning request pfx tags) ∧
    (∀ position name attributes, r.skipped = 0 →
      ∃ b, Understood request r position name attributes b ∧
        ∀ pfx, b.lookup pfx = (declaredOn pfx attributes).or (meaning request pfx tags)) ∧
    (r.bindings.top :: r.bindings.below).length = 1 + r.frames.length + r.skipped ∧
    (0 < r.skipped → r.frames ≠ []) := by
  have hstart : ({ graph := g } : Reading).Scoped request [] :=
    ⟨rfl, rfl, fun hpos => absurd hpos (Nat.lt_irrefl 0)⟩
  have hscoped := hstart.run hopen hok
  have hlookup : ∀ pfx, r.bindings.lookup pfx = meaning request pfx tags := by
    intro pfx
    rw [hscoped.bindings, lookup_bindingsWithin]
  refine ⟨hlookup, fun position name attributes hskipped => ?_, ?_, hscoped.outer⟩
  · refine ⟨_, understood request position hskipped, fun pfx => ?_⟩
    rw [← hlookup]
    exact lookup_bindAll r.bindings attributes pfx
  · have hdepth := hscoped.depth
    rw [hscoped.bindings, List.length_cons, below_bindingsWithin]
    omega

/-- A `schema` tag without a default namespace. In it, a tag that is passed over and an element have
closed, and each of them has bound a prefix anew. -/
def scopedItems : List (Position × Markup.Event) :=
  [(.first, .opened "x:schema" [("xmlns:x", QName.schemaUri), ("xmlns:a", "outer")]),
    (.first, .opened "x:sequence" [("xmlns:a", "skipped")]), (.first, .closed),
    (.first, .opened "x:element" [("name", "e"), ("xmlns:a", "sibling")]), (.first, .closed)]

theorem scopedItems_read : ((scopedItems.foldlM (step (.entry "d" (some "adopted")))
    { graph := Graph.initial .standard }).toOption.map Reading.skipped) = some 0 := by
  decide +kernel

theorem prefixes_scoped_example : ∃ r, scopedItems.foldlM (step (.entry "d" (some "adopted")))
    { graph := Graph.initial .standard } = .ok r ∧ r.bindings.lookup "a" = some "outer" ∧
      r.bindings.lookup "" = some "adopted" ∧ r.bindings.below.length = r.frames.length ∧
      ∃ b, Understood (.entry "d" (some "adopted")) r .first "y:element" [("xmlns:y", "own")] b ∧
        b.lookup "y" = some "own" ∧ b.lookup "xml" = some QName.xmlUri := by
  obtain ⟨r, hrun, hskipped⟩ := eq_ok_of_toOption scopedItems_read
  have hopen : Markup.openTags [] scopedItems =
      some [[("xmlns:x", QName.schemaUri), ("xmlns:a", "outer")]] := rfl
  obtain ⟨hlookup, hnext, hlength, _⟩ :=
    prefixes_scoped (.entry "d" (some "adopted")) (Graph.initial .standard) hopen hrun
  obtain ⟨b, hunderstood, hb⟩ := hnext .first "y:element" [("xmlns:y", "own")] hskipped
  refine ⟨r, hrun, (hlookup "a").trans (by decide), (hlookup "").trans (by decide), ?_,
    b, hunderstood, (hb "y").trans (by decide), (hb "xml").trans (by decide)⟩
  rw [List.length_cons] at hlength
  omega

end Reading

end XsdTypes
