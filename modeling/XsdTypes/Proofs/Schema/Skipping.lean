import XsdTypes.Proofs.Schema.Overlay

/-!
# What is passed over

A tag that is passed over takes all that is in it along: the count of open tags that are passed over
goes up and down with the tags, the prefixes they bind are dropped again, and nothing else changes. So
the document reads as if these tags were not there, but for the one report that there is of a tag in
the wrong place.
-/

namespace XsdTypes

open Sequencing

/-- A tag with all that is in it. -/
def Markup.subtree {α : Type} (place : α) (name : String) (attributes : List (String × String))
    (body : List (α × Event)) (close : α) : List (α × Event) :=
  (place, .opened name attributes) :: body ++ [(close, .closed)]

namespace Reading

variable {request : Request} {r : Reading} {name : String} {attributes : List (String × String)}
  {position : Position} {around around' : List (List (String × String))}

/-- Within a tag that is passed over, the tags `around` have opened, innermost first. -/
def beneath (r : Reading) : List (List (String × String)) → Reading
  | [] => r
  | attributes :: around =>
    { (r.beneath around).within attributes with skipped := (r.beneath around).skipped + 1 }

theorem beneath_skipped (r : Reading) (around : List (List (String × String))) :
    (r.beneath around).skipped = r.skipped + around.length := by
  induction around with
  | nil => rfl
  | cons attributes around ih =>
    simp only [beneath, ih, List.length_cons]
    omega

theorem step_beneath (hskipped : 0 < r.skipped) {item : Position × Markup.Event}
    (hopen : Markup.openTags around [item] = some around') :
    step request (r.beneath around) item = .ok (r.beneath around') := by
  have hbeneath : ∀ tags, 0 < (r.beneath tags).skipped := by
    intro tags
    rw [beneath_skipped]
    omega
  obtain ⟨position, event⟩ := item
  cases event with
  | opened name attributes =>
    cases hopen
    rw [step_opened, opened_skipped request position (hbeneath around)]
    rfl
  | text content =>
    cases hopen
    exact congrArg Except.ok (text_ignored (Or.inl (hbeneath around)))
  | closed =>
    cases around with
    | nil => cases hopen
    | cons attributes around =>
      cases hopen
      -- the tag takes its frame of prefixes along
      have hclosed : (r.beneath (attributes :: around')).closed = r.beneath around' := by
        rw [closed_skipped (hbeneath (attributes :: around'))]
        simp only [beneath, within, pop_bindAll, Nat.add_sub_cancel]
      exact congrArg Except.ok hclosed

theorem run_beneath (hskipped : 0 < r.skipped) {items : List (Position × Markup.Event)}
    (hopen : Markup.openTags around items = some around') :
    items.foldlM (step request) (r.beneath around) = .ok (r.beneath around') := by
  induction items generalizing around with
  | nil =>
    cases hopen
    rfl
  | cons item items ih =>
    rw [Markup.openTags_cons] at hopen
    obtain ⟨tags, hfirst, hrest⟩ := Option.bind_eq_some_iff.mp hopen
    rw [List.foldlM_cons, step_beneath hskipped hfirst]
    exact ih hrest

/-- A tag that is passed over leaves nothing but what was recorded when it opened. -/
theorem run_subtree {body : List (Position × Markup.Event)} {g : Graph}
    (hbody : Markup.openTags [] body = some [])
    (hopened : r.opened request position name attributes =
      .ok { r.within attributes with graph := g, skipped := r.skipped + 1 }) (close : Position) :
    (Markup.subtree position name attributes body close).foldlM (step request) r =
      .ok { r with graph := g } := by
  set r₁ : Reading := { r.within attributes with graph := g, skipped := r.skipped + 1 } with hr₁
  have hpos : 0 < r₁.skipped := Nat.succ_pos _
  have hinside : body.foldlM (step request) (r₁.beneath []) = .ok (r₁.beneath []) :=
    run_beneath hpos hbody
  have hclosed : r₁.closed = { r with graph := g } := by
    rw [closed_skipped hpos]
    simp only [hr₁, within, pop_bindAll, Nat.add_sub_cancel]
  rw [Markup.subtree, List.cons_append, List.foldlM_cons, step_opened, hopened, ← hclosed]
  change (body ++ [(close, Markup.Event.closed)]).foldlM (step request) (r₁.beneath []) = _
  rw [List.foldlM_append, hinside]
  rfl

/-! ## What becomes of the root of what is passed over -/

theorem admission_ignore {parent : Tag} (hfree : parent.isFreeForm = true) (tag : Option Tag) :
    admission (some parent) tag = .ignore := by
  simp only [admission, if_pos hfree]

theorem admission_report {parent : Tag} {tag : Option Tag} (hfree : parent.isFreeForm = false)
    (hmisplaced : ∀ t, tag = some t → parent.mayContain t = false) :
    admission (some parent) tag = .report parent := by
  cases tag with
  | none => simp [admission, hfree]
  | some t => simp [admission, hfree, hmisplaced t rfl]

theorem opened_ignored {f : Frame} {q : QName} (hframe : r.frames.head? = some f)
    (hfree : f.tag.isFreeForm = true) (hskipped : r.skipped = 0)
    (hname : (r.within attributes).bindings.resolve name = .ok q) :
    r.opened request position name attributes =
      .ok { r.within attributes with graph := r.graph, skipped := r.skipped + 1 } := by
  rw [opened_named request position hskipped hname, hframe, Option.map_some, admission_ignore hfree,
    hskipped]
  rfl

theorem opened_reported {f : Frame} {q : QName} (hframe : r.frames.head? = some f)
    (hfree : f.tag.isFreeForm = false) (hskipped : r.skipped = 0)
    (hname : (r.within attributes).bindings.resolve name = .ok q)
    (hmisplaced : ∀ t, Tag.ofQName? q = some t → f.tag.mayContain t = false) :
    r.opened request position name attributes =
      .ok { r.within attributes with
        graph := { r.graph with
          diagnostics := r.graph.diagnostics ++ [misplaced request position name f.tag] }
        skipped := r.skipped + 1 } := by
  rw [opened_named request position hskipped hname, hframe, Option.map_some,
    admission_report hfree hmisplaced, hskipped]

/-! ## Without what is passed over -/

/-- Reports that are there before make no difference to what is read. -/
theorem readOn_reports (request : Request) (r : Reading) (reports : List SchemaError)
    (items : List (Position × Markup.Event)) (ending : Markup.Ending Position) :
    readOn request { r with graph := { r.graph with diagnostics := reports } } items ending =
      overlaid { reports }
        (readOn request { r with graph := { r.graph with diagnostics := [] } } items ending) := by
  have hunder : ({ r with graph := { r.graph with diagnostics := reports } } : Reading) =
      under { r with graph := { r.graph with diagnostics := [] } } { reports } r.bindings := by
    simp only [under, Graph.overlay_reports, List.append_nil]
  rw [hunder]
  exact readOn_under (fun _ _ _ => rfl) (.refl _) items ending

/-- Passing over a tag that does not belong where it stands, or is not known, leaves one report of the
tag in the document that is read, and passing over a tag in documentation leaves nothing: without the
tag and all that is in it the same is read. -/
theorem skipped_subtrees_inert (request : Request) (g : Graph)
    {before body after : List (Position × Markup.Event)} {ending : Markup.Ending Position}
    {position close : Position} {name : String} {attributes : List (String × String)} {r : Reading}
    {f : Frame} {g' : Graph} {parsed : Parsed}
    (hbefore : before.foldlM (step request) { graph := g } = .ok r)
    (hparent : r.frames.head? = some f)
    (hbody : Markup.openTags [] body = some [])
    (hok : readStream request g
      ⟨before ++ Markup.subtree position name attributes body close ++ after, ending⟩ = .ok (g', parsed)) :
    (f.tag.isFreeForm = false → r.skipped = 0 →
      (∀ q tag, (r.within attributes).bindings.resolve name = .ok q → Tag.ofQName? q = some tag →
        f.tag.mayContain tag = false) →
      ∃ later, g'.diagnostics =
          r.graph.diagnostics ++ misplaced request position name f.tag :: later ∧
        readStream request g ⟨before ++ after, ending⟩ =
          .ok ({ g' with diagnostics := r.graph.diagnostics ++ later }, parsed)) ∧
    (f.tag.isFreeForm = true →
      readStream request g ⟨before ++ after, ending⟩ = .ok (g', parsed)) := by
  have hwithout : readStream request g ⟨before ++ after, ending⟩ = readOn request r after ending := by
    rw [readStream_eq, readOn_append hbefore]
  have hwith : readOn request r (Markup.subtree position name attributes body close ++ after) ending =
      .ok (g', parsed) := by
    rw [readStream_eq, List.append_assoc, readOn_append hbefore] at hok
    exact hok
  -- the name of the tag means something, for else reading would have stopped here
  have hnamed : r.skipped = 0 → ∃ q, (r.within attributes).bindings.resolve name = .ok q := by
    intro hskipped
    cases hname : (r.within attributes).bindings.resolve name with
    | ok q => exact ⟨q, rfl⟩
    | error cause =>
      rw [Markup.subtree, List.cons_append, List.cons_append, readOn_cons, step_opened,
        opened_unbound request position hskipped hname] at hwith
      cases hwith
  refine ⟨fun hfree hskipped hmisplaced => ?_, fun hfree => ?_⟩
  · obtain ⟨q, hname⟩ := hnamed hskipped
    have hreported : r.opened request position name attributes = _ :=
      opened_reported hparent hfree hskipped hname fun t => hmisplaced q t hname
    rw [readOn_append (run_subtree hbody hreported close)] at hwith
    have hplain : readOn request r after ending = _ :=
      readOn_reports request r r.graph.diagnostics after ending
    rw [readOn_reports] at hwith
    rw [hwithout, hplain]
    cases hread : readOn request { r with graph := { r.graph with diagnostics := [] } } after ending with
    | error halt =>
      rw [hread] at hwith
      cases hwith
    | ok result =>
      obtain ⟨g₀, parsed₀⟩ := result
      rw [hread] at hwith
      cases hwith
      refine ⟨g₀.diagnostics, ?_, rfl⟩
      simp [Graph.overlay]
  · have hignored : r.opened request position name attributes =
        .ok { r.within attributes with graph := r.graph, skipped := r.skipped + 1 } := by
      by_cases hskipped : r.skipped = 0
      · obtain ⟨q, hname⟩ := hnamed hskipped
        exact opened_ignored hparent hfree hskipped hname
      · exact opened_skipped request position (Nat.pos_of_ne_zero hskipped)
    rw [readOn_append (run_subtree hbody hignored close)] at hwith
    rw [hwithout]
    exact hwith

/-- A `schema` tag opens. -/
def schemaStart : List (Position × Markup.Event) :=
  [(.first, .opened "x:schema" [("xmlns:x", QName.schemaUri)])]

/-- A tag that is not known, with one in it that is, and with text. -/
def foreignTag : List (Position × Markup.Event) :=
  Markup.subtree .first "x:element" [("xmlns:x", "elsewhere")]
    [(.first, .opened "include" [("xmlns", QName.schemaUri)]), (.first, .closed), (.first, .text "words")]
    .first

def noteStart : List (Position × Markup.Event) :=
  [(.first, .opened "x:annotation" []), (.first, .opened "x:documentation" []), (.first, .text "some ")]

def noteTag : List (Position × Markup.Event) :=
  Markup.subtree .first "b" [] [(.first, .text "bold")] .first

def noteEnd : List (Position × Markup.Event) :=
  [(.first, .text " words"), (.first, .closed), (.first, .closed), (.first, .closed)]

/-- What has been read, as far as it decides what becomes of the next tag. -/
def standing (r : Reading) : Nat × List Tag × Bindings × Nat :=
  (r.skipped, r.frames.map Frame.tag, r.bindings, r.graph.diagnostics.length)

theorem schemaStart_read : (schemaStart.foldlM (step (.entry "d" none))
    { graph := Graph.initial .standard }).toOption.map standing =
      some (0, [.schema], ⟨[("x", QName.schemaUri)], [[("xml", QName.xmlUri)]]⟩, 0) := by
  decide +kernel

theorem noteStart_read : ((schemaStart ++ foreignTag ++ noteStart).foldlM (step (.entry "d" none))
    { graph := Graph.initial .standard }).toOption.map (List.map Frame.tag ∘ Reading.frames) =
      some [.documentation, .note, .schema] := by
  decide +kernel

theorem noteEnd_read : (readStream (.entry "d" none) (Graph.initial .standard)
    ⟨schemaStart ++ foreignTag ++ (noteStart ++ noteTag ++ noteEnd), .complete .first⟩).toOption.map
      (fun result => result.1.diagnostics.length) = some 1 := by
  decide +kernel

theorem skipped_subtrees_inert_example : ∃ g' parsed,
    readStream (.entry "d" none) (Graph.initial .standard)
      ⟨schemaStart ++ foreignTag ++ (noteStart ++ noteTag ++ noteEnd), .complete .first⟩ =
        .ok (g', parsed) ∧
    g'.diagnostics = [misplaced (.entry "d" none) .first "x:element" .schema] ∧
    readStream (.entry "d" none) (Graph.initial .standard)
      ⟨schemaStart ++ (noteStart ++ noteTag ++ noteEnd), .complete .first⟩ =
        .ok ({ g' with diagnostics := [] }, parsed) ∧
    readStream (.entry "d" none) (Graph.initial .standard)
      ⟨schemaStart ++ foreignTag ++ noteStart ++ noteEnd, .complete .first⟩ = .ok (g', parsed) := by
  obtain ⟨r, hbefore, hstanding⟩ := eq_ok_of_toOption schemaStart_read
  obtain ⟨⟨g', parsed⟩, hok, hlength⟩ := eq_ok_of_toOption noteEnd_read
  obtain ⟨r₂, hbefore₂, htags₂⟩ := eq_ok_of_toOption noteStart_read
  simp only [standing, Prod.mk.injEq] at hstanding
  obtain ⟨hskipped, htags, hbindings, hreports⟩ := hstanding
  have hnone : r.graph.diagnostics = [] := List.length_eq_zero_iff.mp hreports
  have hparent : ∀ {r : Reading} {tag : Tag} {tags : List Tag},
      r.frames.map Frame.tag = tag :: tags → ∃ f, r.frames.head? = some f ∧ f.tag = tag := by
    intro r tag tags hframes
    obtain ⟨f, frames, hcons, htag, _⟩ := List.map_eq_cons_iff.mp hframes
    exact ⟨f, by rw [hcons, List.head?_cons], htag⟩
  obtain ⟨f, hf, htag⟩ := hparent htags
  obtain ⟨f₂, hf₂, htag₂⟩ := hparent htags₂
  have hforeign : ∀ q tag, (r.within [("xmlns:x", "elsewhere")]).bindings.resolve "x:element" = .ok q →
      Tag.ofQName? q = some tag → f.tag.mayContain tag = false := by
    intro q tag hname hknown
    simp only [within, hbindings] at hname
    have hresolve : (bindAll ⟨[("x", QName.schemaUri)], [[("xml", QName.xmlUri)]]⟩
        [("xmlns:x", "elsewhere")]).resolve "x:element" = .ok ⟨"elsewhere", "element"⟩ := by decide
    rw [hresolve] at hname
    cases hname
    cases hknown
  obtain ⟨hreported, _⟩ := skipped_subtrees_inert (.entry "d" none) (Graph.initial .standard) hbefore hf
    rfl hok
  obtain ⟨later, hlater, hwithout⟩ := hreported (by rw [htag]; rfl) hskipped hforeign
  have hlast : later = [] := by
    rw [hlater, hnone] at hlength
    simpa using hlength
  rw [hnone, htag, hlast] at hlater
  rw [hnone, hlast] at hwithout
  refine ⟨g', parsed, hok, hlater, hwithout, ?_⟩
  have hok₂ : readStream (.entry "d" none) (Graph.initial .standard)
      ⟨schemaStart ++ foreignTag ++ noteStart ++ noteTag ++ noteEnd, .complete .first⟩ =
        .ok (g', parsed) := hok
  exact (skipped_subtrees_inert (.entry "d" none) (Graph.initial .standard) hbefore₂ hf₂
    rfl hok₂).2 (by rw [htag₂]; rfl)

end Reading

end XsdTypes
