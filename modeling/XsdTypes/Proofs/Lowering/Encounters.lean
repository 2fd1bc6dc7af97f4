import XsdTypes.Proofs.Lowering.Flattening
import XsdTypes.Proofs.Schema.Ranges

/-!
# Members and the declarations they come from

The content of a complex type is expanded depth first, and each declaration of an element or an
attribute that is met on the way comes with the references that lead to it. Repeats are folded twice:
those of a name in one scope before the occurrences are multiplied, those of a local name over all
scopes after that. In between numbers are capped. Nevertheless what a member says is what all the
declarations that it comes from say, with nothing folded and nothing capped.
-/

namespace XsdTypes

namespace Scope

/-- What is listed for the members of a scope is what is listed for all its declarations without some
repeats, if a repeat of a declaration adds nothing to the list. -/
theorem condenses_members {α : Type} [BEq α] [LawfulBEq α] {s : Scope} {f : Declaration → List α}
    (hf : ∀ e, ∀ d ∈ s.entries, d.name.isSome → e.symbol? = d.symbol? →
      f { e with occurs := e.occurs.plus d.occurs } = f e ∧ f d ⊆ f e) :
    Condenses (s.entries.flatMap f) (s.members.flatMap f) := by
  have habsorb : ∀ d ∈ s.entries, ∀ es, Condenses (es.flatMap f ++ f d) ((absorb d es).flatMap f) := by
    intro d hd es
    induction es with
    | nil =>
      rw [absorb, List.flatMap_singleton, List.flatMap_nil, List.nil_append]
      exact .refl _
    | cons e es ih =>
      rw [absorb]
      split
      · rename_i hsame
        obtain ⟨hmerged, hrepeat⟩ := hf e d hd hsame.1 hsame.2
        rw [List.flatMap_cons, List.flatMap_cons, hmerged]
        exact .of_subset fun a ha => List.mem_append_left _ (hrepeat ha)
      · rw [List.flatMap_cons, List.flatMap_cons, List.append_assoc]
        exact (Condenses.refl (f e)).append ih
  have hfold : ∀ (l : List Declaration), (∀ d ∈ l, d ∈ s.entries) → ∀ merged,
      Condenses (merged.flatMap f ++ l.flatMap f)
        ((l.foldl (fun merged d => absorb d merged) merged).flatMap f) := by
    intro l
    induction l with
    | nil =>
      intro _ merged
      rw [List.flatMap_nil, List.append_nil]
      exact .refl _
    | cons d l ih =>
      intro hl merged
      have hd := habsorb d (hl d List.mem_cons_self) merged
      rw [List.flatMap_cons, ← List.append_assoc, List.foldl_cons]
      exact (hd.append (.refl _)).trans (ih (fun d' hd' => hl d' (List.mem_cons_of_mem _ hd')) _)
  rw [members_eq_foldl]
  exact hfold s.entries (fun d hd => hd) []

end Scope

namespace Lowering

/-- A declaration that is met when content is expanded, and the references that lead to it, the
innermost one first. -/
structure Encounter where
  /-- The declaration. -/
  declaration : Declaration
  /-- The references. -/
  references : List Declaration := []

namespace Encounter

/-- What is met within a reference. -/
def under (d : Declaration) (e : Encounter) : Encounter :=
  { e with references := e.references ++ [d] }

/-- The product of the occurrences of the declaration and of all references, which is not capped. -/
def range (e : Encounter) : ℕ × ℕ∞ :=
  e.declaration.occurs.range * (e.references.map fun d => d.occurs.range).prod

/-- What the member is known by. -/
def key (e : Encounter) : MemberKind × String := memberKey e.declaration

theorem range_under (d : Declaration) (e : Encounter) :
    (e.under d).range = e.range * d.occurs.range := by
  simp only [range, under, List.map_append, List.prod_append, List.map_cons, List.map_nil,
    List.prod_cons, List.prod_nil, mul_one, mul_assoc]

end Encounter

/-- What is met in a list of declarations, depth first, where `path` lists the groups that are being
expanded: a reference to one of these is passed over. -/
inductive Expands (g : Graph) : List NodeId → List Declaration → List Encounter → Prop
  | nil {path : List NodeId} : Expands g path [] []
  | found {path : List NodeId} {d : Declaration} {ds : List Declaration} {l : List Encounter}
      (hspace : d.space = .element ∨ d.space = .attr) (hrest : Expands g path ds l) :
      Expands g path (d :: ds) ({ declaration := d } :: l)
  | entered {path : List NodeId} {d : Declaration} {ds : List Declaration} {l l' : List Encounter}
      {group : NodeId} {inner : ScopeId} (hspace : d.space = .groupRef ∨ d.space = .attrGroupRef)
      (hgroup : referredGroup? g d.node = some group) (hpath : group ∉ path)
      (hown : (g.nodeAt group).ownScope = some inner)
      (hinner : Expands g (group :: path) (g.scopeAt inner).entries l) (hrest : Expands g path ds l') :
      Expands g path (d :: ds) (l.map (Encounter.under d) ++ l')
  | repeated {path : List NodeId} {d : Declaration} {ds : List Declaration} {l : List Encounter}
      {group : NodeId} (hspace : d.space = .groupRef ∨ d.space = .attrGroupRef)
      (hgroup : referredGroup? g d.node = some group) (hpath : group ∈ path)
      (hrest : Expands g path ds l) : Expands g path (d :: ds) l
  | other {path : List NodeId} {d : Declaration} {ds : List Declaration} {l : List Encounter}
      (hspace : d.space = .type ∨ d.space = .group ∨ d.space = .attrGroup)
      (hrest : Expands g path ds l) : Expands g path (d :: ds) l

variable {g : Graph} {policy : RepeatPolicy} {path : List NodeId} {ds : List Declaration}
  {l l' : List Encounter} {s : ScopeId}

/-- There is one way to expand content. -/
theorem Expands.unique (h : Expands g path ds l) (h' : Expands g path ds l') : l = l' := by
  induction h generalizing l' with
  | nil =>
    cases h'
    rfl
  | found hspace _ ih =>
    cases h' with
    | found _ hrest => rw [ih hrest]
    | entered hspace' | repeated hspace' | other hspace' =>
      rcases hspace with hs | hs <;> simp [hs] at hspace'
  | entered hspace hgroup hpath hown _ _ ihinner ihrest =>
    cases h' with
    | entered _ hgroup' _ hown' hinner hrest =>
      cases hgroup.symm.trans hgroup'
      cases hown.symm.trans hown'
      rw [ihinner hinner, ihrest hrest]
    | repeated _ hgroup' hpath' =>
      cases hgroup.symm.trans hgroup'
      exact absurd hpath' hpath
    | found hspace' | other hspace' => rcases hspace with hs | hs <;> simp [hs] at hspace'
  | repeated hspace hgroup hpath _ ih =>
    cases h' with
    | repeated _ _ _ hrest => exact ih hrest
    | entered _ hgroup' hpath' =>
      cases hgroup.symm.trans hgroup'
      exact absurd hpath hpath'
    | found hspace' | other hspace' => rcases hspace with hs | hs <;> simp [hs] at hspace'
  | other hspace _ ih =>
    cases h' with
    | other _ hrest => exact ih hrest
    | found hspace' | entered hspace' | repeated hspace' =>
      rcases hspace with hs | hs | hs <;> simp [hs] at hspace'

/-- A reference in an inner scope leads to the inner scope of a group. -/
theorem reference_leads (h : g.Loaded policy) (hinner : (g.scopeAt s).parent ≠ none)
    {d : Declaration} (hd : d ∈ (g.scopeAt s).entries)
    (hspace : d.space = .groupRef ∨ d.space = .attrGroupRef) :
    ∃ group inner, referredGroup? g d.node = some group ∧ group < g.nodes.size ∧
      (g.nodeAt group).ownScope = some inner ∧ (g.scopeAt inner).parent ≠ none := by
  have hentry := h.sound.declared.entry s d hd
  have hfits := SymbolSpace.tag_of_fits hentry.fits
  have htag : (g.nodeAt d.node).tag = .group ∨ (g.nodeAt d.node).tag = .attrGroup :=
    hspace.imp hfits.2.1 hfits.2.2
  have hscope : (g.scopeAt (g.nodeAt d.node).scope).parent ≠ none := by
    rw [hentry.scope]
    exact hinner
  have hnew := h.new_of_inner hscope
  obtain ⟨p, site, e, _, ht, hlocal⟩ := h.traced_inner hentry.node_lt hscope
    (by rcases htag with htag | htag <;> rw [htag] <;> simp)
  obtain ⟨group, hgroup⟩ := h.reference_bound hnew hentry.node_lt ht hlocal htag
  obtain ⟨_, hlt, _, _, inner, hown, hparent⟩ :=
    h.definition_of_reference hnew hentry.node_lt htag hgroup
  exact ⟨group, inner, hgroup, hlt, hown, hparent⟩

/-- There is fuel left for a group that is not on the path. -/
theorem reference_left (h : g.Loaded policy) (hinner : (g.scopeAt s).parent ≠ none)
    {d : Declaration} (hd : d ∈ (g.scopeAt s).entries)
    (hspace : d.space = .groupRef ∨ d.space = .attrGroupRef) {group : NodeId} {inner : ScopeId}
    (hgroup : referredGroup? g d.node = some group) (hpath : group ∉ path)
    (hown : (g.nodeAt group).ownScope = some inner) {fuel : Nat}
    (hfuel : absentBelow g.nodes.size path ≤ fuel) :
    (g.scopeAt inner).parent ≠ none ∧
      ∃ left, fuel = left + 1 ∧ absentBelow g.nodes.size (group :: path) ≤ left := by
  obtain ⟨group', inner', hgroup', hlt, hown', hparent⟩ := reference_leads h hinner hd hspace
  cases hgroup.symm.trans hgroup'
  cases hown.symm.trans hown'
  have hless := absentBelow_cons_lt hlt hpath
  exact ⟨hparent, fuel - 1, by omega, by omega⟩

/-- Content can be expanded, because no path lists a group twice. -/
theorem exists_expands (h : g.Loaded policy) (hinner : (g.scopeAt s).parent ≠ none)
    (path : List NodeId) : ∃ l, Expands g path (g.scopeAt s).entries l := by
  induction hleft : absentBelow g.nodes.size path using Nat.strong_induction_on
    generalizing path s with
  | _ left ih =>
    subst hleft
    have hall : ∀ ds, ds ⊆ (g.scopeAt s).entries → ∃ l, Expands g path ds l := by
      intro ds
      induction ds with
      | nil => exact fun _ => ⟨[], .nil⟩
      | cons d ds ihds =>
        intro hsub
        obtain ⟨hd, hrest⟩ := List.cons_subset.mp hsub
        obtain ⟨l, hl⟩ := ihds hrest
        have hreference : d.space = .groupRef ∨ d.space = .attrGroupRef →
            ∃ l, Expands g path (d :: ds) l := by
          intro hspace
          obtain ⟨group, inner, hgroup, hlt, hown, hparent⟩ := reference_leads h hinner hd hspace
          by_cases hpath : group ∈ path
          · exact ⟨l, .repeated hspace hgroup hpath hl⟩
          · obtain ⟨l', hl'⟩ := ih _ (absentBelow_cons_lt hlt hpath) hparent _ rfl
            exact ⟨_, .entered hspace hgroup hpath hown hl' hl⟩
        cases hspace : d.space with
        | element | attr => exact ⟨_, .found (by simp [hspace]) hl⟩
        | groupRef | attrGroupRef => exact hreference (by simp [hspace])
        | type | group | attrGroup => exact ⟨_, .other (by simp [hspace]) hl⟩
    exact hall _ (List.Subset.refl _)

/-! ## What is kept of the declarations -/

/-- The tally of expanded content is that of the declarations that are met, capped once. -/
theorem Expands.tally_share (hl : Expands g path ds l) (h : g.Loaded policy)
    {p : Declaration → Bool} (hp : Nominal p) {fuel : Nat}
    (hinner : (g.scopeAt s).parent ≠ none) (hsub : ds ⊆ (g.scopeAt s).entries)
    (hfuel : absentBelow g.nodes.size path ≤ fuel) :
    (ds.map fun d => tally p (share g fuel .once path d)).sum =
      .cap ((l.filter fun e => p e.declaration).map Encounter.range).sum := by
  induction hl generalizing s fuel with
  | nil => exact Occurrence.cap_zero.symm
  | @found path d ds l hspace _ ih =>
    rw [List.map_cons, List.sum_cons, tally_share_found hspace,
      ih hinner (List.subset_of_cons_subset hsub) hfuel]
    cases hd : p d with
    | true =>
      have hrange : Encounter.range { declaration := d } = d.occurs.range := mul_one _
      rw [List.filter_cons_of_pos (by simpa using hd), List.map_cons, List.sum_cons, hrange,
        Occurrence.cap_add, Occurrence.cap_range]
      rfl
    | false =>
      rw [List.filter_cons_of_neg (by simp [hd])]
      exact zero_add _
  | @entered path d ds l l' group inner hspace hgroup hpath hown _ _ ihinner ihrest =>
    obtain ⟨hd, hrest⟩ := List.cons_subset.mp hsub
    obtain ⟨hparent, left, rfl, hleft⟩ :=
      reference_left h hinner hd hspace hgroup hpath hown hfuel
    -- the sum within the group is capped, multiplied and capped again, which is one cap in the end
    rw [List.map_cons, List.sum_cons, ihrest hinner hrest hfuel,
      tally_share_reference hspace hgroup hpath hown,
      tally_expand_succ hp (reference_unnamed h hparent),
      ihinner hparent (List.Subset.refl _) hleft, ← Occurrence.cap_mul_range, ← Occurrence.cap_add,
      List.filter_append, List.map_append, List.sum_append]
    congr 2
    rw [List.filter_map, List.map_map, ← List.sum_map_mul_right]
    refine congrArg List.sum (List.map_congr_left fun e _ => ?_)
    exact (Encounter.range_under d e).symm
  | repeated hspace hgroup hpath _ ih =>
    rw [List.map_cons, List.sum_cons, share_repeated hspace hgroup hpath,
      ih hinner (List.subset_of_cons_subset hsub) hfuel]
    exact zero_add _
  | other hspace _ ih =>
    rw [List.map_cons, List.sum_cons, share_other hspace,
      ih hinner (List.subset_of_cons_subset hsub) hfuel]
    exact zero_add _

/-- The keys of what the members of a scope add are those of all that its declarations add, without
some repeats. -/
theorem condenses_shares (h : g.Loaded policy) (hinner : (g.scopeAt s).parent ≠ none) (fuel : Nat)
    (factor : Occurrence) (path : List NodeId) :
    Condenses
      ((g.scopeAt s).entries.flatMap fun d =>
        (share g fuel factor path d).map fun c => memberKey c.declaration)
      ((g.scopeAt s).members.flatMap fun d =>
        (share g fuel factor path d).map fun c => memberKey c.declaration) := by
  refine Scope.condenses_members fun e d hd hnamed hsymbol => ?_
  obtain ⟨hname, hspace⟩ := fields_of_symbol? hnamed hsymbol
  have hkey : ∀ d' : Declaration, d'.name = d.name → d'.space = d.space →
      (share g fuel factor path d').map (fun c => memberKey c.declaration) =
        if d.space = .element ∨ d.space = .attr then [memberKey d] else [] := by
    intro d' hname' hspace'
    cases hd' : d.space with
    | element | attr =>
      rw [share_found (by rw [hspace']; simp [hd']), if_pos (by simp), ← memberKey_congr hname' hspace']
      rfl
    | type | group | attrGroup =>
      rw [share_other (by rw [hspace']; simp [hd']), if_neg (by simp)]
      rfl
    | groupRef | attrGroupRef =>
      rw [reference_unnamed h hinner d hd (by simp [hd'])] at hnamed
      cases hnamed
  rw [hkey { e with occurs := e.occurs.plus d.occurs } hname hspace, hkey e hname hspace,
    hkey d rfl rfl]
  exact ⟨rfl, List.Subset.refl _⟩

/-- The keys of expanded content are those of the declarations that are met, without some repeats. -/
theorem Expands.condenses (hl : Expands g path ds l) (h : g.Loaded policy) {fuel : Nat}
    {factor : Occurrence} (hinner : (g.scopeAt s).parent ≠ none) (hsub : ds ⊆ (g.scopeAt s).entries)
    (hfuel : absentBelow g.nodes.size path ≤ fuel) :
    Condenses (l.map Encounter.key) (ds.flatMap fun d =>
      (share g fuel factor path d).map fun c => memberKey c.declaration) := by
  induction hl generalizing s fuel factor with
  | nil => exact .refl _
  | found hspace _ ih =>
    rw [List.flatMap_cons, share_found hspace]
    exact (Condenses.refl [_]).append (ih hinner (List.subset_of_cons_subset hsub) hfuel)
  | @entered path d ds l l' group inner hspace hgroup hpath hown _ _ ihinner ihrest =>
    obtain ⟨hd, hrest⟩ := List.cons_subset.mp hsub
    obtain ⟨hparent, left, rfl, hleft⟩ :=
      reference_left h hinner hd hspace hgroup hpath hown hfuel
    have hunder : (l.map (Encounter.under d)).map Encounter.key = l.map Encounter.key := by
      rw [List.map_map]
      rfl
    rw [List.flatMap_cons, share_reference hspace hgroup hpath hown, expand_succ, List.map_flatMap,
      List.map_append, hunder]
    exact ((ihinner hparent (List.Subset.refl _) hleft).trans
      (condenses_shares h hparent _ _ _)).append (ihrest hinner hrest hfuel)
  | repeated hspace hgroup hpath _ ih =>
    rw [List.flatMap_cons, share_repeated hspace hgroup hpath]
    exact ih hinner (List.subset_of_cons_subset hsub) hfuel
  | other hspace _ ih =>
    rw [List.flatMap_cons, share_other hspace]
    exact ih hinner (List.subset_of_cons_subset hsub) hfuel

/-! ## Members -/

/-- The contributions that are folded into the member with a key. -/
def foldedInto (g : Graph) (n : NodeId) (k : MemberKind × String) : List Contribution :=
  (contentOf g n).filter fun c => memberKey c.declaration = k

/-- The declarations that the member with a key comes from. -/
def withKey (k : MemberKind × String) (l : List Encounter) : List Encounter :=
  l.filter fun e => e.key = k

/-- What a member says can be read off what is folded into it. -/
theorem IsLowered.member {n : NodeId} {decl : TypeDecl} (h : IsLowered g n decl)
    (htag : (g.nodeAt n).tag = .complexType) {m : Member} (hm : m ∈ decl.members)
    (hkind : m.kind ≠ .content) :
    ∃ c rest, foldedInto g n m.key = c :: rest ∧
      (m.optional = true ↔ ((c :: rest).map Contribution.occurs).sum.min.val = 0) ∧
      (m.type.isArray = true ↔ m.kind = .element ∧ (1 < c.occurs.range.2 ∨ rest ≠ [])) := by
  have hmem : m.outline ∈ (outlines (contentOf g n) []).filter fun o => o.key = m.key := by
    rw [← h.outlines_eq htag]
    have hkept : m ∈ decl.members.filter fun m => m.kind ≠ .content :=
      List.mem_filter.mpr ⟨hm, by simpa using hkind⟩
    exact List.mem_filter.mpr ⟨List.mem_map_of_mem hkept, decide_eq_true m.key_outline⟩
  rw [filter_outlines] at hmem
  change m.outline ∈ gathered m.key (foldedInto g n m.key) at hmem
  cases hfolded : foldedInto g n m.key with
  | nil =>
    rw [hfolded] at hmem
    cases hmem
  | cons c rest =>
    rw [hfolded, gathered] at hmem
    have houtline := List.mem_singleton.mp hmem
    have hoptional := congrArg Outline.optional houtline
    have harray := congrArg Outline.isArray houtline
    change m.optional = _ at hoptional
    change m.type.isArray = _ at harray
    refine ⟨c, rest, rfl, ?_, ?_⟩
    · rw [hoptional, Occurrence.min_sum_eq_zero, List.all_eq_true, List.forall_mem_map]
      simp only [decide_eq_true_eq]
    · rw [harray, Bool.and_eq_true, decide_eq_true_eq, Bool.or_eq_true, Bound.isMany_iff]
      simp [Member.key, Occurrence.range]

/-- How many contributions or declarations have a key. -/
theorem length_filter_key {α : Type} (f : α → MemberKind × String) (k : MemberKind × String)
    (l : List α) : (l.filter fun a => f a = k).length = (l.map f).count k := by
  rw [← List.countP_eq_length_filter, List.count, List.countP_map]
  refine List.countP_congr fun a _ => ?_
  simp

/-- All that is met in the content of a complex type, and what is kept of it. -/
theorem exists_encounters (h : g.Loaded policy) {n : NodeId} (hn : n < g.nodes.size)
    (htag : (g.nodeAt n).tag = .complexType) :
    ∃ own l, (g.nodeAt n).ownScope = some own ∧ Expands g [n] (g.scopeAt own).entries l ∧
      Condenses (l.map Encounter.key) ((contentOf g n).map fun c => memberKey c.declaration) ∧
      ∀ k, ((foldedInto g n k).map Contribution.occurs).sum =
        .cap ((withKey k l).map Encounter.range).sum := by
  obtain ⟨own, hmodel⟩ := hasModel_complexType h hn htag
  obtain ⟨l, hl⟩ := exists_expands h hmodel.inner [n]
  have hcontent : contentOf g n = expand g (g.nodes.size + 1) own .once [n] := by
    rw [contentOf, hmodel.opens]
  have hfuel := absentBelow_le g.nodes.size [n]
  refine ⟨own, l, hmodel.opens, hl, ?_, fun k => ?_⟩
  · rw [hcontent, expand_succ, List.map_flatMap]
    exact (hl.condenses h hmodel.inner (List.Subset.refl _) hfuel).trans
      (condenses_shares h hmodel.inner _ _ _)
  · have hnominal : Nominal fun d => memberKey d = k := fun d d' hname hspace => by
      change decide (memberKey d' = k) = decide (memberKey d = k)
      rw [memberKey_congr hname hspace]
    have htally := hl.tally_share h hnominal hmodel.inner (List.Subset.refl _) hfuel
    rw [← tally_expand_succ hnominal (reference_unnamed h hmodel.inner), ← hcontent] at htally
    exact htally

/-- The element and attribute members of the interface that a complex type becomes are the exact fold
of its expanded content. There is one for each key, in the order in which the keys are met. It is
optional if and only if the least numbers of its declarations, each multiplied by those of the
references that lead to it, add up to nothing. An element is an array if and only if several
contributions are folded into it or the only one allows more than one occurrence; if none of its
declarations is ruled out by a greatest number of zero, that is so if and only if the greatest numbers
add up to more than one. Attributes are no arrays. -/
theorem members_fold_content {policy : RepeatPolicy} {documents : String → Except FetchFault String}
    {limit : Nat} {url : String} {uri : Option String} {g : Graph} {entry : NamespaceId}
    (hload : Loading.load (m := Id) documents limit (Graph.initial policy) url uri = .ok (g, entry))
    (options : ExportOptions) {nss : List NamespaceId} (hnss : ∀ ns ∈ nss, ns < g.namespaces.size)
    {ms : List ModuleId} {t : Target}
    (hrun : (nss.mapM (exportNamespace options g)).run.run {} = (.ok ms, t))
    {n : NodeId} (htag : (g.nodeAt n).tag = .complexType) {id : TypeId}
    (hid : t.typeOf? n = some id) :
    ∃ own l, (g.nodeAt n).ownScope = some own ∧
      (∀ l', Expands g [n] (g.scopeAt own).entries l' ↔ l' = l) ∧
      (((t.model.typeAt id).members.filter fun m => m.kind ≠ .content).map Member.key).Nodup ∧
      ((t.model.typeAt id).members.filter fun m => m.kind ≠ .content).map Member.key =
        (l.map Encounter.key).eraseDups ∧
      ∀ m ∈ (t.model.typeAt id).members, m.kind ≠ .content →
        (m.optional = true ↔ ((withKey m.key l).map fun e => e.range.1).sum = 0) ∧
        (m.kind = .attr → m.type.isArray = false) ∧
        (m.kind = .element →
          (m.type.isArray = true ↔ 2 ≤ (foldedInto g n m.key).length ∨
            ∃ c, foldedInto g n m.key = [c] ∧ 1 < c.occurs.range.2) ∧
          ((∀ e ∈ withKey m.key l, e.range.2 ≠ 0) →
            (m.type.isArray = true ↔ 1 < ((withKey m.key l).map fun e => e.range.2).sum))) := by
  have h := Loading.load_loaded hload
  obtain ⟨ms', t', hrun', hnext, _⟩ :=
    mapM_exportNamespace_succeeds h options hnss (Target.sound_empty g)
  cases hrun.symm.trans hrun'
  have hmem := hnext.sound.typeOf?_eq_some.mp hid
  have hn : n < g.nodes.size := hnext.sound.key_lt _ hmem
  have hlowered := (hnext.grows.lowered _ hmem).resolve_left (by simp)
  obtain ⟨own, l, hown, hl, hcondenses, hsums⟩ := exists_encounters h hn htag
  have hkeys : ((t.model.typeAt id).members.filter fun m => m.kind ≠ .content).map Member.key =
      (l.map Encounter.key).eraseDups := by
    rw [← hcondenses.firsts, ← keys_outlines, ← hlowered.outlines_eq htag, List.map_map]
    rfl
  refine ⟨own, l, hown, fun l' => ⟨fun hl' => hl'.unique hl, fun heq => heq ▸ hl⟩, ?_, hkeys,
    fun m hm hkind => ?_⟩
  · rw [hkeys]
    exact nodup_eraseDups _
  obtain ⟨c, rest, hfolded, hoptional, harray⟩ := hlowered.member htag hm hkind
  have hsum := hsums m.key
  rw [hfolded] at hsum
  have hmin : ((withKey m.key l).map Encounter.range).sum.1 =
      ((withKey m.key l).map fun e => e.range.1).sum := by
    rw [← AddMonoidHom.coe_fst, map_list_sum, List.map_map]
    rfl
  have hmax : ((withKey m.key l).map Encounter.range).sum.2 =
      ((withKey m.key l).map fun e => e.range.2).sum := by
    rw [← AddMonoidHom.coe_snd, map_list_sum, List.map_map]
    rfl
  refine ⟨?_, fun hattr => ?_, fun helement => ⟨?_, fun hpossible => ?_⟩⟩
  · rw [hoptional, hsum, ← hmin]
    exact Count.cap_val_eq_zero
  · by_contra hne
    have hkind' := (harray.mp (Bool.not_eq_false _ ▸ hne)).1
    rw [hattr] at hkind'
    cases hkind'
  · rw [harray, hfolded]
    cases rest <;> simp [helement]
  · rw [harray, and_iff_right helement]
    cases rest with
    | nil =>
      -- the only contribution is the sum of all declarations
      have hone : ([c].map Contribution.occurs).sum = c.occurs := by simp
      rw [hone] at hsum
      rw [hsum, ← hmax, or_iff_left (by simp)]
      exact Bound.one_lt_cap
    | cons c' rest =>
      -- there are as many declarations as contributions, and each adds at least one
      have hcount : 2 ≤ (withKey m.key l).length := by
        have hle := hcondenses.sublist.count_le m.key
        rw [← length_filter_key, ← length_filter_key] at hle
        change (foldedInto g n m.key).length ≤ (withKey m.key l).length at hle
        rw [hfolded] at hle
        exact Nat.le_trans (by simp) hle
      have hle := List.card_nsmul_le_sum ((withKey m.key l).map fun e => e.range.2) 1 (by
        intro x hx
        obtain ⟨e, he, rfl⟩ := List.mem_map.mp hx
        exact Order.one_le_iff_ne_zero.mpr (hpossible e he))
      rw [List.length_map, nsmul_one] at hle
      have hmany : 1 < ((withKey m.key l).map fun e => e.range.2).sum :=
        lt_of_lt_of_le (by exact_mod_cast hcount) hle
      simp [hmany]

/-- A group that refers to itself, and a type that declares an element of the group once more. -/
def repeatingDocument (_ : String) : Except FetchFault String :=
  .ok ("<x:schema xmlns:x='http://www.w3.org/2001/XMLSchema'>" ++
    "<x:group name='G'><x:sequence><x:element name='a'/><x:group ref='G'/></x:sequence></x:group>" ++
    "<x:complexType name='T'><x:sequence><x:group ref='G' minOccurs='0'/><x:element name='b'/>" ++
    "<x:element name='a'/></x:sequence><x:attribute name='a'/></x:complexType></x:schema>")

set_option maxRecDepth 100000 in
theorem members_fold_content_example :
    ∃ g entry ms t, Loading.load (m := Id) repeatingDocument 1 (Graph.initial .standard) "a" none =
        .ok (g, entry) ∧ ([entry].mapM (exportNamespace {} g)).run.run {} = (.ok ms, t) ∧
      (t.model.typeAt 0).members.map Member.outline =
        [⟨.element, "a", false, true⟩, ⟨.element, "b", false, false⟩, ⟨.attr, "a", true, false⟩] ∧
      ∃ own l, (g.nodeAt 55).ownScope = some own ∧ Expands g [55] (g.scopeAt own).entries l ∧
        (l.map Encounter.key).eraseDups =
          [(.element, "a"), (.element, "b"), (.attr, "a")] := by
  have heval : ((Loading.load (m := Id) repeatingDocument 1 (Graph.initial .standard) "a"
        none).toOption.map fun r =>
      let t := (([r.2].mapM (exportNamespace {} r.1)).run.run {}).2
      (decide (r.2 < r.1.namespaces.size ∧ (r.1.nodeAt 55).tag = .complexType ∧ t.typeOf? 55 = some 0),
        (t.model.typeAt 0).members.map Member.outline)) =
      some (true, [⟨.element, "a", false, true⟩, ⟨.element, "b", false, false⟩,
        ⟨.attr, "a", true, false⟩]) :=
    Loading.load_of_letters (fun _ => .append (.append (.append (.ok _) _) _) _) (by decide +kernel)
  obtain ⟨r, hload, hresult⟩ := Sequencing.eq_ok_of_toOption heval
  simp only [Prod.mk.injEq, decide_eq_true_eq] at hresult
  obtain ⟨⟨hentry, htag, hid⟩, hmembers⟩ := hresult
  have hnss : ∀ ns ∈ [r.2], ns < r.1.namespaces.size := by simpa using hentry
  obtain ⟨ms, t, hrun, _⟩ := mapM_exportNamespace_succeeds (Loading.load_loaded hload) {} hnss
    (Target.sound_empty r.1)
  rw [hrun] at hid hmembers
  obtain ⟨own, l, hown, hl, _, hkeys, _⟩ := members_fold_content hload {} hnss hrun htag hid
  have hall : ∀ o ∈ (t.model.typeAt 0).members.map Member.outline, o.kind ≠ .content := by
    rw [hmembers]
    decide
  have hfilter : ((t.model.typeAt 0).members.filter fun m => m.kind ≠ .content) =
      (t.model.typeAt 0).members :=
    List.filter_eq_self.mpr fun m hm => decide_eq_true (hall _ (List.mem_map_of_mem hm))
  refine ⟨r.1, r.2, ms, t, hload, hrun, hmembers, own, l, hown, (hl l).mpr rfl, ?_⟩
  rw [← hkeys, hfilter]
  have hmap := congrArg (List.map Outline.key) hmembers
  rw [List.map_map] at hmap
  exact hmap

end Lowering

end XsdTypes
