import XsdTypes.Proofs.Schema.Absorption
import XsdTypes.Proofs.Schema.Ranges
import XsdTypes.Proofs.Schema.Scanning

/-!
# Folding repeats of a name

The members of a scope are its declarations with all that have one name folded into the first of
them. The declarations are gone through once, and counts are capped every time one is added.
Nevertheless every member has the sum of all occurrences of its name, capped once, and what stands
between them makes no difference (`Merged`).
-/

namespace XsdTypes

open Declaration (placesIn)

namespace Declaration

/-- All of a declaration but its occurrences. -/
def subject (d : Declaration) : Option QName × SymbolSpace × NodeId :=
  (d.name, d.space, d.node)

/-- Declarations of one name together: the first one, with the occurrences of all of them. -/
def together : List Declaration → List Declaration
  | [] => []
  | d :: ds => [{ d with occurs := .cap ((d :: ds).map fun e => e.occurs.range).sum }]

/-- The places of the declarations that repeat no name: those without a name, and the first one of
every name. -/
def firstPlaces (entries : List Declaration) : List Nat :=
  (List.range entries.length).filter fun i =>
    ∀ symbol ∈ entries[i]?.bind symbol?, (placesIn entries symbol).head? = some i

theorem named_iff {d e : Declaration} : (d.name.isSome ∧ e.symbol? = d.symbol?) ↔
    ∃ symbol, d.symbol? = some symbol ∧ e.symbol? = some symbol := by
  constructor
  · rintro ⟨hname, hsame⟩
    obtain ⟨name, hname⟩ := Option.isSome_iff_exists.mp hname
    have hd : d.symbol? = some (d.space, name) := by rw [symbol?, hname]; rfl
    exact ⟨_, hd, hsame.trans hd⟩
  · rintro ⟨symbol, hd, he⟩
    obtain ⟨name, hname, _⟩ := Option.map_eq_some_iff.mp hd
    exact ⟨by rw [hname]; rfl, he.trans hd.symm⟩

theorem firstPlaces_append (entries : List Declaration) (d : Declaration) :
    firstPlaces (entries ++ [d]) = firstPlaces entries ++
      if ∀ symbol ∈ d.symbol?, placesIn entries symbol = [] then [entries.length] else [] := by
  -- a name that stands before keeps its first place
  have hold : ∀ i ∈ List.range entries.length,
      decide (∀ symbol ∈ (entries ++ [d])[i]?.bind symbol?,
        (placesIn (entries ++ [d]) symbol).head? = some i) =
      decide (∀ symbol ∈ entries[i]?.bind symbol?, (placesIn entries symbol).head? = some i) := by
    intro i hi
    rw [List.getElem?_append_left (List.mem_range.mp hi)]
    refine decide_eq_decide.mpr (forall₂_congr fun symbol hsymbol => ?_)
    have hplace : i ∈ placesIn entries symbol := List.mem_filter.mpr ⟨hi, by simpa using hsymbol⟩
    rw [placesIn_append, List.head?_append_of_ne_nil _ (List.ne_nil_of_mem hplace)]
  have hnew : (∀ symbol ∈ (entries ++ [d])[entries.length]?.bind symbol?,
        (placesIn (entries ++ [d]) symbol).head? = some entries.length) ↔
      ∀ symbol ∈ d.symbol?, placesIn entries symbol = [] := by
    rw [List.getElem?_concat_length, Option.bind_some]
    refine forall₂_congr fun symbol hsymbol => ?_
    rw [placesIn_append, if_pos (Option.mem_def.mp hsymbol)]
    cases hplaces : placesIn entries symbol with
    | nil => simp
    | cons place places =>
      have hlt : place < entries.length := lt_of_mem_placesIn (hplaces ▸ List.mem_cons_self)
      simp [Nat.ne_of_lt hlt]
  rw [firstPlaces, List.length_append, List.length_singleton, List.range_succ, List.filter_append,
    List.filter_congr hold]
  simp only [List.filter_singleton, Bool.cond_decide]
  rw [if_congr hnew rfl rfl, firstPlaces]

theorem filterMap_firstPlaces (entries : List Declaration) (d : Declaration) :
    (firstPlaces entries).filterMap (fun i => (entries ++ [d])[i]?.map subject) =
      (firstPlaces entries).filterMap fun i => entries[i]?.map subject := by
  refine List.filterMap_congr fun i hi => ?_
  rw [List.getElem?_append_left (List.mem_range.mp (List.mem_filter.mp hi).1)]

theorem together_singleton (d : Declaration) : together [d] = [d] := by
  rw [together, List.map_singleton, List.sum_singleton, Occurrence.cap_range]

/-- One more declaration adds its occurrences. -/
theorem together_concat {ds : List Declaration} {e : Declaration} (h : together ds = [e])
    (d : Declaration) : together (ds ++ [d]) = [{ e with occurs := e.occurs.plus d.occurs }] := by
  cases ds with
  | nil => cases h
  | cons first rest =>
    cases h
    have hsum : Occurrence.cap ((first :: (rest ++ [d])).map fun e => e.occurs.range).sum =
        (Occurrence.cap ((first :: rest).map fun e => e.occurs.range).sum).plus d.occurs := by
      rw [← List.cons_append, List.map_append, List.sum_append, Occurrence.cap_add,
        List.map_singleton, List.sum_singleton, Occurrence.cap_range]
      rfl
    rw [List.cons_append, together, hsum]

theorem length_together (ds : List Declaration) : (together ds).length ≤ 1 := by
  cases ds with
  | nil => exact Nat.zero_le _
  | cons d ds => exact Nat.le_refl _

theorem together_eq_nil {ds : List Declaration} : together ds = [] ↔ ds = [] := by
  cases ds <;> simp [together]

theorem eq_of_mem_together {ds : List Declaration} {m : Declaration} (h : m ∈ together ds) :
    (∃ first, ds.head? = some first ∧ m.subject = first.subject) ∧
      m.occurs = .cap (ds.map fun d => d.occurs.range).sum := by
  cases ds with
  | nil => cases h
  | cons d ds =>
    rw [List.mem_singleton.mp h]
    exact ⟨⟨d, rfl, rfl⟩, rfl⟩

/-- The greatest and the least numbers are added up separately. -/
theorem sum_range (ds : List Declaration) : (ds.map fun d => d.occurs.range).sum =
    ((ds.map fun d => d.occurs.min.val).sum, (ds.map fun d => d.occurs.max.toENat).sum) := by
  induction ds with
  | nil => rfl
  | cons d ds ih =>
    rw [List.map_cons, List.sum_cons, ih, List.map_cons, List.sum_cons, List.map_cons, List.sum_cons]
    rfl

end Declaration

/-- A sum of bounds is unbounded if and only if one of them is. -/
theorem Bound.cap_sum_eq_unbounded {α : Type} {l : List α} {f : α → Bound} :
    cap (l.map fun a => (f a).toENat).sum = .unbounded ↔ ∃ a ∈ l, f a = .unbounded := by
  induction l with
  | nil => simp [cap]
  | cons a l ih =>
    rw [List.map_cons, List.sum_cons, cap_add, cap_toENat]
    simp only [List.mem_cons, exists_eq_or_imp, ← ih]
    cases f a with
    | unbounded => simp [plus]
    | atMost n => cases cap (l.map fun a => (f a).toENat).sum <;> simp [plus]

open Declaration

namespace Listing

/-- The declarations without a name, in order. -/
def anonymous (entries : List Declaration) : List Declaration :=
  entries.filter fun d => d.name.isNone

variable {entries : List Declaration} {symbol : SchemaSymbol} {e : Declaration}

theorem anonymous_named (before : List Declaration) (he : e.symbol? = some symbol)
    (rest : List Declaration) : anonymous (before ++ e :: rest) = anonymous before ++ anonymous rest := by
  obtain ⟨name, hname, _⟩ := Option.map_eq_some_iff.mp he
  simp [anonymous, hname]

theorem findAll_concat (entries : List Declaration) (d : Declaration) (symbol : SchemaSymbol) :
    findAll (entries ++ [d]) symbol =
      findAll entries symbol ++ if d.symbol? = some symbol then [d] else [] := by
  rw [findAll, List.filter_append, List.filter_singleton]
  simp [findAll]

theorem findAll_split (entries : List Declaration) (e : Declaration) (rest : List Declaration)
    (symbol : SchemaSymbol) :
    findAll (entries ++ e :: rest) symbol =
      findAll entries symbol ++ (if e.symbol? = some symbol then [e] else []) ++ findAll rest symbol := by
  rw [List.append_cons, findAll, List.filter_append, ← findAll, findAll_concat, ← findAll]

theorem findAll_eq_nil : findAll entries symbol = [] ↔ ∀ e ∈ entries, e.symbol? ≠ some symbol := by
  simp [findAll]

theorem placesIn_eq_nil_iff : placesIn entries symbol = [] ↔ findAll entries symbol = [] := by
  refine ⟨fun h => ?_, fun h => placesIn_eq_nil (findAll_eq_nil.mp h)⟩
  rw [← filterMap_placesIn, h, List.filterMap_nil]

end Listing

open Listing (findAll)

/-- The list `merged` is the list of declarations with repeats of a name folded. -/
structure Merged (entries merged : List Declaration) : Prop where
  /-- A name stands once, for all its declarations. -/
  named : ∀ symbol, findAll merged symbol = together (findAll entries symbol)
  /-- Declarations without a name stay. -/
  anonymous : Listing.anonymous merged = Listing.anonymous entries
  /-- What stands first stays first. -/
  order : merged.map subject = (firstPlaces entries).filterMap fun i => entries[i]?.map subject

/-- A declaration is added at the end, or to the first one of its name. -/
theorem Scope.absorb_cases (d : Declaration) (merged : List Declaration) :
    (absorb d merged = merged ++ [d] ∧
      ∀ symbol, d.symbol? = some symbol → Listing.findAll merged symbol = []) ∨
    ∃ symbol before e rest, d.symbol? = some symbol ∧ merged = before ++ e :: rest ∧
      e.symbol? = some symbol ∧ Listing.findAll before symbol = [] ∧
      absorb d merged = before ++ { e with occurs := e.occurs.plus d.occurs } :: rest := by
  induction merged with
  | nil => exact Or.inl ⟨rfl, fun _ _ => rfl⟩
  | cons e merged ih =>
    by_cases hsame : d.name.isSome ∧ e.symbol? = d.symbol?
    · obtain ⟨symbol, hd, he⟩ := named_iff.mp hsame
      exact Or.inr ⟨symbol, [], e, merged, hd, rfl, he, rfl, if_pos hsame⟩
    · have hother : ∀ symbol, d.symbol? = some symbol → e.symbol? ≠ some symbol :=
        fun symbol hd he => hsame (named_iff.mpr ⟨symbol, hd, he⟩)
      have hskip : ∀ symbol l, d.symbol? = some symbol →
          Listing.findAll (e :: l) symbol = Listing.findAll l symbol :=
        fun symbol l hd => List.filter_cons_of_neg (by simpa using hother symbol hd)
      rw [absorb, if_neg hsame]
      rcases ih with ⟨heq, hfree⟩ | ⟨symbol, before, e', rest, hd, hmerged, he', hbefore, heq⟩
      · refine Or.inl ⟨by rw [heq, List.cons_append], fun symbol hd => ?_⟩
        rw [hskip symbol merged hd, hfree symbol hd]
      · refine Or.inr ⟨symbol, e :: before, e', rest, hd, by rw [hmerged, List.cons_append], he', ?_,
          by rw [heq, List.cons_append]⟩
        rw [hskip symbol before hd, hbefore]

namespace Merged

variable {entries merged : List Declaration} {d : Declaration}

theorem nil : Merged [] [] where
  named _ := rfl
  anonymous := rfl
  order := rfl

/-- A name that has not been met yet, or no name. -/
theorem append (h : Merged entries merged)
    (hfree : ∀ symbol, d.symbol? = some symbol → findAll merged symbol = []) :
    Merged (entries ++ [d]) (merged ++ [d]) := by
  have hnone : ∀ symbol, d.symbol? = some symbol → findAll entries symbol = [] := by
    intro symbol hd
    rw [← together_eq_nil, ← h.named, hfree symbol hd]
  refine ⟨fun symbol => ?_, ?_, ?_⟩
  · rw [Listing.findAll_concat, Listing.findAll_concat]
    by_cases hd : d.symbol? = some symbol
    · rw [if_pos hd, hfree symbol hd, hnone symbol hd, List.nil_append, together_singleton]
    · rw [if_neg hd, List.append_nil, List.append_nil, h.named]
  · rw [Listing.anonymous, List.filter_append, ← Listing.anonymous, h.anonymous, Listing.anonymous,
      Listing.anonymous, List.filter_append]
  · have hfirst : ∀ symbol ∈ d.symbol?, placesIn entries symbol = [] :=
      fun symbol hd => Listing.placesIn_eq_nil_iff.mpr (hnone symbol hd)
    rw [firstPlaces_append, if_pos hfirst, List.filterMap_append, filterMap_firstPlaces, ← h.order,
      List.map_append]
    simp

/-- A name that has been met. -/
theorem repeated (h : Merged entries merged) {symbol : SchemaSymbol} {before rest : List Declaration}
    {e : Declaration} (hd : d.symbol? = some symbol) (hmerged : merged = before ++ e :: rest)
    (he : e.symbol? = some symbol) (hbefore : findAll before symbol = []) :
    Merged (entries ++ [d]) (before ++ { e with occurs := e.occurs.plus d.occurs } :: rest) := by
  set e' : Declaration := { e with occurs := e.occurs.plus d.occurs } with hdef
  have he' : e'.symbol? = some symbol := he
  -- the name stands nowhere else
  have hsplit := Listing.findAll_split before e rest symbol
  rw [if_pos he, hbefore, List.nil_append, List.singleton_append, ← hmerged] at hsplit
  have hrest : findAll rest symbol = [] := by
    have hlength := length_together (findAll entries symbol)
    rw [← h.named, hsplit, List.length_cons] at hlength
    exact List.eq_nil_of_length_eq_zero (Nat.le_zero.mp (Nat.le_of_succ_le_succ hlength))
  have hone : together (findAll entries symbol) = [e] := by rw [← h.named, hsplit, hrest]
  refine ⟨fun other => ?_, ?_, ?_⟩
  · rw [Listing.findAll_split, Listing.findAll_concat]
    by_cases hother : symbol = other
    · subst hother
      rw [if_pos he', if_pos hd, hbefore, hrest, together_concat hone]
      rfl
    · have hne : ¬ some symbol = some other := fun heq => hother (Option.some.inj heq)
      have hold := h.named other
      rw [hmerged, Listing.findAll_split, he, if_neg hne] at hold
      rw [he', if_neg hne, hold, hd, if_neg hne, List.append_nil]
  · have hold := h.anonymous
    rw [hmerged, Listing.anonymous_named before he rest] at hold
    rw [Listing.anonymous_named before he' rest, hold, Listing.anonymous_named entries hd []]
    exact (List.append_nil _).symm
  · have hmet : ¬ ∀ symbol ∈ d.symbol?, placesIn entries symbol = [] := by
      intro hfree
      have hnil := together_eq_nil.mpr (Listing.placesIn_eq_nil_iff.mp (hfree symbol hd))
      rw [hone] at hnil
      cases hnil
    rw [firstPlaces_append, if_neg hmet, List.append_nil, filterMap_firstPlaces, ← h.order, hmerged,
      List.map_append, List.map_append]
    rfl

/-- Adding a declaration to the list and folding it go together. -/
theorem absorb (h : Merged entries merged) (d : Declaration) :
    Merged (entries ++ [d]) (Scope.absorb d merged) := by
  rcases Scope.absorb_cases d merged with ⟨heq, hfree⟩ |
    ⟨symbol, before, e, rest, hd, hmerged, he, hbefore, heq⟩
  · rw [heq]
    exact h.append hfree
  · rw [heq]
    exact h.repeated hd hmerged he hbefore

end Merged

theorem Scope.merged_members (s : Scope) : Merged s.entries s.members := by
  rw [Scope.members_eq_foldl]
  induction s.entries using List.reverseRecOn with
  | nil => exact .nil
  | append_singleton entries d ih =>
    rw [List.foldl_concat]
    exact ih.absorb d

/-- Whatever declarations a scope has, its members are these with repeats of a name folded: no name
stands twice, declarations without a name stay, and all stand in the order in which they come first.
What a name has is the node of its first declaration and the exact sums of the least and of the
greatest numbers of all its declarations, capped once; what stands between these does not matter. -/
theorem Scope.members_add_up (s : Scope) :
    Merged s.entries s.members ∧
    (∀ symbol, (Listing.findAll s.members symbol).length ≤ 1) ∧
    (∀ symbol, ∀ m ∈ Listing.findAll s.members symbol,
      (∃ first, (Listing.findAll s.entries symbol).head? = some first ∧ m.node = first.node) ∧
      m.occurs.min.val =
        min ((Listing.findAll s.entries symbol).map fun d => d.occurs.min.val).sum Count.limit ∧
      m.occurs.max = .cap ((Listing.findAll s.entries symbol).map fun d => d.occurs.max.toENat).sum ∧
      (m.occurs.max = .unbounded ↔
        ∃ d ∈ Listing.findAll s.entries symbol, d.occurs.max = .unbounded)) ∧
    ∀ (t : Scope) (symbol : SchemaSymbol),
      Listing.findAll t.entries symbol = Listing.findAll s.entries symbol →
      Listing.findAll t.members symbol = Listing.findAll s.members symbol := by
  have hmerged := s.merged_members
  refine ⟨hmerged, fun symbol => ?_, fun symbol m hm => ?_, fun t symbol hsame => ?_⟩
  · rw [hmerged.named]
    exact length_together _
  · rw [hmerged.named] at hm
    obtain ⟨⟨first, hfirst, hsubject⟩, hoccurs⟩ := eq_of_mem_together hm
    rw [sum_range] at hoccurs
    have hmax : m.occurs.max =
        .cap ((Listing.findAll s.entries symbol).map fun d => d.occurs.max.toENat).sum := by
      rw [hoccurs]
      rfl
    refine ⟨⟨first, hfirst, congrArg (fun subject => subject.2.2) hsubject⟩, ?_, hmax, ?_⟩
    · rw [hoccurs]
      rfl
    · rw [hmax]
      exact Bound.cap_sum_eq_unbounded
  · rw [t.merged_members.named, hmerged.named, hsame]

/-- A name that is declared twice, with others and one without a name in between. -/
def scatteredScope : Scope where
  parent := none
  ns := 0
  entries :=
    [⟨some (.bare "a"), .element, 1, ⟨.cap 3000000000, .atMost (.cap 3000000000)⟩⟩,
      ⟨none, .type, 2, .once⟩, ⟨some (.bare "b"), .element, 3, .once⟩,
      ⟨some (.bare "a"), .element, 4, ⟨.cap 2000000000, .unbounded⟩⟩,
      ⟨some (.bare "a"), .attr, 5, .once⟩]

theorem Scope.members_add_up_example :
    ∃ m ∈ scatteredScope.members, m.symbol? = some (.element, .bare "a") ∧ m.node = 1 ∧
      m.occurs.min.val = Count.limit ∧ m.occurs.max = .unbounded := by
  obtain ⟨hmerged, _, hsums, _⟩ := Scope.members_add_up scatteredScope
  set symbol : SchemaSymbol := (.element, .bare "a") with hsymbol
  obtain ⟨m, hm⟩ : ∃ m, m ∈ Listing.findAll scatteredScope.members symbol := by
    refine List.exists_mem_of_ne_nil _ fun hnil => ?_
    rw [hmerged.named, together_eq_nil] at hnil
    exact absurd hnil (by decide)
  obtain ⟨⟨first, hfirst, hnode⟩, hmin, _, hunbounded⟩ := hsums symbol m hm
  obtain ⟨hmember, hname⟩ := List.mem_filter.mp hm
  refine ⟨m, hmember, of_decide_eq_true hname, ?_, hmin.trans (by decide), hunbounded.mpr ?_⟩
  · cases hfirst
    exact hnode
  · exact ⟨⟨some (.bare "a"), .element, 4, ⟨.cap 2000000000, .unbounded⟩⟩, by decide, rfl⟩

end XsdTypes
