import XsdTypes.Lowering.Members
import XsdTypes.Proofs.Schema.Absorption
import XsdTypes.Proofs.Schema.Occurrence

/-!
# Totals of expanded content

The total of a local name in expanded content is the sum of the occurrences of all elements that have
it; a tally is the sum for any property of declarations. It does not change when repeats of a name are
folded into one declaration of a scope, and that of the content of a group is multiplied by the
occurrences of the reference to it.
-/

namespace XsdTypes

namespace Scope

/-- A quantity that adds up when repeats are folded is the same for the members of a scope as for all
its declarations. -/
theorem sum_members {s : Scope} {v : Declaration → Occurrence}
    (hv : ∀ e, ∀ d ∈ s.entries, d.name.isSome → e.symbol? = d.symbol? →
      v { e with occurs := e.occurs.plus d.occurs } = v e + v d) :
    (s.members.map v).sum = (s.entries.map v).sum := by
  have habsorb : ∀ d ∈ s.entries, ∀ es, ((absorb d es).map v).sum = (es.map v).sum + v d := by
    intro d hd es
    induction es with
    | nil => simp [absorb]
    | cons e es ih =>
      rw [absorb]
      split
      · rename_i hsame
        rw [List.map_cons, List.map_cons, List.sum_cons, List.sum_cons, hv e d hd hsame.1 hsame.2,
          add_right_comm]
      · rw [List.map_cons, List.map_cons, List.sum_cons, List.sum_cons, ih, add_assoc]
  have hfold : ∀ (l : List Declaration), (∀ d ∈ l, d ∈ s.entries) → ∀ merged,
      ((l.foldl (fun merged d => absorb d merged) merged).map v).sum =
        (merged.map v).sum + (l.map v).sum := by
    intro l
    induction l with
    | nil => simp
    | cons d l ih =>
      intro hl merged
      have hd := habsorb d (hl d List.mem_cons_self) merged
      rw [List.foldl_cons, ih (fun d' hd' => hl d' (List.mem_cons_of_mem _ hd')), hd, List.map_cons,
        List.sum_cons, add_assoc]
  have hall := hfold s.entries (fun d hd => hd) []
  rw [List.map_nil, List.sum_nil, zero_add] at hall
  rw [members_eq_foldl]
  exact hall

end Scope

namespace Lowering

/-- Whether the declaration is that of an element with the local name. -/
def Contribution.isElement (x : String) (c : Contribution) : Bool :=
  c.declaration.space ≠ .attr && localName c.declaration = x

/-- The occurrences of all elements with the local name. -/
def total (x : String) (content : List Contribution) : Occurrence :=
  ((content.filter (Contribution.isElement x)).map Contribution.occurs).sum

/-- The occurrences of all declarations with a property. -/
def tally (p : Declaration → Bool) (content : List Contribution) : Occurrence :=
  ((content.filter fun c => p c.declaration).map Contribution.occurs).sum

/-- The property has to do with the name and the symbol space only. -/
def Nominal (p : Declaration → Bool) : Prop :=
  ∀ d d', d'.name = d.name → d'.space = d.space → p d' = p d

/-- What one declaration of a scope adds to the expanded content. -/
def share (g : Graph) (fuel : Nat) (factor : Occurrence) (path : List NodeId) (d : Declaration) :
    List Contribution :=
  match d.space with
  | .element | .attr => [⟨d, d.occurs.times factor⟩]
  | .groupRef | .attrGroupRef =>
    match referredGroup? g d.node with
    | none => []
    | some group =>
      if path.contains group then []
      else
        match (g.nodeAt group).ownScope with
        | some inner => expand g fuel inner (d.occurs.times factor) (group :: path)
        | none => []
  | .type | .group | .attrGroup => []

variable {g : Graph} {x : String} {p : Declaration → Bool} {fuel : Nat} {factor : Occurrence}
  {path : List NodeId} {scope : ScopeId} {d : Declaration}

/-- The total of a local name is a tally. -/
theorem total_eq_tally (x : String) :
    total x = tally fun d => d.space ≠ .attr && localName d = x := rfl

theorem expand_succ :
    expand g (fuel + 1) scope factor path =
      (g.scopeAt scope).members.flatMap (share g fuel factor path) := rfl

theorem tally_singleton (p : Declaration → Bool) (c : Contribution) :
    tally p [c] = if p c.declaration then c.occurs else 0 := by
  cases hc : p c.declaration <;> simp [tally, hc]

theorem tally_append (content content' : List Contribution) :
    tally p (content ++ content') = tally p content + tally p content' := by
  unfold tally
  rw [List.filter_append, List.map_append, List.sum_append]

theorem tally_flatMap {α : Type} (l : List α) (f : α → List Contribution) :
    tally p (l.flatMap f) = (l.map fun a => tally p (f a)).sum := by
  induction l with
  | nil => rfl
  | cons a l ih => rw [List.flatMap_cons, tally_append, ih, List.map_cons, List.sum_cons]

/-! ## Shares -/

/-- An element or an attribute adds itself. -/
theorem share_found (hspace : d.space = .element ∨ d.space = .attr) :
    share g fuel factor path d = [⟨d, d.occurs.times factor⟩] := by
  unfold share
  rcases hspace with hspace | hspace <;> rw [hspace]

/-- A reference adds the content of its group. -/
theorem share_reference (hspace : d.space = .groupRef ∨ d.space = .attrGroupRef)
    {target : NodeId} {inner : ScopeId} (htarget : referredGroup? g d.node = some target)
    (hpath : target ∉ path) (hown : (g.nodeAt target).ownScope = some inner) :
    share g fuel factor path d = expand g fuel inner (d.occurs.times factor) (target :: path) := by
  have hcontains : ¬ path.contains target = true := fun h => hpath (List.contains_iff_mem.mp h)
  unfold share
  rcases hspace with hspace | hspace <;>
    · rw [hspace]
      simp only [htarget, hown]
      rw [if_neg hcontains]

/-- A reference to a group that is being expanded adds nothing. -/
theorem share_repeated (hspace : d.space = .groupRef ∨ d.space = .attrGroupRef) {target : NodeId}
    (htarget : referredGroup? g d.node = some target) (hpath : target ∈ path) :
    share g fuel factor path d = [] := by
  unfold share
  rcases hspace with hspace | hspace <;>
    · rw [hspace]
      simp only [htarget]
      rw [if_pos (List.contains_iff_mem.mpr hpath)]

/-- Types and definitions of groups add nothing. -/
theorem share_other (hspace : d.space = .type ∨ d.space = .group ∨ d.space = .attrGroup) :
    share g fuel factor path d = [] := by
  unfold share
  rcases hspace with hspace | hspace | hspace <;> rw [hspace]

/-- The tally of a share, given that the content of groups scales with the reference. -/
theorem tally_share_times
    (hexpand : ∀ scope factor path, tally p (expand g fuel scope factor path) =
      (tally p (expand g fuel scope .once path)).times factor) :
    tally p (share g fuel factor path d) = (tally p (share g fuel .once path d)).times factor := by
  have hzero : (0 : Occurrence) = (0 : Occurrence).times factor := (Occurrence.zero_times factor).symm
  unfold share
  split
  case h_1 | h_2 =>
    rw [tally_singleton, tally_singleton]
    split
    · rw [Occurrence.times_once]
    · exact hzero
  case h_3 | h_4 =>
    split
    · exact hzero
    · split
      · exact hzero
      · split
        · rename_i inner _
          rw [hexpand inner (d.occurs.times factor), hexpand inner (d.occurs.times .once),
            Occurrence.times_once, Occurrence.times_assoc]
        · exact hzero
  case h_5 | h_6 | h_7 => exact hzero

/-- The tally of expanded content is multiplied by the factor. -/
theorem tally_expand_times (fuel : Nat) (scope : ScopeId) (factor : Occurrence)
    (path : List NodeId) :
    tally p (expand g fuel scope factor path) =
      (tally p (expand g fuel scope .once path)).times factor := by
  induction fuel generalizing scope factor path with
  | zero => exact (Occurrence.zero_times factor).symm
  | succ fuel ih =>
    rw [expand_succ, expand_succ, tally_flatMap, tally_flatMap, Occurrence.sum_times]
    refine congrArg List.sum (List.map_congr_left fun d _ => ?_)
    exact tally_share_times ih

/-- Elements and attributes are counted with their own occurrences. -/
theorem tally_share_found (hspace : d.space = .element ∨ d.space = .attr) :
    tally p (share g fuel .once path d) = if p d then d.occurs else 0 := by
  rw [share_found hspace, tally_singleton, Occurrence.times_once]

/-- The tally of a reference is that of its group, as often as the group is referred to. -/
theorem tally_share_reference (hspace : d.space = .groupRef ∨ d.space = .attrGroupRef)
    {target : NodeId} {inner : ScopeId} (htarget : referredGroup? g d.node = some target)
    (hpath : target ∉ path) (hown : (g.nodeAt target).ownScope = some inner) :
    tally p (share g fuel .once path d) =
      (tally p (expand g fuel inner .once (target :: path))).times d.occurs := by
  rw [share_reference hspace htarget hpath hown, tally_expand_times, Occurrence.times_once]

/-- Declarations of one symbol agree in what has to do with it. -/
theorem fields_of_symbol? {e : Declaration} (hnamed : d.name.isSome) (hsymbol : e.symbol? = d.symbol?) :
    e.name = d.name ∧ e.space = d.space := by
  obtain ⟨name, hname⟩ := Option.isSome_iff_exists.mp hnamed
  rw [Declaration.symbol?, Declaration.symbol?, hname] at hsymbol
  obtain ⟨name', hname', heq⟩ := Option.map_eq_some_iff.mp hsymbol
  injection heq with hspace hsame
  exact ⟨by rw [hname', hsame, hname], hspace⟩

/-- The tally of expanded content is that of all declarations of the scope, if references have no
names. -/
theorem tally_expand_succ (hp : Nominal p) (hrefs : ∀ d ∈ (g.scopeAt scope).entries,
      d.space = .groupRef ∨ d.space = .attrGroupRef → d.name = none) :
    tally p (expand g (fuel + 1) scope .once path) =
      ((g.scopeAt scope).entries.map fun d => tally p (share g fuel .once path d)).sum := by
  rw [expand_succ, tally_flatMap]
  refine Scope.sum_members fun e d hd hnamed hsymbol => ?_
  obtain ⟨hname, hspace⟩ := fields_of_symbol? hnamed hsymbol
  set e' : Declaration := { e with occurs := e.occurs.plus d.occurs } with he'
  have hother : d.space = .type ∨ d.space = .group ∨ d.space = .attrGroup →
      tally p (share g fuel .once path e') =
        tally p (share g fuel .once path e) + tally p (share g fuel .once path d) := by
    intro h
    rw [share_other h, share_other (d := e) (by rw [hspace]; exact h),
      share_other (d := e') (by rw [he', hspace]; exact h)]
    exact (add_zero 0).symm
  have hfound : d.space = .element ∨ d.space = .attr →
      tally p (share g fuel .once path e') =
        tally p (share g fuel .once path e) + tally p (share g fuel .once path d) := by
    intro h
    rw [tally_share_found h, tally_share_found (d := e) (by rw [hspace]; exact h),
      tally_share_found (d := e') (by rw [he', hspace]; exact h), hp d e hname hspace,
      hp d e' hname hspace]
    split
    · rfl
    · exact (add_zero 0).symm
  cases h : d.space with
  | element | attr => exact hfound (by simp [h])
  | type | group | attrGroup => exact hother (by simp [h])
  | groupRef | attrGroupRef =>
    rw [hrefs d hd (by simp [h])] at hnamed
    cases hnamed

/-! ## Totals of elements -/

theorem total_expand_times (fuel : Nat) (scope : ScopeId) (factor : Occurrence)
    (path : List NodeId) :
    total x (expand g fuel scope factor path) =
      (total x (expand g fuel scope .once path)).times factor := by
  rw [total_eq_tally]
  exact tally_expand_times fuel scope factor path

/-- Elements are counted with their own occurrences. -/
theorem total_share_element (hspace : d.space = .element) :
    total x (share g fuel .once path d) = if localName d = x then d.occurs else 0 := by
  rw [total_eq_tally, tally_share_found (.inl hspace)]
  simp [hspace]

/-- Nothing but elements and groups is counted. -/
theorem total_share_other (helement : d.space ≠ .element) (hgroup : d.space ≠ .groupRef)
    (hattrGroup : d.space ≠ .attrGroupRef) : total x (share g fuel .once path d) = 0 := by
  cases hspace : d.space with
  | element => exact absurd hspace helement
  | groupRef => exact absurd hspace hgroup
  | attrGroupRef => exact absurd hspace hattrGroup
  | attr =>
    rw [total_eq_tally, tally_share_found (.inr hspace)]
    simp [hspace]
  | type | group | attrGroup =>
    rw [share_other (by simp [hspace])]
    rfl

/-- The total of a reference is that of its group, as often as the group is referred to. -/
theorem total_share_reference (hspace : d.space = .groupRef ∨ d.space = .attrGroupRef)
    {target : NodeId} {inner : ScopeId} (htarget : referredGroup? g d.node = some target)
    (hpath : target ∉ path) (hown : (g.nodeAt target).ownScope = some inner) :
    total x (share g fuel .once path d) =
      (total x (expand g fuel inner .once (target :: path))).times d.occurs := by
  rw [total_eq_tally]
  exact tally_share_reference hspace htarget hpath hown

/-- The total of expanded content is that of all declarations of the scope, if references have no
names. -/
theorem total_expand_succ (hrefs : ∀ d ∈ (g.scopeAt scope).entries,
      d.space = .groupRef ∨ d.space = .attrGroupRef → d.name = none) :
    total x (expand g (fuel + 1) scope .once path) =
      ((g.scopeAt scope).entries.map fun d => total x (share g fuel .once path d)).sum := by
  rw [total_eq_tally]
  refine tally_expand_succ (fun d d' hname hspace => ?_) hrefs
  have hlocal : localName d' = localName d := by rw [localName, hname, localName]
  rw [Bool.eq_iff_iff]
  simp only [Bool.and_eq_true, decide_eq_true_eq, hspace, hlocal]

end Lowering

end XsdTypes
