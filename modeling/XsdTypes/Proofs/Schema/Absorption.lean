import XsdTypes.Schema.Scope

/-!
# Folding by search

The members of a scope are found with the places of the names that have been met. They are what a
search for the name of every declaration among those before it finds (`Scope.members_eq_foldl`).
-/

namespace XsdTypes

/-- Adds a declaration to a list in which every name stands once: a name that is there already has
the occurrences added up in its place. -/
def Scope.absorb (d : Declaration) : List Declaration → List Declaration
  | [] => [d]
  | e :: es =>
    if d.name.isSome ∧ e.symbol? = d.symbol? then
      { e with occurs := e.occurs.plus d.occurs } :: es
    else e :: absorb d es

/-- The place of the first declaration of a name. -/
def Declaration.firstPlace? (es : List Declaration) (symbol : SchemaSymbol) : Option Nat :=
  es.findIdx? fun e => e.symbol? = some symbol

namespace Scope

variable {d : Declaration} {symbol : SchemaSymbol}

theorem absorb_unnamed (hd : d.symbol? = none) (es : List Declaration) : absorb d es = es ++ [d] := by
  have hname : d.name.isSome = false := by
    cases hname : d.name with
    | none => rfl
    | some name =>
      rw [Declaration.symbol?, hname] at hd
      cases hd
  induction es with
  | nil => rfl
  | cons e es ih => rw [absorb, hname, if_neg (by simp), ih, List.cons_append]

theorem absorb_named (hd : d.symbol? = some symbol) (es : List Declaration) :
    absorb d es =
      match Declaration.firstPlace? es symbol with
      | some place => es.modify place fun e => { e with occurs := e.occurs.plus d.occurs }
      | none => es ++ [d] := by
  have hname : d.name.isSome = true := by
    obtain ⟨name, hname, _⟩ := Option.map_eq_some_iff.mp hd
    rw [hname]
    rfl
  induction es with
  | nil => rfl
  | cons e es ih =>
    rw [absorb, hd, hname, Declaration.firstPlace?, List.findIdx?_cons, ← Declaration.firstPlace?]
    by_cases he : e.symbol? = some symbol
    · rw [if_pos ⟨rfl, he⟩, decide_eq_true he]
      rfl
    · rw [if_neg fun h => he h.2, decide_eq_false he, ih]
      cases Declaration.firstPlace? es symbol <;> rfl

end Scope

namespace Folding

variable {f : Folding} {d : Declaration} {symbol : SchemaSymbol} {place : Nat}

theorem add_unnamed (hd : d.symbol? = none) :
    f.add d = { f with merged := f.merged ++ [d] } := by
  rw [add, hd]

theorem add_met (hd : d.symbol? = some symbol) (hplace : f.places.lookup symbol = some place) :
    f.add d =
      { f with
        merged := f.merged.modify place fun e => { e with occurs := e.occurs.plus d.occurs } } := by
  simp only [add, hd, hplace]

theorem add_new (hd : d.symbol? = some symbol) (hplace : f.places.lookup symbol = none) :
    f.add d = ⟨f.merged ++ [d], (symbol, f.merged.length) :: f.places⟩ := by
  simp only [add, hd, hplace]

/-- The places are those of the names. -/
def Placed (f : Folding) : Prop :=
  ∀ symbol, f.places.lookup symbol = Declaration.firstPlace? f.merged symbol

theorem Placed.merged_add (h : f.Placed) (d : Declaration) :
    (f.add d).merged = Scope.absorb d f.merged := by
  cases hd : d.symbol? with
  | none => rw [add_unnamed hd, Scope.absorb_unnamed hd]
  | some symbol =>
    rw [Scope.absorb_named hd, ← h symbol]
    cases hplace : f.places.lookup symbol with
    | none => rw [add_new hd hplace]
    | some place => rw [add_met hd hplace]

theorem firstPlace?_append (es : List Declaration) (d : Declaration) (symbol : SchemaSymbol) :
    Declaration.firstPlace? (es ++ [d]) symbol =
      (Declaration.firstPlace? es symbol).or
        (if d.symbol? = some symbol then some es.length else none) := by
  rw [Declaration.firstPlace?, List.findIdx?_append, ← Declaration.firstPlace?]
  by_cases hd : d.symbol? = some symbol <;> simp [hd]

/-- More occurrences change no name. -/
theorem firstPlace?_modify (es : List Declaration) (place : Nat) (more : Occurrence)
    (symbol : SchemaSymbol) :
    Declaration.firstPlace? (es.modify place fun e => { e with occurs := e.occurs.plus more }) symbol =
      Declaration.firstPlace? es symbol := by
  induction es generalizing place with
  | nil => cases place <;> rfl
  | cons e es ih =>
    cases place with
    | zero => rfl
    | succ place =>
      have hrest := ih place
      rw [Declaration.firstPlace?, Declaration.firstPlace?] at hrest
      rw [List.modify_succ_cons, Declaration.firstPlace?, Declaration.firstPlace?, List.findIdx?_cons,
        List.findIdx?_cons, hrest]

theorem Placed.add (h : f.Placed) (d : Declaration) : (f.add d).Placed := by
  intro symbol
  cases hd : d.symbol? with
  | none =>
    rw [add_unnamed hd, firstPlace?_append, hd, if_neg nofun, Option.or_none]
    exact h symbol
  | some met =>
    cases hplace : f.places.lookup met with
    | some place =>
      rw [add_met hd hplace, firstPlace?_modify]
      exact h symbol
    | none =>
      rw [add_new hd hplace, firstPlace?_append, hd, List.lookup_cons, h symbol]
      by_cases hsymbol : symbol = met
      · rw [hsymbol, ← h met, hplace]
        simp
      · have hother : ¬ some met = some symbol := fun heq => hsymbol (Option.some.inj heq).symm
        rw [beq_eq_false_iff_ne.mpr hsymbol, if_neg hother, Option.or_none]

theorem Placed.merged_foldl (h : f.Placed) (ds : List Declaration) :
    (ds.foldl Folding.add f).merged = ds.foldl (fun merged d => Scope.absorb d merged) f.merged := by
  induction ds generalizing f with
  | nil => rfl
  | cons d ds ih => rw [List.foldl_cons, ih (h.add d), h.merged_add, List.foldl_cons]

end Folding

/-- The places of the names save the search for them, and make no other difference. -/
theorem Scope.members_eq_foldl (s : Scope) :
    s.members = s.entries.foldl (fun merged d => absorb d merged) [] :=
  Folding.Placed.merged_foldl (fun _ => rfl) s.entries

end XsdTypes
