import Mathlib.Tactic
import XsdTypes.Schema.Scope

/-!
# The index of a scope

The index of a scope lists the places of every name. It starts empty, and appending or replacing a
declaration keeps it exact, so looking a name up through the index is a search through the
declarations.
-/

namespace XsdTypes

namespace SymbolIndex

theorem places_add (index : SymbolIndex) (s t : SchemaSymbol) (place : Nat) :
    (index.add s place).places t =
      if t = s then index.places t ++ [place] else index.places t := by
  induction index with
  | nil =>
    by_cases h : t = s
    · simp [add, places, h]
    · have hst : (t == s) = false := by simpa using h
      simp [add, places, List.lookup_cons, List.lookup_nil, h, hst]
  | cons entry index ih =>
    obtain ⟨u, ps⟩ := entry
    simp only [places] at ih
    by_cases hus : u = s
    · subst hus
      by_cases h : t = u
      · simp [add, places, h]
      · have htu : (t == u) = false := by simpa using h
        simp [add, places, List.lookup_cons, h, htu]
    · by_cases htu : t = u
      · subst htu
        simp [add, places, hus]
      · have htub : (t == u) = false := by simpa using htu
        simp only [add, hus, if_false, places, List.lookup_cons, htub]
        exact ih

end SymbolIndex

/-- The places of a name in a list of declarations, in ascending order. -/
def Declaration.placesIn (entries : List Declaration) (symbol : SchemaSymbol) : List Nat :=
  (List.range entries.length).filter fun i => entries[i]?.bind Declaration.symbol? = some symbol

open Declaration (placesIn)

theorem Declaration.placesIn_append (entries : List Declaration) (d : Declaration)
    (symbol : SchemaSymbol) :
    placesIn (entries ++ [d]) symbol =
      placesIn entries symbol ++ if d.symbol? = some symbol then [entries.length] else [] := by
  have hold : ∀ i ∈ List.range entries.length,
      decide ((entries ++ [d])[i]?.bind Declaration.symbol? = some symbol) =
        decide (entries[i]?.bind Declaration.symbol? = some symbol) := by
    intro i hi
    rw [List.getElem?_append_left (List.mem_range.mp hi)]
  simp only [placesIn, List.length_append, List.length_cons, List.length_nil, Nat.zero_add,
    List.range_succ, List.filter_append]
  rw [List.filter_congr hold]
  by_cases h : d.symbol? = some symbol <;> simp [h]

theorem Declaration.placesIn_set {entries : List Declaration} {place : Nat} {d : Declaration}
    (h : entries[place]?.bind Declaration.symbol? = d.symbol?) (symbol : SchemaSymbol) :
    placesIn (entries.set place d) symbol = placesIn entries symbol := by
  simp only [placesIn, List.length_set]
  refine List.filter_congr fun i hi => ?_
  by_cases hip : i = place
  · subst hip
    rw [h, List.getElem?_set_self (List.mem_range.mp hi)]
    rfl
  · rw [List.getElem?_set_ne (fun he => hip he.symm)]

theorem Declaration.lt_of_mem_placesIn {entries : List Declaration} {symbol : SchemaSymbol} {i : Nat}
    (h : i ∈ placesIn entries symbol) : i < entries.length :=
  List.mem_range.mp (List.mem_filter.mp h).1

theorem Declaration.symbol?_of_mem_placesIn {entries : List Declaration} {symbol : SchemaSymbol}
    {i : Nat} (h : i ∈ placesIn entries symbol) :
    entries[i]?.bind Declaration.symbol? = some symbol := by
  simpa using (List.mem_filter.mp h).2

/-- The first place of a name holds what a search finds. -/
theorem Declaration.head?_placesIn (entries : List Declaration) (symbol : SchemaSymbol) :
    ((placesIn entries symbol).head?.bind fun place => entries[place]?) =
      entries.find? fun d => d.symbol? = some symbol := by
  induction entries using List.reverseRecOn with
  | nil => simp [placesIn]
  | append_singleton entries d ih =>
    rw [placesIn_append, List.find?_append, ← ih]
    cases hp : placesIn entries symbol with
    | nil => by_cases h : d.symbol? = some symbol <;> simp [h]
    | cons i rest =>
      have hi : i < entries.length := lt_of_mem_placesIn (hp ▸ List.mem_cons_self)
      simp [hi, List.getElem?_append_left hi]

theorem Declaration.placesIn_eq_nil {entries : List Declaration} {symbol : SchemaSymbol}
    (h : ∀ e ∈ entries, e.symbol? ≠ some symbol) : placesIn entries symbol = [] := by
  unfold placesIn
  rw [List.filter_eq_nil_iff]
  intro i _ hi
  obtain ⟨e, he, hsymbol⟩ := Option.bind_eq_some_iff.mp (of_decide_eq_true hi)
  exact h e (List.mem_of_getElem? he) hsymbol

/-- The first place of a name comes after all that has other names. -/
theorem Declaration.head?_placesIn_append {before rest : List Declaration} {d : Declaration}
    {symbol : SchemaSymbol} (hbefore : ∀ e ∈ before, e.symbol? ≠ some symbol)
    (hd : d.symbol? = some symbol) :
    (placesIn (before ++ d :: rest) symbol).head? = some before.length := by
  induction rest using List.reverseRecOn with
  | nil => rw [placesIn_append, placesIn_eq_nil hbefore, if_pos hd, List.nil_append, List.head?_cons]
  | append_singleton rest e ih =>
    have hassoc : before ++ d :: (rest ++ [e]) = (before ++ d :: rest) ++ [e] := by simp
    rw [hassoc, placesIn_append, List.head?_append, ih, Option.some_or]

namespace Scope

/-- The index says where each name stands, and nothing else. -/
def Indexed (s : Scope) : Prop :=
  ∀ symbol, s.index.places symbol = placesIn s.entries symbol

theorem replace_parent (s : Scope) (d : Declaration) : (s.replace d).parent = s.parent := by
  unfold replace
  split <;> rfl

theorem replace_ns (s : Scope) (d : Declaration) : (s.replace d).ns = s.ns := by
  unfold replace
  split <;> rfl

theorem Indexed.find?_eq {s : Scope} (h : s.Indexed) (symbol : SchemaSymbol) :
    s.find? symbol = s.entries.find? fun d => d.symbol? = some symbol := by
  rw [find?, h symbol, Declaration.head?_placesIn]

theorem Indexed.append {s : Scope} (h : s.Indexed) (d : Declaration) : (s.append d).Indexed := by
  intro symbol
  simp only [Scope.append]
  rw [Declaration.placesIn_append]
  cases hd : d.symbol? with
  | none => simpa using h symbol
  | some t =>
    simp only [SymbolIndex.places_add]
    by_cases hst : symbol = t
    · subst hst
      simp [h symbol]
    · have hts : t ≠ symbol := fun he => hst he.symm
      simp [hst, hts, h symbol]

/-- Replacing puts the declaration either in the place of one of the same name or at the end. -/
theorem Indexed.replace_cases {s : Scope} (h : s.Indexed) (d : Declaration) :
    (∃ place, s.replace d = { s with entries := s.entries.set place d } ∧
      place < s.entries.length ∧ d.symbol?.isSome ∧
      s.entries[place]?.bind Declaration.symbol? = d.symbol?) ∨
    (s.replace d = s.append d ∧ ∀ e ∈ s.entries, d.symbol?.isSome → e.symbol? ≠ d.symbol?) := by
  cases hd : d.symbol? with
  | none => exact Or.inr ⟨by simp [replace, hd], fun _ _ hs => by simp at hs⟩
  | some symbol =>
    cases hp : placesIn s.entries symbol with
    | nil =>
      refine Or.inr ⟨by simp [replace, hd, h symbol, hp], fun e he _ hs => ?_⟩
      obtain ⟨i, hi, hie⟩ := List.getElem_of_mem he
      have hmem : i ∈ placesIn s.entries symbol := by
        simp [placesIn, hi, hie, hs]
      rw [hp] at hmem
      simp at hmem
    | cons place rest =>
      have hmem : place ∈ placesIn s.entries symbol := hp ▸ List.mem_cons_self
      exact Or.inl ⟨place, by simp [replace, hd, h symbol, hp],
        Declaration.lt_of_mem_placesIn hmem, rfl, Declaration.symbol?_of_mem_placesIn hmem⟩

theorem Indexed.replace {s : Scope} (h : s.Indexed) (d : Declaration) : (s.replace d).Indexed := by
  rcases h.replace_cases d with ⟨place, heq, _, _, hsame⟩ | ⟨heq, _⟩
  · rw [heq]
    intro symbol
    rw [Declaration.placesIn_set hsame]
    exact h symbol
  · rw [heq]
    exact h.append d

/-- A declaration that is refused leaves the scope as it is. -/
theorem scope_eq_of_insert_eq_error {s : Scope} {d : Declaration} {repeats : Repeats}
    {refusal : Refusal} (hins : s.insert d repeats = .error refusal) : refusal.scope = s := by
  unfold Scope.insert at hins
  split at hins
  · cases hins
    rfl
  · cases hins

/-- An accepted declaration is appended, and its name was free if repeats are refused. -/
theorem Indexed.insert_eq_ok {s s' : Scope} (h : s.Indexed) {d : Declaration} {repeats : Repeats}
    (hins : s.insert d repeats = .ok s') :
    s' = s.append d ∧
      (repeats = .reject → d.symbol?.isSome → ∀ e ∈ s.entries, e.symbol? ≠ d.symbol?) := by
  unfold Scope.insert at hins
  split at hins
  · cases hins
  · rename_i hnot
    cases hins
    refine ⟨rfl, fun hr hs e he heq => ?_⟩
    obtain ⟨symbol, hd⟩ := Option.isSome_iff_exists.mp hs
    rw [hd] at heq
    have hfound : (s.find? symbol).isSome := by
      rw [h.find?_eq, List.find?_isSome]
      exact ⟨e, he, by simpa using heq⟩
    obtain ⟨existing, hex⟩ := Option.isSome_iff_exists.mp hfound
    exact hnot existing hr (by rw [hd]; exact hex)

section Replace

variable {s : Scope} {d : Declaration} {symbol other : SchemaSymbol}

/-- A declaration takes the place of the first one of its name, and what stands before it and after it
stays. -/
theorem Indexed.replace_split (h : s.Indexed) (hd : d.symbol? = some symbol) :
    ∃ before rest, (∀ e ∈ before, e.symbol? ≠ some symbol) ∧
      (s.replace d).entries = before ++ d :: rest ∧
      (s.entries = before ∧ rest = [] ∨
        ∃ e, e.symbol? = some symbol ∧ s.entries = before ++ e :: rest) := by
  cases hfind : s.entries.find? (fun e => e.symbol? = some symbol) with
  | none =>
    have hnone : ∀ e ∈ s.entries, e.symbol? ≠ some symbol := by
      intro e he
      simpa using List.find?_eq_none.mp hfind e he
    refine ⟨s.entries, [], hnone, ?_, Or.inl ⟨rfl, rfl⟩⟩
    simp [Scope.replace, hd, h symbol, Declaration.placesIn_eq_nil hnone, Scope.append]
  | some e =>
    obtain ⟨he, before, rest, hentries, hbefore⟩ := List.find?_eq_some_iff_append.mp hfind
    have hsymbol : e.symbol? = some symbol := of_decide_eq_true he
    have hnone : ∀ e ∈ before, e.symbol? ≠ some symbol := by
      intro e' he'
      simpa using hbefore e' he'
    refine ⟨before, rest, hnone, ?_, Or.inr ⟨e, hsymbol, hentries⟩⟩
    have hplace : (placesIn (before ++ e :: rest) symbol).head? = some before.length :=
      Declaration.head?_placesIn_append hnone hsymbol
    simp [Scope.replace, hd, h symbol, hentries, hplace]

theorem Indexed.find?_replace (h : s.Indexed) (hd : d.symbol? = some symbol) :
    (s.replace d).entries.find? (fun e => e.symbol? = some symbol) = some d := by
  obtain ⟨before, rest, hbefore, hentries, _⟩ := h.replace_split hd
  rw [hentries, List.find?_append, List.find?_eq_none.mpr (by simpa using hbefore),
    List.find?_cons_of_pos (by simpa using hd), Option.none_or]

theorem Indexed.find?_replace_ne (h : s.Indexed) (hd : d.symbol? = some symbol) (hne : other ≠ symbol) :
    (s.replace d).entries.find? (fun e => e.symbol? = some other) =
      s.entries.find? fun e => e.symbol? = some other := by
  have hskip : ∀ {e : Declaration}, e.symbol? = some symbol → ¬ e.symbol? = some other := by
    intro e he heq
    exact hne (Option.some.inj (heq.symm.trans he))
  obtain ⟨before, rest, _, hentries, ⟨hold, hrest⟩ | ⟨e, he, hold⟩⟩ := h.replace_split hd
  · simp [hentries, hold, hrest, hskip hd]
  · simp [hentries, hold, hskip hd, hskip he]

/-- A name that is free stands once after it has been declared. -/
theorem count_append_le (hfree : d.symbol? = some symbol → ∀ e ∈ s.entries, e.symbol? ≠ some symbol)
    (hle : (s.entries.map Declaration.symbol?).count (some symbol) ≤ 1) :
    ((s.append d).entries.map Declaration.symbol?).count (some symbol) ≤ 1 := by
  simp only [Scope.append, List.map_append, List.count_append, List.map_cons, List.map_nil]
  by_cases hd : d.symbol? = some symbol
  · have hzero : (s.entries.map Declaration.symbol?).count (some symbol) = 0 := by
      rw [List.count_eq_zero]
      intro hmem
      obtain ⟨e, he, hes⟩ := List.mem_map.mp hmem
      exact hfree hd e he hes
    rw [hzero, hd]
    simp
  · have hd' : List.count (some symbol) [d.symbol?] = 0 := by
      rw [List.count_eq_zero, List.mem_singleton]
      exact fun he => hd he.symm
    rw [hd']
    exact hle

/-- No name stands more than once after it has been replaced, if it did not before. -/
theorem Indexed.count_replace_le (h : s.Indexed) (hd : d.symbol? = some symbol)
    (hle : (s.entries.map Declaration.symbol?).count (some other) ≤ 1) :
    ((s.replace d).entries.map Declaration.symbol?).count (some other) ≤ 1 := by
  obtain ⟨before, rest, hbefore, hentries, ⟨hold, hrest⟩ | ⟨e, he, hold⟩⟩ := h.replace_split hd
  · rw [hentries, hrest, ← hold]
    refine count_append_le (fun hother => ?_) hle
    rw [hold, ← hother, hd]
    exact hbefore
  · rw [hold, List.map_append, List.map_cons, he] at hle
    rw [hentries, List.map_append, List.map_cons, hd]
    exact hle

end Replace

end Scope

end XsdTypes
