import XsdTypes.Proofs.Schema.ScopeIndex

/-!
# Scopes as lists of declarations

The index of a scope is there for speed only. `Listing` does to a plain list of declarations what is
done to a scope, and finds names by going through the list. Whatever has been done to a scope since it
was new, its index lists exactly the places where names stand, and it gives the answers of the list.
-/

namespace XsdTypes

open Declaration (placesIn)

/-- What is done to a scope. -/
inductive Scope.Operation where
  | insert (d : Declaration) (repeats : Repeats)
  | replace (d : Declaration)
  deriving DecidableEq

/-! ## Lists without an index -/

namespace Listing

/-- The first declaration of a name. -/
def find? (entries : List Declaration) (symbol : SchemaSymbol) : Option Declaration :=
  entries.find? fun d => d.symbol? = some symbol

/-- All declarations of a name, in order. -/
def findAll (entries : List Declaration) (symbol : SchemaSymbol) : List Declaration :=
  entries.filter fun d => d.symbol? = some symbol

/-- The list with a declaration in the place of the first one of its name, or at the end if there is
none. -/
def replace (d : Declaration) : List Declaration → List Declaration
  | [] => [d]
  | e :: es => if d.symbol?.isSome ∧ e.symbol? = d.symbol? then d :: es else e :: replace d es

/-- Does one thing to a list. A refusal comes with the first declaration of the name. -/
def perform (entries : List Declaration) : Scope.Operation → Except Declaration (List Declaration)
  | .insert d .accumulate => .ok (entries ++ [d])
  | .insert d .reject =>
    match d.symbol?.bind (find? entries) with
    | some existing => .error existing
    | none => .ok (entries ++ [d])
  | .replace d => .ok (replace d entries)

/-- The list after a number of operations on an empty one; what is refused is left out. -/
def after (ops : List Scope.Operation) : List Declaration :=
  ops.foldl (fun entries op => (perform entries op).toOption.getD entries) []

theorem after_concat (ops : List Scope.Operation) (op : Scope.Operation) :
    after (ops ++ [op]) = (perform (after ops) op).toOption.getD (after ops) :=
  List.foldl_concat _ _ _ _

theorem replace_eq_append {d : Declaration} {entries : List Declaration}
    (h : ∀ e ∈ entries, d.symbol?.isSome → e.symbol? ≠ d.symbol?) :
    replace d entries = entries ++ [d] := by
  induction entries with
  | nil => rfl
  | cons e es ih =>
    obtain ⟨he, hes⟩ := List.forall_mem_cons.mp h
    rw [replace, if_neg fun hsame => he hsame.1 hsame.2, ih hes, List.cons_append]

theorem replace_eq_of_split {d e : Declaration} {symbol : SchemaSymbol} {before rest : List Declaration}
    (hd : d.symbol? = some symbol) (he : e.symbol? = some symbol)
    (hbefore : ∀ e ∈ before, e.symbol? ≠ some symbol) :
    replace d (before ++ e :: rest) = before ++ d :: rest := by
  induction before with
  | nil => exact if_pos ⟨by rw [hd]; rfl, he.trans hd.symm⟩
  | cons b before ih =>
    obtain ⟨hb, hbefore⟩ := List.forall_mem_cons.mp hbefore
    rw [List.cons_append, replace, if_neg fun hsame => hb (hsame.2.trans hd), ih hbefore,
      List.cons_append]

end Listing

/-! ## The entries of an index -/

namespace SymbolIndex

/-- No name is listed twice, and none without a place. -/
structure Tidy (index : SymbolIndex) : Prop where
  once : (index.map Prod.fst).Nodup
  placed : ∀ entry ∈ index, entry.2 ≠ []

variable {index : SymbolIndex} {symbol : SchemaSymbol} {place : Nat}

/-- A name that is not listed yet is listed at the end. -/
theorem keys_add (index : SymbolIndex) (symbol : SchemaSymbol) (place : Nat) :
    (index.add symbol place).map Prod.fst =
      if symbol ∈ index.map Prod.fst then index.map Prod.fst else index.map Prod.fst ++ [symbol] := by
  induction index with
  | nil => rfl
  | cons entry index ih =>
    by_cases hsame : entry.1 = symbol
    · simp [add, hsame]
    · have hne : symbol ≠ entry.1 := Ne.symm hsame
      by_cases hmem : symbol ∈ index.map Prod.fst
      · rw [if_pos hmem] at ih
        rw [add, if_neg hsame, List.map_cons, List.map_cons, ih, if_pos (List.mem_cons_of_mem _ hmem)]
      · rw [if_neg hmem] at ih
        have hout : symbol ∉ entry.1 :: index.map Prod.fst := List.not_mem_cons_of_ne_of_not_mem hne hmem
        rw [add, if_neg hsame, List.map_cons, List.map_cons, ih, if_neg hout, List.cons_append]

theorem placed_add (h : ∀ entry ∈ index, entry.2 ≠ []) :
    ∀ entry ∈ index.add symbol place, entry.2 ≠ [] := by
  induction index with
  | nil =>
    intro entry hentry
    rw [List.mem_singleton.mp hentry]
    exact List.cons_ne_nil _ _
  | cons first index ih =>
    obtain ⟨hfirst, hrest⟩ := List.forall_mem_cons.mp h
    rw [add]
    split
    · exact List.forall_mem_cons.mpr ⟨by simp, hrest⟩
    · exact List.forall_mem_cons.mpr ⟨hfirst, ih hrest⟩

theorem Tidy.add (h : index.Tidy) (symbol : SchemaSymbol) (place : Nat) :
    (index.add symbol place).Tidy := by
  refine ⟨?_, placed_add h.placed⟩
  rw [keys_add]
  split
  · exact h.once
  · rename_i hnew
    refine List.nodup_append'.mpr ⟨h.once, List.nodup_singleton _, ?_⟩
    exact List.disjoint_singleton.mpr hnew

/-- An entry says all that is known of its name. -/
theorem Tidy.mem_iff (h : index.Tidy) (places : List Nat) :
    (symbol, places) ∈ index ↔ places = index.places symbol ∧ places ≠ [] := by
  constructor
  · intro hmem
    obtain ⟨before, rest, hsplit⟩ := List.append_of_mem hmem
    have hfirst : ∀ entry ∈ before, symbol ≠ entry.1 := by
      have honce := h.once
      rw [hsplit, List.map_append, List.map_cons, List.nodup_append] at honce
      intro entry hentry hsame
      exact honce.2.2 entry.1 (List.mem_map_of_mem hentry) symbol List.mem_cons_self hsame.symm
    have hlookup : index.lookup symbol = some places :=
      List.lookup_eq_some_iff.mpr ⟨before, rest, hsplit, by simpa using hfirst⟩
    exact ⟨by rw [SymbolIndex.places, hlookup]; rfl, h.placed _ hmem⟩
  · rintro ⟨hplaces, hne⟩
    cases hlookup : index.lookup symbol with
    | none =>
      rw [SymbolIndex.places, hlookup] at hplaces
      exact absurd hplaces hne
    | some found =>
      rw [SymbolIndex.places, hlookup] at hplaces
      obtain ⟨before, rest, hsplit, _⟩ := List.lookup_eq_some_iff.mp hlookup
      rw [hplaces, hsplit]
      exact List.mem_append_right _ List.mem_cons_self

end SymbolIndex

/-- The places of a name hold its declarations. -/
theorem Declaration.filterMap_placesIn (entries : List Declaration) (symbol : SchemaSymbol) :
    (placesIn entries symbol).filterMap (fun place => entries[place]?) =
      Listing.findAll entries symbol := by
  induction entries using List.reverseRecOn with
  | nil => rfl
  | append_singleton entries d ih =>
    have hold : ∀ place ∈ placesIn entries symbol, (entries ++ [d])[place]? = entries[place]? :=
      fun place hplace => List.getElem?_append_left (lt_of_mem_placesIn hplace)
    rw [placesIn_append, List.filterMap_append, List.filterMap_congr hold, ih, Listing.findAll,
      Listing.findAll, List.filter_append]
    by_cases hd : d.symbol? = some symbol <;> simp [hd]

/-! ## Scopes -/

namespace Scope

/-- The index of the scope is right, and so is what is found through it. -/
structure Exact (s : Scope) : Prop where
  /-- No name is listed twice. -/
  once : (s.index.map Prod.fst).Nodup
  /-- A name is listed with the places where it stands, in ascending order, and if it stands nowhere
  it is not listed. -/
  listed : ∀ symbol places, (symbol, places) ∈ s.index ↔
    places = placesIn s.entries symbol ∧ places ≠ []
  inside : ∀ symbol, ∀ place ∈ s.index.places symbol, place < s.entries.length
  first : ∀ symbol, s.find? symbol = Listing.find? s.entries symbol
  all : ∀ symbol, s.findAll symbol = Listing.findAll s.entries symbol

/-- Does one thing to a scope. A refusal comes with a declaration of the name. -/
def perform (s : Scope) : Operation → Except Refusal Scope
  | .insert d repeats => s.insert d repeats
  | .replace d => .ok (s.replace d)

/-- The scope that is left, also by a refusal. -/
def left : Except Refusal Scope → Scope
  | .ok s => s
  | .error refusal => refusal.scope

/-- The scope after a number of operations, some of which may have been refused. -/
def after (s : Scope) (ops : List Operation) : Scope :=
  ops.foldl (fun s op => left (s.perform op)) s

theorem after_concat (s : Scope) (ops : List Operation) (op : Operation) :
    s.after (ops ++ [op]) = left ((s.after ops).perform op) :=
  List.foldl_concat _ _ _ _

/-- What every operation keeps. -/
structure Kept (s : Scope) : Prop where
  indexed : s.Indexed
  tidy : s.index.Tidy

variable {s : Scope} {d : Declaration}

theorem Kept.new (parent : Option ScopeId) (ns : NamespaceId) :
    ({ parent, ns } : Scope).Kept where
  indexed _ := rfl
  tidy := ⟨List.nodup_nil, fun _ hentry => absurd hentry List.not_mem_nil⟩

theorem Kept.append (h : s.Kept) (d : Declaration) : (s.append d).Kept := by
  refine ⟨h.indexed.append d, ?_⟩
  unfold Scope.append
  cases d.symbol? with
  | none => exact h.tidy
  | some symbol => exact h.tidy.add symbol _

theorem Kept.replace (h : s.Kept) (d : Declaration) : (s.replace d).Kept := by
  refine ⟨h.indexed.replace d, ?_⟩
  rcases h.indexed.replace_cases d with ⟨_, heq, _⟩ | ⟨heq, _⟩ <;> rw [heq]
  · exact h.tidy
  · exact (h.append d).tidy

theorem Kept.exact (h : s.Kept) : s.Exact where
  once := h.tidy.once
  listed symbol places := by rw [h.tidy.mem_iff, h.indexed symbol]
  inside symbol place hplace := by
    rw [h.indexed symbol] at hplace
    exact Declaration.lt_of_mem_placesIn hplace
  first symbol := h.indexed.find?_eq symbol
  all symbol := by rw [findAll, h.indexed symbol, Declaration.filterMap_placesIn]

/-- A declaration is refused if repeats are and a search finds its name. -/
theorem Indexed.insert_eq_error (h : s.Indexed) {repeats : Repeats} {existing : Declaration} :
    s.insert d repeats = .error ⟨existing, s⟩ ↔ repeats = .reject ∧
      ∃ symbol, d.symbol? = some symbol ∧ Listing.find? s.entries symbol = some existing := by
  have hfind : s.find? = Listing.find? s.entries := funext h.find?_eq
  rw [← Option.bind_eq_some_iff, ← hfind]
  unfold Scope.insert
  cases repeats with
  | accumulate => simp
  | reject => cases d.symbol?.bind s.find? <;> simp

theorem Indexed.entries_replace (h : s.Indexed) (d : Declaration) :
    (s.replace d).entries = Listing.replace d s.entries := by
  cases hd : d.symbol? with
  | none =>
    rw [Listing.replace_eq_append fun e _ hsome => by rw [hd] at hsome; cases hsome]
    simp [Scope.replace, hd, Scope.append]
  | some symbol =>
    obtain ⟨before, rest, hbefore, hentries, ⟨hold, rfl⟩ | ⟨e, he, hold⟩⟩ := h.replace_split hd
    · rw [hentries, hold, Listing.replace_eq_append fun e hmem _ => by rw [hd]; exact hbefore e hmem]
    · rw [hentries, hold, Listing.replace_eq_of_split hd he hbefore]

/-- One operation does to a scope what it does to its list. -/
theorem Indexed.perform_entries (h : s.Indexed) (op : Operation) :
    ((s.perform op).mapError Refusal.existing).map Scope.entries = Listing.perform s.entries op := by
  cases op with
  | insert d repeats =>
    have hfind : s.find? = Listing.find? s.entries := funext h.find?_eq
    cases repeats with
    | accumulate => rfl
    | reject =>
      rw [perform, Listing.perform, ← hfind]
      unfold Scope.insert
      cases d.symbol?.bind s.find? <;> rfl
  | replace d => exact congrArg Except.ok (h.entries_replace d)

/-- An operation that is refused leaves the scope as it is. -/
theorem scope_eq_of_perform_eq_error {op : Operation} {refusal : Refusal}
    (h : s.perform op = .error refusal) : refusal.scope = s := by
  cases op with
  | insert d repeats => exact scope_eq_of_insert_eq_error h
  | replace d => cases h

theorem Kept.perform (h : s.Kept) (op : Operation) : (left (s.perform op)).Kept := by
  cases op with
  | insert d repeats =>
    rw [Scope.perform]
    cases hinsert : s.insert d repeats with
    | error refusal =>
      rw [left, scope_eq_of_insert_eq_error hinsert]
      exact h
    | ok s' =>
      rw [(h.indexed.insert_eq_ok hinsert).1]
      exact h.append d
  | replace d => exact h.replace d

/-- A run keeps the index, and does to the scope what it does to a list. -/
theorem after_kept (parent : Option ScopeId) (ns : NamespaceId) (ops : List Operation) :
    (after { parent, ns } ops).Kept ∧ (after { parent, ns } ops).entries = Listing.after ops := by
  induction ops using List.reverseRecOn with
  | nil => exact ⟨.new parent ns, rfl⟩
  | append_singleton ops op ih =>
    obtain ⟨hkept, hentries⟩ := ih
    have hstep := hkept.indexed.perform_entries op
    rw [after_concat, Listing.after_concat]
    refine ⟨hkept.perform op, ?_⟩
    rw [← hentries, ← hstep]
    cases hop : Scope.perform _ op with
    | error refusal => exact congrArg Scope.entries (scope_eq_of_perform_eq_error hop)
    | ok s => rfl

/-- Whatever is done to a new scope, its index lists exactly where names stand, so that what it finds
is what a search through its declarations finds, and no place is beyond them. Its declarations, and
what becomes of them next, are those of a list without an index. What is refused leaves the scope as
it is, and the answer is the first declaration of the name. -/
theorem after_scans (parent : Option ScopeId) (ns : NamespaceId) (ops : List Operation) :
    (after { parent, ns } ops).Exact ∧
    (after { parent, ns } ops).entries = Listing.after ops ∧
    (∀ op, (((after { parent, ns } ops).perform op).mapError Refusal.existing).map Scope.entries =
      Listing.perform (Listing.after ops) op) ∧
    (∀ d repeats existing,
      (after { parent, ns } ops).insert d repeats = .error ⟨existing, after { parent, ns } ops⟩ ↔
        repeats = .reject ∧ ∃ symbol, d.symbol? = some symbol ∧
          Listing.find? (Listing.after ops) symbol = some existing) ∧
    ∀ op refusal, (after { parent, ns } ops).perform op = .error refusal →
      refusal.scope = after { parent, ns } ops ∧
        after { parent, ns } (ops ++ [op]) = after { parent, ns } ops := by
  obtain ⟨hkept, hentries⟩ := after_kept parent ns ops
  rw [← hentries]
  refine ⟨hkept.exact, rfl, hkept.indexed.perform_entries,
    fun d repeats existing => hkept.indexed.insert_eq_error, fun op refusal hrefused => ?_⟩
  have hscope := scope_eq_of_perform_eq_error hrefused
  refine ⟨hscope, ?_⟩
  rw [after_concat, hrefused]
  exact hscope

/-- A name that is declared twice, one that is refused the second time, and one that is replaced. -/
def sampleOperations : List Operation :=
  [.insert ⟨some (.bare "a"), .element, 1, .once⟩ .reject,
    .insert ⟨none, .type, 2, .once⟩ .reject,
    .insert ⟨some (.bare "b"), .element, 3, .once⟩ .accumulate,
    .insert ⟨some (.bare "a"), .element, 4, .once⟩ .reject,
    .insert ⟨some (.bare "b"), .element, 5, .once⟩ .accumulate,
    .replace ⟨some (.bare "b"), .element, 6, .once⟩]

theorem after_scans_example :
    ((after ⟨none, 0, [], []⟩ sampleOperations).findAll (.element, .bare "b")).map Declaration.node =
      [6, 5] ∧
    after ⟨none, 0, [], []⟩
        (sampleOperations ++ [.insert ⟨some (.bare "a"), .element, 7, .once⟩ .reject]) =
      after ⟨none, 0, [], []⟩ sampleOperations := by
  obtain ⟨hexact, hentries, _, hrefused, hkept⟩ := after_scans none 0 sampleOperations
  constructor
  · rw [hexact.all, hentries]
    decide
  · have hfound : Listing.find? (Listing.after sampleOperations) (.element, .bare "a") =
        some ⟨some (.bare "a"), .element, 1, .once⟩ := by decide
    exact (hkept (.insert ⟨some (.bare "a"), .element, 7, .once⟩ .reject) _
      ((hrefused ⟨some (.bare "a"), .element, 7, .once⟩ .reject _).mpr ⟨rfl, _, rfl, hfound⟩)).2

end Scope

end XsdTypes
