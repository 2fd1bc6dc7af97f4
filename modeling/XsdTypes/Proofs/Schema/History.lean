import XsdTypes.Proofs.Schema.Redefinitions

/-!
# Histories of a graph

A graph is built by hand or from documents: scopes, nodes and namespaces are added, things are declared
and redefined, documents are read and loaded, in any order and with success or without. The history of
a graph lists the redefinitions that all this makes. Two laws hold of every history. Where repeats are
refused a name stands once, and a declaration is refused only if it would make this untrue. A name that
has been redefined in the root scope of a namespace means its last redefinition for good, however often
it is declared before and after.
-/

namespace XsdTypes

namespace Graph

variable {g g' : Graph} {symbol : SchemaSymbol} {s : ScopeId} {d : Declaration} {target : ScopeId}

/-! ## Operations -/

/-- What can be done to a graph, by hand or with documents. -/
inductive Operation where
  /-- A scope is added. -/
  | addScope (parent : Option ScopeId) (ns : NamespaceId)
  /-- A node is added. -/
  | addNode (node : Node)
  /-- A namespace is registered. -/
  | register (uri : String)
  /-- Something is declared in a scope. -/
  | declare (d : Declaration) (target : ScopeId)
  /-- A name is redefined. -/
  | redefine (r : Redefinition)
  /-- A document is read or loaded. -/
  | call (c : Call)

namespace Operation

/-- Does it. The graph that is left by a declaration that is refused is the one that comes with the
error. A redefinition in a scope that is not there does nothing. -/
def perform (g : Graph) : Operation → Graph
  | .addScope parent ns => (g.addScope parent ns).1
  | .addNode node => (g.addNode node).1
  | .register uri => (g.register uri).1
  | .declare d target =>
    match g.declare d target with
    | .ok g' => g'
    | .error halt => halt.graph
  | .redefine r =>
    if r.target < g.scopes.size then g.redefine r.symbol.1 r.symbol.2 r.node r.target else g
  | .call c => c.perform g

/-- The redefinitions that are made by this, in order. -/
def log (g : Graph) : Operation → List Redefinition
  | .redefine r => if r.target < g.scopes.size then [r] else []
  | .call c => (c.perform g).redefinitions g.nodes.size
  | _ => []

theorem edits (hg : g.Tidy) (op : Operation) : g.Edits (op.log g) (op.perform g) := by
  cases op with
  | addScope parent ns => exact .single (.addScope g parent ns)
  | addNode node => exact .single (.quiet rfl rfl rfl rfl fun _ => rfl)
  | register uri => exact .single (.register g uri)
  | declare d target =>
    rw [perform]
    cases hdeclare : g.declare d target with
    | error halt =>
      simp only [graph_eq_of_declare_eq_error hdeclare]
      exact .refl
    | ok g' => exact .single (.declare hdeclare)
  | redefine r =>
    by_cases htarget : r.target < g.scopes.size
    · rw [log, perform, if_pos htarget, if_pos htarget]
      exact .single (.redefine r htarget)
    · rw [log, perform, if_neg htarget, if_neg htarget]
      exact .refl
  | call c => exact (c.logged hg).edits

end Operation

/-- The graph after operations. -/
def after (g : Graph) (ops : List Operation) : Graph :=
  ops.foldl Operation.perform g

/-- The redefinitions that operations make, in order. -/
def history (g : Graph) : List Operation → List Redefinition
  | [] => []
  | op :: ops => op.log g ++ history (op.perform g) ops

theorem edits_after (hg : g.Tidy) (ops : List Operation) : g.Edits (g.history ops) (g.after ops) := by
  induction ops generalizing g with
  | nil => exact .refl
  | cons op ops ih =>
    have hop := op.edits hg
    exact hop.trans (ih (hop.tidy hg))

theorem initial_tidy (policy : RepeatPolicy) : (initial policy).Tidy where
  indexed := (initial_sound policy).declared.indexed
  once := (initial_sound policy).declared.once
  root_lt := (initial_sound policy).registry.root_lt
  root_parent := (initial_sound policy).registry.root_parent

/-- A name has been redefined if its redefinition stands in the history. -/
theorem mem_redefined_after (policy : RepeatPolicy) (ops : List Operation) :
    symbol ∈ ((initial policy).after ops).redefined ↔
      ∃ r ∈ (initial policy).history ops, r.symbol = symbol := by
  rw [(edits_after (initial_tidy policy) ops).mem_redefined, initial_redefined]
  simp

/-! ## Repeated declarations -/

/-- What is declared is refused if its name is taken, unless a redefinition of the name stands. -/
theorem declare_eq_error (hindexed : (g.scopeAt target).Indexed) {halt : Halt} :
    g.declare d target = .error halt ↔
      halt = ⟨g.duplicate d, g⟩ ∧ g.Clashes d target ∧ ¬ g.PassedOver d target := by
  rcases declare_cases hindexed (d := d) with
    ⟨hover, heq⟩ | ⟨hover, hclash, heq⟩ | ⟨hover, hclash, heq⟩ <;> rw [heq]
  · simp [hover]
  · simp [hover, hclash, eq_comm]
  · simp [hclash]

/-- Where repeats are refused, a name stands once in a scope. A declaration is refused, and nothing
changes, exactly if repeats of its name are refused where it is to stand, and the name is taken and not
one that has been redefined and is to stand in a root scope. -/
theorem repeats_refused (policy : RepeatPolicy) (ops : List Operation) {g : Graph}
    (hg : (initial policy).after ops = g) :
    g.policy = policy ∧
    (∀ s symbol, policy.rule symbol.1 (g.scopeAt s).parent.isNone = .reject →
      ((g.scopeAt s).entries.map Declaration.symbol?).count (some symbol) ≤ 1) ∧
    (∀ d target, g.declare d target = .error ⟨g.duplicate d, g⟩ ↔
      d.name.isSome ∧ policy.rule d.space (g.scopeAt target).parent.isNone = .reject ∧
        (∃ e ∈ (g.scopeAt target).entries, e.symbol? = d.symbol?) ∧
        ¬ ((g.scopeAt target).parent = none ∧
          ∃ r ∈ (initial policy).history ops, d.symbol? = some r.symbol)) ∧
    ∀ d target halt, g.declare d target = .error halt →
      halt = ⟨g.duplicate d, g⟩ ∧ (Operation.declare d target).perform g = g := by
  have hedits := edits_after (initial_tidy policy) ops
  rw [hg] at hedits
  have htidy := hedits.tidy (initial_tidy policy)
  have hpolicy : g.policy = policy := by
    rw [hedits.policy_eq, initial_policy]
    rfl
  have hover : ∀ d target, g.PassedOver d target ↔ (g.scopeAt target).parent = none ∧
      ∃ r ∈ (initial policy).history ops, d.symbol? = some r.symbol := by
    intro d target
    refine and_congr_right fun _ => ⟨?_, ?_⟩
    · rintro ⟨symbol, hmem, hd⟩
      rw [← hg, mem_redefined_after] at hmem
      obtain ⟨r, hr, rfl⟩ := hmem
      exact ⟨r, hr, hd⟩
    · rintro ⟨r, hr, hd⟩
      refine ⟨r.symbol, ?_, hd⟩
      rw [← hg, mem_redefined_after]
      exact ⟨r, hr, rfl⟩
  refine ⟨hpolicy, fun s symbol hreject => htidy.once s symbol (hpolicy ▸ hreject), fun d target => ?_,
    fun d target halt herror => ⟨((declare_eq_error (htidy.indexed target)).mp herror).1, ?_⟩⟩
  · rw [declare_eq_error (htidy.indexed target), hover, Clashes, hpolicy]
    simp only [true_and, and_assoc]
  · rw [Operation.perform, herror]
    exact graph_eq_of_declare_eq_error herror

/-- A type `u` is declared in a namespace, and `t` is redefined there. -/
def declaredAndRedefined : List Operation :=
  [.register "n", .declare ⟨some ⟨"n", "u"⟩, .type, 3, .once⟩ 2, .redefine ⟨(.type, ⟨"n", "t"⟩), 4, 2⟩]

set_option maxRecDepth 100000 in
theorem repeats_refused_example : ∃ g, (initial .standard).after declaredAndRedefined = g ∧
    g.declare ⟨some ⟨"n", "u"⟩, .type, 5, .once⟩ 2 =
      .error ⟨.duplicate .type ⟨"n", "u"⟩ (g.location 5), g⟩ ∧
    (Operation.declare ⟨some ⟨"n", "u"⟩, .type, 5, .once⟩ 2).perform g = g ∧
    g.declare ⟨some ⟨"n", "t"⟩, .type, 5, .once⟩ 2 ≠
      .error ⟨.duplicate .type ⟨"n", "t"⟩ (g.location 5), g⟩ := by
  obtain ⟨_, _, hrefused, herror⟩ := repeats_refused .standard declaredAndRedefined rfl
  have hu := (hrefused ⟨some ⟨"n", "u"⟩, .type, 5, .once⟩ 2).mpr (by decide +kernel)
  refine ⟨_, rfl, hu, (herror _ _ _ hu).2, fun ht => ?_⟩
  exact absurd ((hrefused ⟨some ⟨"n", "t"⟩, .type, 5, .once⟩ 2).mp ht) (by decide +kernel)

/-! ## Redefinitions -/

/-- In a root scope a name is found in the scope itself. -/
theorem Redefined.lookup? {node : NodeId} (h : g.Redefined s symbol node)
    (hindexed : (g.scopeAt s).Indexed) (hroot : (g.scopeAt s).parent = none) :
    (g.lookup? s symbol).map Declaration.node = some node := by
  obtain ⟨d, hfind, hnode⟩ := Option.map_eq_some_iff.mp (h.first hroot)
  obtain ⟨fuel, hfuel⟩ := Nat.exists_eq_add_one_of_ne_zero (Nat.ne_of_gt (Nat.zero_lt_of_lt h.lt))
  have hout : g.findOutward? symbol g.scopes.size s = some d := by
    rw [hfuel]
    unfold findOutward?
    rw [hindexed.find?_eq, hfind]
  rw [Graph.lookup?, hout, Option.some_or, Option.map_some, hnode]

/-- The declarations of a scope after a redefinition: what stands before and after it is as it was. -/
theorem redefine_entries (hindexed : (g.scopeAt s).Indexed) {r : Redefinition} (htarget : r.target = s)
    (hs : s < g.scopes.size) :
    ∃ before rest,
      (((Operation.redefine r).perform g).scopeAt s).entries = before ++ r.declaration :: rest ∧
      ((g.scopeAt s).entries = before ∧ rest = [] ∨
        ∃ e, e.symbol? = some r.symbol ∧ (g.scopeAt s).entries = before ++ e :: rest) := by
  have hscope : ((Operation.redefine r).perform g).scopeAt s = (g.scopeAt s).replace r.declaration := by
    subst htarget
    rw [Operation.perform, if_pos hs]
    exact scopeAt_modifyScope_self g r.target _ hs
  obtain ⟨before, rest, _, hentries, hold⟩ := hindexed.replace_split r.symbol?_declaration
  rw [hscope]
  exact ⟨before, rest, hentries, hold⟩

/-- The last redefinition of a name in the root scope of a namespace stands: the name means it there,
and stands once if repeats are refused, as they are by the standard policy. A redefinition takes the
place of the declaration it redefines, or comes last, and declarations keep their places for good; no
declaration changes but by redefinitions of its name. -/
theorem last_redefinition_stands (policy : RepeatPolicy) (ops : List Operation) {g : Graph}
    (hg : (initial policy).after ops = g) {ns : NamespaceId} (hns : ns < g.namespaces.size)
    {s : ScopeId} (hs : (g.namespaceAt ns).root = s) :
    (∀ symbol r, Redefinition.last? ((initial policy).history ops) s symbol = some r →
      (g.lookup? s symbol).map Declaration.node = some r.node ∧
        (policy.root symbol.1 = .reject →
          ((g.scopeAt s).entries.map Declaration.symbol?).count (some symbol) = 1)) ∧
    (∀ r, r.target = s → ∃ before rest,
      (((Operation.redefine r).perform g).scopeAt s).entries = before ++ r.declaration :: rest ∧
      ((g.scopeAt s).entries = before ∧ rest = [] ∨
        ∃ e, e.symbol? = some r.symbol ∧ (g.scopeAt s).entries = before ++ e :: rest)) ∧
    ∀ later (i : Nat) d, (g.scopeAt s).entries[i]? = some d →
      ∃ d', ((g.after later).scopeAt s).entries[i]? = some d' ∧ (d' = d ∨
        ∃ r ∈ g.history later, r.target = s ∧ d.symbol? = some r.symbol ∧ d' = r.declaration) := by
  have hedits := edits_after (initial_tidy policy) ops
  rw [hg] at hedits
  have htidy := hedits.tidy (initial_tidy policy)
  have hlt : s < g.scopes.size := hs ▸ htidy.root_lt ns hns
  have hroot : (g.scopeAt s).parent = none := hs ▸ htidy.root_parent ns hns
  refine ⟨fun symbol r hlast => ?_, fun r htarget => redefine_entries (htidy.indexed s) htarget hlt,
    fun later i d hentry => (edits_after htidy later).entry htidy hentry⟩
  have hredefined := hedits.redefined (initial_tidy policy) hlast
  -- at most once because repeats are refused, and at least once because it is found
  refine ⟨hredefined.lookup? (htidy.indexed s) hroot, fun hreject => Nat.le_antisymm ?_ ?_⟩
  · refine htidy.once s symbol ?_
    rw [hedits.policy_eq, initial_policy, hroot]
    exact hreject
  · obtain ⟨d, hfind, _⟩ := Option.map_eq_some_iff.mp (hredefined.first hroot)
    have hd : d.symbol? = some symbol := by simpa using List.find?_some hfind
    exact List.count_pos_iff.mpr (List.mem_map.mpr ⟨d, List.mem_of_find?_eq_some hfind, hd⟩)

/-- A document that redefines a type and declares it after that. -/
def redefiningDocument : String :=
  "<x:schema xmlns:x='http://www.w3.org/2001/XMLSchema' targetNamespace='n'>" ++
    "<x:redefine schemaLocation='o'><x:simpleType name='t'><x:list itemType='x:int'/>" ++
    "</x:simpleType></x:redefine><x:simpleType name='t'><x:list itemType='x:string'/>" ++
    "</x:simpleType></x:schema>"

/-- The type is declared before the document is read, and once more afterwards. -/
def redefinedBetween : List Operation :=
  [.register "n", .declare ⟨some ⟨"n", "t"⟩, .type, 3, .once⟩ 2,
    .call (.read (.entry "a" none) redefiningDocument),
    .declare ⟨some ⟨"n", "t"⟩, .type, 4, .once⟩ 2]

set_option maxRecDepth 100000 in
theorem last_redefinition_stands_example :
    Redefinition.last? ((initial .standard).history redefinedBetween) 2 (.type, ⟨"n", "t"⟩) =
      some ⟨(.type, ⟨"n", "t"⟩), 52, 2⟩ ∧
    (((initial .standard).after redefinedBetween).lookup? 2 (.type, ⟨"n", "t"⟩)).map
      Declaration.node = some 52 ∧
    ((((initial .standard).after redefinedBetween).scopeAt 2).entries.map Declaration.symbol?).count
      (some (.type, ⟨"n", "t"⟩)) = 1 := by
  have heval : (2 < ((initial .standard).after redefinedBetween).namespaces.size ∧
      (((initial .standard).after redefinedBetween).namespaceAt 2).root = 2) ∧
      Redefinition.last? ((initial .standard).history redefinedBetween) 2 (.type, ⟨"n", "t"⟩) =
        some ⟨(.type, ⟨"n", "t"⟩), 52, 2⟩ := by
    have htext : redefiningDocument.toList = _ := Loading.toList_append_ofList
      (Loading.toList_append_ofList (Loading.toList_append_ofList String.toList_ofList))
    simp only [redefinedBetween, after, history, List.foldl_cons, List.foldl_nil, Operation.perform,
      Operation.log, Call.perform, Loading.read_of_toList htext]
    decide +kernel
  obtain ⟨⟨hns, hroot⟩, hlast⟩ := heval
  obtain ⟨hlookup, honce⟩ :=
    (last_redefinition_stands .standard redefinedBetween rfl hns hroot).1 _ _ hlast
  exact ⟨hlast, hlookup, honce rfl⟩

end Graph

end XsdTypes
