import XsdTypes.Proofs.Schema.Initial
import XsdTypes.Proofs.Schema.Resolution
import XsdTypes.Proofs.Schema.Structure

/-!
# What names are bound to

The names that a node uses are those its tag was given, apart from a reference that has no effect
because the node has a type already (`Graph.uses`). Binding finds for each of them what it denotes,
and fails only if one of them denotes nothing.
-/

namespace XsdTypes

open Sequencing

/-- A name that a node uses, and the node it has been bound to. -/
structure NameUse where
  /-- The name. -/
  symbol : SchemaSymbol
  /-- What it has been bound to. -/
  node : Option NodeId
  deriving DecidableEq, Repr

/-- The names that an element or an attribute uses: that of its type, or else that of the declaration
it refers to, unless a type stands within it. -/
def Ascription.uses (space : SymbolSpace) (hasInlineType : Bool) (a : Ascription) : List NameUse :=
  match a.typeName, a.refName with
  | some name, _ => [⟨(.type, name), a.typeNode⟩]
  | none, some name => if hasInlineType then [] else [⟨(space, name), a.target⟩]
  | none, none => []

/-- The names that a payload uses in a node with the given tag. -/
def Payload.uses (tag : Tag) (hasInlineType : Bool) : Payload → List NameUse
  | .element a => a.uses .element hasInlineType
  | .attr a _ => a.uses .attr hasInlineType
  | .derivation d => d.base.toList.map fun base => ⟨(.type, base), d.baseNode⟩
  | .list itemType itemNode => itemType.toList.map fun name => ⟨(.type, name), itemNode⟩
  | .union memberTypes memberNodes =>
    memberTypes.zipIdx.map fun (name, i) => ⟨(.type, name), memberNodes[i]?⟩
  | .group (some name) target =>
    [⟨(if tag = .group then .group else .attrGroup, name), target⟩]
  | _ => []

/-- Whether there are no names to bind. -/
def Payload.isNameless : Payload → Bool
  | .element _ | .attr _ _ | .derivation _ | .list _ _ | .union _ _ | .group (some _) _ => false
  | _ => true

theorem Payload.of_isNameless {payload : Payload} (h : payload.isNameless = true) :
    (∀ tag inline, payload.uses tag inline = []) ∧ payload.typeNodes = [] := by
  cases payload with
  | group refName target =>
    cases refName with
    | none => exact ⟨fun _ _ => rfl, rfl⟩
    | some name => cases h
  | element | attr | derivation | list | union => cases h
  | _ => exact ⟨fun _ _ => rfl, rfl⟩

theorem Ascription.uses_written (space : SymbolSpace) (hasInlineType : Bool) (a : Ascription) :
    (Ascription.uses space hasInlineType { a with typeNode := none, target := none }).map
      NameUse.symbol = (a.uses space hasInlineType).map NameUse.symbol := by
  unfold Ascription.uses
  cases a.typeName <;> cases a.refName <;> cases hasInlineType <;> rfl

/-- Which names are used is written in the tag. -/
theorem Payload.uses_written (tag : Tag) (hasInlineType : Bool) (payload : Payload) :
    (payload.written.uses tag hasInlineType).map NameUse.symbol =
      (payload.uses tag hasInlineType).map NameUse.symbol := by
  cases payload with
  | element a => exact a.uses_written .element hasInlineType
  | attr a prohibited => exact a.uses_written .attr hasInlineType
  | derivation d => simp [written, uses]
  | list itemType itemNode => simp [written, uses]
  | union memberTypes memberNodes => simp [written, uses]
  | group refName target => cases refName <;> rfl
  | _ => rfl

namespace Graph

/-- The names that a node uses. -/
def uses (g : Graph) (id : NodeId) : List NameUse :=
  (g.nodeAt id).payload.uses (g.nodeAt id).tag (g.hasInlineType id)

/-- A used name is bound to what it denotes, and that has a tag of the right kind. -/
def Binds (g : Graph) (u : NameUse) : Prop :=
  ∃ node, u.node = some node ∧ g.Denotes u.symbol node ∧ node < g.nodes.size ∧
    u.symbol.1.fits (g.nodeAt node).tag

/-- A type that a name may be bound to: a built-in one, one without a name, or a global one. -/
def IsType (g : Graph) (t : NodeId) : Prop :=
  t < g.nodes.size ∧ SymbolSpace.type.fits (g.nodeAt t).tag ∧
    ((g.nodeAt t).tag = .builtin ∨ (g.nodeAt t).name = none ∨
      ∃ d ∈ (g.scopeAt (g.nodeAt t).scope).entries, d.node = t ∧ d.space = .type)

variable {g g' : Graph} {id : NodeId}

theorem Sound.isType (hg : g.Sound) {s : ScopeId} {d : Declaration} (hd : d ∈ (g.scopeAt s).entries)
    (hspace : d.space = .type) : g.IsType d.node := by
  have hdecl := hg.declared.entry s d hd
  refine ⟨hdecl.node_lt, hspace ▸ hdecl.fits, Or.inr (Or.inr ⟨d, ?_, rfl, hspace⟩)⟩
  rw [hdecl.scope]
  exact hd

theorem isType_of_denotes (hg : g.Sound) {name : QName} {t : NodeId}
    (h : g.Denotes (.type, name) t) : g.IsType t := by
  obtain ⟨ns, d, rest, _, hfilter, rfl, _⟩ := h
  have hd : d ∈ (g.globals ns).filter fun d => d.symbol? = some (.type, name) := by
    rw [hfilter]
    exact List.mem_cons_self
  rw [List.mem_filter, decide_eq_true_eq] at hd
  exact hg.isType hd.1 (symbol?_eq_some hd.2).1.symm

theorem binds_of_resolveGlobal (hg : g.Sound) {symbol : SchemaSymbol} {node : NodeId}
    (h : g.resolveGlobal id symbol = .ok node) : g.Binds ⟨symbol, some node⟩ :=
  ⟨node, rfl, resolveGlobal_eq_ok hg h⟩

theorem binds_of_resolveFrom (hg : g.Sound) {name : QName} {node : NodeId}
    (h : g.resolveFrom id (.type, name) = .ok node) : g.Binds ⟨(.type, name), some node⟩ := by
  rw [resolveFrom_type hg] at h
  exact binds_of_resolveGlobal hg h

/-- The types that stand for missing ones are always found. -/
theorem Grown.builtin {policy : RepeatPolicy} (h : (initial policy).Grown g) (id : NodeId)
    {localName : String} (hname : localName = "anyType" ∨ localName = "anySimpleType") :
    ∃ t, Resolution.builtin g id localName = .ok t ∧ g.IsType t := by
  obtain ⟨d₀, hd₀, hsymbol₀⟩ := initial_symbols policy hname
  have hns := initial_schemaNamespace_lt policy
  obtain ⟨d, hd, hsymbol⟩ := h.ext.symbols _ d₀ hd₀ (by rw [hsymbol₀]; rfl)
  rw [← h.ext.root _ hns] at hd
  obtain ⟨d', hfind⟩ : ∃ d', (g.rootScope schemaNamespace).find? (.type, QName.schema localName) =
      some d' := by
    refine Option.isSome_iff_exists.mp ?_
    rw [rootScope, (h.sound.declared.indexed _).find?_eq, List.find?_isSome]
    exact ⟨d, hd, by rw [hsymbol, hsymbol₀]; simp⟩
  obtain ⟨hmem, hsymbol'⟩ := find?_eq_some h.sound hfind
  refine ⟨d'.node, ?_, h.sound.isType hmem (symbol?_eq_some hsymbol').1.symm⟩
  rw [Resolution.builtin, builtin?, hfind]
  rfl

end Graph

namespace Resolution

/-! ## What binding does -/

variable {g g' : Graph} {id : NodeId}

/-- What becomes of an ascription when its names are bound. -/
inductive BindsAscription (g : Graph) (id : NodeId) (space : SymbolSpace) (fallback : String)
    (a : Ascription) : Ascription → Prop
  | named {name : QName} {t : NodeId} (htype : a.typeName = some name)
      (ht : g.resolveFrom id (.type, name) = .ok t) :
      BindsAscription g id space fallback a { a with typeNode := some t }
  | inline {t : NodeId} (htype : a.typeName = none) (ht : inlineType? g id = some t) :
      BindsAscription g id space fallback a { a with typeNode := some t }
  | reference {name : QName} {node : NodeId} (htype : a.typeName = none)
      (hinline : inlineType? g id = none) (href : a.refName = some name)
      (hnode : g.resolveGlobal id (space, name) = .ok node) :
      BindsAscription g id space fallback a { a with target := some node }
  | missing {t : NodeId} (htype : a.typeName = none) (hinline : inlineType? g id = none)
      (href : a.refName = none) (ht : builtin g id fallback = .ok t) :
      BindsAscription g id space fallback a { a with typeNode := some t }

/-- What becomes of a payload when its names are bound. -/
inductive BindsPayload (g : Graph) (id : NodeId) : Payload → Payload → Prop
  | element {a a' : Ascription} (h : BindsAscription g id .element "anyType" a a') :
      BindsPayload g id (.element a) (.element a')
  | attr {a a' : Ascription} (prohibited : Bool)
      (h : BindsAscription g id .attr "anySimpleType" a a') :
      BindsPayload g id (.attr a prohibited) (.attr a' prohibited)
  | base {d : Derivation} {name : QName} {t : NodeId} (hbase : d.base = some name)
      (ht : g.resolveFrom id (.type, name) = .ok t) :
      BindsPayload g id (.derivation d) (.derivation { d with baseNode := some t })
  | inlineBase {d : Derivation} (hbase : d.base = none) :
      BindsPayload g id (.derivation d)
        (.derivation { d with baseNode := (simpleTypes g id).head? })
  | item {name : QName} {before : Option NodeId} {t : NodeId}
      (ht : g.resolveFrom id (.type, name) = .ok t) :
      BindsPayload g id (.list (some name) before) (.list (some name) (some t))
  | inlineItem {before : Option NodeId} {t : NodeId} (ht : (simpleTypes g id).head? = some t) :
      BindsPayload g id (.list none before) (.list none (some t))
  | missingItem {before : Option NodeId} {t : NodeId} (hnone : (simpleTypes g id).head? = none)
      (ht : builtin g id "anySimpleType" = .ok t) :
      BindsPayload g id (.list none before) (.list none (some t))
  | union {memberTypes : List QName} {before named : List NodeId}
      (h : List.Forall₂ (fun name t => g.resolveFrom id (.type, name) = .ok t) memberTypes named) :
      BindsPayload g id (.union memberTypes before)
        (.union memberTypes (named ++ simpleTypes g id))
  | group {name : QName} {before : Option NodeId} {node : NodeId}
      (h : g.resolveGlobal id (if (g.nodeAt id).tag = .group then .group else .attrGroup, name) =
        .ok node) :
      BindsPayload g id (.group (some name) before) (.group (some name) (some node))
  | nameless {payload : Payload} (h : payload.isNameless = true) :
      BindsPayload g id payload payload

theorem BindsPayload.eq_of_group_none {payload payload' : Payload} {target : Option NodeId}
    (h : BindsPayload g id payload payload') (hgroup : payload' = .group none target) :
    payload = .group none target := by
  cases h with
  | nameless => exact hgroup
  | _ => cases hgroup

theorem bindAscription_eq_ok {space : SymbolSpace} {fallback : String} {a a' : Ascription} :
    bindAscription g id space fallback a = .ok a' ↔
      BindsAscription g id space fallback a a' := by
  unfold bindAscription
  constructor
  · intro h
    split at h
    · rename_i name htype
      obtain ⟨t, ht, hpure⟩ := bind_eq_ok.mp h
      cases hpure
      exact .named htype ht
    · rename_i t htype hinline
      cases h
      exact .inline htype hinline
    · rename_i name htype hinline href
      obtain ⟨node, hnode, hpure⟩ := bind_eq_ok.mp h
      cases hpure
      exact .reference htype hinline href hnode
    · rename_i htype hinline href
      obtain ⟨t, ht, hpure⟩ := bind_eq_ok.mp h
      cases hpure
      exact .missing htype hinline href ht
  · intro h
    cases h with
    | named htype ht => simp only [htype, ht]; rfl
    | inline htype ht => simp only [htype, ht]; rfl
    | reference htype hinline href hnode => simp only [htype, hinline, href, hnode]; rfl
    | missing htype hinline href ht => simp only [htype, hinline, href, ht]; rfl

theorem bind_eq_ok_iff {payload : Payload} :
    Resolution.bind g id = .ok payload ↔ BindsPayload g id (g.nodeAt id).payload payload := by
  unfold Resolution.bind
  generalize (g.nodeAt id).payload = before
  constructor
  · intro h
    split at h
    · obtain ⟨a', ha', hpure⟩ := bind_eq_ok.mp h
      cases hpure
      exact .element (bindAscription_eq_ok.mp ha')
    · obtain ⟨a', ha', hpure⟩ := bind_eq_ok.mp h
      cases hpure
      exact .attr _ (bindAscription_eq_ok.mp ha')
    · split at h
      · rename_i hbase
        obtain ⟨t, ht, hpure⟩ := bind_eq_ok.mp h
        cases hpure
        exact .base hbase ht
      · rename_i hbase
        cases h
        exact .inlineBase hbase
    · split at h
      · obtain ⟨t, ht, hpure⟩ := bind_eq_ok.mp h
        cases hpure
        exact .item ht
      · rename_i ht
        cases h
        exact .inlineItem ht
      · rename_i hnone
        obtain ⟨t, ht, hpure⟩ := bind_eq_ok.mp h
        cases hpure
        exact .missingItem hnone ht
    · obtain ⟨named, hnamed, hpure⟩ := bind_eq_ok.mp h
      cases hpure
      exact .union (mapM_eq_ok.mp hnamed)
    · obtain ⟨node, hnode, hpure⟩ := bind_eq_ok.mp h
      cases hpure
      exact .group hnode
    · rename_i hel hat hder hlist hunion hgroup
      cases h
      refine .nameless ?_
      cases payload with
      | element a => exact absurd rfl (hel a)
      | attr a prohibited => exact absurd rfl (hat a prohibited)
      | derivation d => exact absurd rfl (hder d)
      | list itemType itemNode => exact absurd rfl (hlist itemType itemNode)
      | union memberTypes memberNodes => exact absurd rfl (hunion memberTypes memberNodes)
      | group refName target =>
        cases refName with
        | none => rfl
        | some name => exact absurd rfl (hgroup name target)
      | _ => rfl
  · intro h
    cases h with
    | element h => simp only [bindAscription_eq_ok.mpr h]; rfl
    | attr prohibited h => simp only [bindAscription_eq_ok.mpr h]; rfl
    | base hbase ht => simp only [hbase, ht]; rfl
    | inlineBase hbase => simp only [hbase]; rfl
    | item ht => simp only [ht]; rfl
    | inlineItem ht => simp only [ht]; rfl
    | missingItem hnone ht => simp only [hnone, ht]; rfl
    | union h => simp only [mapM_eq_ok.mpr h]; rfl
    | group h => simp only [h]; rfl
    | nameless h =>
      cases payload with
      | group refName _ => cases refName <;> first | rfl | cases h
      | _ => first | rfl | cases h

/-! ## What binding keeps -/

variable {payload payload' : Payload}

theorem BindsPayload.written (h : BindsPayload g id payload payload') :
    payload'.written = payload.written := by
  cases h with
  | element h => cases h <;> rfl
  | attr prohibited h => cases h <;> rfl
  | _ => rfl

theorem BindsAscription.again {space : SymbolSpace} {fallback : String} {a a' : Ascription}
    (h : BindsAscription g id space fallback a a') (hsame : SameNames g g') :
    BindsAscription g' id space fallback a' a' := by
  cases h with
  | named htype ht =>
    exact .named (a := { a with typeNode := _ }) htype ((hsame.resolveFrom _ _).trans ht)
  | inline htype ht =>
    exact .inline (a := { a with typeNode := _ }) htype ((hsame.inlineType? _).trans ht)
  | reference htype hinline href hnode =>
    exact .reference (a := { a with target := _ }) htype ((hsame.inlineType? _).trans hinline) href
      ((hsame.resolveGlobal _ _).trans hnode)
  | missing htype hinline href ht =>
    exact .missing (a := { a with typeNode := _ }) htype ((hsame.inlineType? _).trans hinline) href
      ((hsame.builtin _ _).trans ht)

/-- Binding the names of a payload again changes nothing. -/
theorem BindsPayload.again (h : BindsPayload g id payload payload') (hsame : SameNames g g') :
    BindsPayload g' id payload' payload' := by
  cases h with
  | element h => exact .element (h.again hsame)
  | attr prohibited h => exact .attr prohibited (h.again hsame)
  | @base d _ _ hbase ht =>
    exact .base (d := { d with baseNode := _ }) hbase ((hsame.resolveFrom _ _).trans ht)
  | @inlineBase d hbase =>
    rw [← hsame.simpleTypes]
    exact .inlineBase (d := { d with baseNode := _ }) hbase
  | item ht => exact .item ((hsame.resolveFrom _ _).trans ht)
  | inlineItem ht => exact .inlineItem (by rw [hsame.simpleTypes]; exact ht)
  | missingItem hnone ht =>
    exact .missingItem (by rw [hsame.simpleTypes]; exact hnone) ((hsame.builtin _ _).trans ht)
  | union h =>
    rw [← hsame.simpleTypes]
    exact .union (h.imp fun name t ht => (hsame.resolveFrom _ _).trans ht)
  | group h => exact .group (by rw [hsame.tag, hsame.resolveGlobal]; exact h)
  | nameless h => exact .nameless h

/-! ## Names are bound to what they denote -/

section Grown

variable {g₀ : Graph}

theorem BindsAscription.binds (h : g₀.Grown g) (hnew : g₀.nodes.size ≤ id) (hid : id < g.nodes.size)
    (htag : (g.nodeAt id).tag = .element ∨ (g.nodeAt id).tag = .attr) {space : SymbolSpace}
    {fallback : String} {a a' : Ascription} (hbind : BindsAscription g id space fallback a a') :
    ∀ u ∈ a'.uses space (g.hasInlineType id), g.Binds u := by
  have hinline := h.inlineType?_isSome hnew hid htag
  intro u hu
  cases hbind with
  | named htype ht =>
    simp only [Ascription.uses, htype, List.mem_singleton] at hu
    rw [hu]
    exact Graph.binds_of_resolveFrom h.sound ht
  | inline htype ht =>
    rw [ht] at hinline
    simp only [Ascription.uses, htype, ← hinline] at hu
    cases ha : a.refName <;> rw [ha] at hu <;> cases hu
  | reference htype hnone href hnode =>
    rw [hnone] at hinline
    simp only [Ascription.uses, htype, href, ← hinline] at hu
    rw [List.mem_singleton.mp hu]
    exact Graph.binds_of_resolveGlobal h.sound hnode
  | missing htype hnone href ht =>
    simp only [Ascription.uses, htype, href] at hu
    cases hu

theorem BindsAscription.typed {policy : RepeatPolicy} (h : (Graph.initial policy).Grown g)
    (hnew : (Graph.initial policy).nodes.size ≤ id) (hid : id < g.nodes.size)
    (htag : (g.nodeAt id).tag = .element ∨ (g.nodeAt id).tag = .attr) {space : SymbolSpace}
    {fallback : String} (hfallback : fallback = "anyType" ∨ fallback = "anySimpleType")
    {a a' : Ascription} (hpending : a.typeNode.toList = [])
    (hbind : BindsAscription g id space fallback a a') :
    ∀ t ∈ a'.typeNode.toList, g.IsType t := by
  intro t ht
  cases hbind with
  | named htype hfound =>
    cases List.mem_singleton.mp ht
    rw [Graph.resolveFrom_type h.sound] at hfound
    exact Graph.isType_of_denotes h.sound (Graph.resolveGlobal_eq_ok h.sound hfound).1
  | inline htype hfound =>
    cases List.mem_singleton.mp ht
    obtain ⟨hlt, _, hname, hkind⟩ := h.inlineType?_eq_some hnew hid htag hfound
    exact ⟨hlt, by rcases hkind with hk | hk <;> rw [hk] <;> rfl, Or.inr (Or.inl hname)⟩
  | reference htype hnone href hnode =>
    rw [hpending] at ht
    cases ht
  | missing htype hnone href hfound =>
    cases List.mem_singleton.mp ht
    obtain ⟨t', ht', htyped⟩ := h.builtin id hfallback
    cases hfound.symm.trans ht'
    exact htyped

theorem mem_uses_union {memberTypes : List QName} {memberNodes : List NodeId} {tag : Tag}
    {inline : Bool} {u : NameUse} (hu : u ∈ (Payload.union memberTypes memberNodes).uses tag inline) :
    ∃ (i : Nat) (name : QName), memberTypes[i]? = some name ∧ u = ⟨(.type, name), memberNodes[i]?⟩ := by
  obtain ⟨⟨name, i⟩, hmem, rfl⟩ := List.mem_map.mp hu
  exact ⟨i, name, List.mem_zipIdx_iff_getElem?.mp hmem, rfl⟩

/-- Every name is bound to what it denotes. -/
theorem BindsPayload.binds (h : g₀.Grown g) (hnew : g₀.nodes.size ≤ id) (hid : id < g.nodes.size)
    (hholds : (g.nodeAt id).tag.holds payload' = true) (hbind : BindsPayload g id payload payload') :
    ∀ u ∈ payload'.uses (g.nodeAt id).tag (g.hasInlineType id), g.Binds u := by
  intro u hu
  cases hbind with
  | element hbind => exact hbind.binds h hnew hid (Or.inl (of_decide_eq_true hholds)) u hu
  | attr prohibited hbind => exact hbind.binds h hnew hid (Or.inr (of_decide_eq_true hholds)) u hu
  | base hbase ht =>
    simp only [Payload.uses, hbase, Option.toList_some, List.map_cons, List.map_nil,
      List.mem_singleton] at hu
    rw [hu]
    exact Graph.binds_of_resolveFrom h.sound ht
  | inlineBase hbase =>
    simp only [Payload.uses, hbase] at hu
    cases hu
  | item ht =>
    rw [List.mem_singleton.mp hu]
    exact Graph.binds_of_resolveFrom h.sound ht
  | inlineItem ht => cases hu
  | missingItem hnone ht => cases hu
  | @union memberTypes before named hnamed =>
    obtain ⟨i, name, hname, rfl⟩ := mem_uses_union hu
    have hi : i < named.length := by
      rw [← hnamed.length_eq]
      exact (List.getElem?_eq_some_iff.mp hname).1
    obtain ⟨hlt, rfl⟩ := List.getElem?_eq_some_iff.mp hname
    rw [List.getElem?_append_left hi, List.getElem?_eq_getElem hi]
    exact Graph.binds_of_resolveFrom h.sound (hnamed.get hlt hi)
  | group hnode =>
    rw [List.mem_singleton.mp hu]
    exact Graph.binds_of_resolveGlobal h.sound hnode
  | nameless hnone =>
    rw [(Payload.of_isNameless hnone).1] at hu
    cases hu

/-- Types are bound to types. -/
theorem BindsPayload.typed {policy : RepeatPolicy} (h : (Graph.initial policy).Grown g)
    (hnew : (Graph.initial policy).nodes.size ≤ id) (hid : id < g.nodes.size)
    (hholds : (g.nodeAt id).tag.holds payload = true) (hpending : payload.typeNodes = [])
    (hbind : BindsPayload g id payload payload') : ∀ t ∈ payload'.typeNodes, g.IsType t := by
  have hnamed : ∀ {name t}, g.resolveFrom id (.type, name) = .ok t → g.IsType t := by
    intro name t ht
    rw [Graph.resolveFrom_type h.sound] at ht
    exact Graph.isType_of_denotes h.sound (Graph.resolveGlobal_eq_ok h.sound ht).1
  have hsimple : (g.nodeAt id).tag = .extension ∨ (g.nodeAt id).tag = .restriction ∨
      (g.nodeAt id).tag = .list ∨ (g.nodeAt id).tag = .union →
      ∀ t ∈ simpleTypes g id, g.IsType t := by
    intro htag t ht
    obtain ⟨hlt, htype, hname⟩ := h.simpleTypes_spec hnew hid htag ht
    exact ⟨hlt, by rw [htype]; rfl, Or.inr (Or.inl hname)⟩
  intro t ht
  cases hbind with
  | element hbind =>
    exact hbind.typed h hnew hid (Or.inl (of_decide_eq_true hholds)) (Or.inl rfl) hpending t ht
  | attr prohibited hbind =>
    exact hbind.typed h hnew hid (Or.inr (of_decide_eq_true hholds)) (Or.inr rfl) hpending t ht
  | base hbase hfound =>
    cases List.mem_singleton.mp ht
    exact hnamed hfound
  | inlineBase hbase =>
    have htag : (g.nodeAt id).tag = .extension ∨ (g.nodeAt id).tag = .restriction := by
      simpa [Tag.holds] using hholds
    exact hsimple (by tauto) t (List.mem_of_head? (Option.mem_toList.mp ht))
  | item hfound =>
    cases List.mem_singleton.mp ht
    exact hnamed hfound
  | inlineItem hhead =>
    cases List.mem_singleton.mp ht
    exact hsimple (Or.inr (Or.inr (Or.inl (of_decide_eq_true hholds)))) t (List.mem_of_head? hhead)
  | missingItem hnone hfound =>
    cases List.mem_singleton.mp ht
    obtain ⟨t', ht', htype⟩ := h.builtin id (Or.inr rfl)
    cases hfound.symm.trans ht'
    exact htype
  | @union memberTypes before named hall =>
    rcases List.mem_append.mp ht with ht | ht
    · obtain ⟨i, hi, rfl⟩ := List.mem_iff_getElem.mp ht
      exact hnamed (hall.get (by rw [hall.length_eq]; exact hi) hi)
    · exact hsimple (Or.inr (Or.inr (Or.inr (of_decide_eq_true hholds)))) t ht
  | group hnode => cases ht
  | nameless hnone =>
    rw [(Payload.of_isNameless hnone).2] at ht
    cases ht

/-! ## Names that denote nothing -/

theorem bindAscription_eq_error {policy : RepeatPolicy} (h : (Graph.initial policy).Grown g)
    (hnew : (Graph.initial policy).nodes.size ≤ id) (hid : id < g.nodes.size)
    (htag : (g.nodeAt id).tag = .element ∨ (g.nodeAt id).tag = .attr) {space : SymbolSpace}
    {fallback : String} (hfallback : fallback = "anyType" ∨ fallback = "anySimpleType")
    {a : Ascription} {e : SchemaError} (herror : bindAscription g id space fallback a = .error e) :
    ∃ u ∈ a.uses space (g.hasInlineType id), e = .unresolved u.symbol.1 u.symbol.2 (g.location id) ∧
      ∀ node, ¬ g.Denotes u.symbol node := by
  have hinline := h.inlineType?_isSome hnew hid htag
  unfold bindAscription at herror
  split at herror
  · rename_i name htype
    rcases bind_eq_error.mp herror with hname | ⟨t, _, hpure⟩
    · rw [Graph.resolveFrom_type h.sound] at hname
      refine ⟨⟨(.type, name), a.typeNode⟩, ?_, Graph.resolveGlobal_eq_error h.sound hname⟩
      simp [Ascription.uses, htype]
    · cases hpure
  · cases herror
  · rename_i name htype hnone href
    rcases bind_eq_error.mp herror with hname | ⟨t, _, hpure⟩
    · refine ⟨⟨(space, name), a.target⟩, ?_, Graph.resolveGlobal_eq_error h.sound hname⟩
      rw [hnone] at hinline
      simp [Ascription.uses, htype, href, ← hinline]
    · cases hpure
  · rename_i htype hnone href
    obtain ⟨t, ht, _⟩ := h.builtin id hfallback
    rw [ht] at herror
    cases herror

/-- Binding fails only for a name that denotes nothing. -/
theorem bind_eq_error_uses {policy : RepeatPolicy} (h : (Graph.initial policy).Grown g)
    (hnew : (Graph.initial policy).nodes.size ≤ id) (hid : id < g.nodes.size) {e : SchemaError}
    (herror : Resolution.bind g id = .error e) :
    ∃ u ∈ g.uses id, e = .unresolved u.symbol.1 u.symbol.2 (g.location id) ∧
      ∀ node, ¬ g.Denotes u.symbol node := by
  have hholds := h.holds hnew hid
  have hnamed : ∀ {name e}, g.resolveFrom id (.type, name) = .error e →
      e = .unresolved .type name (g.location id) ∧ ∀ node, ¬ g.Denotes (.type, name) node := by
    intro name e hname
    rw [Graph.resolveFrom_type h.sound] at hname
    exact Graph.resolveGlobal_eq_error h.sound hname
  unfold Graph.uses
  unfold Resolution.bind at herror
  split at herror
  case h_1 a hpayload =>
    rw [hpayload] at hholds ⊢
    rcases bind_eq_error.mp herror with ha | ⟨a', _, hpure⟩
    · exact bindAscription_eq_error h hnew hid (Or.inl (of_decide_eq_true hholds)) (Or.inl rfl) ha
    · cases hpure
  case h_2 a prohibited hpayload =>
    rw [hpayload] at hholds ⊢
    rcases bind_eq_error.mp herror with ha | ⟨a', _, hpure⟩
    · exact bindAscription_eq_error h hnew hid (Or.inr (of_decide_eq_true hholds)) (Or.inr rfl) ha
    · cases hpure
  case h_3 d hpayload =>
    rw [hpayload]
    split at herror
    · rename_i name hbase
      rcases bind_eq_error.mp herror with hname | ⟨t, _, hpure⟩
      · exact ⟨⟨(.type, name), d.baseNode⟩, by simp [Payload.uses, hbase], hnamed hname⟩
      · cases hpure
    · cases herror
  case h_4 itemType itemNode hpayload =>
    rw [hpayload]
    split at herror
    · rename_i name
      rcases bind_eq_error.mp herror with hname | ⟨t, _, hpure⟩
      · exact ⟨⟨(.type, name), itemNode⟩, List.mem_singleton.mpr rfl, hnamed hname⟩
      · cases hpure
    · cases herror
    · obtain ⟨t, ht, _⟩ := h.builtin id (Or.inr rfl)
      rw [ht] at herror
      cases herror
  case h_5 memberTypes memberNodes hpayload =>
    rw [hpayload]
    rcases bind_eq_error.mp herror with hnames | ⟨named, _, hpure⟩
    · obtain ⟨name, hmem, hname⟩ := mapM_eq_error hnames
      obtain ⟨i, hi⟩ := List.mem_iff_getElem?.mp hmem
      refine ⟨⟨(.type, name), memberNodes[i]?⟩, ?_, hnamed hname⟩
      exact List.mem_map.mpr ⟨(name, i), List.mem_zipIdx_iff_getElem?.mpr hi, rfl⟩
    · cases hpure
  case h_6 name target hpayload =>
    rw [hpayload]
    rcases bind_eq_error.mp herror with hname | ⟨node, _, hpure⟩
    · exact ⟨_, List.mem_singleton.mpr rfl, Graph.resolveGlobal_eq_error h.sound hname⟩
    · cases hpure
  case h_7 => cases herror

end Grown

end Resolution

end XsdTypes
