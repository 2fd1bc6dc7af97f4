import XsdTypes.Proofs.Schema.Extension
import XsdTypes.Proofs.Sequencing
import XsdTypes.Schema.Opening

/-!
# What accepted tags do

One lemma for each kind of tag says what its payload and its effect are when it is accepted. From
these follow the facts that hold for every tag: what it declares fits it, a type with a name is
declared globally and in the namespace it stands in, and its references are not bound yet.
-/

namespace XsdTypes

theorem Tag.payload_typeNodes (tag : Tag) : tag.payload.typeNodes = [] := by cases tag <;> rfl

theorem Tag.payload_targets (tag : Tag) : tag.payload.targets = [] := by cases tag <;> rfl

/-- Whether the content of a tag is declared in a scope of its own. -/
def Tag.opens : Tag → Bool → Bool
  | .element, _ | .attr, _ | .complexType, _ | .simpleType, _ => true
  | .group, isGlobal | .attrGroup, isGlobal => isGlobal
  | _, _ => false

/-- The tags between a complex type and its content model. -/
def Tag.wraps : Tag → Bool
  | .complexContent | .simpleContent | .extension | .restriction => true
  | _ => false

/-- Whether the tags within a tag multiply their occurrences by those of the tag. Definitions of
groups do, references to them do not. -/
def Tag.carries : Tag → Bool → Bool
  | .complexType, _ | .simpleType, _ | .sequence, _ | .choice, _ | .all, _ => true
  | .group, opensScope => opensScope
  | tag, _ => tag.wraps

/-- How often a content model may occur within the type or group around it. -/
def Payload.occurs : Payload → Occurrence
  | .particle occurs => occurs
  | _ => .once

theorem Payload.occurs_written (payload : Payload) : payload.written.occurs = payload.occurs := by
  cases payload <;> rfl

/-- Whether a payload is of the kind that the nodes of a tag have. -/
def Tag.holds (tag : Tag) : Payload → Bool
  | .unset | .plain => true
  | .schema => tag = .schema
  | .documentRef _ _ => tag = .importDoc || tag = .includeDoc || tag = .redefineDoc
  | .documentation _ => tag = .documentation
  | .element _ => tag = .element
  | .attr _ _ => tag = .attr
  | .complexType _ _ => tag = .complexType
  | .simpleType => tag = .simpleType
  | .particle _ => tag = .sequence || tag = .choice || tag = .all
  | .group _ _ => tag = .group || tag = .attrGroup
  | .derivation _ => tag = .extension || tag = .restriction
  | .enumeration _ => tag = .enumeration
  | .list _ _ => tag = .list
  | .union _ _ => tag = .union
  | .builtin _ => tag = .builtin

theorem Tag.holds_written (tag : Tag) (payload : Payload) :
    tag.holds payload.written = tag.holds payload := by
  cases payload <;> rfl

theorem Tag.holds_payload (tag : Tag) : tag.holds tag.payload = true := by
  cases tag <;> rfl

/-- How often the content of a tag may occur. -/
def Tag.contentOccurs (tag : Tag) (payload : Payload) : Occurrence :=
  match tag with
  | .sequence | .all => payload.occurs
  | .choice => payload.occurs.optional
  | _ => .once

namespace Site

open Sequencing

variable {s : Site} {e : Effect}

theorem planOf_eq_ok {p : Except SchemaError (Payload × Effect)}
    (h : (s.planOf p).effect = .ok e) :
    ∃ payload, p = .ok (payload, e) ∧ (s.planOf p).payload = payload := by
  unfold planOf at h ⊢
  split at h
  · rename_i payload effect
    cases h
    exact ⟨payload, rfl, rfl⟩
  · cases h

/-! ## Kinds of tag -/

theorem plan_element (htag : s.tag = .element) (h : s.plan.effect = .ok e) :
    ∃ typeName refName name occurs,
      s.plan.payload = .element { isGlobal := s.isGlobal, typeName, refName } ∧
      e = { declares := some ⟨some name, .element, occurs⟩, opensScope := true,
            childOccurs := .once } ∧
      (s.isGlobal = false → ∃ own, s.ownOccurs = .ok own ∧ occurs = s.occurs.times own) := by
  have hplan : s.plan = s.element := by rw [plan, htag]
  rw [hplan] at h ⊢
  obtain ⟨payload, hok, hpay⟩ := planOf_eq_ok h
  obtain ⟨refName, _, hok⟩ := bind_eq_ok.mp hok
  obtain ⟨typeName, _, hok⟩ := bind_eq_ok.mp hok
  obtain ⟨name, _, hok⟩ := bind_eq_ok.mp hok
  split at hok
  · rename_i hglobal
    injection hok with hok
    injection hok with hpayload heffect
    refine ⟨typeName, refName, name, _, hpay.trans hpayload.symm, heffect.symm, fun hlocal => ?_⟩
    rw [hglobal] at hlocal
    cases hlocal
  · obtain ⟨occurs, hoccurs, hok⟩ := bind_eq_ok.mp hok
    obtain ⟨own, hown, htimes⟩ := map_eq_ok.mp hoccurs
    injection hok with hok
    injection hok with hpayload heffect
    exact ⟨typeName, refName, name, occurs, hpay.trans hpayload.symm, heffect.symm,
      fun _ => ⟨own, hown, htimes.symm⟩⟩

theorem plan_attr (htag : s.tag = .attr) (h : s.plan.effect = .ok e) :
    ∃ typeName refName name occurs prohibited,
      s.plan.payload = .attr { isGlobal := s.isGlobal, typeName, refName } prohibited ∧
      e = { declares := if prohibited then none else some ⟨some name, .attr, occurs⟩
            bears := if prohibited then some name else none
            opensScope := true
            childOccurs := s.occurs } := by
  have hplan : s.plan = s.attr := by rw [plan, htag]
  rw [hplan] at h ⊢
  obtain ⟨payload, hok, hpay⟩ := planOf_eq_ok h
  obtain ⟨refName, _, hok⟩ := bind_eq_ok.mp hok
  obtain ⟨typeName, _, hok⟩ := bind_eq_ok.mp hok
  obtain ⟨name, _, hok⟩ := bind_eq_ok.mp hok
  injection hok with hok
  injection hok with hpayload heffect
  exact ⟨typeName, refName, name, _, _, hpay.trans hpayload.symm, heffect.symm⟩

/-- Where a type definition stands decides what it declares. -/
theorem typeDefinition_effect {payload : Payload} (h : (s.typeDefinition payload).effect = .ok e) :
    ∃ declares, e = { declares, opensScope := true, childOccurs := .once } ∧
      (s.isGlobal = true → ∃ localName, declares = some ⟨some ⟨s.uri, localName⟩, .type, .once⟩) ∧
      (s.isGlobal = false → s.parentTag = some .element ∨ s.parentTag = some .attr →
        declares = some ⟨none, .type, .once⟩) ∧
      (s.isGlobal = false → s.parentTag ≠ some .element → s.parentTag ≠ some .attr →
        declares = none) := by
  change (_ : Except SchemaError Effect) = _ at h
  simp only [typeDefinition] at h
  split at h
  · rename_i hglobal
    obtain ⟨declares, hdeclares, hok⟩ := bind_eq_ok.mp h
    obtain ⟨name, hname, rfl⟩ := map_eq_ok.mp hdeclares
    obtain ⟨localName, _, rfl⟩ := map_eq_ok.mp hname
    cases hok
    refine ⟨_, rfl, fun _ => ⟨localName, rfl⟩, fun hl => ?_, fun hl => ?_⟩
    all_goals rw [hglobal] at hl; cases hl
  · rename_i hlocal
    split at h
    · rename_i hparent
      cases h
      refine ⟨_, rfl, fun hg => absurd hg hlocal, fun _ _ => rfl, fun _ hel hat => ?_⟩
      simp only [Bool.or_eq_true, decide_eq_true_eq] at hparent
      rcases hparent with hp | hp
      · exact absurd hp hel
      · exact absurd hp hat
    · rename_i hparent
      cases h
      refine ⟨_, rfl, fun hg => absurd hg hlocal, fun _ hp => ?_, fun _ _ _ => rfl⟩
      simp only [Bool.or_eq_true, decide_eq_true_eq] at hparent
      exact absurd hp hparent

theorem plan_complexType (htag : s.tag = .complexType) :
    s.plan = s.typeDefinition
      (.complexType (s.hasValue "mixed" "true") (s.hasValue "abstract" "true")) := by
  rw [plan, htag]

theorem plan_simpleType (htag : s.tag = .simpleType) :
    s.plan = s.typeDefinition .simpleType := by
  rw [plan, htag]

theorem plan_type (htag : s.tag = .complexType ∨ s.tag = .simpleType) :
    ∃ payload, s.plan = s.typeDefinition payload := by
  rcases htag with ht | ht
  · exact ⟨_, plan_complexType ht⟩
  · exact ⟨_, plan_simpleType ht⟩

/-- A type directly within an element or an attribute is declared there without a name. -/
theorem declares_inline (htag : s.tag = .complexType ∨ s.tag = .simpleType)
    (hparent : s.parentTag = some .element ∨ s.parentTag = some .attr)
    (h : s.plan.effect = .ok e) : e.declares = some ⟨none, .type, .once⟩ := by
  have hlocal : s.isGlobal = false := by
    rcases hparent with hp | hp <;> rw [isGlobal, hp] <;> rfl
  obtain ⟨payload, hplan⟩ := plan_type htag
  rw [hplan] at h
  obtain ⟨declares, rfl, _, hinline, _⟩ := typeDefinition_effect h
  exact hinline hlocal hparent

/-- A global type is declared with a name. -/
theorem declares_global (htag : s.tag = .complexType ∨ s.tag = .simpleType)
    (hglobal : s.isGlobal = true) (h : s.plan.effect = .ok e) :
    ∃ reg, e.declares = some reg ∧ reg.name.isSome := by
  obtain ⟨payload, hplan⟩ := plan_type htag
  rw [hplan] at h
  obtain ⟨declares, rfl, hnamed, _⟩ := typeDefinition_effect h
  obtain ⟨localName, rfl⟩ := hnamed hglobal
  exact ⟨_, rfl, rfl⟩

theorem plan_derivation (htag : s.tag = .extension ∨ s.tag = .restriction)
    (h : s.plan.effect = .ok e) :
    ∃ base, s.plan.payload = .derivation { isExtension := s.tag = .extension, base } ∧
      e = { childOccurs := s.occurs } := by
  have hplan : s.plan = s.derivation := by rcases htag with ht | ht <;> rw [plan, ht]
  rw [hplan] at h ⊢
  obtain ⟨payload, hok, hpay⟩ := planOf_eq_ok h
  obtain ⟨base, _, hok⟩ := bind_eq_ok.mp hok
  injection hok with hok
  injection hok with hpayload heffect
  exact ⟨base, hpay.trans hpayload.symm, heffect.symm⟩

theorem plan_enumeration (htag : s.tag = .enumeration) (h : s.plan.effect = .ok e) :
    ∃ value, s.plan.payload = .enumeration value ∧
      e = { childOccurs := s.occurs, contributes := some value } := by
  have hplan : s.plan = s.enumeration := by rw [plan, htag]
  rw [hplan] at h ⊢
  obtain ⟨payload, hok, hpay⟩ := planOf_eq_ok h
  obtain ⟨value, _, hok⟩ := bind_eq_ok.mp hok
  injection hok with hok
  injection hok with hpayload heffect
  exact ⟨value, hpay.trans hpayload.symm, heffect.symm⟩

theorem plan_list (htag : s.tag = .list) (h : s.plan.effect = .ok e) :
    ∃ itemType, s.plan.payload = .list itemType none ∧ e = { childOccurs := s.occurs } := by
  have hplan : s.plan = s.list := by rw [plan, htag]
  rw [hplan] at h ⊢
  obtain ⟨payload, hok, hpay⟩ := planOf_eq_ok h
  obtain ⟨itemType, _, hok⟩ := bind_eq_ok.mp hok
  injection hok with hok
  injection hok with hpayload heffect
  exact ⟨itemType, hpay.trans hpayload.symm, heffect.symm⟩

theorem plan_union (htag : s.tag = .union) (h : s.plan.effect = .ok e) :
    ∃ memberTypes, s.plan.payload = .union memberTypes [] ∧ e = { childOccurs := s.occurs } := by
  have hplan : s.plan = s.union := by rw [plan, htag]
  rw [hplan] at h ⊢
  obtain ⟨payload, hok, hpay⟩ := planOf_eq_ok h
  obtain ⟨memberTypes, _, hok⟩ := bind_eq_ok.mp hok
  injection hok with hok
  injection hok with hpayload heffect
  exact ⟨memberTypes, hpay.trans hpayload.symm, heffect.symm⟩

theorem plan_particle (htag : s.tag = .sequence ∨ s.tag = .choice ∨ s.tag = .all)
    (h : s.plan.effect = .ok e) :
    ∃ own, s.ownOccurs = .ok own ∧ s.plan.payload = .particle (s.occurs.times own) ∧
      e = { childOccurs := if s.tag = .choice then (s.occurs.times own).optional
                           else s.occurs.times own } := by
  have hplan : s.plan = s.particle := by rcases htag with ht | ht | ht <;> rw [plan, ht]
  rw [hplan] at h ⊢
  obtain ⟨payload, hok, hpay⟩ := planOf_eq_ok h
  obtain ⟨occurs, hoccurs, hok⟩ := bind_eq_ok.mp hok
  obtain ⟨own, hown, rfl⟩ := map_eq_ok.mp hoccurs
  injection hok with hok
  injection hok with hpayload heffect
  exact ⟨own, hown, hpay.trans hpayload.symm, heffect.symm⟩

/-- Groups of both kinds are defined globally and referred to elsewhere; only the references to
model groups have occurrences of their own. -/
theorem group_effect {definition reference : SymbolSpace}
    (h : (s.group definition reference).effect = .ok e) :
    (s.isGlobal = true ∧ (s.group definition reference).payload = s.tag.payload ∧
      ∃ localName, e = { declares := some ⟨some ⟨s.uri, localName⟩, definition, .once⟩,
                         opensScope := true, childOccurs := .once }) ∨
    (s.isGlobal = false ∧ ∃ refName occurs,
      (s.group definition reference).payload = .group (some refName) none ∧
      e = { declares := some ⟨none, reference, occurs⟩, childOccurs := s.occurs } ∧
      (s.tag = .group → ∃ own, s.ownOccurs = .ok own ∧ occurs = s.occurs.times own)) := by
  obtain ⟨payload, hok, hpay⟩ := planOf_eq_ok h
  split at hok
  · rename_i hglobal
    obtain ⟨name, hname, hok⟩ := bind_eq_ok.mp hok
    obtain ⟨localName, _, rfl⟩ := map_eq_ok.mp hname
    injection hok with hok
    injection hok with hpayload heffect
    exact Or.inl ⟨hglobal, hpay.trans hpayload.symm, localName, heffect.symm⟩
  · rename_i hlocal
    have hlocal' := Bool.eq_false_iff.mpr hlocal
    obtain ⟨refName?, _, hok⟩ := bind_eq_ok.mp hok
    split at hok
    · cases hok
    · rename_i refName _
      split at hok
      · obtain ⟨occurs, hoccurs, hok⟩ := bind_eq_ok.mp hok
        obtain ⟨own, hown, htimes⟩ := map_eq_ok.mp hoccurs
        injection hok with hok
        injection hok with hpayload heffect
        exact Or.inr ⟨hlocal', refName, occurs, hpay.trans hpayload.symm, heffect.symm,
          fun _ => ⟨own, hown, htimes.symm⟩⟩
      · rename_i htag
        injection hok with hok
        injection hok with hpayload heffect
        exact Or.inr ⟨hlocal', refName, _, hpay.trans hpayload.symm, heffect.symm, fun ht => absurd ht htag⟩

theorem plan_group (htag : s.tag = .group) : s.plan = s.group .group .groupRef := by
  rw [plan, htag]

theorem plan_attrGroup (htag : s.tag = .attrGroup) :
    s.plan = s.group .attrGroup .attrGroupRef := by
  rw [plan, htag]

theorem plan_groups (htag : s.tag = .group ∨ s.tag = .attrGroup) :
    ∃ definition reference, s.plan = s.group definition reference := by
  rcases htag with ht | ht
  · exact ⟨_, _, plan_group ht⟩
  · exact ⟨_, _, plan_attrGroup ht⟩

/-- A reference to a group is declared without a name. -/
theorem declares_reference (htag : s.tag = .group ∨ s.tag = .attrGroup)
    (hlocal : s.isGlobal = false) (h : s.plan.effect = .ok e) :
    ∃ reg, e.declares = some reg ∧ reg.name = none := by
  obtain ⟨definition, reference, hplan⟩ := plan_groups htag
  rw [hplan] at h
  rcases group_effect h with ⟨hglobal, _⟩ | ⟨_, refName, occurs, _, rfl, _⟩
  · rw [hlocal] at hglobal
    cases hglobal
  · exact ⟨_, rfl, rfl⟩

/-! ## All tags -/

/-- The tags that do more than to stand there. -/
def isActive : Tag → Bool
  | .element | .attr | .complexType | .simpleType | .extension | .restriction | .enumeration
  | .list | .union | .sequence | .choice | .all | .group | .attrGroup => true
  | _ => false

theorem opens_of_inactive {tag : Tag} (h : isActive tag = false) (isGlobal : Bool) :
    tag.opens isGlobal = false := by
  cases tag <;> first | rfl | exact nomatch h

theorem wraps_of_inactive {tag : Tag} (h : isActive tag = false) (hcarries : tag.carries false = true) :
    tag.wraps = true := by
  cases tag <;> first | exact hcarries | exact nomatch h

theorem contentOccurs_of_inactive {tag : Tag} (h : isActive tag = false) (payload : Payload) :
    tag.contentOccurs payload = .once := by
  cases tag <;> first | rfl | exact nomatch h

/-- The other tags refer to a document or do nothing at all. -/
theorem plan_inactive_cases (htag : isActive s.tag = false) :
    (∃ route, s.plan = s.documentRef route ∧
        (s.tag = .importDoc ∨ s.tag = .includeDoc ∨ s.tag = .redefineDoc)) ∨
      ∃ marksMixed, s.plan = ⟨s.tag.payload, .ok { childOccurs := s.occurs, marksMixed }⟩ := by
  unfold plan
  split
  case h_1 ht | h_2 ht | h_3 ht => exact Or.inl ⟨_, rfl, by simp [ht]⟩
  case h_8 | h_19 => exact Or.inr ⟨_, rfl⟩
  all_goals
    rename_i ht
    rw [ht] at htag
    cases htag

theorem plan_inactive (htag : isActive s.tag = false) (h : s.plan.effect = .ok e) :
    e.declares = none ∧ e.bears = none ∧ e.opensScope = false ∧ e.childOccurs = s.occurs ∧
      s.plan.payload.typeNodes = [] ∧ s.plan.payload.targets = [] ∧
      s.tag.holds s.plan.payload = true := by
  rcases plan_inactive_cases htag with ⟨route, hplan, hroute⟩ | ⟨marksMixed, hplan⟩
  · have hholds : s.tag.holds (s.documentRef route).payload = true := by
      simpa [Tag.holds, documentRef, or_assoc] using hroute
    rw [hplan] at h ⊢
    simp only [documentRef] at h
    split at h
    · split at h
      · cases h
        exact ⟨rfl, rfl, rfl, rfl, rfl, rfl, hholds⟩
      · cases h
    · cases h
      exact ⟨rfl, rfl, rfl, rfl, rfl, rfl, hholds⟩
  · rw [hplan] at h ⊢
    cases h
    exact ⟨rfl, rfl, rfl, rfl, s.tag.payload_typeNodes, s.tag.payload_targets, s.tag.holds_payload⟩

/-- What holds for every accepted tag. -/
structure Accepted (s : Site) (e : Effect) : Prop where
  /-- What is declared fits the tag. -/
  fits : ∀ reg, e.declares = some reg → reg.space.fits s.tag
  /-- A type with a name is global, and its name belongs to the namespace. -/
  global : ∀ reg q, e.declares = some reg → reg.space = .type → reg.name = some q →
    s.isGlobal = true ∧ q.uri = s.uri
  /-- A type that is neither global nor within an element or an attribute is not declared. -/
  inner : s.tag = .complexType ∨ s.tag = .simpleType → s.isGlobal = false →
    s.parentTag ≠ some .element → s.parentTag ≠ some .attr → e.declares = none
  /-- Only attributes have a name without a declaration. -/
  bears : s.tag ≠ .attr → e.bears = none
  /-- What makes a declaration does nothing before. -/
  alone : e.declares ≠ none → e.marksMixed = false ∧ e.contributes = none ∧ e.bears = none
  holds : s.tag.holds s.plan.payload = true
  typeNodes : s.plan.payload.typeNodes = []
  targets : s.plan.payload.targets = []
  opens : e.opensScope = s.tag.opens s.isGlobal
  occurs : s.tag.carries e.opensScope = true → (s.tag.wraps = true → s.occurs = .once) →
    e.childOccurs = s.tag.contentOccurs s.plan.payload

/-- A type definition is accepted as such. -/
theorem accepted_typeDefinition {payload : Payload}
    (htag : s.tag = .complexType ∨ s.tag = .simpleType) (hplan : s.plan = s.typeDefinition payload)
    (hholds : s.tag.holds payload = true) (hnodes : payload.typeNodes = []) (htargets : payload.targets = [])
    (h : s.plan.effect = .ok e) : s.Accepted e := by
  rw [hplan] at h
  obtain ⟨declares, rfl, hglobal, hinline, hinner⟩ := typeDefinition_effect h
  have hreg : ∀ reg, declares = some reg → reg.space = .type := by
    intro reg hd
    subst hd
    cases hg : s.isGlobal with
    | true =>
      obtain ⟨localName, hname⟩ := hglobal hg
      cases hname
      rfl
    | false =>
      by_cases hp : s.parentTag = some .element ∨ s.parentTag = some .attr
      · cases hinline hg hp
        rfl
      · obtain ⟨hel, hat⟩ := not_or.mp hp
        cases hinner hg hel hat
  refine
    { fits := fun reg hd => ?_
      global := fun reg q hd _ hname => ?_
      inner := fun _ hg hel hat => hinner hg hel hat
      bears := fun _ => rfl
      alone := fun _ => ⟨rfl, rfl, rfl⟩
      holds := by rw [hplan]; exact hholds
      typeNodes := by rw [hplan]; exact hnodes
      targets := by rw [hplan]; exact htargets
      opens := ?_
      occurs := fun _ _ => ?_ }
  · rw [hreg reg hd]
    rcases htag with ht | ht <;> rw [ht] <;> rfl
  · cases hg : s.isGlobal with
    | true =>
      obtain ⟨localName, rfl⟩ := hglobal hg
      cases hd
      cases hname
      exact ⟨rfl, rfl⟩
    | false =>
      by_cases hp : s.parentTag = some .element ∨ s.parentTag = some .attr
      · rw [hinline hg hp] at hd
        cases hd
        cases hname
      · obtain ⟨hel, hat⟩ := not_or.mp hp
        rw [hinner hg hel hat] at hd
        cases hd
  · rcases htag with ht | ht <;> rw [ht] <;> rfl
  · rcases htag with ht | ht <;> rw [ht] <;> rfl

/-- Both kinds of groups are accepted as such. -/
theorem accepted_group {definition reference : SymbolSpace}
    (htag : s.tag = .group ∨ s.tag = .attrGroup) (hplan : s.plan = s.group definition reference)
    (hdef : definition.fits s.tag) (href : reference.fits s.tag)
    (hnotType : definition ≠ .type ∧ reference ≠ .type) (h : s.plan.effect = .ok e) :
    s.Accepted e := by
  have hne : s.tag ≠ .complexType ∧ s.tag ≠ .simpleType := by
    rcases htag with ht | ht <;> rw [ht] <;> exact ⟨nofun, nofun⟩
  rw [hplan] at h
  rcases group_effect h with ⟨hglobal, hpayload, localName, rfl⟩ |
    ⟨hlocal, refName, occurs, hpayload, rfl, _⟩
  · refine
      { fits := fun reg hd => by cases hd; exact hdef
        global := fun reg q hd hspace _ => by cases hd; exact absurd hspace hnotType.1
        inner := fun ht _ _ _ => absurd ht (not_or.mpr hne)
        bears := fun _ => rfl
        alone := fun _ => ⟨rfl, rfl, rfl⟩
        holds := by rw [hplan, hpayload]; exact s.tag.holds_payload
        typeNodes := by rw [hplan, hpayload]; exact s.tag.payload_typeNodes
        targets := by rw [hplan, hpayload]; exact s.tag.payload_targets
        opens := by rw [hglobal]; rcases htag with ht | ht <;> rw [ht] <;> rfl
        occurs := fun _ _ => by rcases htag with ht | ht <;> rw [ht] <;> rfl }
  · refine
      { fits := fun reg hd => by cases hd; exact href
        global := fun reg q hd hspace _ => by cases hd; exact absurd hspace hnotType.2
        inner := fun ht _ _ _ => absurd ht (not_or.mpr hne)
        bears := fun _ => rfl
        alone := fun _ => ⟨rfl, rfl, rfl⟩
        holds := by rw [hplan, hpayload]; rcases htag with ht | ht <;> rw [ht] <;> rfl
        typeNodes := by rw [hplan, hpayload]; rfl
        targets := by rw [hplan, hpayload]; rfl
        opens := by rw [hlocal]; rcases htag with ht | ht <;> rw [ht] <;> rfl
        occurs := fun hcarries _ => ?_ }
    rcases htag with ht | ht <;> rw [ht] at hcarries <;> cases hcarries

/-- A tag that declares nothing and opens no scope. -/
theorem accepted_of_quiet (hdeclares : e.declares = none) (hbears : e.bears = none)
    (hopens : e.opensScope = false) (htag : ∀ isGlobal, s.tag.opens isGlobal = false)
    (hholds : s.tag.holds s.plan.payload = true)
    (hnodes : s.plan.payload.typeNodes = []) (htargets : s.plan.payload.targets = [])
    (hoccurs : s.tag.carries false = true → (s.tag.wraps = true → s.occurs = .once) →
      e.childOccurs = s.tag.contentOccurs s.plan.payload) : s.Accepted e where
  fits reg hd := by rw [hdeclares] at hd; cases hd
  global reg q hd := by rw [hdeclares] at hd; cases hd
  inner _ _ _ _ := hdeclares
  bears _ := hbears
  alone h := absurd hdeclares h
  holds := hholds
  typeNodes := hnodes
  targets := htargets
  opens := by rw [hopens, htag]
  occurs := by rw [hopens]; exact hoccurs

theorem accepted (h : s.plan.effect = .ok e) : s.Accepted e := by
  by_cases hact : isActive s.tag = false
  · obtain ⟨hdeclares, hbears, hopens, hoccurs, hnodes, htargets, hholds⟩ := plan_inactive hact h
    refine accepted_of_quiet hdeclares hbears hopens (opens_of_inactive hact) hholds hnodes htargets
      fun hcarries hwraps => ?_
    rw [hoccurs, contentOccurs_of_inactive hact]
    exact hwraps (wraps_of_inactive hact hcarries)
  cases ht : s.tag
  case element =>
    obtain ⟨typeName, refName, name, occurs, hpayload, rfl, _⟩ := plan_element ht h
    refine
      { fits := fun reg hd => by cases hd; rw [ht]; rfl
        global := fun reg q hd hspace _ => by cases hd; cases hspace
        inner := fun htype _ _ _ => by rw [ht] at htype; rcases htype with h | h <;> cases h
        bears := fun _ => rfl
        alone := fun _ => ⟨rfl, rfl, rfl⟩
        holds := by rw [hpayload, ht]; rfl
        typeNodes := by rw [hpayload]; rfl
        targets := by rw [hpayload]; rfl
        opens := by rw [ht]; rfl
        occurs := fun hcarries _ => by rw [ht] at hcarries; cases hcarries }
  case attr =>
    obtain ⟨typeName, refName, name, occurs, prohibited, hpayload, rfl⟩ := plan_attr ht h
    refine
      { fits := fun reg hd => ?_
        global := fun reg q hd hspace _ => ?_
        inner := fun htype _ _ _ => by rw [ht] at htype; rcases htype with h | h <;> cases h
        bears := fun hne => absurd ht hne
        alone := fun hd => ?_
        holds := by rw [hpayload, ht]; rfl
        typeNodes := by rw [hpayload]; rfl
        targets := by rw [hpayload]; rfl
        opens := by rw [ht]; rfl
        occurs := fun hcarries _ => by rw [ht] at hcarries; cases hcarries }
    · cases prohibited <;> cases hd
      rw [ht]
      rfl
    · cases prohibited <;> cases hd
      cases hspace
    · cases prohibited with
      | false => exact ⟨rfl, rfl, rfl⟩
      | true => exact absurd rfl hd
  case complexType =>
    exact accepted_typeDefinition (Or.inl ht) (plan_complexType ht) (by rw [ht]; rfl) rfl rfl h
  case simpleType =>
    exact accepted_typeDefinition (Or.inr ht) (plan_simpleType ht) (by rw [ht]; rfl) rfl rfl h
  case extension | restriction =>
    obtain ⟨base, hpayload, rfl⟩ := plan_derivation (by rw [ht]; simp) h
    refine accepted_of_quiet rfl rfl rfl (fun _ => by rw [ht]; rfl)
      (by rw [hpayload, ht]; rfl) (by rw [hpayload]; rfl) (by rw [hpayload]; rfl) fun _ hwraps => ?_
    rw [ht] at hwraps ⊢
    exact hwraps rfl
  case enumeration =>
    obtain ⟨value, hpayload, rfl⟩ := plan_enumeration ht h
    refine accepted_of_quiet rfl rfl rfl (fun _ => by rw [ht]; rfl)
      (by rw [hpayload, ht]; rfl) (by rw [hpayload]; rfl) (by rw [hpayload]; rfl) fun hcarries => ?_
    rw [ht] at hcarries
    cases hcarries
  case list =>
    obtain ⟨itemType, hpayload, rfl⟩ := plan_list ht h
    refine accepted_of_quiet rfl rfl rfl (fun _ => by rw [ht]; rfl)
      (by rw [hpayload, ht]; rfl) (by rw [hpayload]; rfl) (by rw [hpayload]; rfl) fun hcarries => ?_
    rw [ht] at hcarries
    cases hcarries
  case union =>
    obtain ⟨memberTypes, hpayload, rfl⟩ := plan_union ht h
    refine accepted_of_quiet rfl rfl rfl (fun _ => by rw [ht]; rfl)
      (by rw [hpayload, ht]; rfl) (by rw [hpayload]; rfl) (by rw [hpayload]; rfl) fun hcarries => ?_
    rw [ht] at hcarries
    cases hcarries
  case sequence | choice | all =>
    obtain ⟨own, _, hpayload, rfl⟩ := plan_particle (by rw [ht]; simp) h
    refine accepted_of_quiet rfl rfl rfl (fun _ => by rw [ht]; rfl)
      (by rw [hpayload, ht]; rfl) (by rw [hpayload]; rfl) (by rw [hpayload]; rfl) fun _ _ => ?_
    rw [hpayload, ht]
    rfl
  case group =>
    exact accepted_group (Or.inl ht) (plan_group ht) (by rw [ht]; rfl) (by rw [ht]; rfl)
      ⟨nofun, nofun⟩ h
  case attrGroup =>
    exact accepted_group (Or.inr ht) (plan_attrGroup ht) (by rw [ht]; rfl) (by rw [ht]; rfl)
      ⟨nofun, nofun⟩ h
  all_goals
    rw [ht] at hact
    exact absurd rfl hact

end Site

end XsdTypes
