import XsdTypes.Proofs.Lowering.Target

/-!
# Lowering types

If references to types succeed and keep the target sound, then so does lowering a type: it changes
the one declaration it is about, and whatever it adds besides is finished. What it needs of
references is `Refers`, in which `fuel` bounds what is left to do.
-/

namespace XsdTypes.Lowering

open Target

/-- A target from which a module may go on with an export. -/
structure Ready (g : Graph) (fuel : Nat) (owner : ModuleId) (t : Target) : Prop where
  sound : t.Sound g
  owner_lt : owner < t.model.modules.size
  occupied : t.Occupied g owner
  fuel : t.unfinished g < fuel

/-- A step has been made, which may have changed the declarations in `S`. -/
structure Next (g : Graph) (options : ExportOptions) (S : TypeId → Prop) (t t' : Target) : Prop where
  sound : t'.Sound g
  grows : Grows g options S t t'

/-- References to types succeed, whatever the target is. -/
def Refers (g : Graph) (options : ExportOptions) (fuel : Nat) (refer : Refer) : Prop :=
  ∀ node owner t, g.IsType node → Ready g fuel owner t →
    Succeeds (refer node owner) t fun r t' => Next g options (fun _ => False) t t' ∧
      r.InRange t'.model.types.size ∧ r.isArray = false

variable {g : Graph} {policy : RepeatPolicy} {options : ExportOptions} {fuel : Nat} {refer : Refer}
  {owner : ModuleId} {S : TypeId → Prop} {t t' t'' : Target}

theorem Next.refl (h : t.Sound g) : Next g options S t t :=
  ⟨h, Grows.refl g options S t⟩

theorem Next.trans (h : Next g options S t t') (h' : Next g options (fun _ => False) t' t'') :
    Next g options S t t'' :=
  ⟨h'.sound, h.grows.trans h'.grows h.sound.toKept fun _ hs => hs.elim⟩

theorem Ready.next (h : Ready g fuel owner t) (hn : Next g options S t t') :
    Ready g fuel owner t' where
  sound := hn.sound
  owner_lt := Nat.lt_of_lt_of_le h.owner_lt hn.grows.modules_le
  occupied := h.occupied.mono hn.grows.modules
  fuel := Nat.lt_of_le_of_lt (unfinished_mono hn.grows.types hn.grows.exported) h.fuel

/-! ## Members -/

theorem Refers.referOr (hrefer : Refers g options fuel refer) (fallback : Primitive)
    {node : Option NodeId} (hnode : ∀ n, node = some n → g.IsType n) (hready : Ready g fuel owner t) :
    Succeeds (referOr refer fallback node owner) t fun r t' =>
      Next g options (fun _ => False) t t' ∧ r.InRange t'.model.types.size ∧ r.isArray = false := by
  cases node with
  | none => exact .pure ⟨Next.refl hready.sound, nofun, rfl⟩
  | some n => exact hrefer n owner t (hnode n rfl) hready

/-- What an element or an attribute has been bound to is a type. -/
theorem typeAndComment_isType (h : g.Loaded policy) {ascription? : Node → Option Ascription}
    (hascription : ∀ n a, ascription? n = some a → a.typeNode.toList ⊆ n.payload.typeNodes)
    {id n : NodeId} (hn : (typeAndComment ascription? g id).1 = some n) : g.IsType n := by
  have htyped : ∀ {m a}, ascription? (g.nodeAt m) = some a → a.typeNode = some n → g.IsType n := by
    intro m a ha hnode
    exact h.typed m n (hascription _ a ha (by rw [hnode]; exact List.mem_singleton.mpr rfl))
  unfold typeAndComment at hn
  simp only at hn
  split at hn
  · cases hn
  · rename_i a ha
    split at hn
    · exact htyped ha hn
    · obtain ⟨b, hb, hnode⟩ := Option.bind_eq_some_iff.mp hn
      exact htyped hb hnode

theorem elementAscription?_typeNodes (n : Node) (a : Ascription) (h : elementAscription? n = some a) :
    a.typeNode.toList ⊆ n.payload.typeNodes := by
  unfold elementAscription? at h
  split at h
  · rename_i hpayload
    cases h
    rw [hpayload]
    exact List.Subset.refl _
  · cases h

theorem attributeAscription?_typeNodes (n : Node) (a : Ascription)
    (h : attributeAscription? n = some a) : a.typeNode.toList ⊆ n.payload.typeNodes := by
  unfold attributeAscription? at h
  split at h
  · rename_i hpayload
    cases h
    rw [hpayload]
    exact List.Subset.refl _
  · cases h

theorem Refers.elementMember (h : g.Loaded policy) (hrefer : Refers g options fuel refer)
    {c : Contribution} (hspace : c.declaration.space ≠ .attr) (hready : Ready g fuel owner t) :
    Succeeds (elementMember refer g owner c) t fun m t' =>
      Next g options (fun _ => False) t t' ∧ m.type.InRange t'.model.types.size ∧
        m.outline = c.outline := by
  refine (hrefer.referOr .any (fun n hn =>
    typeAndComment_isType h elementAscription?_typeNodes hn) hready).bind ?_
  rintro r t' ⟨hnext, hrange, harray⟩
  refine .pure ⟨hnext, ?_, ?_⟩
  · change TypeRef.InRange _ (if c.occurs.max.isMany then .array r else r)
    split
    · exact TypeRef.inRange_array.mpr hrange
    · exact hrange
  · have hmany : TypeRef.isArray (.array r) = true := rfl
    simp only [Member.outline, Member.ofSchema, Contribution.outline, if_neg hspace]
    cases c.occurs.max.isMany <;> simp [harray, hmany, hspace]

theorem Refers.attributeMember (h : g.Loaded policy) (hrefer : Refers g options fuel refer)
    {c : Contribution} (hspace : c.declaration.space = .attr) (hready : Ready g fuel owner t) :
    Succeeds (attributeMember refer g owner c) t fun m t' =>
      Next g options (fun _ => False) t t' ∧ m.type.InRange t'.model.types.size ∧
        m.outline = c.outline := by
  refine (hrefer.referOr .string (fun n hn =>
    typeAndComment_isType h attributeAscription?_typeNodes hn) hready).bind ?_
  rintro r t' ⟨hnext, hrange, harray⟩
  refine .pure ⟨hnext, hrange, ?_⟩
  simp [Member.outline, Member.ofSchema, Contribution.outline, hspace, harray]

theorem mem_pushMember {new m : Member} {ms : List Member} (h : m ∈ pushMember new ms) :
    m = new ∨ m ∈ ms ∨ ∃ old ∈ ms, m = fold old new := by
  induction ms with
  | nil => exact Or.inl (List.mem_singleton.mp h)
  | cons m' ms ih =>
    rw [pushMember] at h
    split at h
    · rcases List.mem_cons.mp h with rfl | hmem
      · exact Or.inr (Or.inr ⟨m', List.mem_cons_self, rfl⟩)
      · exact Or.inr (Or.inl (List.mem_cons_of_mem _ hmem))
    · rcases List.mem_cons.mp h with rfl | hmem
      · exact Or.inr (Or.inl List.mem_cons_self)
      · rcases ih hmem with heq | hold | ⟨old, hold, heq⟩
        · exact Or.inl heq
        · exact Or.inr (Or.inl (List.mem_cons_of_mem _ hold))
        · exact Or.inr (Or.inr ⟨old, List.mem_cons_of_mem _ hold, heq⟩)

theorem pushMember_inRange {n : Nat} {new : Member} {ms : List Member} (hnew : new.type.InRange n)
    (hms : ∀ m ∈ ms, m.type.InRange n) : ∀ m ∈ pushMember new ms, m.type.InRange n := by
  intro m hm
  rcases mem_pushMember hm with rfl | hold | ⟨old, hold, rfl⟩
  · exact hnew
  · exact hms m hold
  · change TypeRef.InRange n (if _ then _ else _)
    split
    · exact TypeRef.inRange_array.mpr (hms old hold)
    · exact hms old hold

/-- The members of content keep the target sound and have the outlines that the content asks for. -/
theorem Refers.members (h : g.Loaded policy) (hrefer : Refers g options fuel refer)
    (content : List Contribution) {before : List Member}
    (hbefore : ∀ m ∈ before, m.type.InRange t.model.types.size) (hready : Ready g fuel owner t) :
    Succeeds (members refer g owner content before) t fun ms t' =>
      Next g options (fun _ => False) t t' ∧ (∀ m ∈ ms, m.type.InRange t'.model.types.size) ∧
        ms.map Member.outline = outlines content (before.map Member.outline) := by
  refine Succeeds.foldlM (I := fun done (ms : List Member) t' => Next g options (fun _ => False) t t' ∧
    (∀ m ∈ ms, m.type.InRange t'.model.types.size) ∧
      ms.map Member.outline = outlines done (before.map Member.outline)) ?_
    ⟨Next.refl hready.sound, hbefore, rfl⟩
  rintro done c rest ms t' _ ⟨hnext, hrange, houtline⟩
  have hready' := hready.next hnext
  have hrest : ∀ m t'', (Next g options (fun _ => False) t' t'' ∧
      m.type.InRange t''.model.types.size ∧ m.outline = c.outline) →
      Succeeds (pure (pushMember m ms)) t'' fun ms t'' => Next g options (fun _ => False) t t'' ∧
        (∀ m ∈ ms, m.type.InRange t''.model.types.size) ∧
          ms.map Member.outline = outlines (done ++ [c]) (before.map Member.outline) := by
    rintro m t'' ⟨hnext', hrange', houtline'⟩
    refine .pure ⟨hnext.trans hnext', ?_, ?_⟩
    · exact pushMember_inRange hrange' fun m hm => (hrange m hm).mono hnext'.grows.types_le
    · rw [pushMember_outline, houtline, houtline', outlines, outlines, List.foldl_append]
      rfl
  extract_lets
  split
  · rename_i hspace
    exact (hrefer.attributeMember h hspace hready').bind hrest
  · rename_i hspace
    exact (hrefer.elementMember h hspace hready').bind hrest

/-! ## Complex types -/

theorem literalUnion_succeeds (hready : Ready g fuel owner t) (values : List String) :
    Succeeds (literalUnion owner values) t fun r t' =>
      Next g options (fun _ => False) t t' ∧ r.InRange t'.model.types.size ∧ r.isArray = false := by
  have hsound := hready.sound
  set decl : TypeDecl :=
    { TypeDecl.ofSchema owner none .union with variants := values.map .literal } with hdecl
  have hrefs : ∀ r ∈ decl.refs, r.InRange t.model.types.size := by
    intro r hr
    have hmem : r ∈ values.map TypeRef.literal := by
      simpa [hdecl, TypeDecl.refs, TypeDecl.ofSchema] using hr
    obtain ⟨value, _, rfl⟩ := List.mem_map.mp hmem
    nofun
  refine .get (.set (.pure ⟨⟨?_, ?_⟩, ?_, rfl⟩))
  · exact { hsound.toKept.addType hready.owner_lt hready.occupied hrefs with reserved := hsound.reserved }
  · exact (Grows.refl g options _ t).addType hsound.toKept rfl
  · rintro id hid
    cases hid
    change t.model.types.size < (t.model.addType decl).1.types.size
    rw [Model.addType_types_size]
    exact Nat.lt_succ_self _

/-- The base and the member for the text of a complex type. -/
theorem Refers.baseAndContent (h : g.Loaded policy) (hrefer : Refers g options fuel refer)
    (id : NodeId) (hready : Ready g fuel owner t) :
    Succeeds (baseAndContent refer g id owner) t fun (base, text) t' =>
      Next g options (fun _ => False) t t' ∧ (∀ r ∈ base, r.InRange t'.model.types.size) ∧
        ∀ m ∈ text, m.type.InRange t'.model.types.size ∧ m.kind = .content := by
  unfold Lowering.baseAndContent
  have hnone : Next g options (fun _ => False) t t := Next.refl hready.sound
  split
  · exact .pure ⟨hnone, by simp, by simp⟩
  · rename_i content derivation _
    split
    · rename_i d hpayload
      have hbase : ∀ n, d.baseNode.filter (· ≠ id) = some n → g.IsType n := by
        intro n hn
        have hsome := (Option.filter_eq_some_iff.mp hn).1
        refine h.typed derivation n ?_
        rw [hpayload, Payload.typeNodes, hsome]
        exact List.mem_singleton.mpr rfl
      have hfound : ∀ (p : NodeId → Bool) n, (d.baseNode.filter (· ≠ id)).filter p = some n →
          g.IsType n := fun p n hn => hbase n (Option.filter_eq_some_iff.mp hn).1
      simp only
      split
      · split
        · rename_i n hn
          refine (hrefer n owner t (hfound _ n hn) hready).bind ?_
          rintro r t' ⟨hnext, hrange, _⟩
          refine .pure ⟨hnext, fun r' hr' => ?_, by simp⟩
          cases hr'
          exact hrange
        · have hrest : ∀ r t', (Next g options (fun _ => False) t t' ∧
              r.InRange t'.model.types.size ∧ r.isArray = false) →
              Succeeds (pure (none, [Member.ofSchema "content" .content r])) t'
                fun (p : Option TypeRef × List Member) t' => Next g options (fun _ => False) t t' ∧
                  (∀ r ∈ p.1, r.InRange t'.model.types.size) ∧
                  ∀ m ∈ p.2, m.type.InRange t'.model.types.size ∧ m.kind = .content := by
            rintro r t' ⟨hnext, hrange, _⟩
            refine .pure ⟨hnext, by simp, fun m hm => ?_⟩
            cases List.mem_singleton.mp hm
            exact ⟨hrange, rfl⟩
          split
          · exact (hrefer.referOr .string hbase hready).bind hrest
          · exact (literalUnion_succeeds hready d.enumerations).bind hrest
      · split
        · rename_i n hn
          refine (hrefer n owner t (hfound _ n hn) hready).bind ?_
          rintro r t' ⟨hnext, hrange, _⟩
          refine .pure ⟨hnext, fun r' hr' => ?_, by simp⟩
          cases hr'
          exact hrange
        · exact .pure ⟨hnone, by simp, by simp⟩
    · exact .pure ⟨hnone, by simp, by simp⟩

theorem withMixedText_outline (isMixed : Bool) (ms : List Member) :
    ∃ after : List Outline, (∀ o ∈ after, o.kind = .content) ∧
      (withMixedText isMixed ms).map Member.outline = ms.map Member.outline ++ after := by
  unfold withMixedText
  split
  · refine ⟨[⟨.content, "content", true, false⟩], fun o ho => ?_, ?_⟩
    · rw [List.mem_singleton.mp ho]
    · rw [List.map_append]
      rfl
  · exact ⟨[], nofun, (List.append_nil _).symm⟩

theorem withMixedText_inRange {n : Nat} {isMixed : Bool} {ms : List Member}
    (hms : ∀ m ∈ ms, m.type.InRange n) : ∀ m ∈ withMixedText isMixed ms, m.type.InRange n := by
  intro m hm
  unfold withMixedText at hm
  split at hm
  · rcases List.mem_append.mp hm with hold | hnew
    · exact hms m hold
    · rw [List.mem_singleton.mp hnew]
      nofun
  · exact hms m hm

/-- A change of one declaration that keeps its owner and its name and refers to what is there. -/
theorem Next.modifyType (h : Next g options (fun _ => False) t t') {type : TypeId}
    (htype : type < t.model.types.size) {f : TypeDecl → TypeDecl}
    (howner : (f (t'.model.typeAt type)).owner = (t'.model.typeAt type).owner)
    (hname : (f (t'.model.typeAt type)).isAnonymous = (t'.model.typeAt type).isAnonymous)
    (hrefs : ∀ r ∈ (f (t'.model.typeAt type)).refs, r.InRange t'.model.types.size) :
    Next g options (· = type) t (t'.modifyType type f) ∧
      (t'.modifyType type f).model.typeAt type = f (t'.model.typeAt type) := by
  have hkept := h.sound.toKept
  have hgrows : Grows g options (· = type) t t' := h.grows.weaken fun _ hs => hs.elim
  refine ⟨⟨?_, ?_⟩, ?_⟩
  · exact { hkept.modifyType type howner hname hrefs with reserved := h.sound.reserved }
  · exact hgrows.modifyType hkept htype rfl f
  · change (t'.model.modifyType type f).typeAt type = _
    rw [Model.typeAt_modifyType, if_pos ⟨rfl, Nat.lt_of_lt_of_le htype h.grows.types_le⟩]

theorem Refers.lowerComplex (h : g.Loaded policy) (hrefer : Refers g options fuel refer)
    (id : NodeId) {type : TypeId} (htype : type < t.model.types.size)
    (hready : Ready g fuel owner t) :
    Succeeds (lowerComplex refer g id type owner) t fun _ t' =>
      Next g options (· = type) t t' ∧ IsLowered g id (t'.model.typeAt type) := by
  refine (hrefer.baseAndContent h id hready).bind ?_
  rintro ⟨base, text⟩ t₁ ⟨hnext₁, hbase, htext⟩
  refine (hrefer.members h (contentOf g id) (fun m hm => (htext m hm).1)
    (hready.next hnext₁)).bind ?_
  rintro content t₂ ⟨hnext₂, hcontent, houtline⟩
  have hnext := hnext₁.trans hnext₂
  have hold := hnext.sound.model.refs type (Nat.lt_of_lt_of_le htype hnext.grows.types_le)
  obtain ⟨after, hafter, hmixed⟩ := withMixedText_outline (isMixed g id) content
  set f : TypeDecl → TypeDecl := fun d =>
    { d with shape := .interface, base, members := withMixedText (isMixed g id) content } with hf
  have hrefs : ∀ r ∈ (f (t₂.model.typeAt type)).refs, r.InRange t₂.model.types.size := by
    intro r hr
    simp only [TypeDecl.refs, hf, List.mem_append, Option.mem_toList, List.mem_map] at hr hold
    rcases hr with ((hr | ⟨m, hm, rfl⟩) | hr) | hr
    · exact (hbase r hr).mono hnext₂.grows.types_le
    · exact withMixedText_inRange hcontent m hm
    · exact hold r (Or.inl (Or.inr hr))
    · exact hold r (Or.inr hr)
  obtain ⟨hnext', hdecl⟩ := hnext.modifyType htype (f := f) rfl rfl hrefs
  refine .modifying ⟨hnext', fun _ => ⟨text.map Member.outline, after, ?_, ?_⟩⟩
  · intro o ho
    rcases List.mem_append.mp ho with hbefore | ho
    · obtain ⟨m, hm, rfl⟩ := List.mem_map.mp hbefore
      exact (htext m hm).2
    · exact hafter o ho
  · rw [hdecl, ← houtline]
    exact hmixed

/-! ## Simple types -/

/-- What a simple type becomes refers to what is there. -/
def SimpleBody.InRange (n : Nat) (body : SimpleBody) : Prop :=
  (∀ r ∈ body.variants, r.InRange n) ∧ ∀ r ∈ body.target, r.InRange n

theorem Refers.simpleBody (hrefer : Refers g options fuel refer) (id : NodeId)
    {content : Option Payload}
    (hcontent : ∀ p, content = some p → ∀ n ∈ p.typeNodes, g.IsType n)
    (hready : Ready g fuel owner t) :
    Succeeds (simpleBody refer id owner content) t fun body t' =>
      Next g options (fun _ => False) t t' ∧ body.InRange t'.model.types.size := by
  have hnone : Next g options (fun _ => False) t t := Next.refl hready.sound
  unfold Lowering.simpleBody
  split
  case h_1 d =>
    split
    · have hbase : ∀ n, d.baseNode.filter (· ≠ id) = some n → g.IsType n := by
        intro n hn
        refine hcontent _ rfl n ?_
        rw [Payload.typeNodes, (Option.filter_eq_some_iff.mp hn).1]
        exact List.mem_singleton.mpr rfl
      refine (hrefer.referOr .any hbase hready).bind ?_
      rintro r t' ⟨hnext, hrange, _⟩
      refine .pure ⟨hnext, by simp, fun r' hr' => ?_⟩
      cases hr'
      exact hrange
    · refine .pure ⟨hnone, fun r hr => ?_, by simp⟩
      obtain ⟨value, _, rfl⟩ := List.mem_map.mp hr
      intro id hid
      cases hid
  case h_2 name itemNode =>
    have hitem : ∀ n, itemNode = some n → g.IsType n := by
      rintro n rfl
      exact hcontent _ rfl n (List.mem_singleton.mpr rfl)
    refine (hrefer.referOr .string hitem hready).bind ?_
    rintro r t' ⟨hnext, hrange, _⟩
    refine .pure ⟨hnext, by simp, fun r' hr' => ?_⟩
    cases hr'
    exact TypeRef.inRange_array.mpr hrange
  case h_3 names first rest =>
    have hmapM : Succeeds ((first :: rest).mapM fun node => refer node owner) t fun rs t' =>
        Next g options (fun _ => False) t t' ∧ ∀ r ∈ rs, r.InRange t'.model.types.size := by
      refine Succeeds.mapM (I := fun _ (rs : List TypeRef) t' =>
        Next g options (fun _ => False) t t' ∧ ∀ r ∈ rs, r.InRange t'.model.types.size) ?_
        ⟨hnone, by simp⟩
      rintro done n rest' rs t' hl ⟨hnext, hrs⟩
      have hn : g.IsType n := by
        refine hcontent _ rfl n ?_
        change n ∈ first :: rest
        rw [hl]
        exact List.mem_append_right _ List.mem_cons_self
      refine (hrefer n owner t' hn (hready.next hnext)).mono ?_
      rintro r t'' ⟨hnext', hrange, _⟩
      refine ⟨hnext.trans hnext', fun r' hr' => ?_⟩
      rcases List.mem_append.mp hr' with hold | hnew
      · exact (hrs r' hold).mono hnext'.grows.types_le
      · rw [List.mem_singleton.mp hnew]
        exact hrange
    refine hmapM.bind ?_
    rintro rs t' ⟨hnext, hrs⟩
    exact .pure ⟨hnext, hrs, by simp⟩
  case h_4 =>
    refine .pure ⟨hnone, by simp, fun r hr => ?_⟩
    cases hr
    intro id hid
    cases hid

theorem Refers.lowerSimple (h : g.Loaded policy) (hrefer : Refers g options fuel refer)
    (id : NodeId) {type : TypeId} (htype : type < t.model.types.size)
    (hready : Ready g fuel owner t) :
    Succeeds (lowerSimple refer g id type owner) t fun _ t' => Next g options (· = type) t t' := by
  have hcontent : ∀ p, (childWith? g id [.restriction, .list, .union]).map
      (fun child => (g.nodeAt child).payload) = some p → ∀ n ∈ p.typeNodes, g.IsType n := by
    intro p hp n hn
    obtain ⟨child, _, rfl⟩ := Option.map_eq_some_iff.mp hp
    exact h.typed child n hn
  refine (hrefer.simpleBody id hcontent hready).bind ?_
  rintro body t' ⟨hnext, hvariants, htarget⟩
  have hold := hnext.sound.model.refs type (Nat.lt_of_lt_of_le htype hnext.grows.types_le)
  set f : TypeDecl → TypeDecl := fun d =>
    { d with shape := body.shape, variants := body.variants, target := body.target } with hf
  have hrefs : ∀ r ∈ (f (t'.model.typeAt type)).refs, r.InRange t'.model.types.size := by
    intro r hr
    simp only [TypeDecl.refs, hf, List.mem_append, Option.mem_toList, List.mem_map] at hr hold
    rcases hr with (hr | hr) | hr
    · exact hold r (Or.inl (Or.inl hr))
    · exact hvariants r hr
    · exact htarget r hr
  exact .modifying (hnext.modifyType htype (f := f) rfl rfl hrefs).1

/-- Lowering a type changes the one declaration it is about. -/
theorem Refers.lowerType (h : g.Loaded policy) (hrefer : Refers g options fuel refer)
    (id : NodeId) {type : TypeId} (htype : type < t.model.types.size)
    (hready : Ready g fuel owner t) :
    Succeeds (lowerType refer g id type owner) t fun _ t' =>
      Next g options (· = type) t t' ∧ IsLowered g id (t'.model.typeAt type) := by
  unfold Lowering.lowerType
  split
  · exact hrefer.lowerComplex h id htype hready
  · rename_i htag
    refine (hrefer.lowerSimple h id htype hready).mono fun _ t' hnext => ⟨hnext, fun hcomplex => ?_⟩
    rw [htag] at hcomplex
    cases hcomplex
  · rename_i htag _
    exact .pure ⟨Next.refl hready.sound, fun hcomplex => absurd hcomplex htag⟩

end XsdTypes.Lowering
