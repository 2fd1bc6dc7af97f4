import XsdTypes.Proofs.Lowering.Outline
import XsdTypes.Proofs.Repeats

/-!
# Folding content into members

A member is known by what it is in the schema and by its name there. Content becomes one member for
each such key, in the order in which the keys are met first, and all that the member says of
occurrences can be read off the declarations that have its key.
-/

namespace XsdTypes

namespace Outline

/-- What a member is known by. -/
def key (o : Outline) : MemberKind × String := (o.kind, o.xmlName)

theorem key_fold (o new : Outline) : (o.fold new).key = o.key := rfl

/-- What becomes of the outlines with one key when one more is counted in. -/
def gather (new : Outline) : List Outline → List Outline
  | [] => [new]
  | o :: os => o.fold new :: os

theorem same_iff (o new : Outline) :
    (o.kind = new.kind ∧ o.xmlName = new.xmlName) ↔ o.key = new.key := by
  rw [key, key, Prod.mk.injEq]

theorem filter_push (k : MemberKind × String) (new : Outline) (os : List Outline) :
    ((push new os).filter fun o => o.key = k) =
      if new.key = k then gather new (os.filter fun o => o.key = k)
      else os.filter fun o => o.key = k := by
  induction os with
  | nil => by_cases hnew : new.key = k <;> simp [push, gather, hnew]
  | cons o os ih =>
    rw [push]
    simp only [same_iff]
    by_cases hsame : o.key = new.key
    · rw [if_pos hsame]
      by_cases hnew : new.key = k
      · have hk : o.key = k := hsame.trans hnew
        simp [key_fold, hk, hnew, gather]
      · have hk : o.key ≠ k := fun h => hnew (hsame.symm.trans h)
        simp [key_fold, hk, hnew]
    · rw [if_neg hsame]
      by_cases hk : o.key = k
      · -- the new one has another key, or it would have been folded into this one
        have hnew : new.key ≠ k := fun h => hsame (hk.trans h.symm)
        simp [hk, hnew, ih]
      · simp [hk, ih]

/-- What is gathered from outlines with one key: it is optional if all are, and an element is an array
if the first is or there are several. -/
theorem foldl_gather (rest : List Outline) {first : Outline} :
    rest.foldl (fun acc o => gather o acc) [first] =
      [⟨first.kind, first.xmlName, (first :: rest).all optional,
        first.isArray || (first.kind = .element && !rest.isEmpty)⟩] := by
  induction rest generalizing first with
  | nil => simp
  | cons o rest ih =>
    rw [List.foldl_cons, gather, ih]
    by_cases hkind : first.kind = .element <;> simp [fold, hkind, Bool.and_assoc]

theorem keys_push (new : Outline) (os : List Outline) :
    (push new os).map key =
      if new.key ∈ os.map key then os.map key else os.map key ++ [new.key] := by
  induction os with
  | nil => rfl
  | cons o os ih =>
    rw [push]
    simp only [same_iff]
    by_cases hsame : o.key = new.key
    · rw [if_pos hsame, List.map_cons, key_fold, List.map_cons, if_pos (by simp [hsame])]
    · have hne : ¬ new.key = o.key := fun h => hsame h.symm
      rw [if_neg hsame, List.map_cons, ih, List.map_cons]
      by_cases hmem : new.key ∈ os.map key
      · rw [if_pos hmem, if_pos (List.mem_cons_of_mem _ hmem)]
      · rw [if_neg hmem, if_neg (by simpa [hne] using hmem), List.cons_append]

theorem push_append {new : Outline} {before os : List Outline} (h : ∀ o ∈ before, o.key ≠ new.key) :
    push new (before ++ os) = before ++ push new os := by
  induction before with
  | nil => rfl
  | cons o before ih =>
    have hne : ¬ (o.kind = new.kind ∧ o.xmlName = new.xmlName) :=
      fun hsame => h o List.mem_cons_self ((same_iff o new).mp hsame)
    rw [List.cons_append, push, if_neg hne, ih fun o ho => h o (List.mem_cons_of_mem _ ho),
      List.cons_append]

end Outline

/-- What a member is known by. -/
def Member.key (m : Member) : MemberKind × String := (m.kind, m.xmlName)

theorem Member.key_outline (m : Member) : m.outline.key = m.key := rfl

namespace Lowering

/-- What the member is known by that a declaration becomes. -/
def memberKey (d : Declaration) : MemberKind × String :=
  (if d.space = .attr then .attr else .element, localName d)

theorem key_outline (c : Contribution) : c.outline.key = memberKey c.declaration := rfl

theorem memberKey_congr {d d' : Declaration} (hname : d'.name = d.name) (hspace : d'.space = d.space) :
    memberKey d' = memberKey d := by
  simp only [memberKey, localName, hname, hspace]

theorem memberKey_ne_content (d : Declaration) : (memberKey d).1 ≠ .content := by
  unfold memberKey
  split <;> simp

/-- What is said of occurrences by all declarations with one key together. -/
def gathered (k : MemberKind × String) : List Contribution → List Outline
  | [] => []
  | c :: rest =>
    [⟨k.1, k.2, (c :: rest).all fun c => c.occurs.min.val = 0,
      k.1 = .element && (c.occurs.max.isMany || !rest.isEmpty)⟩]

/-- The text of simple or mixed content has nothing to do with elements and attributes. -/
theorem outlines_append {before : List Outline} (hbefore : ∀ o ∈ before, o.kind = .content)
    (content : List Contribution) :
    outlines content before = before ++ outlines content [] := by
  have hfold : ∀ os, outlines content (before ++ os) = before ++ outlines content os := by
    induction content with
    | nil => exact fun os => rfl
    | cons c content ih =>
      intro os
      have hne : ∀ o ∈ before, o.key ≠ c.outline.key := fun o ho hsame =>
        memberKey_ne_content c.declaration ((congrArg Prod.fst hsame).symm.trans (hbefore o ho))
      change outlines content (Outline.push c.outline (before ++ os)) =
        before ++ outlines content (Outline.push c.outline os)
      rw [Outline.push_append hne, ih]
  have hnone := hfold []
  rw [List.append_nil] at hnone
  exact hnone

/-- There is one member for each key, in the order in which the keys are met. -/
theorem keys_outlines (content : List Contribution) :
    (outlines content []).map Outline.key =
      (content.map fun c => memberKey c.declaration).eraseDups := by
  have hfold : ∀ (content : List Contribution) (os : List Outline), (os.map Outline.key).Nodup →
      (outlines content os).map Outline.key =
        (os.map Outline.key ++ content.map fun c => memberKey c.declaration).eraseDups := by
    intro content
    induction content with
    | nil =>
      intro os hnodup
      rw [List.map_nil, List.append_nil, eraseDups_of_nodup hnodup]
      rfl
    | cons c content ih =>
      intro os hnodup
      have hkeys := Outline.keys_push c.outline os
      rw [key_outline] at hkeys
      change (outlines content (Outline.push c.outline os)).map Outline.key = _
      by_cases hmem : memberKey c.declaration ∈ os.map Outline.key
      · rw [if_pos hmem] at hkeys
        have hrepeat : Condenses (os.map Outline.key ++ [memberKey c.declaration])
            (os.map Outline.key) := .of_subset (by simpa using hmem)
        have hcondenses := hrepeat.append (.refl (content.map fun c => memberKey c.declaration))
        rw [ih _ (by rw [hkeys]; exact hnodup), hkeys, hcondenses.firsts, List.append_assoc]
        rfl
      · rw [if_neg hmem] at hkeys
        have hnodup' : (os.map Outline.key ++ [memberKey c.declaration]).Nodup :=
          List.nodup_append.mpr ⟨hnodup, List.nodup_singleton _, fun a ha b hb hab =>
            hmem (by rw [← List.mem_singleton.mp hb, ← hab]; exact ha)⟩
        rw [ih _ (by rw [hkeys]; exact hnodup'), hkeys, List.append_assoc]
        rfl
  exact hfold content [] List.nodup_nil

/-- The members that are elements and attributes are those that the content asks for. -/
theorem IsLowered.outlines_eq {g : Graph} {n : NodeId} {decl : TypeDecl} (h : IsLowered g n decl)
    (htag : (g.nodeAt n).tag = .complexType) :
    (decl.members.filter fun m => m.kind ≠ .content).map Member.outline =
      outlines (contentOf g n) [] := by
  obtain ⟨before, after, hcontent, houtlines⟩ := h htag
  have hbefore : ∀ o ∈ before, o.kind = .content :=
    fun o ho => hcontent o (List.mem_append_left _ ho)
  have hafter : ∀ o ∈ after, o.kind = .content :=
    fun o ho => hcontent o (List.mem_append_right _ ho)
  have hkinds : ∀ o ∈ outlines (contentOf g n) [], o.kind ≠ .content := by
    intro o ho hkind
    have hkey : o.key ∈ (outlines (contentOf g n) []).map Outline.key := List.mem_map_of_mem ho
    rw [keys_outlines, List.mem_eraseDups] at hkey
    obtain ⟨c, _, hc⟩ := List.mem_map.mp hkey
    exact memberKey_ne_content c.declaration ((congrArg Prod.fst hc).trans hkind)
  have hfilter : (decl.members.filter fun m => m.kind ≠ .content).map Member.outline =
      (decl.members.map Member.outline).filter fun o => o.kind ≠ .content := by
    rw [List.filter_map]
    rfl
  have hnone : ∀ os : List Outline, (∀ o ∈ os, o.kind = .content) →
      (os.filter fun o => o.kind ≠ .content) = [] := fun os hos =>
    List.filter_eq_nil_iff.mpr fun o ho => by simp [hos o ho]
  rw [hfilter, houtlines, outlines_append hbefore, List.filter_append, List.filter_append,
    hnone before hbefore, hnone after hafter, List.nil_append, List.append_nil]
  exact List.filter_eq_self.mpr fun o ho => by simpa using hkinds o ho

/-- What is said of a key comes from the declarations that have it. -/
theorem filter_outlines (k : MemberKind × String) (content : List Contribution) :
    ((outlines content []).filter fun o => o.key = k) =
      gathered k (content.filter fun c => memberKey c.declaration = k) := by
  have hfold : ∀ (content : List Contribution) (os : List Outline),
      ((outlines content os).filter fun o => o.key = k) =
        ((content.filter fun c => memberKey c.declaration = k).map Contribution.outline).foldl
          (fun acc o => Outline.gather o acc) (os.filter fun o => o.key = k) := by
    intro content
    induction content with
    | nil => exact fun os => rfl
    | cons c content ih =>
      intro os
      change ((outlines content (Outline.push c.outline os)).filter fun o => o.key = k) = _
      rw [ih, Outline.filter_push, key_outline]
      by_cases hc : memberKey c.declaration = k
      · rw [if_pos hc, List.filter_cons_of_pos (by simp [hc]), List.map_cons, List.foldl_cons]
      · rw [if_neg hc, List.filter_cons_of_neg (by simp [hc])]
  rw [hfold, List.filter_nil]
  have hkey : ∀ c ∈ content.filter (fun c => memberKey c.declaration = k),
      memberKey c.declaration = k := fun c hc => of_decide_eq_true (List.mem_filter.mp hc).2
  generalize content.filter (fun c => memberKey c.declaration = k) = cs at hkey
  cases cs with
  | nil => rfl
  | cons c rest =>
    have hc := hkey c List.mem_cons_self
    rw [List.map_cons, List.foldl_cons, Outline.gather, Outline.foldl_gather, gathered]
    subst hc
    by_cases hspace : c.declaration.space = .attr <;>
      simp [Contribution.outline, memberKey, hspace, List.all_map, Function.comp_def]

end Lowering

end XsdTypes
