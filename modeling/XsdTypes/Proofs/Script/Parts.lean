import XsdTypes.Proofs.Sequencing
import XsdTypes.Script.Render

/-!
# What the text of a declaration is made of

A declaration is written from the texts of the types that its shape shows, each at an indentation of
its own, and from nothing else. So it has a text if each of them has one, an error is the error of one
of them, and the depth to which declarations without names are written out makes no difference to a
text that there is.
-/

namespace XsdTypes

/-- The types that the text of a declaration shows. -/
def TypeDecl.shown (d : TypeDecl) : List TypeRef :=
  match d.shape with
  | .synonym => d.target.toList
  | .union => d.variants
  | .interface | .document => d.base.toList ++ d.members.map Member.type

theorem TypeDecl.shown_subset_refs (d : TypeDecl) : d.shown ⊆ d.refs := by
  intro r hr
  unfold shown at hr
  unfold refs
  cases hshape : d.shape <;> simp only [hshape] at hr <;> simp only [List.mem_append] at hr ⊢ <;> tauto

namespace Script

variable {inline : Inline} {m : Model} {here : ModuleId} {indent : Nat}

/-- The texts of some types, each at its indentation. -/
def renderParts (inline : Inline) (m : Model) (here : ModuleId) (parts : List (Nat × TypeRef)) :
    Except ExportError (List String) :=
  parts.mapM fun part => renderRef inline m here part.1 part.2

theorem renderParts_concat (inline : Inline) (m : Model) (here : ModuleId)
    (parts : List (Nat × TypeRef)) (last : Nat × TypeRef) :
    renderParts inline m here (parts ++ [last]) = do
      let texts ← renderParts inline m here parts
      let text ← renderRef inline m here last.1 last.2
      return texts ++ [text] := by
  rw [renderParts, List.mapM_append, renderParts]
  cases parts.mapM fun part => renderRef inline m here part.1 part.2 with
  | error e => rfl
  | ok texts =>
    rw [List.mapM_cons, List.mapM_nil]
    cases renderRef inline m here last.1 last.2 <;> rfl

/-- What is written is put together from the texts of these types, each at some indentation. -/
def MadeOf (m : Model) (here : ModuleId) (shown : List TypeRef)
    (write : Inline → Except ExportError String) : Prop :=
  ∃ (parts : List (Nat × TypeRef)) (assemble : List String → String),
    (∀ r, r ∈ shown ↔ ∃ within, (within, r) ∈ parts) ∧
      ∀ inline, write inline = (renderParts inline m here parts).map assemble

/-! ## Bodies -/

/-- The text of a member with a type of this text. -/
def memberText (indent : Nat) (member : Member) (type : String) : String :=
  comment indent member.comment ++ Text.times indent "\t" ++ member.name ++
    (if member.optional then "?" else "") ++ ": " ++ type ++ ";\n"

/-- The text of members with types of these texts. -/
def membersText (indent : Nat) (members : List Member) (types : List String) : String :=
  if members.isEmpty then "\x7b\x7d"
  else "\x7b\n" ++ String.join (List.zipWith (memberText (indent + 1)) members types) ++
    Text.times indent "\t" ++ "\x7d"

/-- The types of members, at the indentation of the members. -/
def memberParts (indent : Nat) (members : List Member) : List (Nat × TypeRef) :=
  members.map fun member => (indent + 1, member.type)

theorem exists_mem_memberParts {members : List Member} {r : TypeRef} :
    (∃ within, (within, r) ∈ memberParts indent members) ↔ r ∈ members.map Member.type := by
  simp only [memberParts, List.mem_map, Prod.mk.injEq]
  constructor
  · rintro ⟨within, member, hmember, _, rfl⟩
    exact ⟨member, hmember, rfl⟩
  · rintro ⟨member, hmember, rfl⟩
    exact ⟨indent + 1, member, hmember, rfl, rfl⟩

theorem renderMembers_eq (inline : Inline) (m : Model) (here : ModuleId) (indent : Nat)
    (members : List Member) : renderMembers inline m here indent members =
      (renderParts inline m here (memberParts indent members)).map (membersText indent members) := by
  have hmember : renderMember inline m here (indent + 1) = fun member =>
      (renderRef inline m here (indent + 1) member.type).map (memberText (indent + 1) member) := by
    funext member
    unfold renderMember
    cases renderRef inline m here (indent + 1) member.type <;> rfl
  have hparts : renderParts inline m here (memberParts indent members) =
      members.mapM fun member => renderRef inline m here (indent + 1) member.type := by
    rw [renderParts, memberParts, List.mapM_map]
    rfl
  rw [renderMembers, hparts]
  unfold membersText
  split
  · rename_i hempty
    rw [List.isEmpty_iff.mp hempty]
    rfl
  · rw [hmember, Sequencing.mapM_map_zipWith]
    cases members.mapM fun member => renderRef inline m here (indent + 1) member.type <;> rfl

theorem madeOf_renderBody (m : Model) (here : ModuleId) (indent : Nat) (d : TypeDecl) :
    MadeOf m here d.shown fun inline => renderBody inline m here indent d := by
  unfold TypeDecl.shown renderBody
  cases hshape : d.shape with
  | synonym =>
    cases d.target with
    | none => exact ⟨[], fun _ => Primitive.any.keyword, by simp, fun inline => rfl⟩
    | some target =>
      refine ⟨[(indent, target)], fun texts => texts.headD "", by simp, fun inline => ?_⟩
      simp only [renderParts, List.mapM_cons, List.mapM_nil]
      cases renderRef inline m here indent target <;> rfl
  | union =>
    refine ⟨d.variants.map fun r => (indent, r),
      fun texts => if d.variants.isEmpty then "never" else Text.join " | " texts, by simp,
      fun inline => ?_⟩
    simp only [renderParts, List.mapM_map]
    split
    · rename_i hempty
      rw [List.isEmpty_iff.mp hempty]
      rfl
    · change _ = Except.map _ (d.variants.mapM (renderRef inline m here indent))
      cases d.variants.mapM (renderRef inline m here indent) <;> rfl
  | interface | document =>
    simp only [renderMembers_eq]
    cases d.base with
    | none =>
      refine ⟨memberParts indent d.members, membersText indent d.members, fun r => ?_,
        fun inline => ?_⟩
      · rw [exists_mem_memberParts]
        rfl
      · dsimp only
        cases renderParts inline m here (memberParts indent d.members) <;> rfl
    | some base =>
      refine ⟨memberParts indent d.members ++ [(indent, base)],
        fun texts => texts.getLastD "" ++ " & " ++ membersText indent d.members texts.dropLast,
        fun r => ?_, fun inline => ?_⟩
      · simp only [List.mem_append, exists_or, exists_mem_memberParts]
        simp [or_comm]
      · rw [renderParts_concat]
        dsimp only
        cases renderParts inline m here (memberParts indent d.members) with
        | error e => rfl
        | ok texts =>
          cases renderRef inline m here indent base with
          | error e => rfl
          | ok text =>
            simp only [Except.map, bind, Except.bind, pure, Except.pure, List.getLastD_concat,
              List.dropLast_concat]

/-! ## Whole declarations -/

theorem MadeOf.map {shown : List TypeRef} {write : Inline → Except ExportError String}
    (h : MadeOf m here shown write) (f : String → String) :
    MadeOf m here shown fun inline => (write inline).map f := by
  obtain ⟨parts, assemble, hparts, hwrite⟩ := h
  refine ⟨parts, fun texts => f (assemble texts), hparts, fun inline => ?_⟩
  simp only [hwrite]
  cases renderParts inline m here parts <;> rfl

theorem madeOf_renderDecl (m : Model) (here : ModuleId) (d : TypeDecl) :
    ∃ write, MadeOf m here d.shown write ∧
      renderDecl m here d = write (renderInline m here (m.types.size + 1)) := by
  cases hshape : d.shape with
  | synonym | union =>
    refine ⟨_, (madeOf_renderBody m here 0 d).map fun body => comment 0 d.comment ++ "export " ++
      ("type " ++ d.name.getD "" ++ " = " ++ body ++ ";\n"), ?_⟩
    unfold renderDecl
    simp only [hshape]
    cases renderBody (renderInline m here (m.types.size + 1)) m here 0 d <;> rfl
  | interface | document =>
    unfold renderDecl TypeDecl.shown
    simp only [hshape, renderMembers_eq]
    cases d.base with
    | none =>
      refine ⟨_, ⟨memberParts 0 d.members, fun texts => comment 0 d.comment ++ "export " ++
        ((if d.shape = .document then "class " else "interface ") ++ d.name.getD "" ++ "" ++ " " ++
          membersText 0 d.members texts ++ "\n"), fun r => ?_, fun inline => rfl⟩, ?_⟩
      · rw [exists_mem_memberParts]
        rfl
      · simp only [hshape]
        cases renderParts (renderInline m here (m.types.size + 1)) m here
          (memberParts 0 d.members) <;> rfl
    | some base =>
      refine ⟨_, ⟨(0, base) :: memberParts 0 d.members, fun texts => comment 0 d.comment ++ "export " ++
        ((if d.shape = .document then "class " else "interface ") ++ d.name.getD "" ++
          (" extends " ++ texts.headD "") ++ " " ++ membersText 0 d.members texts.tail ++ "\n"),
        fun r => ?_, fun inline => rfl⟩, ?_⟩
      · simp only [List.mem_cons, exists_or, exists_mem_memberParts]
        simp
      · simp only [hshape, renderParts, List.mapM_cons]
        cases renderRef (renderInline m here (m.types.size + 1)) m here 0 base with
        | error e => rfl
        | ok text =>
          cases (memberParts 0 d.members).mapM fun part =>
            renderRef (renderInline m here (m.types.size + 1)) m here part.1 part.2 <;> rfl

/-! ## Errors and texts -/

section Shown

variable {shown : List TypeRef} {write : Inline → Except ExportError String} {text : String}
  {r : TypeRef}

/-- An error is the error of a type that is shown. -/
theorem MadeOf.exists_error (h : MadeOf m here shown write) {e : ExportError}
    (herror : write inline = .error e) :
    ∃ r ∈ shown, ∃ within, renderRef inline m here within r = .error e := by
  obtain ⟨parts, assemble, hparts, hwrite⟩ := h
  rw [hwrite, Sequencing.map_eq_error] at herror
  obtain ⟨part, hpart, hfails⟩ := Sequencing.mapM_eq_error herror
  exact ⟨part.2, (hparts part.2).mpr ⟨part.1, hpart⟩, part.1, hfails⟩

/-- Where there is a text, every type that is shown has one. -/
theorem MadeOf.exists_ok (h : MadeOf m here shown write) (hok : write inline = .ok text)
    (hr : r ∈ shown) : ∃ within text', renderRef inline m here within r = .ok text' := by
  obtain ⟨parts, assemble, hparts, hwrite⟩ := h
  obtain ⟨within, hpart⟩ := (hparts r).mp hr
  rw [hwrite, Sequencing.map_eq_ok] at hok
  obtain ⟨texts, htexts, _⟩ := hok
  obtain ⟨text', _, htext⟩ := Sequencing.exists_of_mapM_eq_ok htexts hpart
  exact ⟨within, text', htext⟩

/-- What one way to write declarations out gives, the other one gives too. -/
def Inline.Within (inline inline' : Inline) : Prop :=
  ∀ indent id d text, inline indent id d = .ok text → inline' indent id d = .ok text

variable {inline' : Inline}

theorem Inline.Within.renderRef (h : inline.Within inline')
    (hok : renderRef inline m here indent r = .ok text) :
    Script.renderRef inline' m here indent r = .ok text := by
  induction r generalizing text with
  | primitive p => exact hok
  | literal value => exact hok
  | array inner ih =>
    obtain ⟨element, helement, hpure⟩ := Sequencing.bind_eq_ok.mp hok
    exact Sequencing.bind_eq_ok.mpr ⟨element, ih helement, hpure⟩
  | decl id =>
    obtain ⟨d, hd, hrest⟩ := Sequencing.bind_eq_ok.mp hok
    refine Sequencing.bind_eq_ok.mpr ⟨d, hd, ?_⟩
    cases hname : d.name with
    | some name =>
      rw [hname] at hrest
      exact hrest
    | none =>
      rw [hname] at hrest
      exact h indent id d text hrest

theorem MadeOf.mono (h : MadeOf m here shown write) (hinline : inline.Within inline')
    (hok : write inline = .ok text) : write inline' = .ok text := by
  obtain ⟨parts, assemble, _, hwrite⟩ := h
  rw [hwrite, Sequencing.map_eq_ok] at hok ⊢
  obtain ⟨texts, htexts, hassemble⟩ := hok
  refine ⟨texts, Sequencing.mapM_eq_ok.mpr ?_, hassemble⟩
  exact (Sequencing.mapM_eq_ok.mp htexts).imp fun part text hpart => hinline.renderRef hpart

/-- What can be written out to some depth is written in the same way to a greater one. -/
theorem renderInline_within {depth depth' : Nat} (hle : depth ≤ depth') :
    (renderInline m here depth).Within (renderInline m here depth') := by
  induction depth generalizing depth' with
  | zero =>
    intro indent id d text hok
    cases hok
  | succ depth ih =>
    obtain ⟨depth', rfl⟩ := Nat.exists_eq_succ_of_ne_zero (Nat.ne_zero_of_lt hle)
    intro indent id d text hok
    exact (madeOf_renderBody m here indent d).mono (ih (Nat.le_of_succ_le_succ hle)) hok

end Shown

end Script

end XsdTypes
