import XsdTypes.Proofs.Counting
import XsdTypes.Proofs.Schema.Particles

/-!
# Words of content models

How often a local name occurs in a word that a content model allows. A quantity `v` of declarations
weighs a content model (`Weighs`) if it counts the elements with the name, and counts a reference as
often as its group. Then a word has as many elements with the name as the declarations in the scope
of the content model together allow.
-/

namespace XsdTypes

open Relation

/-- How many elements of a word have the local name. -/
def wordCount (x : String) (word : List QName) : Nat :=
  word.countP fun q => q.localName = x

theorem wordCount_append (x : String) (word word' : List QName) :
    wordCount x (word ++ word') = wordCount x word + wordCount x word' :=
  List.countP_append

theorem wordCount_flatten (x : String) (words : List (List QName)) :
    wordCount x words.flatten = (words.map (wordCount x)).sum := by
  induction words with
  | nil => rfl
  | cons w words ih => rw [List.flatten_cons, wordCount_append, ih, List.map_cons, List.sum_cons]

theorem wordCount_flatMap {α : Type} (x : String) (l : List α) (f : α → List QName) :
    wordCount x (l.flatMap f) = (l.map fun a => wordCount x (f a)).sum := by
  induction l with
  | nil => rfl
  | cons a l ih => rw [List.flatMap_cons, wordCount_append, ih, List.map_cons, List.sum_cons]

theorem wordCount_flatten_flatMap {α : Type} (x : String) (l : List α) (f : α → List (List QName)) :
    wordCount x (l.flatMap f).flatten = (l.map fun a => wordCount x (f a).flatten).sum := by
  induction l with
  | nil => rfl
  | cons a l ih =>
    rw [List.flatMap_cons, List.flatten_append, wordCount_append, ih, List.map_cons, List.sum_cons]

theorem Occurrence.allows.within {occurs : Occurrence} {k : Nat} (h : occurs.allows k) :
    occurs.Within k := by
  refine ⟨h.1, ?_⟩
  have hmax := h.2
  cases hbound : occurs.max with
  | unbounded => trivial
  | atMost n =>
    rw [hbound] at hmax
    exact fun _ => hmax

theorem Tag.isParticle_cases {tag : Tag} (h : tag.isParticle = true) :
    tag = .element ∨ tag = .any ∨ tag = .group ∨ tag = .choice ∨
      (tag = .sequence ∨ tag = .all ∨ tag.wraps = true) := by
  revert h
  cases tag <;> simp [Tag.isParticle, Tag.wraps]

namespace Graph

variable {g : Graph} {x : String} {n c : NodeId} {w : List QName}

/-! ## Words of each kind of particle -/

namespace Allows

theorem of_element (h : g.Allows n w) (htag : (g.nodeAt n).tag = .element) :
    ∃ name, (g.nodeAt n).name = some name ∧ w = [name] := by
  cases h with
  | element _ hname => exact ⟨_, hname, rfl⟩
  | wildcard ht => cases ht.symm.trans htag
  | series ht => rw [htag] at ht; cases ht
  | all ht => cases ht.symm.trans htag
  | choice ht => cases ht.symm.trans htag
  | reference ht => cases ht.symm.trans htag

theorem of_any (h : g.Allows n w) (htag : (g.nodeAt n).tag = .any) : w = [] := by
  cases h with
  | element ht => cases ht.symm.trans htag
  | wildcard => rfl
  | series ht => rw [htag] at ht; cases ht
  | all ht => cases ht.symm.trans htag
  | choice ht => cases ht.symm.trans htag
  | reference ht => cases ht.symm.trans htag

theorem of_reference (h : g.Allows n w) (htag : (g.nodeAt n).tag = .group) {target : NodeId}
    (htarget : Lowering.referredGroup? g n = some target) : g.Allows target w := by
  cases h with
  | element ht => cases ht.symm.trans htag
  | wildcard ht => cases ht.symm.trans htag
  | series _ hdefinition => cases hdefinition.symm.trans htarget
  | all ht => cases ht.symm.trans htag
  | choice ht => cases ht.symm.trans htag
  | reference _ ht hword =>
    cases ht.symm.trans htarget
    exact hword

theorem of_choice (h : g.Allows n w) (htag : (g.nodeAt n).tag = .choice) :
    ∃ (c : NodeId) (words : List (List QName)), c ∈ g.particles n ∧
      (g.nodeAt c).ownOccurs.allows words.length ∧
      (∀ w ∈ words, g.Allows c w) ∧ w = words.flatten := by
  cases h with
  | element ht => cases ht.symm.trans htag
  | wildcard ht => cases ht.symm.trans htag
  | series ht => rw [htag] at ht; cases ht
  | all ht => cases ht.symm.trans htag
  | choice _ hbranch hoccurs hwords => exact ⟨_, _, hbranch, hoccurs, hwords, rfl⟩
  | reference ht => cases ht.symm.trans htag

/-- A word of a node all of whose particles occur is put together from words of them. -/
theorem of_parts (h : g.Allows n w)
    (htag : (g.nodeAt n).tag.isSeries = true ∧ Lowering.referredGroup? g n = none ∨
      (g.nodeAt n).tag = .all) :
    ∃ words : NodeId → List (List QName),
      (∀ c ∈ g.particles n, (g.nodeAt c).ownOccurs.allows (words c).length) ∧
      (∀ c ∈ g.particles n, ∀ w ∈ words c, g.Allows c w) ∧
      ∀ x, wordCount x w = ((g.particles n).map fun c => wordCount x (words c).flatten).sum := by
  have hne : ∀ tag : Tag, tag.isSeries = false → tag ≠ .all → (g.nodeAt n).tag ≠ tag := by
    rintro tag hseries hall rfl
    rcases htag with ⟨hs, _⟩ | ha
    · rw [hseries] at hs
      cases hs
    · exact hall ha
  cases h with
  | element ht => exact absurd ht (hne _ rfl (by simp))
  | wildcard ht => exact absurd ht (hne _ rfl (by simp))
  | series _ _ hoccurs hwords => exact ⟨_, hoccurs, hwords, fun x => wordCount_flatMap x _ _⟩
  | all _ hoccurs hwords horder =>
    refine ⟨_, hoccurs, hwords, fun x => ?_⟩
    rw [← wordCount_flatMap]
    exact horder.countP_eq _
  | choice ht => exact absurd ht (hne _ rfl (by simp))
  | reference ht htarget =>
    rcases htag with ⟨_, hnone⟩ | ha
    · cases hnone.symm.trans htarget
    · cases ht.symm.trans ha

end Allows

/-! ## Sums over the parts of a node -/

section Weight

open Classical

/-- What the declarations of the parts of a node add up to, its own included. -/
noncomputable def weightUnder (g : Graph) (v : Declaration → Occurrence) (own : ScopeId)
    (c : NodeId) : Occurrence :=
  (((g.scopeAt own).entries.filter fun d => ReflTransGen g.IsPart c d.node).map v).sum

theorem weightUnder_eq_sum (v : Declaration → Occurrence) (own : ScopeId) (c : NodeId) :
    g.weightUnder v own c = ((g.scopeAt own).entries.map fun d =>
      if ReflTransGen g.IsPart c d.node then v d else 0).sum := by
  rw [weightUnder]
  induction (g.scopeAt own).entries with
  | nil => rfl
  | cons d l ih =>
    by_cases hd : ReflTransGen g.IsPart c d.node
    · rw [List.filter_cons_of_pos (by simpa using hd), List.map_cons, List.map_cons, List.sum_cons,
        List.sum_cons, ih, if_pos hd]
    · rw [List.filter_cons_of_neg (by simpa using hd), List.map_cons, List.sum_cons, ih, if_neg hd,
        zero_add]

variable {v : Declaration → Occurrence} {own : ScopeId}

theorem weightUnder_eq_zero
    (h : ∀ d ∈ (g.scopeAt own).entries, ReflTransGen g.IsPart c d.node → v d = 0) :
    g.weightUnder v own c = 0 := by
  refine List.sum_eq_zero fun a ha => ?_
  obtain ⟨d, hd, rfl⟩ := List.mem_map.mp ha
  obtain ⟨hmem, hunder⟩ := List.mem_filter.mp hd
  exact h d hmem (of_decide_eq_true hunder)

/-- A node without parts has the weight of its declaration. -/
theorem weightUnder_leaf (h : g.Sound) (hleaf : g.particles c = []) {d : Declaration}
    (hd : d ∈ (g.scopeAt own).entries) (hnode : d.node = c) : g.weightUnder v own c = v d := by
  have hunder : ∀ d' ∈ (g.scopeAt own).entries,
      decide (ReflTransGen g.IsPart c d'.node) = decide (d'.node = d.node) := by
    intro d' _
    refine decide_eq_decide.mpr ⟨fun hpart => ?_, fun heq => ?_⟩
    · rcases ReflTransGen.cases_head hpart with heq | ⟨p, hp, _⟩
      · rw [hnode, heq]
      · rw [IsPart, hleaf] at hp
        cases hp
    · rw [heq, hnode]
  have hfilter : (g.scopeAt own).entries.filter (fun d' => decide (d'.node = d.node)) = [d] :=
    filter_eq_singleton (h.declared.nodup own) hd
  rw [weightUnder, List.filter_congr hunder, hfilter, List.map_singleton, List.sum_singleton]

/-- A part of a node is a part of one of its particles. -/
theorem weightUnder_parts (h : g.Sound)
    (hself : ∀ d ∈ (g.scopeAt own).entries, d.node = n → v d = 0) :
    g.weightUnder v own n = ((g.particles n).map (g.weightUnder v own)).sum := by
  have hone : ∀ d ∈ (g.scopeAt own).entries,
      (if ReflTransGen g.IsPart n d.node then v d else 0) =
        ((g.particles n).map fun c => if ReflTransGen g.IsPart c d.node then v d else 0).sum := by
    intro d hd
    by_cases hnode : d.node = n
    · rw [hself d hd hnode]
      simp
    by_cases hex : ∃ c ∈ g.particles n, ReflTransGen g.IsPart c d.node
    · obtain ⟨c, hc, hpart⟩ := hex
      rw [if_pos (ReflTransGen.head hc hpart)]
      refine (sum_ite_of_mem (h.particles_nodup n) hc (fun b hb => ⟨fun hb' => ?_, ?_⟩) _).symm
      · exact h.part_unique hb hc hb' hpart
      · rintro rfl
        exact hpart
    · have hnone : ¬ ReflTransGen g.IsPart n d.node := by
        intro hpart
        rcases ReflTransGen.cases_head hpart with heq | ⟨c, hc, hrest⟩
        · exact hnode heq.symm
        · exact hex ⟨c, hc, hrest⟩
      have hzero : ∀ c ∈ g.particles n,
          (if ReflTransGen g.IsPart c d.node then v d else 0) = 0 :=
        fun c hc => if_neg fun hpart => hex ⟨c, hc, hpart⟩
      rw [if_neg hnone, List.map_congr_left hzero]
      simp
  rw [weightUnder_eq_sum, List.map_congr_left hone, sum_map_swap]
  exact congrArg List.sum (List.map_congr_left fun c _ => (weightUnder_eq_sum v own c).symm)

end Weight

/-! ## Words and weights -/

/-- The quantity counts elements with the local name, and a reference within the node as often as the
group it refers to. -/
structure Weighs (g₀ g : Graph) (x : String) (a : NodeId) (own : ScopeId)
    (v : Declaration → Occurrence) : Prop where
  element : ∀ name c occurs,
    v ⟨some name, .element, c, occurs⟩ = if name.localName = x then occurs else 0
  reference : ∀ n c, g₀.Region g n own → c ∈ g.particles n → TransGen g.IsPart a c →
    (g.nodeAt c).tag = .group →
    ∃ target total, Lowering.referredGroup? g c = some target ∧ g.particles c = [] ∧
      (∀ occurs, v ⟨none, .groupRef, c, occurs⟩ = occurs.times total) ∧
      ∀ w, g.Allows target w → total.Within (wordCount x w)

/-- Words of a particle have as many elements with the name as the declarations of its parts allow. -/
def Counted (g : Graph) (x : String) (v : Declaration → Occurrence) (own : ScopeId) (c : NodeId) :
    Prop :=
  ∀ ws : List (List QName), (∀ w ∈ ws, g.Allows c w) → (g.placeOccurs c).Within ws.length →
    (g.weightUnder v own c).Within (wordCount x ws.flatten)

variable {g₀ : Graph} {a : NodeId} {own : ScopeId} {v : Declaration → Occurrence}

/-- Words that are put together from words of the particles. -/
theorem within_of_parts {ws : List (List QName)} {words : List QName → NodeId → List (List QName)}
    {f : NodeId → Occurrence}
    (hcount : ∀ w ∈ ws, wordCount x w =
      ((g.particles n).map fun c => wordCount x (words w c).flatten).sum)
    (hparts : ∀ c ∈ g.particles n, (f c).Within (wordCount x (ws.flatMap fun w => words w c).flatten)) :
    ((g.particles n).map f).sum.Within (wordCount x ws.flatten) := by
  have hflatten : wordCount x ws.flatten = ((g.particles n).map fun c =>
      wordCount x (ws.flatMap fun w => words w c).flatten).sum := by
    rw [wordCount_flatten, List.map_congr_left hcount, sum_map_swap]
    exact congrArg List.sum (List.map_congr_left fun c _ =>
      (wordCount_flatten_flatMap x ws fun w => words w c).symm)
  rw [hflatten]
  exact Occurrence.Within.sum hparts

/-- Only groups refer to groups. -/
theorem Grown.referredGroup?_eq_none (h : g₀.Grown g) (hnew : g₀.nodes.size ≤ n)
    (hn : n < g.nodes.size) (hgroup : (g.nodeAt n).tag ≠ .group)
    (hattrGroup : (g.nodeAt n).tag ≠ .attrGroup) : Lowering.referredGroup? g n = none := by
  have hholds := h.holds hnew hn
  unfold Lowering.referredGroup?
  split
  · rename_i hpayload
    rw [hpayload] at hholds
    simp [Tag.holds, hgroup, hattrGroup] at hholds
  · rfl

/-- What stands in a scope without being an element or a group is not declared there. -/
theorem Sound.undeclared_particle (h : g.Sound) {d : Declaration}
    (hd : d ∈ (g.scopeAt own).entries) {tag : Tag} (htag : (g.nodeAt d.node).tag = tag)
    (hfits : ∀ space : SymbolSpace, space.fits tag = false) : False := by
  have hentry := (h.declared.entry own d hd).fits
  rw [htag, hfits] at hentry
  cases hentry

namespace Weighs

/-- The words of an element. -/
theorem of_element (hv : g₀.Weighs g x a own v) (h : g₀.Grown g) (r : g₀.Region g n own)
    (hc : c ∈ g.particles n) (htag : (g.nodeAt c).tag = .element) : g.Counted x v own c := by
  intro ws hws hplace
  obtain ⟨name, hname, hmem⟩ := r.element h hc htag
  have hleaf : g.particles c = [] := h.sound.particles_eq_nil (by rw [htag]; rfl)
  have hone : ∀ w ∈ ws, wordCount x w = if name.localName = x then 1 else 0 := by
    intro w hw
    obtain ⟨name', hname', rfl⟩ := (hws w hw).of_element htag
    cases hname.symm.trans hname'
    simp [wordCount, List.countP_cons]
  rw [weightUnder_leaf h.sound hleaf hmem rfl, hv.element, wordCount_flatten,
    List.map_congr_left hone]
  split
  · simpa using hplace
  · simpa using Occurrence.within_zero

/-- The words of a wildcard. -/
theorem of_any (h : g₀.Grown g) (htag : (g.nodeAt c).tag = .any) : g.Counted x v own c := by
  intro ws hws _
  have hleaf : g.particles c = [] := h.sound.particles_eq_nil (by rw [htag]; rfl)
  have hnone : ∀ w ∈ ws, wordCount x w = 0 := by
    intro w hw
    rw [(hws w hw).of_any htag]
    rfl
  have hzero : g.weightUnder v own c = 0 := by
    refine weightUnder_eq_zero fun d hd hpart => ?_
    rcases ReflTransGen.cases_head hpart with heq | ⟨p, hp, _⟩
    · exact (h.sound.undeclared_particle hd (heq ▸ htag) fun space => by cases space <;> rfl).elim
    · rw [IsPart, hleaf] at hp
      cases hp
  rw [hzero, wordCount_flatten, List.map_congr_left hnone]
  simpa using Occurrence.within_zero

/-- The words of a reference to a group. -/
theorem of_reference (hv : g₀.Weighs g x a own v) (h : g₀.Grown g) (r : g₀.Region g n own)
    (hc : c ∈ g.particles n) (hpart : TransGen g.IsPart a c) (htag : (g.nodeAt c).tag = .group) :
    g.Counted x v own c := by
  intro ws hws hplace
  obtain ⟨target, total, htarget, hleaf, htotal, hwords⟩ := hv.reference n c r hc hpart htag
  rw [weightUnder_leaf h.sound hleaf (r.group h hc htag) rfl, htotal, wordCount_flatten]
  refine Occurrence.Within.times (by rw [List.length_map]; exact hplace) fun k hk => ?_
  obtain ⟨w, hw, rfl⟩ := List.mem_map.mp hk
  exact hwords w ((hws w hw).of_reference htag htarget)

/-- The words of a node all of whose particles occur. -/
theorem of_parts (h : g.Sound) (hself : ∀ d ∈ (g.scopeAt own).entries, d.node = c → v d = 0)
    (hseries : (g.nodeAt c).tag.isSeries = true ∧ Lowering.referredGroup? g c = none ∨
      (g.nodeAt c).tag = .all)
    (hparts : ∀ c' ∈ g.particles c, g.Counted x v own c')
    {ws : List (List QName)} (hws : ∀ w ∈ ws, g.Allows c w)
    (hcontent : (g.contentOccurs c).Within ws.length) :
    (g.weightUnder v own c).Within (wordCount x ws.flatten) := by
  choose! words hoccurs hwords hcount using fun w hw => (hws w hw).of_parts hseries
  rw [weightUnder_parts h hself]
  refine within_of_parts (fun w hw => hcount w hw x) fun c' hc' => ?_
  refine hparts c' hc' _ (fun w hw => ?_) ?_
  · obtain ⟨w', hw', hmem⟩ := List.mem_flatMap.mp hw
    exact hwords w' hw' c' hc' w hmem
  · rw [h.placeOccurs_part hc', List.length_flatMap]
    refine Occurrence.Within.times (by rw [List.length_map]; exact hcontent) fun k hk => ?_
    obtain ⟨w, hw, rfl⟩ := List.mem_map.mp hk
    exact (hoccurs w hw c' hc').within

/-- The words of a choice. Each takes one branch, so a branch is taken at most as often as there are
words. -/
theorem of_choice (h : g.Sound) (hself : ∀ d ∈ (g.scopeAt own).entries, d.node = c → v d = 0)
    (htag : (g.nodeAt c).tag = .choice)
    (hparts : ∀ c' ∈ g.particles c, g.Counted x v own c')
    {ws : List (List QName)} (hws : ∀ w ∈ ws, g.Allows c w) {occurs : Occurrence}
    (hcontent : g.contentOccurs c = occurs.optional) (hoccurs : occurs.Within ws.length) :
    (g.weightUnder v own c).Within (wordCount x ws.flatten) := by
  choose! branch words hbranch hown hwords hflat using fun w hw => (hws w hw).of_choice htag
  rw [weightUnder_parts h hself]
  -- the words of a branch are those of the words that take it
  have hcount : ∀ w ∈ ws, wordCount x w = ((g.particles c).map fun c' =>
      wordCount x (if c' = branch w then words w else []).flatten).sum := by
    intro w hw
    have hite : ∀ c' ∈ g.particles c, wordCount x (if c' = branch w then words w else []).flatten =
        if c' = branch w then wordCount x w else 0 := by
      intro c' _
      split
      · rw [← hflat w hw]
      · rfl
    rw [List.map_congr_left hite]
    exact (sum_ite_of_mem (h.particles_nodup c) (hbranch w hw) (fun _ _ => Iff.rfl) _).symm
  refine within_of_parts hcount fun c' hc' => hparts c' hc' _ (fun w hw => ?_) ?_
  · obtain ⟨w', hw', hmem⟩ := List.mem_flatMap.mp hw
    split at hmem
    · rename_i heq
      rw [heq]
      exact hwords w' hw' w hmem
    · cases hmem
  · have hlength : (ws.flatMap fun w => if c' = branch w then words w else []).length =
        ((ws.filter fun w => c' = branch w).map fun w => (words w).length).sum := by
      clear hcount hws hoccurs hbranch hown hwords hflat
      induction ws with
      | nil => rfl
      | cons w ws ih =>
        by_cases hw : c' = branch w
        · rw [List.filter_cons_of_pos (by simpa using hw), List.flatMap_cons, if_pos hw,
            List.length_append, ih, List.map_cons, List.sum_cons]
        · rw [List.filter_cons_of_neg (by simpa using hw), List.flatMap_cons, if_neg hw,
            List.nil_append, ih]
    rw [h.placeOccurs_part hc', hcontent, hlength]
    refine Occurrence.Within.times ?_ fun k hk => ?_
    · rw [List.length_map]
      exact hoccurs.optional (List.length_filter_le _ _)
    · obtain ⟨w, hw, rfl⟩ := List.mem_map.mp hk
      obtain ⟨hmem, heq⟩ := List.mem_filter.mp hw
      rw [of_decide_eq_true heq]
      exact (hown w hmem).within

theorem particle (hv : g₀.Weighs g x a own v) (h : g₀.Grown g) (r : g₀.Region g n own)
    (hn : ReflTransGen g.IsPart a n) (hc : c ∈ g.particles n) : g.Counted x v own c := by
  -- the parts of a node have larger numbers
  induction hk : g.nodes.size - c using Nat.strong_induction_on generalizing n c with
  | _ k ih =>
    obtain ⟨_, hlt, hnc, _, hparticle, _⟩ := h.sound.part hc
    have hca : TransGen g.IsPart a c := TransGen.tail' hn hc
    have hdown : (g.nodeAt c).tag.carries false = true →
        ∀ c' ∈ g.particles c, g.Counted x v own c' := by
      intro hcarries c' hc'
      have hlt' : c < c' := (h.sound.part hc').2.2.1
      have hsmaller : g.nodes.size - c' < k := hk ▸ Nat.sub_lt_sub_left hlt hlt'
      exact ih (g.nodes.size - c') hsmaller (r.down h hc hcarries) hca.to_reflTransGen hc' rfl
    have hself : ∀ tag, (g.nodeAt c).tag = tag → (∀ space : SymbolSpace, space.fits tag = false) →
        ∀ d ∈ (g.scopeAt own).entries, d.node = c → v d = 0 := by
      intro tag htag hfits d hd hnode
      exact (h.sound.undeclared_particle hd (hnode ▸ htag) hfits).elim
    rcases Tag.isParticle_cases hparticle with htag | htag | htag | htag | htag
    · exact hv.of_element h r hc htag
    · exact of_any h htag
    · exact hv.of_reference h r hc hca htag
    · intro ws hws hplace
      exact of_choice h.sound (hself _ htag fun space => by cases space <;> rfl) htag
        (hdown (by rw [htag]; rfl)) hws (r.contentOccurs_choice h hc htag) hplace
    · have hfits : ∀ space : SymbolSpace, space.fits (g.nodeAt c).tag = false := by
        intro space
        rcases htag with htag | htag | hwraps
        · rw [htag]; cases space <;> rfl
        · rw [htag]; cases space <;> rfl
        · cases ht : (g.nodeAt c).tag <;> rw [ht] at hwraps <;> cases hwraps <;> cases space <;> rfl
      have hcarries : (g.nodeAt c).tag.carries false = true := by
        rcases htag with htag | htag | hwraps
        · rw [htag]; rfl
        · rw [htag]; rfl
        · cases ht : (g.nodeAt c).tag <;> rw [ht] at hwraps <;> cases hwraps <;> rfl
      have hseries : (g.nodeAt c).tag.isSeries = true ∧ Lowering.referredGroup? g c = none ∨
          (g.nodeAt c).tag = .all := by
        have hnone := h.referredGroup?_eq_none (Nat.le_trans r.new (Nat.le_of_lt hnc)) hlt
        rcases htag with htag | htag | hwraps
        · exact .inl ⟨by rw [htag]; rfl, hnone (by rw [htag]; simp) (by rw [htag]; simp)⟩
        · exact .inr htag
        · refine .inl ⟨?_, hnone ?_ ?_⟩ <;> cases ht : (g.nodeAt c).tag <;>
            rw [ht] at hwraps <;> cases hwraps <;> simp [Tag.isSeries, Tag.wraps]
      intro ws hws hplace
      rw [← r.contentOccurs_series h hc htag] at hplace
      exact of_parts h.sound (hself _ rfl hfits) hseries (hdown hcarries) hws hplace

/-- A word of a type or a group has as many elements with the name as the declarations in its scope
together allow. -/
theorem content (hv : g₀.Weighs g x a own v) (h : g₀.Grown g) (r : g₀.Region g a own)
    (ha : a < g.nodes.size) (hown : (g.nodeAt a).ownScope = some own)
    (hseries : (g.nodeAt a).tag.isSeries = true) (hdefinition : Lowering.referredGroup? g a = none)
    (honce : g.contentOccurs a = .once)
    (hother : ∀ d ∈ (g.scopeAt own).entries, (g.nodeAt d.node).tag.isParticle = false → v d = 0)
    {w : List QName} (hw : g.Allows a w) :
    (((g.scopeAt own).entries.map v).sum).Within (wordCount x w) := by
  classical
  have hpart : ∀ d ∈ (g.scopeAt own).entries, TransGen g.IsPart a d.node ∨ v d = 0 := by
    intro d hd
    have hentry := h.sound.declared.entry own d hd
    cases htag : (g.nodeAt d.node).tag.isParticle with
    | true => exact .inl (h.part_of_scope ha hown r.inner d.node hentry.node_lt hentry.scope htag)
    | false => exact .inr (hother d hd htag)
  have hself : ∀ d ∈ (g.scopeAt own).entries, d.node = a → v d = 0 := by
    intro d hd hnode
    refine (hpart d hd).resolve_left fun hcycle => ?_
    rw [hnode] at hcycle
    exact Nat.lt_irrefl _ (h.sound.lt_of_parts hcycle)
  have hsum : ((g.scopeAt own).entries.map v).sum = g.weightUnder v own a := by
    rw [weightUnder_eq_sum]
    refine congrArg List.sum (List.map_congr_left fun d hd => ?_)
    rcases hpart d hd with hunder | hzero
    · rw [if_pos hunder.to_reflTransGen]
    · rw [hzero, ite_self]
  have hwords : wordCount x w = wordCount x [w].flatten := by simp
  rw [hsum, hwords]
  refine of_parts h.sound hself (.inl ⟨hseries, hdefinition⟩)
    (fun c hc => hv.particle h r .refl hc) (by simpa using hw) ?_
  rw [honce]
  exact Occurrence.within_once

end Weighs

end Graph

end XsdTypes
