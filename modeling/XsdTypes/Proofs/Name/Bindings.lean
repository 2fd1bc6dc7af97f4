import Mathlib.Tactic
import XsdTypes.Name.Bindings

/-!
# Writing names with prefixes

A name that is written with a prefix in force is read back as the same name. If it cannot be written,
no text at all means it. Prefixes and names are taken to be plain: a colon in a prefix would move the
place where a text is cut, and blanks at an end of a text are lost when it is read.
-/

namespace XsdTypes

namespace Chars

theorem trim_eq_self {cs : List Char} (hfirst : ∀ c ∈ cs.head?, isBlank c = false)
    (hlast : ∀ c ∈ cs.getLast?, isBlank c = false) : trim cs = cs := by
  have hkeep : ∀ cs : List Char, (∀ c ∈ cs.head?, isBlank c = false) →
      cs.dropWhile isBlank = cs := by
    intro cs hcs
    cases cs with
    | nil => rfl
    | cons c cs => rw [List.dropWhile_cons, hcs c rfl, if_neg Bool.false_ne_true]
  rw [trim, trimStart, hkeep cs hfirst, trimEnd, hkeep cs.reverse, List.reverse_reverse]
  rw [List.head?_reverse]
  exact hlast

theorem splitOnce_eq_none {sep : Char} {cs : List Char} (h : sep ∉ cs) : splitOnce sep cs = none := by
  induction cs with
  | nil => rfl
  | cons c cs ih =>
    rw [List.mem_cons, not_or] at h
    rw [splitOnce, if_neg (Ne.symm h.1), ih h.2]
    rfl

theorem splitOnce_append {sep : Char} {before : List Char} (h : sep ∉ before) (after : List Char) :
    splitOnce sep (before ++ sep :: after) = some (before, after) := by
  induction before with
  | nil => exact if_pos rfl
  | cons c before ih =>
    rw [List.mem_cons, not_or] at h
    rw [List.cons_append, splitOnce, if_neg (Ne.symm h.1), ih h.2]
    rfl

end Chars

namespace Text

/-- The text has no colon in it and no blank at either end. -/
structure Plain (s : String) : Prop where
  colon : ':' ∉ s.toList
  first : ∀ c ∈ s.toList.head?, Chars.isBlank c = false
  last : ∀ c ∈ s.toList.getLast?, Chars.isBlank c = false

/-- Whether the text is plain, by a look at the characters at its ends. -/
theorem plain_iff {s : String} : Plain s ↔ ':' ∉ s.toList ∧
    s.toList.head?.all (fun c => !Chars.isBlank c) = true ∧
    s.toList.getLast?.all (fun c => !Chars.isBlank c) = true := by
  simp only [Option.all_eq_true, Bool.not_eq_true']
  exact ⟨fun h => ⟨h.colon, h.first, h.last⟩, fun h => ⟨h.1, h.2.1, h.2.2⟩⟩

instance (s : String) : Decidable (Plain s) :=
  decidable_of_iff _ plain_iff.symm

theorem Plain.trim_eq {s : String} (h : Plain s) : trim s = s := by
  rw [trim, Chars.trim_eq_self h.first h.last, String.ofList_toList]

theorem Plain.splitOnce_eq {s : String} (h : Plain s) : splitOnce ':' s = none := by
  rw [splitOnce, Chars.splitOnce_eq_none h.colon]
  rfl

theorem toList_prefixed (pfx name : String) :
    (pfx ++ ":" ++ name).toList = pfx.toList ++ ':' :: name.toList := by
  rw [String.toList_append, String.toList_append, List.append_assoc]
  rfl

/-- A name with a prefix has no blank at either end, even if nothing follows the colon. -/
theorem Plain.trim_prefixed {pfx name : String} (hpfx : Plain pfx) (hne : pfx ≠ "")
    (hname : Plain name) : trim (pfx ++ ":" ++ name) = pfx ++ ":" ++ name := by
  have hchars : pfx.toList ≠ [] := fun hnil => hne (String.toList_eq_nil_iff.mp hnil)
  rw [trim, Chars.trim_eq_self, String.ofList_toList]
  · rw [toList_prefixed, List.head?_append_of_ne_nil _ hchars]
    exact hpfx.first
  · rw [toList_prefixed, List.getLast?_append_of_ne_nil _ (List.cons_ne_nil _ _)]
    cases hchars : name.toList with
    | nil =>
      intro c hc
      cases hc
      rfl
    | cons c cs =>
      rw [List.getLast?_cons_cons, ← hchars]
      exact hname.last

theorem Plain.splitOnce_prefixed {pfx : String} (hpfx : Plain pfx) (name : String) :
    splitOnce ':' (pfx ++ ":" ++ name) = some (pfx, name) := by
  rw [splitOnce, toList_prefixed, Chars.splitOnce_append hpfx.colon]
  simp only [Option.map_some, String.ofList_toList]

end Text

namespace Bindings

variable {b : Bindings} {q : QName} {pfx uri raw : String}

/-- What is done to bindings while tags are opened and closed. -/
inductive Operation where
  | push
  | pop
  | bind (pfx uri : String)
  deriving DecidableEq

/-- Does one thing to bindings. -/
def Operation.perform (b : Bindings) : Operation → Bindings
  | .push => b.push
  | .pop => b.pop
  | .bind pfx uri => b.bind pfx uri

/-- The bindings after a number of operations. -/
def after (ops : List Operation) : Bindings :=
  ops.foldl Operation.perform initial

/-- All prefixes that have been declared are plain. -/
def PlainPrefixes (b : Bindings) : Prop :=
  ∀ entry ∈ b.declared, Text.Plain entry.1

theorem initial_plainPrefixes : initial.PlainPrefixes := by
  intro entry hentry
  have heq : entry = ("xml", QName.xmlUri) := by simpa [initial, declared] using hentry
  rw [heq]
  decide +kernel

theorem PlainPrefixes.perform (h : b.PlainPrefixes) {op : Operation}
    (hop : ∀ pfx uri, op = .bind pfx uri → Text.Plain pfx) : (op.perform b).PlainPrefixes := by
  intro entry hentry
  cases op with
  | push => exact h entry hentry
  | pop =>
    simp only [Operation.perform, pop] at hentry
    split at hentry
    · exact h entry hentry
    · rename_i frame frames hbelow
      refine h entry (List.mem_append_right b.top ?_)
      rw [hbelow]
      exact hentry
  | bind pfx uri =>
    rcases List.mem_cons.mp hentry with rfl | hold
    · exact hop pfx uri rfl
    · exact h entry hold

theorem plainPrefixes_after {ops : List Operation}
    (hops : ∀ pfx uri, .bind pfx uri ∈ ops → Text.Plain pfx) : (after ops).PlainPrefixes := by
  have hrun : ∀ b : Bindings, b.PlainPrefixes → (ops.foldl Operation.perform b).PlainPrefixes := by
    induction ops with
    | nil => exact fun b hb => hb
    | cons op ops ih =>
      intro b hb
      refine ih (fun pfx uri hmem => hops pfx uri (List.mem_cons_of_mem op hmem)) _ (hb.perform ?_)
      intro pfx uri heq
      exact hops pfx uri (heq ▸ List.mem_cons_self)
  exact hrun initial initial_plainPrefixes

/-! ## Reading and writing a name -/

theorem resolve_plain (h : Text.Plain raw) : b.resolve raw = .ok ⟨b.defaultUri, raw⟩ := by
  simp only [resolve, h.trim_eq, h.splitOnce_eq]

theorem resolve_prefixed {name : String} (hpfx : Text.Plain pfx) (hne : pfx ≠ "")
    (hname : Text.Plain name) (hlookup : b.lookup pfx = some uri) (huri : uri ≠ "") :
    b.resolve (pfx ++ ":" ++ name) = .ok ⟨uri, name⟩ := by
  simp only [resolve, hpfx.trim_prefixed hne hname, hpfx.splitOnce_prefixed, hlookup]
  rw [if_neg (by simpa using hne), if_neg (by simpa using huri)]

/-- A text is read in the default namespace, or in one that a prefix means. -/
theorem resolve_eq_ok (h : b.resolve raw = .ok q) :
    q.uri = b.defaultUri ∨ q.uri ≠ "" ∧ ∃ pfx, pfx ≠ "" ∧ b.lookup pfx = some q.uri := by
  unfold resolve at h
  cases hsplit : Text.splitOnce ':' (Text.trim raw) with
  | none =>
    simp only [hsplit] at h
    cases h
    exact Or.inl rfl
  | some parts =>
    obtain ⟨pfx, name⟩ := parts
    simp only [hsplit] at h
    by_cases hne : pfx = ""
    · rw [if_pos (by simp [hne])] at h
      cases h
      exact Or.inl rfl
    · rw [if_neg (by simpa using hne)] at h
      cases hlookup : b.lookup pfx with
      | none =>
        rw [hlookup] at h
        cases h
      | some uri =>
        simp only [hlookup] at h
        by_cases huri : uri = ""
        · rw [if_pos (by simp [huri])] at h
          cases h
        · rw [if_neg (by simpa using huri)] at h
          cases h
          exact Or.inr ⟨huri, pfx, hne, hlookup⟩

/-- A name is written without a prefix in the default namespace, and otherwise with one that has been
declared and means its namespace. -/
theorem prefixed_eq_some {s : String} (h : b.prefixed q = some s) :
    (q.uri = b.defaultUri ∧ s = q.localName) ∨
      ∃ pfx uri, (pfx, uri) ∈ b.declared ∧ pfx ≠ "" ∧ q.uri ≠ "" ∧ b.lookup pfx = some q.uri ∧
        s = pfx ++ ":" ++ q.localName := by
  unfold prefixed at h
  by_cases hdefault : q.uri = b.defaultUri
  · rw [if_pos hdefault] at h
    exact Or.inl ⟨hdefault, (Option.some.inj h).symm⟩
  · rw [if_neg hdefault] at h
    by_cases huri : q.uri = ""
    · rw [if_pos (by simp [huri])] at h
      cases h
    · rw [if_neg (by simpa using huri)] at h
      obtain ⟨entry, hfind, hs⟩ := Option.map_eq_some_iff.mp h
      obtain ⟨pfx, uri⟩ := entry
      have hmem := List.mem_of_find?_eq_some hfind
      have hfits := List.find?_some hfind
      simp only [Bool.and_eq_true, Bool.not_eq_true', beq_iff_eq] at hfits
      refine Or.inr ⟨pfx, uri, hmem, ?_, huri, hfits.2, hs.symm⟩
      rintro rfl
      exact absurd hfits.1 (by decide)

theorem prefixed_ne_none_of_lookup (hne : pfx ≠ "") (hlookup : b.lookup pfx = some q.uri)
    (huri : q.uri ≠ "") : b.prefixed q ≠ none := by
  unfold prefixed
  by_cases hdefault : q.uri = b.defaultUri
  · rw [if_pos hdefault]
    exact Option.some_ne_none _
  · rw [if_neg hdefault, if_neg (by simpa using huri), Ne, Option.map_eq_none_iff,
      List.find?_eq_none]
    intro hall
    -- what a prefix means is written down somewhere in the frames
    obtain ⟨before, rest, heq, _⟩ := List.lookup_eq_some_iff.mp hlookup
    have hmem : (pfx, q.uri) ∈ b.declared := by
      rw [heq]
      simp
    refine hall (pfx, q.uri) hmem ?_
    simp [hlookup, hne]

/-- After any operations that bind plain prefixes, a plain name that can be written with a prefix is
read back as itself, and one that cannot be written is not what any text means. -/
theorem prefixed_resolves_back {ops : List Operation}
    (hops : ∀ pfx uri, .bind pfx uri ∈ ops → Text.Plain pfx) (hq : Text.Plain q.localName) :
    (∀ s, (after ops).prefixed q = some s → (after ops).resolve s = .ok q) ∧
      ((after ops).prefixed q = none → ∀ raw, (after ops).resolve raw ≠ .ok q) := by
  have hplain := plainPrefixes_after hops
  constructor
  · intro s hs
    rcases prefixed_eq_some hs with ⟨huri, rfl⟩ | ⟨pfx, uri, hmem, hne, huri, hlookup, rfl⟩
    · rw [resolve_plain hq, ← huri]
    · exact resolve_prefixed (hplain _ hmem) hne hq hlookup huri
  · intro hnone raw hraw
    rcases resolve_eq_ok hraw with hdefault | ⟨huri, pfx, hne, hlookup⟩
    · rw [prefixed, if_pos hdefault] at hnone
      cases hnone
    · exact prefixed_ne_none_of_lookup hne hlookup huri hnone

/-- The prefix `p` is bound again in an inner tag and means its first namespace again when that tag
is closed. Meanwhile no text means a name in that namespace. -/
theorem prefixed_resolves_back_shadowed :
    let inner : List Operation := [.bind "p" "urn:a", .push, .bind "p" "urn:b", .bind "" "urn:c"]
    (after inner).prefixed ⟨"urn:a", "x"⟩ = none ∧
      (∀ raw, (after inner).resolve raw ≠ .ok ⟨"urn:a", "x"⟩) ∧
      (after (inner ++ [.pop])).prefixed ⟨"urn:a", "x"⟩ = some "p:x" ∧
      (after (inner ++ [.pop])).resolve "p:x" = .ok ⟨"urn:a", "x"⟩ := by
  intro inner
  have hinner : ∀ pfx uri, .bind pfx uri ∈ inner ++ [.pop] → Text.Plain pfx := by
    intro pfx uri hmem
    simp only [inner, List.cons_append, List.nil_append, List.mem_cons, Operation.bind.injEq,
      reduceCtorEq, List.not_mem_nil, or_false, false_or] at hmem
    rcases hmem with ⟨rfl, _⟩ | ⟨rfl, _⟩ | ⟨rfl, _⟩ <;> decide +kernel
  have hnone : (after inner).prefixed ⟨"urn:a", "x"⟩ = none := by decide +kernel
  have hsome : (after (inner ++ [.pop])).prefixed ⟨"urn:a", "x"⟩ = some "p:x" := by decide +kernel
  refine ⟨hnone, ?_, hsome, ?_⟩
  · refine (prefixed_resolves_back (fun pfx uri hmem => ?_) (by decide +kernel)).2 hnone
    exact hinner pfx uri (List.mem_append_left _ hmem)
  · exact (prefixed_resolves_back hinner (by decide +kernel)).1 _ hsome

end Bindings

end XsdTypes
