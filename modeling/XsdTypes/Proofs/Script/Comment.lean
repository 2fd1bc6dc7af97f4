import Mathlib.Tactic
import XsdTypes.Script.Comment

/-!
# Comments end where they should

A comment goes up to the first end mark after its beginning, whatever else stands in it. Documentation
may be any text. The end marks in it are broken up before it is cut into lines, and lines are put
together again with margins and without the blanks at their ends. None of this makes an end mark out of
a star and a slash that were apart (`Endless`), so the mark that is written last is the only one.
-/

namespace XsdTypes

/-! ## Lines and blanks -/

namespace Chars

theorem infix_of_mem_linesFrom {run cs line : List Char} (h : line ∈ linesFrom run cs) :
    line <:+: run.reverse ++ cs := by
  induction cs generalizing run with
  | nil =>
    rw [linesFrom] at h
    split at h
    · cases h
    · rw [List.mem_singleton.mp h, List.append_nil]
  | cons c cs ih =>
    unfold linesFrom at h
    split at h
    · rcases List.mem_cons.mp h with rfl | hrest
      · split
        · rw [List.reverse_cons, List.append_assoc]
          exact (List.prefix_append _ _).isInfix
        · exact (List.prefix_append _ _).isInfix
      · refine (ih hrest).trans ?_
        exact ((List.suffix_cons c cs).trans (List.suffix_append _ _)).isInfix
    · have hline := ih h
      rwa [List.reverse_cons, List.append_assoc] at hline

/-- A line is a part of its text. -/
theorem infix_of_mem_lines {cs line : List Char} (h : line ∈ lines cs) : line <:+: cs :=
  infix_of_mem_linesFrom h

theorem isPrefix_trimEnd (cs : List Char) : trimEnd cs <+: cs := by
  have hsuffix := List.dropWhile_suffix (l := cs.reverse) isBlank
  rwa [← List.reverse_prefix, List.reverse_reverse] at hsuffix

end Chars

namespace Script

/-! ## Texts without an end mark -/

/-- The mark that ends a comment. -/
def endMark : List Char := ['*', '/']

/-- No star of the text is followed by a slash. -/
def Endless (cs : List Char) : Prop :=
  cs.IsChain fun a b => ¬ (a = '*' ∧ b = '/')

/-- Reads a comment behind tabs: what stands in it, up to the first end mark, and what comes after
it. -/
def blockComment? (cs : List Char) : Option (List Char × List Char) :=
  (Chars.strip ['/', '*'] (cs.dropWhile (· == '\t'))).bind (Chars.splitOnceAt endMark)

variable {cs ds line : List Char}

theorem Endless.part (h : Endless cs) (hpart : ds <:+: cs) : Endless ds :=
  List.IsChain.infix h hpart

theorem not_endless_endMark : ¬ Endless endMark :=
  fun h => (List.isChain_cons_cons.mp h).1 ⟨rfl, rfl⟩

theorem Endless.append (hcs : Endless cs) (hds : Endless ds)
    (hapart : cs.getLast? ≠ some '*' ∨ ds.head? ≠ some '/') : Endless (cs ++ ds) := by
  refine List.isChain_append.mpr ⟨hcs, hds, ?_⟩
  rintro a ha b hb ⟨rfl, rfl⟩
  exact hapart.elim (fun h => h ha) fun h => h hb

theorem endless_of_not_mem (h : '/' ∉ cs) : Endless cs := by
  induction cs with
  | nil => exact List.isChain_nil
  | cons c cs ih =>
    have hcs : '/' ∉ cs := List.not_mem_of_not_mem_cons h
    refine List.isChain_cons.mpr ⟨?_, ih hcs⟩
    rintro b hb ⟨_, rfl⟩
    exact hcs (List.mem_of_head? hb)

/-- What has no slash can stand behind any text. -/
theorem Endless.append_plain (hcs : Endless cs) (hds : '/' ∉ ds) : Endless (cs ++ ds) :=
  hcs.append (endless_of_not_mem hds) (Or.inr fun hhead => hds (List.mem_of_head? hhead))

/-- A star and a slash do not come together at the beginning of what is before an end mark. -/
theorem Endless.cons_ne {c : Char} (h : Endless (c :: cs)) (rest after : List Char) :
    endMark ++ after ≠ c :: (cs ++ endMark ++ rest) := by
  intro heq
  obtain ⟨rfl, htail⟩ := List.cons.inj heq
  cases cs with
  | nil => exact absurd (List.cons.inj htail).1 (by decide)
  | cons d cs => exact (List.isChain_cons_cons.mp h).1 ⟨rfl, (List.cons.inj htail).1.symm⟩

/-- A text is cut at the end mark behind a part that has none. -/
theorem Endless.splitOnceAt (h : Endless cs) (rest : List Char) :
    Chars.splitOnceAt endMark (cs ++ endMark ++ rest) = some (cs, rest) := by
  induction cs with
  | nil => rfl
  | cons c cs ih =>
    have hnone : endMark.isPrefixOf? (c :: (cs ++ endMark ++ rest)) = none := by
      rw [Option.eq_none_iff_forall_ne_some]
      intro after hafter
      exact h.cons_ne rest after (List.isPrefixOf?_eq_some_iff_append_eq.mp hafter)
    rw [List.cons_append, List.cons_append, Chars.splitOnceAt, hnone, ih h.tail]
    rfl

/-- There is no other end mark if there is none before it and none after it. -/
theorem Endless.eq_of_append (h : Endless cs) {rest before after : List Char}
    (hrest : Endless ('/' :: rest)) (heq : before ++ endMark ++ after = cs ++ endMark ++ rest) :
    after = rest := by
  induction cs generalizing before with
  | nil =>
    cases before with
    | nil => exact List.append_cancel_left heq
    | cons b before =>
      have htail : before ++ endMark ++ after = '/' :: rest := (List.cons.inj heq).2
      rw [← htail] at hrest
      exact absurd (hrest.part ⟨before, after, rfl⟩) not_endless_endMark
  | cons c cs ih =>
    cases before with
    | nil => exact absurd heq (h.cons_ne rest after)
    | cons b before => exact ih h.tail (List.cons.inj heq).2

/-! ## What is written -/

theorem head?_breakEndMarks (cs : List Char) : (breakEndMarks cs).head? = cs.head? := by
  fun_cases breakEndMarks cs <;> rfl

theorem endless_breakEndMarks (cs : List Char) : Endless (breakEndMarks cs) := by
  fun_induction breakEndMarks cs with
  | case1 cs ih =>
    refine List.isChain_cons_cons.mpr ⟨by decide, List.isChain_cons_cons.mpr ⟨by decide, ?_⟩⟩
    exact List.isChain_cons.mpr ⟨fun b _ hb => absurd hb.1 (by decide), ih⟩
  | case2 c cs hnot ih =>
    refine List.isChain_cons.mpr ⟨?_, ih⟩
    rw [head?_breakEndMarks]
    rintro b hb ⟨rfl, rfl⟩
    obtain ⟨rest, rfl⟩ := List.head?_eq_some_iff.mp hb
    exact hnot rest rfl rfl
  | case3 => exact List.isChain_nil

theorem slash_not_mem_tabs (indent : Nat) : '/' ∉ tabs indent :=
  fun hmem => absurd (List.eq_of_mem_replicate hmem) (by decide)

/-- A line keeps apart from its margin and from what comes after it. -/
theorem endless_margin (indent : Nat) (hline : Endless line) :
    Endless (Chars.trimEnd (tabs indent ++ " * ".toList ++ line) ++ ['\n']) := by
  have hmargin : Endless (tabs indent ++ " * ".toList) :=
    (endless_of_not_mem (slash_not_mem_tabs indent)).append_plain (by decide)
  have hwhole : Endless (tabs indent ++ " * ".toList ++ line) :=
    hmargin.append hline (Or.inl (by simp))
  exact (hwhole.part (Chars.isPrefix_trimEnd _).isInfix).append_plain (by decide)

theorem endless_margins (indent : Nat) {lines : List (List Char)} (h : ∀ line ∈ lines, Endless line) :
    Endless (lines.flatMap fun line =>
      Chars.trimEnd (tabs indent ++ " * ".toList ++ line) ++ ['\n']) := by
  induction lines with
  | nil => exact List.isChain_nil
  | cons line lines ih =>
    obtain ⟨hline, hlines⟩ := List.forall_mem_cons.mp h
    rw [List.flatMap_cons]
    exact (endless_margin indent hline).append (ih hlines) (Or.inl (by simp))

/-- A comment has an end mark at its end and none before. -/
theorem block_eq (indent : Nat) (text : List Char) :
    ∃ body, block indent text = tabs indent ++ ['/', '*', '*'] ++ body ++ endMark ++ ['\n'] ∧
      Endless (tabs indent ++ ['/', '*', '*'] ++ body) := by
  have hlines : ∀ line ∈ Chars.lines (breakEndMarks text), Endless line := fun line hline =>
    (endless_breakEndMarks text).part (Chars.infix_of_mem_lines hline)
  have hopen : Endless (tabs indent ++ ['/', '*', '*']) := by
    have htabs : Endless (tabs indent) := endless_of_not_mem (slash_not_mem_tabs indent)
    refine htabs.append (by simp [Endless]) (Or.inl fun hlast => ?_)
    exact absurd (List.eq_of_mem_replicate (List.mem_of_getLast? hlast)) (by decide)
  unfold block
  split
  · rename_i line hline
    have hline : Endless line := hlines line (by rw [hline]; exact List.mem_cons_self)
    have hbody : Endless (tabs indent ++ ['/', '*', '*'] ++ [' '] ++ line ++ [' ']) :=
      ((hopen.append_plain (by decide)).append hline (Or.inl (by simp))).append_plain (by decide)
    exact ⟨' ' :: (line ++ [' ']), by simp [endMark], by simpa using hbody⟩
  · set margins := (Chars.lines (breakEndMarks text)).flatMap fun line =>
      Chars.trimEnd (tabs indent ++ " * ".toList ++ line) ++ ['\n'] with hmargins
    have hfirst : Endless (tabs indent ++ ['/', '*', '*'] ++ ['\n']) := hopen.append_plain (by decide)
    have hinner : Endless (tabs indent ++ ['/', '*', '*'] ++ ['\n'] ++ margins) :=
      hfirst.append (endless_margins indent hlines) (Or.inl (by simp))
    have hbody : Endless (tabs indent ++ ['/', '*', '*'] ++ ['\n'] ++ margins ++ tabs indent ++ [' ']) :=
      (hinner.append_plain (slash_not_mem_tabs indent)).append_plain (by decide)
    exact ⟨'\n' :: (margins ++ tabs indent ++ [' ']), by simp [endMark], by simpa using hbody⟩

/-- A comment is read as far as its last end mark. -/
theorem blockComment?_eq {indent : Nat} {body : List Char}
    (h : Endless (tabs indent ++ ['/', '*', '*'] ++ body)) (rest : List Char) :
    blockComment? (tabs indent ++ ['/', '*', '*'] ++ body ++ endMark ++ rest) =
      some ('*' :: body, rest) := by
  have hinside : Endless ('*' :: body) := h.part ⟨tabs indent ++ ['/', '*'], [], by simp⟩
  have hindent : (tabs indent ++ ['/', '*', '*'] ++ body ++ endMark ++ rest).dropWhile (· == '\t') =
      ['/', '*'] ++ ('*' :: body ++ endMark ++ rest) := by
    rw [List.append_assoc, List.append_assoc, List.append_assoc, List.dropWhile_append_of_pos]
    · simp
    · intro c hc
      rw [List.eq_of_mem_replicate hc]
      rfl
  rw [blockComment?, hindent, Chars.strip, List.isPrefixOf?_eq_some_iff_append_eq.mpr rfl,
    Option.bind_some, hinside.splitOnceAt]

/-- For every documentation, either nothing is written, and this if and only if it is blank, or a text
that begins with the mark of a comment behind tabs, ends with an end mark and the end of the line, and
has no other end mark. So whatever comes after it, what is read as a comment there is all of it. -/
theorem comment_closes (indent : Nat) (text : String) :
    (Text.isBlank text = true ∧ comment indent (some text) = "") ∨
    (Text.isBlank text = false ∧ ∃ body,
      (comment indent (some text)).toList =
        tabs indent ++ ['/', '*', '*'] ++ body ++ endMark ++ ['\n'] ∧
      (∀ before after, before ++ endMark ++ after = (comment indent (some text)).toList →
        after = ['\n']) ∧
      ∀ rest, blockComment? ((comment indent (some text)).toList ++ rest) =
        some ('*' :: body, '\n' :: rest)) := by
  cases hblank : Text.isBlank text with
  | true => exact Or.inl ⟨rfl, by rw [comment, hblank, if_pos rfl]⟩
  | false =>
    obtain ⟨body, hblock, hendless⟩ := block_eq indent text.toList
    have hcomment : (comment indent (some text)).toList =
        tabs indent ++ ['/', '*', '*'] ++ body ++ endMark ++ ['\n'] := by
      rw [comment, hblank, if_neg Bool.false_ne_true, String.toList_ofList, hblock]
    refine Or.inr ⟨rfl, body, hcomment, fun before after heq => ?_, fun rest => ?_⟩
    · rw [hcomment] at heq
      exact hendless.eq_of_append (by simp [Endless]) heq
    · rw [hcomment, List.append_assoc]
      exact blockComment?_eq hendless ('\n' :: rest)

example : comment 1 (some "First line\nSecond */ line") =
    "\t/**\n\t * First line\n\t * Second *\\/ line\n\t */\n" := by decide +kernel

end Script

end XsdTypes
