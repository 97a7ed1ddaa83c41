import InOrder.Program.Text
import Mathlib.Data.List.TakeWhile

/-!
# Texts and their lines

How a text is laid out in lines, and a line around what it holds, said by putting together instead
of by cutting.

* `Text.lines_eq_iff`: `Text.Laid ls text` says that the lines `ls`, each with its end, make up the
  text; `Text.lines` finds just them.
* `Program.content_eq_iff`: `Program.Holds line core` says that nothing but white space is around
  `core` in the line, and a comment behind; `Program.content` finds the core that has no white
  space at its ends and no comment in it.
-/

namespace InOrder

/-! ## Lines of a text -/

namespace Text

/-- Lines, each with its end, make up a text. The end is a line feed, alone or after a carriage
return; the last line may have none. -/
inductive Laid : List (List Char) → List Char → Prop
  | nil : Laid [] []
  | last (l : List Char) (hne : l ≠ []) (hl : '\n' ∉ l) : Laid [l] l
  | feed (l : List Char) (ls : List (List Char)) (text : List Char) (hl : '\n' ∉ l)
      (hreturn : l.getLast? ≠ some '\r') (h : Laid ls text) : Laid (l :: ls) (l ++ '\n' :: text)
  | returned (l : List Char) (ls : List (List Char)) (text : List Char) (hl : '\n' ∉ l)
      (h : Laid ls text) : Laid (l :: ls) (l ++ '\r' :: '\n' :: text)

/-- What is before the first line feed is held. -/
theorem linesFrom_append {l : List Char} (hl : '\n' ∉ l) (held text : List Char) :
    linesFrom held (l ++ text) = linesFrom (l.reverse ++ held) text := by
  induction l generalizing held with
  | nil => rfl
  | cons c l ih =>
    obtain ⟨hc, hl⟩ : '\n' ≠ c ∧ '\n' ∉ l := by simpa using hl
    rw [List.cons_append, linesFrom, if_neg (Ne.symm hc), ih hl]
    simp

theorem lines_feed {l : List Char} (hl : '\n' ∉ l) (text : List Char) :
    lines (l ++ '\n' :: text) = closeLine l.reverse :: lines text := by
  rw [lines, linesFrom_append hl, List.append_nil, linesFrom, if_pos rfl, lines]

/-- A carriage return at the end of a line is taken off. -/
theorem closeLine_reverse (l : List Char) :
    (l.getLast? ≠ some '\r' ∧ closeLine l.reverse = l) ∨
      l = closeLine l.reverse ++ ['\r'] := by
  rcases List.eq_nil_or_concat l with rfl | ⟨l, c, rfl⟩
  · exact .inl ⟨by simp, rfl⟩
  · by_cases hc : c = '\r'
    · refine .inr ?_
      subst hc
      simp [closeLine]
    · refine .inl ⟨by simp [hc], ?_⟩
      rw [List.concat_eq_append, List.reverse_append, List.reverse_singleton, List.singleton_append,
        closeLine]
      · simp
      · exact fun rest h => hc (List.cons.inj h).1

theorem Laid.lines_eq {ls : List (List Char)} {text : List Char} (h : Laid ls text) :
    lines text = ls := by
  induction h with
  | nil => rfl
  | last l hne hl =>
    have hfrom := linesFrom_append hl [] []
    rw [List.append_nil, List.append_nil] at hfrom
    rw [lines, hfrom, linesFrom]
    simp [hne]
  | feed l ls text hl hreturn h ih =>
    rw [lines_feed hl, ih]
    rcases closeLine_reverse l with ⟨-, hclose⟩ | hclose
    · rw [hclose]
    · exact absurd (hclose ▸ List.getLast?_concat) hreturn
  | returned l ls text hl h ih =>
    have hreturned : '\n' ∉ l ++ ['\r'] := by simp [hl]
    have happend : l ++ '\r' :: '\n' :: text = (l ++ ['\r']) ++ '\n' :: text := by simp
    rw [happend, lines_feed hreturned, ih]
    simp [closeLine]

theorem laid_lines (text : List Char) : Laid (lines text) text := by
  by_cases hmem : '\n' ∈ text
  · obtain ⟨l, rest, rfl, hl⟩ := List.eq_append_cons_of_mem hmem
    have hrest := laid_lines rest
    rw [lines_feed hl]
    rcases closeLine_reverse l with ⟨hreturn, hclose⟩ | hclose
    · rw [hclose]
      exact .feed l _ rest hl hreturn hrest
    · have hshort : '\n' ∉ closeLine l.reverse := fun h =>
        hl (hclose ▸ List.mem_append_left _ h)
      have hlaid := Laid.returned _ _ rest hshort hrest
      rwa [← List.singleton_append (l := '\n' :: rest), ← List.append_assoc, ← hclose] at hlaid
  · by_cases hne : text = []
    · subst hne
      exact .nil
    · have hlaid := Laid.last text hne hmem
      rwa [hlaid.lines_eq]
termination_by text.length
decreasing_by
  subst_vars
  simp
  omega

/-- **The lines of a text are those that make it up.** -/
theorem lines_eq_iff {ls : List (List Char)} {text : List Char} : lines text = ls ↔ Laid ls text :=
  ⟨fun h => h ▸ laid_lines text, Laid.lines_eq⟩

/-! ## White space at the ends -/

/-- White space, and nothing else. -/
def Blank (cs : List Char) : Prop := ∀ c ∈ cs, isBlank c = true

theorem blank_nil : Blank [] := fun _ hc => absurd hc List.not_mem_nil

/-- No white space at either end. -/
structure Trimmed (cs : List Char) : Prop where
  first : ∀ c, cs.head? = some c → isBlank c = false
  last : ∀ c, cs.getLast? = some c → isBlank c = false

theorem Trimmed.of_forall {cs : List Char} (h : ∀ c ∈ cs, isBlank c = false) : Trimmed cs :=
  ⟨fun c hc => h c (List.mem_of_head? hc), fun c hc => h c (List.mem_of_getLast? hc)⟩

theorem trim_append {left core right : List Char} (hleft : Blank left) (hright : Blank right)
    (hcore : Trimmed core) : trim (left ++ core ++ right) = core := by
  have hnone : right.dropWhile isBlank = [] := List.dropWhile_eq_nil_iff.mpr hright
  cases hc : core with
  | nil => rw [List.append_nil, trim, trimStart, List.dropWhile_append_of_pos hleft, hnone]; rfl
  | cons c rest =>
    have hfirst : isBlank c = false := hcore.first c (by rw [hc]; rfl)
    have hreverse : core.reverse.dropWhile isBlank = core.reverse := by
      cases hr : core.reverse with
      | nil => rfl
      | cons d back =>
        have hlast : isBlank d = false := hcore.last d (by
          rw [← List.head?_reverse, hr]
          rfl)
        exact List.dropWhile_cons_of_neg (by simp [hlast])
    rw [trim, trimStart, List.append_assoc, List.dropWhile_append_of_pos hleft, List.cons_append,
      List.dropWhile_cons_of_neg (by simp [hfirst]), ← List.cons_append, ← hc, trimEnd,
      List.reverse_append, List.dropWhile_append_of_pos (fun d hd => hright d (by simpa using hd)),
      hreverse, List.reverse_reverse]

/-- The first character of what is left is one that is not dropped. -/
theorem isBlank_head_dropWhile {cs : List Char} {c : Char}
    (h : (cs.dropWhile isBlank).head? = some c) : isBlank c = false := by
  have hhead := List.head?_dropWhile_not isBlank cs
  rw [h] at hhead
  simpa using hhead

theorem trimmed_trim (cs : List Char) :
    Trimmed (trim cs) ∧ ∃ left right, cs = left ++ trim cs ++ right ∧ Blank left ∧ Blank right := by
  have hsplit : cs = cs.takeWhile isBlank ++ trimStart cs := List.takeWhile_append_dropWhile.symm
  have hend : trimStart cs = trim cs ++ ((trimStart cs).reverse.takeWhile isBlank).reverse := by
    have hreverse := congrArg List.reverse
      (List.takeWhile_append_dropWhile (p := isBlank) (l := (trimStart cs).reverse))
    rw [List.reverse_append, List.reverse_reverse] at hreverse
    exact hreverse.symm
  refine ⟨⟨fun c hc => ?_, fun c hc => ?_⟩, cs.takeWhile isBlank,
    ((trimStart cs).reverse.takeWhile isBlank).reverse, ?_, ?_, ?_⟩
  · have hfirst : (trimStart cs).head? = some c := by
      rw [hend, List.head?_append, hc]
      rfl
    exact isBlank_head_dropWhile hfirst
  · have hlast : ((trimStart cs).reverse.dropWhile isBlank).head? = some c := by
      rw [← hc, trim, trimEnd, List.getLast?_reverse]
    exact isBlank_head_dropWhile hlast
  · rw [List.append_assoc, ← hend]
    exact hsplit
  · exact fun c hc => List.all_eq_true.mp List.all_takeWhile c hc
  · intro c hc
    exact List.all_eq_true.mp List.all_takeWhile c (List.mem_reverse.mp hc)

end Text

/-! ## What a line holds -/

namespace Program

/-- In the line, nothing but white space is around `core`, and a comment behind. -/
def Holds (line core : List Char) : Prop :=
  ∃ left right comment, line = left ++ core ++ right ++ comment ∧ Text.Blank left ∧
    Text.Blank right ∧ (comment = [] ∨ comment.head? = some '#')

/-- White space is no mark of a comment. -/
theorem mark_not_mem_of_blank {cs : List Char} (h : Text.Blank cs) : '#' ∉ cs :=
  fun hmem => absurd (h _ hmem) (by decide)

theorem content_of_holds {line core : List Char} (h : Holds line core) (htrim : Text.Trimmed core)
    (hmark : '#' ∉ core) : content line = core := by
  obtain ⟨left, right, comment, rfl, hleft, hright, hcomment⟩ := h
  have hbefore : ∀ c ∈ left ++ core ++ right, (c != '#') = true := by
    intro c hc
    rw [bne_iff_ne]
    rintro rfl
    rcases List.mem_append.mp hc with hc | hc
    · rcases List.mem_append.mp hc with hc | hc
      · exact mark_not_mem_of_blank hleft hc
      · exact hmark hc
    · exact mark_not_mem_of_blank hright hc
  have hbehind : comment.takeWhile (· != '#') = [] := by
    cases comment with
    | nil => rfl
    | cons c rest =>
      obtain rfl : c = '#' := by simpa using hcomment
      rfl
  rw [content, List.takeWhile_append_of_pos hbefore, hbehind, List.append_nil,
    Text.trim_append hleft hright htrim]

theorem holds_content (line : List Char) :
    Holds line (content line) ∧ Text.Trimmed (content line) ∧ '#' ∉ content line := by
  obtain ⟨htrim, left, right, hsplit, hleft, hright⟩ :=
    Text.trimmed_trim (line.takeWhile (· != '#'))
  have hmark : '#' ∉ line.takeWhile (· != '#') := fun h =>
    absurd (List.all_eq_true.mp List.all_takeWhile '#' h) (by decide)
  refine ⟨⟨left, right, line.dropWhile (· != '#'), ?_, hleft, hright, ?_⟩, htrim, fun h => ?_⟩
  · rw [content, ← hsplit, List.takeWhile_append_dropWhile]
  · have hhead := List.head?_dropWhile_not (· != '#') line
    cases hrest : line.dropWhile (· != '#') with
    | nil => exact .inl rfl
    | cons c rest =>
      rw [hrest] at hhead
      exact .inr (by simpa using hhead)
  · rw [hsplit] at hmark
    exact hmark (List.mem_append_left _ (List.mem_append_right _ h))

/-- **The content of a line is what it holds** without white space at the ends and comments. -/
theorem content_eq_iff {line core : List Char} :
    content line = core ↔ Holds line core ∧ Text.Trimmed core ∧ '#' ∉ core := by
  constructor
  · rintro rfl
    exact holds_content line
  · rintro ⟨h, htrim, hmark⟩
    exact content_of_holds h htrim hmark

end Program

end InOrder
