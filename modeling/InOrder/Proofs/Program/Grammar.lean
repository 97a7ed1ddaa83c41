import InOrder.Proofs.Program.Lines
import InOrder.Proofs.Program.Numerals

/-!
# The grammar of programs

What a program text may look like, said without the reader. `Program.Says` are the three forms of a
line, `Program.Written` is a text whose lines have these forms, the base addresses before the
words, and `Program.Refused` names the first line that breaks a rule, with the rule.

The reader takes a plus sign before the digits of a number, which is not documented. So the forms
have a parameter that allows it.

* `Program.texts_exact`: the reader gives the image of exactly the texts that are written with the
  sign allowed, and names the line and the rule for all others.
* `Program.not_written_without_sign`: it does take a text that is not written without the sign.
-/

namespace InOrder

/-! ## Lines -/

namespace Program

open Hex (Numeral)

/-- The first character of a line that is no white space is `c`. -/
def Opens (line : List Char) (c : Char) : Prop :=
  ∃ left rest, line = left ++ c :: rest ∧ Text.Blank left

/-- What a line says: nothing, a base address behind its mark, or a word. -/
def Says (plus : Bool) (line : List Char) : Entry → Prop
  | .nothing => Holds line []
  | .base b => ∃ gap num, Holds line ('@' :: gap ++ num) ∧ Text.Blank gap ∧ Numeral plus num b.toNat
  | .word w => ∃ num, Holds line num ∧ Numeral plus num w.toNat

/-- The base address in an entry. -/
def Entry.base? : Entry → Option UInt64
  | .base b => some b
  | _ => none

/-- The word in an entry. -/
def Entry.word? : Entry → Option UInt32
  | .word w => some w
  | _ => none

/-- The rule that a line breaks. A base address is late when a word came before it. -/
def Faulty (plus started : Bool) (line : List Char) : Cause → Prop
  | .lateBase => Opens line '@' ∧ started = true
  | .badBase => Opens line '@' ∧ started = false ∧ ∀ b, ¬ Says plus line (.base b)
  | .badWord => ¬ Opens line '@' ∧ ¬ Says plus line .nothing ∧ ∀ w, ¬ Says plus line (.word w)
  | .brokenWord => False

theorem number?_eq_some_iff {bits : Nat} {cs : List Char} {n : Nat} :
    number? bits cs = some n ↔ n < 2 ^ bits ∧ Numeral true (Text.trim cs) n := by
  have hread : Hex.read? (stripMark cs) = some n ↔ Numeral true (Text.trim cs) n := by
    unfold stripMark
    split
    · rename_i r heq
      rw [heq, Hex.numeral_marked_iff (.inl rfl)]
    · rename_i r heq
      rw [heq, Hex.numeral_marked_iff (.inr rfl)]
    · rename_i hx hX
      exact (Hex.numeral_unmarked_iff hx hX).symm
  rw [number?, ← hread]
  cases Hex.read? (stripMark cs) with
  | none => simp
  | some k =>
    show (if k < 2 ^ bits then some k else none) = some n ↔ n < 2 ^ bits ∧ some k = some n
    by_cases hlt : k < 2 ^ bits
    · rw [if_pos hlt, Option.some.injEq]
      exact ⟨fun h => ⟨h ▸ hlt, h⟩, And.right⟩
    · rw [if_neg hlt]
      simp only [reduceCtorEq, Option.some.injEq, false_iff, not_and]
      rintro hn rfl
      exact hlt hn

variable {line : List Char}

/-- White space around what a line holds may be counted to the white space of the line. -/
theorem Holds.inner {left core right : List Char} (h : Holds line (left ++ core ++ right))
    (hleft : Text.Blank left) (hright : Text.Blank right) : Holds line core := by
  obtain ⟨before, behind, comment, rfl, hbefore, hbehind, hcomment⟩ := h
  refine ⟨before ++ left, right ++ behind, comment, by simp, ?_, ?_, hcomment⟩
  · exact fun c hc => (List.mem_append.mp hc).elim (hbefore c) (hleft c)
  · exact fun c hc => (List.mem_append.mp hc).elim (hright c) (hbehind c)

/-- The first character that is no white space is that of the content, if it has one, and else that
of the comment. -/
theorem head?_dropWhile_blank (line : List Char) :
    (line.dropWhile Text.isBlank).head? = (content line).head? ∨
      content line = [] ∧ (line.dropWhile Text.isBlank).head? = some '#' := by
  obtain ⟨⟨left, right, comment, hline, hleft, hright, hcomment⟩, htrim, -⟩ := holds_content line
  generalize content line = core at hline htrim
  subst hline
  rw [List.append_assoc, List.append_assoc, List.dropWhile_append_of_pos hleft]
  cases core with
  | cons c rest =>
    have hfirst : Text.isBlank c = false := htrim.first c rfl
    rw [List.cons_append, List.dropWhile_cons_of_neg (by simp [hfirst])]
    exact .inl rfl
  | nil =>
    rw [List.nil_append, List.dropWhile_append_of_pos hright]
    cases comment with
    | nil => exact .inl rfl
    | cons c rest =>
      obtain rfl : c = '#' := by simpa using hcomment
      exact .inr ⟨rfl, rfl⟩

theorem opens_base_iff : Opens line '@' ↔ (content line).head? = some '@' := by
  have hopens : Opens line '@' ↔ (line.dropWhile Text.isBlank).head? = some '@' := by
    constructor
    · rintro ⟨left, rest, rfl, hleft⟩
      rw [List.dropWhile_append_of_pos hleft]
      rfl
    · intro h
      obtain ⟨rest, hrest⟩ := List.head?_eq_some_iff.mp h
      refine ⟨line.takeWhile Text.isBlank, rest, ?_, ?_⟩
      · rw [← hrest, List.takeWhile_append_dropWhile]
      · exact fun c hc => List.all_eq_true.mp List.all_takeWhile c hc
  rw [hopens]
  rcases head?_dropWhile_blank line with h | ⟨hnone, h⟩
  · rw [h]
  · rw [h, hnone]
    decide

theorem says_nothing_iff {plus : Bool} : Says plus line .nothing ↔ content line = [] := by
  have hnil : Text.Trimmed [] := .of_forall (by simp)
  constructor
  · exact fun h => content_eq_iff.mpr ⟨h, hnil, List.not_mem_nil⟩
  · exact fun h => (content_eq_iff.mp h).1

theorem content_of_base {plus : Bool} {gap num : List Char} {n : Nat}
    (h : Holds line ('@' :: gap ++ num)) (hgap : Text.Blank gap) (hnum : Numeral plus num n) :
    content line = '@' :: gap ++ num := by
  refine content_eq_iff.mpr ⟨h, ⟨fun c hc => ?_, fun c hc => ?_⟩, fun hmem => ?_⟩
  · rw [← Option.some.inj hc]
    decide
  · rw [List.getLast?_append_of_ne_nil _ hnum.ne_nil] at hc
    exact (hnum.plain (List.mem_of_getLast? hc)).1
  · rcases List.mem_append.mp hmem with hmem | hmem
    · rcases List.mem_cons.mp hmem with hmem | hmem
      · exact absurd hmem (by decide)
      · exact mark_not_mem_of_blank hgap hmem
    · exact (hnum.plain hmem).2.1 rfl

theorem content_of_word {plus : Bool} {num : List Char} {n : Nat} (h : Holds line num)
    (hnum : Numeral plus num n) : content line = num :=
  content_eq_iff.mpr
    ⟨h, .of_forall fun _ hc => (hnum.plain hc).1, fun hmem => (hnum.plain hmem).2.1 rfl⟩

theorem trim_numeral {plus : Bool} {gap num : List Char} {n : Nat} (hgap : Text.Blank gap)
    (hnum : Numeral plus num n) : Text.trim (gap ++ num) = num := by
  have htrim : Text.trim (gap ++ num ++ []) = num := Text.trim_append hgap Text.blank_nil
    (.of_forall fun c hc => (hnum.plain hc).1)
  rwa [List.append_nil] at htrim

theorem says_base_iff {b : UInt64} : Says true line (.base b) ↔
    ∃ addr, content line = '@' :: addr ∧ number? 64 addr = some b.toNat := by
  constructor
  · rintro ⟨gap, num, hline, hgap, hnum⟩
    refine ⟨gap ++ num, content_of_base hline hgap hnum, ?_⟩
    exact number?_eq_some_iff.mpr ⟨b.toNat_lt, (trim_numeral hgap hnum).symm ▸ hnum⟩
  · rintro ⟨addr, hcontent, hread⟩
    obtain ⟨-, hnum⟩ := number?_eq_some_iff.mp hread
    obtain ⟨-, left, right, haddr, hleft, hright⟩ := Text.trimmed_trim addr
    have hline : Holds line ([] ++ ('@' :: left ++ Text.trim addr) ++ right) := by
      have hline := (holds_content line).1
      rw [hcontent, haddr] at hline
      simpa using hline
    exact ⟨left, Text.trim addr, hline.inner Text.blank_nil hright, hleft, hnum⟩

theorem says_word_iff {w : UInt32} : Says true line (.word w) ↔
    (content line).head? ≠ some '@' ∧ number? 32 (content line) = some w.toNat := by
  constructor
  · rintro ⟨num, hline, hnum⟩
    have htrim : Text.trim ([] ++ num) = num := trim_numeral Text.blank_nil hnum
    rw [content_of_word hline hnum]
    refine ⟨fun h => (hnum.plain (List.mem_of_head? h)).2.2 rfl, ?_⟩
    exact number?_eq_some_iff.mpr ⟨w.toNat_lt, htrim.symm ▸ hnum⟩
  · rintro ⟨-, hread⟩
    obtain ⟨-, hnum⟩ := number?_eq_some_iff.mp hread
    obtain ⟨-, left, right, hcontent, hleft, hright⟩ := Text.trimmed_trim (content line)
    have hline := (holds_content line).1
    rw [hcontent] at hline
    exact ⟨_, hline.inner hleft hright, hnum⟩

/-- A line says the same without the sign allowed, if there is none. -/
theorem says_false_iff {e : Entry} :
    Says false line e ↔ Says true line e ∧ '+' ∉ content line := by
  cases e with
  | nothing =>
    rw [says_nothing_iff, says_nothing_iff]
    exact ⟨fun h => ⟨h, by simp [h]⟩, And.left⟩
  | base b =>
    -- there is no sign in the white space behind the mark
    have hgap : ∀ {gap num : List Char}, Text.Blank gap →
        ('+' ∉ '@' :: gap ++ num ↔ '+' ∉ num) := by
      intro gap num hgap
      have hblank : '+' ∉ gap := fun hmem => absurd (hgap _ hmem) (by decide)
      simp [hblank]
    constructor
    · rintro ⟨gap, num, hline, hblank, hnum⟩
      obtain ⟨htrue, hno⟩ := Hex.numeral_false_iff.mp hnum
      refine ⟨⟨gap, num, hline, hblank, htrue⟩, ?_⟩
      rwa [content_of_base hline hblank hnum, hgap hblank]
    · rintro ⟨⟨gap, num, hline, hblank, hnum⟩, hno⟩
      rw [content_of_base hline hblank hnum, hgap hblank] at hno
      exact ⟨gap, num, hline, hblank, Hex.numeral_false_iff.mpr ⟨hnum, hno⟩⟩
  | word w =>
    constructor
    · rintro ⟨num, hline, hnum⟩
      obtain ⟨htrue, hno⟩ := Hex.numeral_false_iff.mp hnum
      exact ⟨⟨num, hline, htrue⟩, by rwa [content_of_word hline hnum]⟩
    · rintro ⟨⟨num, hline, hnum⟩, hno⟩
      rw [content_of_word hline hnum] at hno
      exact ⟨num, hline, Hex.numeral_false_iff.mpr ⟨hnum, hno⟩⟩

/-! ### What is read off a line -/

theorem entry_of_nil {started : Bool} (h : content line = []) :
    entry started line = .ok .nothing := by
  rw [entry, h]

theorem entry_of_base {started : Bool} {addr : List Char} (h : content line = '@' :: addr) :
    entry started line =
      if started then .error .lateBase
      else match number? 64 addr with
        | some n => .ok (.base (UInt64.ofNat n))
        | none => .error .badBase := by
  rw [entry, h]
  rfl

theorem entry_of_word {started : Bool} (hne : content line ≠ [])
    (hbase : (content line).head? ≠ some '@') :
    entry started line =
      match number? 32 (content line) with
        | some n => .ok (.word (UInt32.ofNat n))
        | none => .error .badWord := by
  unfold entry
  split
  · rename_i h
    exact absurd h hne
  · rename_i addr h
    exact absurd (by rw [h]; rfl) hbase
  · rfl

theorem says_base_of_number? {addr : List Char} {n : Nat} (h : content line = '@' :: addr)
    (hn : number? 64 addr = some n) : Says true line (.base (UInt64.ofNat n)) := by
  refine says_base_iff.mpr ⟨addr, h, ?_⟩
  rw [hn, UInt64.toNat_ofNat_of_lt' (number?_eq_some_iff.mp hn).1]

theorem says_word_of_number? {n : Nat} (h : (content line).head? ≠ some '@')
    (hn : number? 32 (content line) = some n) : Says true line (.word (UInt32.ofNat n)) := by
  refine says_word_iff.mpr ⟨h, ?_⟩
  rw [hn, UInt32.toNat_ofNat_of_lt' (number?_eq_some_iff.mp hn).1]

/-- **What is read off a line is what it says**, unless that is a base address after a word. -/
theorem entry_eq_ok_iff {started : Bool} {e : Entry} : entry started line = .ok e ↔
    Says true line e ∧ (started = true → e.base? = none) := by
  constructor
  · intro h
    by_cases hnil : content line = []
    · rw [entry_of_nil hnil] at h
      cases h
      exact ⟨says_nothing_iff.mpr hnil, fun _ => rfl⟩
    by_cases hbase : (content line).head? = some '@'
    · obtain ⟨addr, haddr⟩ := List.head?_eq_some_iff.mp hbase
      rw [entry_of_base haddr] at h
      split at h
      · cases h
      · split at h <;> cases h
        rename_i hstarted _ n hn
        exact ⟨says_base_of_number? haddr hn, fun hs => absurd hs hstarted⟩
    · rw [entry_of_word hnil hbase] at h
      split at h <;> cases h
      rename_i n hn
      exact ⟨says_word_of_number? hbase hn, fun _ => rfl⟩
  · rintro ⟨hsaid, hfirst⟩
    cases e with
    | nothing => exact entry_of_nil (says_nothing_iff.mp hsaid)
    | base b =>
      obtain ⟨addr, haddr, hread⟩ := says_base_iff.mp hsaid
      have hstarted : started = false := by simpa [Entry.base?] using hfirst
      rw [entry_of_base haddr, hstarted, hread]
      exact congrArg (fun b => Except.ok (Entry.base b)) UInt64.ofNat_toNat
    | word w =>
      obtain ⟨hbase, hread⟩ := says_word_iff.mp hsaid
      have hnil : content line ≠ [] := by
        intro hnil
        rw [hnil] at hread
        cases hread
      rw [entry_of_word hnil hbase, hread]
      exact congrArg (fun w => Except.ok (Entry.word w)) UInt32.ofNat_toNat

/-- **A line is refused for the rule that it breaks.** -/
theorem entry_eq_error_iff {started : Bool} {cause : Cause} : entry started line = .error cause ↔
    Faulty true started line cause := by
  by_cases hbase : (content line).head? = some '@'
  · have hopens : Opens line '@' := opens_base_iff.mpr hbase
    obtain ⟨addr, haddr⟩ := List.head?_eq_some_iff.mp hbase
    have hsaid : (∀ b, ¬ Says true line (.base b)) ↔ number? 64 addr = none := by
      constructor
      · exact fun h => Option.eq_none_iff_forall_ne_some.mpr
          fun n hn => h _ (says_base_of_number? haddr hn)
      · intro hnone b hb
        obtain ⟨addr', haddr', hread⟩ := says_base_iff.mp hb
        rw [haddr, List.cons.injEq] at haddr'
        rw [← haddr'.2, hnone] at hread
        cases hread
    rw [entry_of_base haddr]
    cases started with
    | true => cases cause <;> simp [Faulty, hopens]
    | false =>
      cases hn : number? 64 addr <;> cases cause <;> simp [Faulty, hopens, hsaid, hn]
  · have hopens : ¬ Opens line '@' := fun h => hbase (opens_base_iff.mp h)
    by_cases hnil : content line = []
    · have hsaid : Says true line .nothing := says_nothing_iff.mpr hnil
      rw [entry_of_nil hnil]
      cases cause <;> simp [Faulty, hopens, hsaid]
    · have hnothing : ¬ Says true line .nothing := fun h => hnil (says_nothing_iff.mp h)
      have hsaid : (∀ w, ¬ Says true line (.word w)) ↔ number? 32 (content line) = none := by
        constructor
        · exact fun h => Option.eq_none_iff_forall_ne_some.mpr
            fun n hn => h _ (says_word_of_number? hbase hn)
        · intro hnone w hw
          rw [(says_word_iff.mp hw).2] at hnone
          cases hnone
      rw [entry_of_word hnil hbase]
      cases hn : number? 32 (content line) <;> cases cause <;>
        simp [Faulty, hopens, hnothing, hsaid, hn]

/-! ## Texts -/

/-- No base address comes after a word. -/
def BasesFirst (es : List Entry) : Prop :=
  es.Pairwise fun e e' => e.word? = none ∨ e'.base? = none

/-- The words of some entries. -/
def words (es : List Entry) : List UInt32 := es.filterMap Entry.word?

/-- The last base address of some entries, or else `base`. -/
def lastBase (base : UInt64) (es : List Entry) : UInt64 := (es.filterMap Entry.base?).getLast?.getD base

/-- A text is written as a program with an image. -/
def Written (plus : Bool) (text : List Char) (image : Image) : Prop :=
  ∃ ls es, Text.Laid ls text ∧ List.Forall₂ (Says plus) ls es ∧ BasesFirst es ∧
    image = .ofWords (lastBase defaultBase es) (words es)

/-- A line of a text is the first that breaks a rule. -/
def Refused (plus : Bool) (text : List Char) (e : LineError) : Prop :=
  ∃ before after es, Text.Laid (before ++ e.text :: after) text ∧
    List.Forall₂ (Says plus) before es ∧ BasesFirst es ∧ e.line = before.length + 1 ∧
    Faulty plus (!(words es).isEmpty) e.text e.cause

theorem words_cons (e : Entry) (es : List Entry) :
    words (e :: es) = e.word?.toList ++ words es := by
  unfold words
  cases h : e.word? with
  | none => rw [List.filterMap_cons_none h]; rfl
  | some w => rw [List.filterMap_cons_some h]; rfl

theorem lastBase_cons (base : UInt64) (e : Entry) (es : List Entry) :
    lastBase base (e :: es) = lastBase (e.base?.getD base) es := by
  unfold lastBase
  cases h : e.base? with
  | none => rw [List.filterMap_cons_none h]; rfl
  | some b => rw [List.filterMap_cons_some h, List.getLast?_cons]; rfl

/-- No base address comes after a word, one before these entries counted if they are `started`. -/
def BasesFrom (started : Bool) (es : List Entry) : Prop :=
  BasesFirst es ∧ (started = true → ∀ e ∈ es, e.base? = none)

theorem basesFrom_false {es : List Entry} : BasesFrom false es ↔ BasesFirst es := by
  simp [BasesFrom]

theorem basesFrom_cons {started : Bool} {e : Entry} {es : List Entry} :
    BasesFrom started (e :: es) ↔
      (started = true → e.base? = none) ∧ BasesFrom (started || e.word?.isSome) es := by
  unfold BasesFrom BasesFirst
  rw [List.pairwise_cons]
  cases started <;> cases hw : e.word? <;> simp
  all_goals tauto

/-! ### The lines in turn -/

/-- One line of a program is read. -/
theorem parseFrom_cons_ok {n : Nat} {base : UInt64} {ws : List UInt32} {e : Entry}
    {ls : List (List Char)} (h : entry (!ws.isEmpty) line = .ok e) :
    parseFrom n base ws (line :: ls) =
      parseFrom (n + 1) (e.base?.getD base) (e.word?.toList ++ ws) ls := by
  rw [parseFrom, h]
  cases e <;> rfl

theorem parseFrom_cons_error {n : Nat} {base : UInt64} {ws : List UInt32} {cause : Cause}
    {ls : List (List Char)} (h : entry (!ws.isEmpty) line = .error cause) :
    parseFrom n base ws (line :: ls) = .error ⟨n, line, cause⟩ := by
  rw [parseFrom, h]

theorem started_append (e : Entry) (ws : List UInt32) :
    (!(e.word?.toList ++ ws).isEmpty) = (!ws.isEmpty || e.word?.isSome) := by
  cases e.word? <;> simp

theorem parseFrom_eq_ok_iff {n : Nat} {base b : UInt64} {ws rs : List UInt32}
    {ls : List (List Char)} : parseFrom n base ws ls = .ok (b, rs) ↔
      ∃ es, List.Forall₂ (Says true) ls es ∧ BasesFrom (!ws.isEmpty) es ∧ b = lastBase base es ∧
        rs = ws.reverse ++ words es := by
  induction ls generalizing n base ws with
  | nil =>
    constructor
    · intro h
      cases h
      exact ⟨[], .nil, by simp [BasesFrom, BasesFirst], rfl, by simp [words]⟩
    · rintro ⟨es, hsaid, -, rfl, rfl⟩
      cases hsaid
      simp [parseFrom, lastBase, words]
  | cons line ls ih =>
    -- the words read so far stand in reverse
    have hwords : ∀ (e : Entry) (es : List Entry),
        (e.word?.toList ++ ws).reverse ++ words es = ws.reverse ++ words (e :: es) := by
      intro e es
      rw [words_cons]
      cases e.word? <;> simp
    constructor
    · intro h
      cases he : entry (!ws.isEmpty) line with
      | error cause =>
        rw [parseFrom_cons_error he] at h
        cases h
      | ok e =>
        rw [parseFrom_cons_ok he] at h
        obtain ⟨es, hsaid, hbases, hb, hrs⟩ := ih.mp h
        obtain ⟨hline, hfirst⟩ := entry_eq_ok_iff.mp he
        rw [started_append] at hbases
        refine ⟨e :: es, .cons hline hsaid, basesFrom_cons.mpr ⟨hfirst, hbases⟩, ?_, ?_⟩
        · rw [lastBase_cons, hb]
        · rw [← hwords, hrs]
    · rintro ⟨es, hsaid, hbases, hb, hrs⟩
      cases hsaid with
      | @cons _ e _ es hline hsaid =>
        obtain ⟨hfirst, hbases⟩ := basesFrom_cons.mp hbases
        rw [← started_append] at hbases
        rw [parseFrom_cons_ok (entry_eq_ok_iff.mpr ⟨hline, hfirst⟩)]
        refine ih.mpr ⟨es, hsaid, hbases, ?_, ?_⟩
        · rw [hb, lastBase_cons]
        · rw [hrs, hwords]

theorem parseFrom_eq_error_iff {n : Nat} {base : UInt64} {ws : List UInt32} {e : LineError}
    {ls : List (List Char)} : parseFrom n base ws ls = .error e ↔
      ∃ before after es, ls = before ++ e.text :: after ∧ List.Forall₂ (Says true) before es ∧
        BasesFrom (!ws.isEmpty) es ∧ e.line = before.length + n ∧
        Faulty true (!ws.isEmpty || !(words es).isEmpty) e.text e.cause := by
  induction ls generalizing n base ws with
  | nil => simp [parseFrom]
  | cons line ls ih =>
    have hstarted : ∀ (x : Entry) (es : List Entry),
        (!(x.word?.toList ++ ws).isEmpty || !(words es).isEmpty) =
          (!ws.isEmpty || !(words (x :: es)).isEmpty) := by
      intro x es
      rw [started_append, words_cons]
      cases x.word? <;> simp
    constructor
    · intro h
      cases hx : entry (!ws.isEmpty) line with
      | error cause =>
        rw [parseFrom_cons_error hx] at h
        cases h
        refine ⟨[], ls, [], rfl, .nil, by simp [BasesFrom, BasesFirst], by simp, ?_⟩
        simpa [words] using entry_eq_error_iff.mp hx
      | ok x =>
        rw [parseFrom_cons_ok hx] at h
        obtain ⟨before, after, es, rfl, hsaid, hbases, hn, hfault⟩ := ih.mp h
        obtain ⟨hline, hfirst⟩ := entry_eq_ok_iff.mp hx
        rw [started_append] at hbases
        refine ⟨line :: before, after, x :: es, rfl, .cons hline hsaid,
          basesFrom_cons.mpr ⟨hfirst, hbases⟩, ?_, ?_⟩
        · rw [hn, List.length_cons]
          omega
        · rwa [← hstarted]
    · rintro ⟨before, after, es, heq, hsaid, hbases, hn, hfault⟩
      cases hsaid with
      | nil =>
        obtain ⟨rfl, rfl⟩ := List.cons.inj heq
        have hx : entry (!ws.isEmpty) e.text = .error e.cause :=
          entry_eq_error_iff.mpr (by simpa [words] using hfault)
        rw [parseFrom_cons_error hx]
        obtain rfl : e.line = n := by simpa using hn
        rfl
      | @cons l x before es hline hsaid =>
        obtain ⟨rfl, rfl⟩ := List.cons.inj heq
        obtain ⟨hfirst, hbases⟩ := basesFrom_cons.mp hbases
        rw [← started_append] at hbases
        rw [parseFrom_cons_ok (entry_eq_ok_iff.mpr ⟨hline, hfirst⟩)]
        refine ih.mpr ⟨before, after, es, rfl, hsaid, hbases, ?_, ?_⟩
        · rw [hn, List.length_cons]
          omega
        · rwa [hstarted]

theorem parse_eq_ok_iff {text : List Char} {image : Image} :
    parse text = .ok image ↔ Written true text image := by
  unfold parse
  constructor
  · intro h
    cases hread : parseFrom 1 defaultBase [] (Text.lines text) with
    | error e =>
      rw [hread] at h
      cases h
    | ok r =>
      rw [hread] at h
      cases h
      obtain ⟨es, hsaid, hbases, hb, hws⟩ := parseFrom_eq_ok_iff.mp hread
      refine ⟨Text.lines text, es, Text.laid_lines text, hsaid, basesFrom_false.mp hbases, ?_⟩
      rw [← hb, show words es = r.2 by simpa using hws.symm]
  · rintro ⟨ls, es, hlaid, hsaid, hbases, rfl⟩
    have hread : parseFrom 1 defaultBase [] ls = .ok (lastBase defaultBase es, words es) :=
      parseFrom_eq_ok_iff.mpr ⟨es, hsaid, basesFrom_false.mpr hbases, rfl, rfl⟩
    rw [hlaid.lines_eq, hread]
    rfl

theorem parse_eq_error_iff {text : List Char} {e : LineError} :
    parse text = .error e ↔ Refused true text e := by
  have hread : parse text = .error e ↔
      parseFrom 1 defaultBase [] (Text.lines text) = .error e := by
    unfold parse
    cases parseFrom 1 defaultBase [] (Text.lines text) <;> simp [Except.map]
  rw [hread, parseFrom_eq_error_iff, Refused]
  simp only [← Text.lines_eq_iff, List.isEmpty_nil, Bool.not_true, Bool.false_or, basesFrom_false]

/-- **Programs are read as they are written, and nothing else is.** -/
theorem texts_exact (text : List Char) :
    (∀ image, parse text = .ok image ↔ Written true text image) ∧
      ∀ e, parse text = .error e ↔ Refused true text e :=
  ⟨fun _ => parse_eq_ok_iff, fun _ => parse_eq_error_iff⟩

/-- The text `+13` is read, but without the sign allowed it is not a program. -/
theorem not_written_without_sign :
    ¬ ∀ text image, parse text = .ok image → Written false text image := by
  intro h
  have hread : parse "+13".toList = .ok (.ofWords defaultBase [0x13]) := by decide
  obtain ⟨ls, es, hlaid, hsaid, -, -⟩ := h _ _ hread
  obtain rfl : ["+13".toList] = ls := hlaid.lines_eq
  cases hsaid with
  | cons hline _ => exact (says_false_iff.mp hline).2 (by decide)

end Program

end InOrder
