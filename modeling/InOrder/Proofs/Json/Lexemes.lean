import InOrder.Json.Lexeme
import InOrder.Proofs.Program.Numerals

/-!
# Strings and numbers, by their grammar

What is between the quotes of a string is `Skimmed` if it is as the grammar has it, and `Quoted` if
it spells a text: then the halves of a character stand together. A number has a sign or none, digits
without a leading zero, and a fraction and an exponent where there are any (`IsNumber`).

* `skipString_of_skimmed` and `stringText_of_quoted`: a string is read up to its closing quote.
* `scanNumber_of_isNumber`: a number is read up to its end, if no digit follows.
* `scanNumber_toDigits`: the decimal numeral of a word is kept with all its digits.
-/

namespace InOrder.Json

/-! ## Gaps -/

/-- What may stand between two tokens. -/
def Gap (cs : List Char) : Prop := ∀ c ∈ cs, c ∈ [' ', '\n', '\t', '\r']

/-- What may follow a value: nothing, a gap, or the next mark of a container. -/
def Ends (rest : List Char) : Prop :=
  ∀ c ∈ rest.head?, c ∈ [' ', '\n', '\t', '\r', ',', ']', '\x7d']

theorem gap_nil : Gap [] := fun _ hc => nomatch hc

theorem isGap_iff {c : Char} : isGap c = true ↔ c ∈ [' ', '\n', '\t', '\r'] := by
  simp [isGap, or_assoc]

theorem skipGap_append {gap : List Char} (hgap : Gap gap) (cs : List Char) :
    skipGap (gap ++ cs) = skipGap cs :=
  List.dropWhile_append_of_pos fun c hc => isGap_iff.mpr (hgap c hc)

theorem skipGap_cons {c : Char} (hc : isGap c = false) (cs : List Char) :
    skipGap (c :: cs) = c :: cs :=
  List.dropWhile_cons_of_neg (by simp [hc])

/-- After a gap comes the mark that stands behind it. -/
theorem skipGap_mark {gap : List Char} (hgap : Gap gap) {c : Char} (hc : isGap c = false)
    (cs : List Char) : skipGap (gap ++ c :: cs) = c :: cs :=
  (skipGap_append hgap _).trans (skipGap_cons hc cs)

theorem Gap.ends {gap : List Char} (hgap : Gap gap) {rest : List Char} (hrest : Ends rest) :
    Ends (gap ++ rest) := by
  cases gap with
  | nil => exact hrest
  | cons c cs =>
    intro c' hc'
    obtain rfl : c = c' := by simpa using hc'
    have hmem := hgap c List.mem_cons_self
    simp only [List.mem_cons, List.not_mem_nil, or_false] at hmem ⊢
    tauto

theorem ends_cons {c : Char} (hc : c ∈ [' ', '\n', '\t', '\r', ',', ']', '\x7d'])
    (rest : List Char) : Ends (c :: rest) := fun c' hc' => by
  obtain rfl : c = c' := by simpa using hc'
  exact hc

theorem ends_nil : Ends [] := fun _ hc => nomatch hc

/-! ## Strings -/

/-- The escapes of one letter, with the characters that they stand for. -/
def escapes : List (Char × Char) :=
  [('"', '"'), ('\\', '\\'), ('/', '/'), ('b', '\x08'), ('f', '\x0c'), ('n', '\n'), ('r', '\r'),
    ('t', '\t')]

/-- The character stands for itself in a string. -/
def IsPlain (c : Char) : Prop := c ≠ '"' ∧ c ≠ '\\' ∧ 0x20 ≤ c.toNat

/-- Four hexadecimal digits spell the unit `n`. -/
def IsUnit (ds : List Char) (n : Nat) : Prop := ds.length = 4 ∧ Hex.Spells ds n

/-- What may stand between the quotes of a string. -/
inductive Skimmed : List Char → Prop
  | nil : Skimmed []
  | plain {c : Char} {body : List Char} (hc : IsPlain c) (h : Skimmed body) : Skimmed (c :: body)
  | escape {e c : Char} {body : List Char} (he : (e, c) ∈ escapes) (h : Skimmed body) :
    Skimmed ('\\' :: e :: body)
  | unit {ds body : List Char} {n : Nat} (hds : IsUnit ds n) (h : Skimmed body) :
    Skimmed ('\\' :: 'u' :: (ds ++ body))

/-- What stands between the quotes of a string that spells the text. -/
inductive Quoted : List Char → List Char → Prop
  | nil : Quoted [] []
  | plain {c : Char} {body cs : List Char} (hc : IsPlain c) (h : Quoted body cs) :
    Quoted (c :: body) (c :: cs)
  | escape {e c : Char} {body cs : List Char} (he : (e, c) ∈ escapes) (h : Quoted body cs) :
    Quoted ('\\' :: e :: body) (c :: cs)
  /-- A character of the first plane. -/
  | unit {ds body cs : List Char} {n : Nat} (hds : IsUnit ds n) (hn : n < 0xd800 ∨ 0xe000 ≤ n)
      (h : Quoted body cs) :
    Quoted ('\\' :: 'u' :: (ds ++ body)) (Char.ofNat n :: cs)
  /-- The two halves of another character. -/
  | pair {ds ds' body cs : List Char} {high low : Nat} (hds : IsUnit ds high)
      (hhigh : 0xd800 ≤ high ∧ high < 0xdc00) (hds' : IsUnit ds' low)
      (hlow : 0xdc00 ≤ low ∧ low < 0xe000) (h : Quoted body cs) :
    Quoted ('\\' :: 'u' :: (ds ++ '\\' :: 'u' :: (ds' ++ body)))
      (Char.ofNat (0x10000 + (high - 0xd800) * 0x400 + (low - 0xdc00)) :: cs)

theorem Quoted.skimmed {body cs : List Char} (h : Quoted body cs) : Skimmed body := by
  induction h with
  | nil => exact .nil
  | plain hc _ ih => exact .plain hc ih
  | escape he _ ih => exact .escape he ih
  | unit hds _ _ ih => exact .unit hds ih
  | pair hds _ hds' _ _ ih => exact .unit hds (.unit hds' ih)

/-- A text of characters that stand for themselves spells itself. -/
theorem quoted_of_plain {cs : List Char} (h : ∀ c ∈ cs, IsPlain c) : Quoted cs cs := by
  induction cs with
  | nil => exact .nil
  | cons c cs ih =>
    obtain ⟨hc, hcs⟩ := List.forall_mem_cons.mp h
    exact .plain hc (ih hcs)

/-- The four digits of a unit. -/
theorem IsUnit.digits {ds : List Char} {n : Nat} (h : IsUnit ds n) :
    ∃ a b c d, ds = [a, b, c, d] ∧ unit? a b c d = some n := by
  obtain ⟨hlength, hspells⟩ := h
  obtain ⟨a, b, c, d, rfl⟩ := List.length_eq_four.mp hlength
  exact ⟨a, b, c, d, rfl, Hex.readDigits?_eq_some_iff.mpr hspells⟩

/-- An escape of one letter is one of the eight. -/
theorem escapes_cases {P : Char → Char → Prop} {e c : Char} (h : (e, c) ∈ escapes)
    (hall : P '"' '"' ∧ P '\\' '\\' ∧ P '/' '/' ∧ P 'b' '\x08' ∧ P 'f' '\x0c' ∧ P 'n' '\n' ∧
      P 'r' '\r' ∧ P 't' '\t') : P e c := by
  simp only [escapes, List.mem_cons, Prod.mk.injEq, List.not_mem_nil, or_false] at h
  grind

theorem skipString_plain {c : Char} (hc : IsPlain c) (r : List Char) :
    skipString (c :: r) = skipString r := by
  obtain ⟨hquote, hescape, hcode⟩ := hc
  rw [skipString.eq_def]
  split <;> simp_all

theorem skipString_escape {e c : Char} (he : (e, c) ∈ escapes) (r : List Char) :
    skipString ('\\' :: e :: r) = skipString r :=
  escapes_cases (P := fun e _ => skipString ('\\' :: e :: r) = skipString r) he
    ⟨rfl, rfl, rfl, rfl, rfl, rfl, rfl, rfl⟩

theorem skipString_unit {ds : List Char} {n : Nat} (hds : IsUnit ds n) (r : List Char) :
    skipString ('\\' :: 'u' :: (ds ++ r)) = skipString r := by
  obtain ⟨a, b, c, d, rfl, hunit⟩ := hds.digits
  show skipString ('\\' :: 'u' :: a :: b :: c :: d :: r) = _
  rw [skipString, hunit]
  rfl

/-- **A string is passed over up to its closing quote.** -/
theorem skipString_of_skimmed {body : List Char} (h : Skimmed body) (r : List Char) :
    skipString (body ++ '"' :: r) = .ok r := by
  induction h with
  | nil => rfl
  | plain hc _ ih => exact (skipString_plain hc _).trans ih
  | escape he _ ih => exact (skipString_escape he _).trans ih
  | @unit ds body n hds _ ih =>
    show skipString ('\\' :: 'u' :: (ds ++ body ++ '"' :: r)) = _
    rw [List.append_assoc, skipString_unit hds]
    exact ih

theorem stringText_plain {c : Char} (hc : IsPlain c) (r : List Char) :
    stringText (c :: r) = (stringText r).map (c :: ·) := by
  obtain ⟨hquote, hescape, hcode⟩ := hc
  rw [stringText.eq_def]
  split <;> simp_all

theorem stringText_escape {e c : Char} (he : (e, c) ∈ escapes) (r : List Char) :
    stringText ('\\' :: e :: r) = (stringText r).map (c :: ·) :=
  escapes_cases (P := fun e c => stringText ('\\' :: e :: r) = (stringText r).map (c :: ·)) he
    ⟨rfl, rfl, rfl, rfl, rfl, rfl, rfl, rfl⟩

theorem isLow_eq_false {n : Nat} (hn : n < 0xdc00 ∨ 0xe000 ≤ n) : isLow n = false := by
  simp only [isLow, Bool.and_eq_false_iff, decide_eq_false_iff_not]
  omega

theorem stringText_unit {ds : List Char} {n : Nat} (hds : IsUnit ds n)
    (hn : n < 0xd800 ∨ 0xe000 ≤ n) (r : List Char) :
    stringText ('\\' :: 'u' :: (ds ++ r)) = (stringText r).map (Char.ofNat n :: ·) := by
  obtain ⟨a, b, c, d, rfl, hunit⟩ := hds.digits
  have hlow : isLow n = false := isLow_eq_false (by omega)
  have hhigh : isHigh n = false := by
    simp only [isHigh, Bool.and_eq_false_iff, decide_eq_false_iff_not]
    omega
  show stringText ('\\' :: 'u' :: a :: b :: c :: d :: r) = _
  rw [stringText, hunit]
  simp only [hlow, hhigh]
  rfl

theorem stringText_pair {ds ds' : List Char} {high low : Nat} (hds : IsUnit ds high)
    (hhigh : 0xd800 ≤ high ∧ high < 0xdc00) (hds' : IsUnit ds' low)
    (hlow : 0xdc00 ≤ low ∧ low < 0xe000) (r : List Char) :
    stringText ('\\' :: 'u' :: (ds ++ '\\' :: 'u' :: (ds' ++ r))) =
      (stringText r).map (joinHalves high low :: ·) := by
  obtain ⟨a, b, c, d, rfl, hunit⟩ := hds.digits
  obtain ⟨a', b', c', d', rfl, hunit'⟩ := hds'.digits
  have hnot : isLow high = false := isLow_eq_false (.inl hhigh.2)
  have hupper : isHigh high = true := by simpa [isHigh] using hhigh
  have hlower : isLow low = true := by simpa [isLow] using hlow
  show stringText ('\\' :: 'u' :: a :: b :: c :: d :: '\\' :: 'u' :: a' :: b' :: c' :: d' :: r) = _
  rw [stringText, hunit]
  simp only [hnot, hupper, hunit', hlower]
  rfl

/-- **A string that spells a text is read as that text.** -/
theorem stringText_of_quoted {body cs : List Char} (h : Quoted body cs) (r : List Char) :
    stringText (body ++ '"' :: r) = .ok cs := by
  induction h with
  | nil => rfl
  | plain hc _ ih => exact (stringText_plain hc _).trans (congrArg _ ih)
  | escape he _ ih => exact (stringText_escape he _).trans (congrArg _ ih)
  | @unit ds body cs n hds hn _ ih =>
    show stringText ('\\' :: 'u' :: (ds ++ body ++ '"' :: r)) = _
    rw [List.append_assoc, stringText_unit hds hn]
    exact congrArg _ ih
  | @pair ds ds' body cs high low hds hhigh hds' hlow _ ih =>
    have hassoc : '\\' :: 'u' :: (ds ++ '\\' :: 'u' :: (ds' ++ body)) ++ '"' :: r =
        '\\' :: 'u' :: (ds ++ '\\' :: 'u' :: (ds' ++ (body ++ '"' :: r))) := by simp
    rw [hassoc, stringText_pair hds hhigh hds' hlow]
    exact congrArg _ ih

/-! ## Numbers -/

/-- One or more digits. -/
def Digits (ds : List Char) : Prop := ds ≠ [] ∧ ∀ c ∈ ds, c.isDigit = true

/-- A fraction, or none. -/
def IsFraction (cs : List Char) : Prop := cs = [] ∨ ∃ ds, Digits ds ∧ cs = '.' :: ds

/-- An exponent, or none. -/
def IsExponent (cs : List Char) : Prop :=
  cs = [] ∨ ∃ e sign ds, e ∈ ['e', 'E'] ∧ sign ∈ [[], ['+'], ['-']] ∧ Digits ds ∧
    cs = e :: (sign ++ ds)

/-- What a number is after its sign. -/
def IsMagnitude (cs : List Char) : Prop :=
  ∃ whole fraction exponent, Digits whole ∧ (whole.head? = some '0' → whole = ['0']) ∧
    IsFraction fraction ∧ IsExponent exponent ∧ cs = whole ++ (fraction ++ exponent)

/-- A number. -/
def IsNumber (cs : List Char) : Prop := IsMagnitude cs ∨ ∃ ds, IsMagnitude ds ∧ cs = '-' :: ds

/-- No digit comes first. -/
def NoDigit (cs : List Char) : Prop := ∀ c ∈ cs.head?, c.isDigit = false

theorem Ends.noDigit {rest : List Char} (h : Ends rest) : NoDigit rest := by
  have hall : ∀ c ∈ [' ', '\n', '\t', '\r', ',', ']', '\x7d'], c.isDigit = false := by simp
  exact fun c hc => hall c (h c hc)

theorem noDigit_cons {c : Char} (hc : c.isDigit = false) (cs : List Char) : NoDigit (c :: cs) :=
  fun c' hc' => by
    obtain rfl : c = c' := by simpa using hc'
    exact hc

theorem spanDigits_append {ds rest : List Char} (hds : ∀ c ∈ ds, c.isDigit = true)
    (hrest : NoDigit rest) : spanDigits (ds ++ rest) = (ds, rest) := by
  have htake : rest.takeWhile Char.isDigit = [] ∧ rest.dropWhile Char.isDigit = rest := by
    cases rest with
    | nil => exact ⟨rfl, rfl⟩
    | cons c cs =>
      have hc : ¬ c.isDigit = true := by simp [hrest c rfl]
      exact ⟨List.takeWhile_cons_of_neg hc, List.dropWhile_cons_of_neg hc⟩
  rw [spanDigits, List.takeWhile_append_of_pos hds, List.dropWhile_append_of_pos hds, htake.1,
    htake.2, List.append_nil]

/-- What is read is some number, and what follows it. -/
def ReadsNumber (r : Reading) (rest : List Char) : Prop := ∃ n, r = (.number n, .ok rest)

theorem scanExponent_of_ends (n : Number) {rest : List Char} (hrest : Ends rest) :
    scanExponent n rest = (.number n, .ok rest) := by
  cases rest with
  | nil => rfl
  | cons c cs =>
    have hc := hrest c rfl
    simp only [List.mem_cons, List.not_mem_nil, or_false] at hc
    rcases hc with rfl | rfl | rfl | rfl | rfl | rfl | rfl <;> rfl

theorem readsNumber_exponent (n : Number) {exponent rest : List Char} (h : IsExponent exponent)
    (hrest : Ends rest) : ReadsNumber (scanExponent n (exponent ++ rest)) rest := by
  rcases h with rfl | ⟨e, sign, ds, he, hsign, hds, rfl⟩
  · exact ⟨n, scanExponent_of_ends n hrest⟩
  · have hspan := spanDigits_append hds.2 hrest.noDigit
    obtain ⟨c, cs, rfl⟩ := List.exists_cons_of_ne_nil hds.1
    have hdigit : c.isDigit = true := hds.2 c List.mem_cons_self
    have hminus : c ≠ '-' := fun heq => by simp [heq] at hdigit
    have hplus : c ≠ '+' := fun heq => by simp [heq] at hdigit
    have hread : ∃ n', scanExponent n (e :: (sign ++ c :: cs) ++ rest) =
        (.number n', .ok rest) := by
      simp only [List.mem_cons, List.not_mem_nil, or_false] at he hsign
      rw [List.cons_append] at hspan
      rcases he with rfl | rfl <;> rcases hsign with rfl | rfl | rfl <;>
        simp [scanExponent, hspan, hminus, hplus]
    exact hread

/-- What follows the digits of a number is no digit and no point, unless it is the fraction. -/
theorem IsExponent.append {exponent rest : List Char} (h : IsExponent exponent)
    (hrest : Ends rest) :
    NoDigit (exponent ++ rest) ∧ ∀ r, exponent ++ rest ≠ '.' :: r := by
  rcases h with rfl | ⟨e, sign, ds, he, hsign, hds, rfl⟩
  · refine ⟨hrest.noDigit, fun r heq => ?_⟩
    have hpoint := hrest '.' (by rw [show rest = '.' :: r from heq]; rfl)
    simp at hpoint
  · have hall : ∀ e ∈ ['e', 'E'], e.isDigit = false ∧ e ≠ '.' := by simp
    obtain ⟨hdigit, hpoint⟩ := hall e he
    exact ⟨noDigit_cons hdigit _, fun r heq => hpoint (List.cons.inj heq).1⟩

theorem readsNumber_fraction (n : Number) {fraction exponent rest : List Char}
    (hfraction : IsFraction fraction) (hexponent : IsExponent exponent) (hrest : Ends rest) :
    ReadsNumber (scanFraction n (fraction ++ (exponent ++ rest))) rest := by
  obtain ⟨hdigit, hpoint⟩ := hexponent.append hrest
  rcases hfraction with rfl | ⟨ds, hds, rfl⟩
  · rw [List.nil_append, scanFraction]
    · exact readsNumber_exponent n hexponent hrest
    · exact hpoint
  · have hspan := spanDigits_append hds.2 hdigit
    obtain ⟨c, cs, rfl⟩ := List.exists_cons_of_ne_nil hds.1
    rw [List.cons_append, scanFraction, hspan]
    exact readsNumber_exponent _ hexponent hrest

theorem IsFraction.append {fraction more : List Char} (h : IsFraction fraction)
    (hmore : NoDigit more) : NoDigit (fraction ++ more) := by
  rcases h with rfl | ⟨ds, -, rfl⟩
  · exact hmore
  · exact noDigit_cons (by decide) _

/-- The digits before the point are kept, and the fraction is read. -/
theorem scanNumber_append (negative : Bool) {whole more : List Char} (hwhole : Digits whole)
    (hzero : whole.head? = some '0' → whole = ['0']) (hmore : NoDigit more) :
    scanNumber negative (whole ++ more) =
      scanFraction (Number.pushWhole ⟨negative, 0, 0, true⟩ whole) more := by
  rw [scanNumber, spanDigits_append hwhole.2 hmore]
  obtain ⟨c, cs, rfl⟩ := List.exists_cons_of_ne_nil hwhole.1
  cases cs with
  | nil => simp
  | cons d ds =>
    have hc : c ≠ '0' := fun heq => by simp [heq] at hzero
    simp [hc]

/-- **A number is read up to its end.** -/
theorem scanNumber_of_isMagnitude (negative : Bool) {cs rest : List Char} (h : IsMagnitude cs)
    (hrest : Ends rest) : ReadsNumber (scanNumber negative (cs ++ rest)) rest := by
  obtain ⟨whole, fraction, exponent, hwhole, hzero, hfraction, hexponent, rfl⟩ := h
  have hmore := hfraction.append (hexponent.append hrest).1
  rw [List.append_assoc, List.append_assoc, scanNumber_append negative hwhole hzero hmore]
  exact readsNumber_fraction _ hfraction hexponent hrest

/-! ## Numerals -/

theorem le_ofDigitChars (ds : List Char) : ∀ acc : Nat, acc ≤ Nat.ofDigitChars 10 ds acc := by
  induction ds with
  | nil => exact fun acc => Nat.le_refl acc
  | cons c cs ih =>
    intro acc
    have hle := ih (10 * acc + (c.toNat - 48))
    show acc ≤ Nat.ofDigitChars 10 cs (10 * acc + (c.toNat - 48))
    omega

/-- Digits that fit are all kept. -/
theorem pushWhole_eq (ds : List Char) : ∀ n : Number,
    Nat.ofDigitChars 10 ds n.significand < UInt64.size →
      n.pushWhole ds = { n with significand := Nat.ofDigitChars 10 ds n.significand } := by
  induction ds with
  | nil => exact fun _ _ => rfl
  | cons c cs ih =>
    intro n hfits
    have hnext : Nat.ofDigitChars 10 (c :: cs) n.significand =
        Nat.ofDigitChars 10 cs (10 * n.significand + (c.toNat - 48)) := rfl
    rw [hnext] at hfits ⊢
    have hkept : 10 * n.significand + (c.toNat - 48) < UInt64.size :=
      Nat.lt_of_le_of_lt (le_ofDigitChars cs _) hfits
    have hpush : n.push? c = some { n with significand := 10 * n.significand + (c.toNat - 48) } :=
      if_pos hkept
    rw [Number.pushWhole_cons, hpush]
    exact ih { n with significand := 10 * n.significand + (c.toNat - 48) } hfits

/-- A numeral has no leading zero. -/
theorem toDigits_head (n : Nat) :
    (Nat.toDigits 10 n).head? = some '0' → Nat.toDigits 10 n = ['0'] := by
  have hpositive : ∀ n, 0 < n → (Nat.toDigits 10 n).head? ≠ some '0' := by
    intro n
    induction n using Nat.strongRecOn with
    | ind n ih =>
      intro hn
      rcases Nat.lt_or_ge n 10 with hlt | hge
      · rw [Nat.toDigits_of_lt_base hlt]
        have hdigits : ∀ d < 10, 0 < d → [d.digitChar].head? ≠ some '0' := by decide
        exact hdigits n hlt hn
      · have hrest := ih (n / 10) (Nat.div_lt_self hn (by decide)) (Nat.div_pos hge (by decide))
        rw [Nat.toDigits_of_base_le (by decide) hge]
        obtain ⟨c, cs, hcs⟩ : ∃ c cs, Nat.toDigits 10 (n / 10) = c :: cs :=
          List.exists_cons_of_ne_nil Nat.toDigits_ne_nil
        rw [hcs] at hrest ⊢
        exact hrest
  rcases Nat.eq_zero_or_pos n with rfl | hn
  · exact fun _ => rfl
  · exact fun h => absurd h (hpositive n hn)

theorem digits_toDigits (n : Nat) : Digits (Nat.toDigits 10 n) :=
  ⟨Nat.toDigits_ne_nil, fun _ hc => Nat.isDigit_of_mem_toDigits (by decide) (by decide) hc⟩

/-- The decimal numeral of a word is read as it is. -/
theorem scanNumber_toDigits {n : Nat} (hn : n < UInt64.size) {rest : List Char}
    (hrest : Ends rest) :
    scanNumber false (Nat.toDigits 10 n ++ rest) = (.number ⟨false, n, 0, true⟩, .ok rest) := by
  have hvalue : Nat.ofDigitChars 10 (Nat.toDigits 10 n) 0 = n :=
    Nat.ofDigitChars_toDigits (by decide) (by decide)
  have hpoint : ∀ r, rest ≠ '.' :: r := (IsExponent.append (.inl rfl) hrest).2
  have hkept := pushWhole_eq (Nat.toDigits 10 n) ⟨false, 0, 0, true⟩ (by rwa [hvalue])
  rw [hvalue] at hkept
  rw [scanNumber_append false (digits_toDigits n) (toDigits_head n) hrest.noDigit, hkept,
    scanFraction]
  · exact scanExponent_of_ends _ hrest
  · exact hpoint

end InOrder.Json
