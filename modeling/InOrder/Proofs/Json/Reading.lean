import InOrder.Json.Reader
import InOrder.Proofs.Json.Lexemes

/-!
# Values, by their grammar

`IsValue` is the grammar of values: words, numbers, strings, arrays and objects, with gaps around
the marks of a container. The grammar says nothing of the reader. `Reads cs P` says that the text
`cs` is read whole wherever it stands, as a value of which `P` holds.

* `reads_value`: every value of the grammar is read, and a reader that passes over it meets no
  fault.
* `reads_object`: an object is read as its members, each as it is read by itself.
-/

namespace InOrder.Json

/-! ## The grammar -/

/-- The items in a row, a comma between two of them and the closing mark behind the last. -/
inductive Row (close : Char) : List (List Char) → List Char → Prop
  | last {item gap : List Char} (hgap : Gap gap) : Row close [item] (item ++ (gap ++ [close]))
  | cons {item gap gap' body : List Char} {items : List (List Char)} (hgap : Gap gap)
      (hgap' : Gap gap') (h : Row close items body) :
    Row close (item :: items) (item ++ (gap ++ ',' :: (gap' ++ body)))

/-- The items between two marks. -/
inductive Container (opening close : Char) : List (List Char) → List Char → Prop
  | empty {gap : List Char} (hgap : Gap gap) :
    Container opening close [] (opening :: (gap ++ [close]))
  | full {gap body : List Char} {items : List (List Char)} (hgap : Gap gap)
      (h : Row close items body) : Container opening close items (opening :: (gap ++ body))

/-- A member of an object. -/
structure Member where
  /-- What stands between the quotes of the key. -/
  key : List Char
  value : List Char

/-- The member as it is written. -/
def Member.Spelt (m : Member) (cs : List Char) : Prop :=
  ∃ gap gap', Gap gap ∧ Gap gap' ∧
    cs = '"' :: (m.key ++ '"' :: (gap ++ ':' :: (gap' ++ m.value)))

/-- The member as it is written without gaps. -/
def Member.compact (m : Member) : List Char := '"' :: (m.key ++ '"' :: ':' :: m.value)

/-- An object of these members. -/
def IsObject (ms : List Member) (cs : List Char) : Prop :=
  ∃ items, List.Forall₂ Member.Spelt ms items ∧ Container '\x7b' '\x7d' items cs

/-- A value. -/
inductive IsValue : List Char → Prop
  | null : IsValue ['n', 'u', 'l', 'l']
  | true : IsValue ['t', 'r', 'u', 'e']
  | false : IsValue ['f', 'a', 'l', 's', 'e']
  | number {cs : List Char} (h : IsNumber cs) : IsValue cs
  | string {body : List Char} (h : Skimmed body) : IsValue ('"' :: (body ++ ['"']))
  | array {items : List (List Char)} {cs : List Char} (h : Container '[' ']' items cs)
      (hitems : ∀ i ∈ items, IsValue i) : IsValue cs
  | object {ms : List Member} {cs : List Char} (h : IsObject ms cs)
      (hkeys : ∀ m ∈ ms, Skimmed m.key) (hvalues : ∀ m ∈ ms, IsValue m.value) : IsValue cs

/-- Items without gaps are a row. -/
theorem row_compact (close : Char) (item : List Char) (items : List (List Char)) :
    Row close (item :: items) (List.intercalate [','] (item :: items) ++ [close]) := by
  induction items generalizing item with
  | nil =>
    have hlast : Row close [item] (item ++ ([] ++ [close])) := .last gap_nil
    simpa using hlast
  | cons next items ih =>
    have hmore : Row close (item :: next :: items)
        (item ++ ([] ++ ',' :: ([] ++ (List.intercalate [','] (next :: items) ++ [close])))) :=
      .cons gap_nil gap_nil (ih next)
    simpa using hmore

/-- The members of an object may stand without gaps. -/
theorem isObject_compact (m : Member) (ms : List Member) :
    IsObject (m :: ms)
      ('\x7b' :: (List.intercalate [','] ((m :: ms).map Member.compact) ++ ['\x7d'])) := by
  have hspelt : ∀ m : Member, m.Spelt m.compact := fun _ => ⟨[], [], gap_nil, gap_nil, rfl⟩
  have hcontainer : Container '\x7b' '\x7d' (m.compact :: ms.map Member.compact)
      ('\x7b' :: ([] ++ (List.intercalate [','] (m.compact :: ms.map Member.compact) ++
        ['\x7d']))) :=
    .full gap_nil (row_compact '\x7d' _ _)
  exact ⟨_, List.forall₂_map_right_iff.mpr (List.forall₂_same.mpr fun m _ => hspelt m), hcontainer⟩

/-! ## Reading -/

/-- The text is read whole, as a value of which `P` holds. -/
def Reads (cs : List Char) (P : Json → Prop) : Prop :=
  ∀ fuel rest, 3 * cs.length ≤ fuel → Ends rest →
    ∃ v, value fuel (cs ++ rest) = (v, .ok rest) ∧ P v

/-- The value is what the text is read as, in some place. -/
def ReadAs (cs : List Char) (v : Json) : Prop :=
  ∃ fuel rest, 3 * cs.length ≤ fuel ∧ Ends rest ∧ value fuel (cs ++ rest) = (v, .ok rest)

theorem Reads.of_readAs {cs : List Char} {P : Json → Prop} {v : Json} (h : Reads cs P)
    (hv : ReadAs cs v) : P v := by
  obtain ⟨fuel, rest, hfuel, hrest, hvalue⟩ := hv
  obtain ⟨v', hvalue', hP⟩ := h fuel rest hfuel hrest
  obtain rfl : v' = v := (Prod.mk.inj (hvalue'.symm.trans hvalue)).1
  exact hP

theorem Reads.mono {cs : List Char} {P Q : Json → Prop} (h : Reads cs P) (himp : ∀ v, P v → Q v) :
    Reads cs Q := fun fuel rest hfuel hrest => by
  obtain ⟨v, hvalue, hP⟩ := h fuel rest hfuel hrest
  exact ⟨v, hvalue, himp v hP⟩

/-- A gap before a value is passed over. -/
theorem value_gap (fuel : Nat) {gap : List Char} (hgap : Gap gap) (cs : List Char) :
    value fuel (gap ++ cs) = value fuel cs := by
  cases fuel with
  | zero => rfl
  | succ fuel => rw [value, value, skipGap_append hgap]

theorem item_gap (fuel : Nat) {gap : List Char} (hgap : Gap gap) (cs : List Char) :
    item fuel (gap ++ cs) = item fuel cs := by
  cases fuel with
  | zero => rfl
  | succ fuel => rw [item, item, value_gap fuel hgap]

/-! ### Words, numbers and strings -/

/-- What is read in one step is read with any number of calls to come. -/
theorem reads_of_step {cs : List Char} {P : Json → Prop} (hne : cs ≠ [])
    (h : ∀ fuel rest, Ends rest → ∃ v, value (fuel + 1) (cs ++ rest) = (v, .ok rest) ∧ P v) :
    Reads cs P := by
  intro fuel rest hfuel hrest
  have hpos := List.length_pos_iff.mpr hne
  obtain ⟨fuel, rfl⟩ : ∃ f, fuel = f + 1 := ⟨fuel - 1, by omega⟩
  exact h fuel rest hrest

theorem reads_null : Reads ['n', 'u', 'l', 'l'] (· = .null) :=
  reads_of_step (by simp) fun _ _ _ => ⟨_, rfl, rfl⟩

theorem reads_true : Reads ['t', 'r', 'u', 'e'] (· = .bool true) :=
  reads_of_step (by simp) fun _ _ _ => ⟨_, rfl, rfl⟩

theorem reads_false : Reads ['f', 'a', 'l', 's', 'e'] (· = .bool false) :=
  reads_of_step (by simp) fun _ _ _ => ⟨_, rfl, rfl⟩

theorem isGap_of_isDigit {c : Char} (hc : c.isDigit = true) : isGap c = false := by
  have hall : ∀ c ∈ [' ', '\n', '\t', '\r'], c.isDigit = false := by simp
  refine Bool.eq_false_of_not_eq_true fun hgap => ?_
  exact absurd hc (by simp [hall c (isGap_iff.mp hgap)])

/-- A value that begins with a digit is a number. -/
theorem value_digit (fuel : Nat) {c : Char} (hc : c.isDigit = true) (cs : List Char) :
    value (fuel + 1) (c :: cs) = scanNumber false (c :: cs) := by
  rw [value, skipGap_cons (isGap_of_isDigit hc)]
  split <;> simp_all

theorem reads_numeral {n : Nat} (hn : n < UInt64.size) :
    Reads (Nat.toDigits 10 n) (· = .number ⟨false, n, 0, true⟩) := by
  obtain ⟨hne, hdigits⟩ := digits_toDigits n
  refine reads_of_step hne fun fuel rest hrest => ⟨_, ?_, rfl⟩
  have hscan := scanNumber_toDigits hn hrest
  obtain ⟨c, cs, hcs⟩ := List.exists_cons_of_ne_nil hne
  rw [hcs] at hscan hdigits ⊢
  exact (value_digit fuel (hdigits c List.mem_cons_self) _).trans hscan

theorem reads_number {cs : List Char} (h : IsNumber cs) : Reads cs fun v => v.skip = none := by
  rcases h with h | ⟨ds, h, rfl⟩
  · obtain ⟨whole, fraction, exponent, hwhole, -, -, -, hcs⟩ := id h
    obtain ⟨c, more, rfl⟩ := List.exists_cons_of_ne_nil hwhole.1
    have hhead : ∃ more', cs = c :: more' := ⟨_, hcs⟩
    obtain ⟨more', rfl⟩ := hhead
    refine reads_of_step (by simp) fun fuel rest hrest => ?_
    obtain ⟨n, hn⟩ := scanNumber_of_isMagnitude false h hrest
    exact ⟨_, (value_digit fuel (hwhole.2 c List.mem_cons_self) _).trans hn, rfl⟩
  · refine reads_of_step (by simp) fun fuel rest hrest => ?_
    obtain ⟨n, hn⟩ := scanNumber_of_isMagnitude true h hrest
    exact ⟨_, hn, rfl⟩

/-- A string is read as the text that it spells, if it spells one. -/
theorem reads_string {body : List Char} (h : Skimmed body) :
    Reads ('"' :: (body ++ ['"'])) fun v =>
      ∃ text, v = .string text none ∧ ∀ cs, Quoted body cs → text = .ok cs := by
  refine reads_of_step (by simp) fun fuel rest hrest => ?_
  have happend : '"' :: (body ++ ['"']) ++ rest = '"' :: (body ++ '"' :: rest) := by simp
  have hvalue : value (fuel + 1) ('"' :: (body ++ '"' :: rest)) =
      (.string (stringText (body ++ '"' :: rest)) none, .ok rest) := by
    rw [value, skipGap_cons (by decide)]
    simp only [skipString_of_skimmed h]
  rw [happend, hvalue]
  exact ⟨_, rfl, _, rfl, fun cs hcs => stringText_of_quoted hcs rest⟩

/-! ### Objects -/

/-- What a member is read as. -/
def Entry (m : Member) (e : Except Fault (List Char) × Json) : Prop :=
  (∀ text, Quoted m.key text → e.1 = .ok text) ∧ ReadAs m.value e.2

/-- A member is read up to the comma or brace behind it. -/
theorem member_eq {m : Member} (hkey : Skimmed m.key) (hvalue : Reads m.value fun _ => True)
    (fuel : Nat) (hfuel : 3 * m.value.length ≤ fuel) {gap gap' more : List Char} (hgap : Gap gap)
    (hgap' : Gap gap') (hmore : Ends more) : ∃ e, Entry m e ∧
      (∀ r, skipGap more = '\x7d' :: r →
        member (fuel + 1) (m.key ++ '"' :: (gap ++ ':' :: (gap' ++ (m.value ++ more)))) =
          ([e], .closed, .ok r)) ∧
      ∀ r r', skipGap more = ',' :: r → skipGap r = '"' :: r' →
        member (fuel + 1) (m.key ++ '"' :: (gap ++ ':' :: (gap' ++ (m.value ++ more)))) =
          (e :: (member fuel r').1, (member fuel r').2.1, (member fuel r').2.2) := by
  obtain ⟨v, hv, -⟩ := hvalue fuel more hfuel hmore
  refine ⟨(stringText (m.key ++ '"' :: (gap ++ ':' :: (gap' ++ (m.value ++ more)))), v),
    ⟨fun text htext => stringText_of_quoted htext _, fuel, more, hfuel, hmore, hv⟩, ?_, ?_⟩
  · intro r hr
    rw [member, skipString_of_skimmed hkey]
    simp only [skipGap_mark hgap (show isGap ':' = false by decide), value_gap fuel hgap', hv, hr]
  · intro r r' hr hr'
    rw [member, skipString_of_skimmed hkey]
    simp only [skipGap_mark hgap (show isGap ':' = false by decide), value_gap fuel hgap', hv, hr,
      hr']

/-- The members of an object are read one after the other. -/
theorem member_row {items : List (List Char)} {body : List Char} (h : Row '\x7d' items body) :
    ∀ {ms : List Member}, List.Forall₂ Member.Spelt ms items → (∀ m ∈ ms, Skimmed m.key) →
      (∀ m ∈ ms, Reads m.value fun _ => True) → ∃ cs, body = '"' :: cs ∧
        ∀ fuel rest, 3 * body.length ≤ fuel →
          ∃ es, member fuel (cs ++ rest) = (es, .closed, .ok rest) ∧ List.Forall₂ Entry ms es := by
  induction h with
  | @last item gap hgap =>
    intro ms hms hkeys hvalues
    obtain _ | @⟨m, _, _, _, ⟨before, after, hbefore, hafter, rfl⟩, hnil⟩ := hms
    cases hnil
    refine ⟨m.key ++ '"' :: (before ++ ':' :: (after ++ m.value)) ++ (gap ++ ['\x7d']), rfl,
      fun fuel rest hfuel => ?_⟩
    simp only [List.length_append, List.length_cons, List.length_nil] at hfuel
    obtain ⟨fuel, rfl⟩ : ∃ f, fuel = f + 1 := ⟨fuel - 1, by omega⟩
    obtain ⟨e, hentry, hlast, -⟩ := member_eq (hkeys m List.mem_cons_self)
      (hvalues m List.mem_cons_self) fuel (by omega) hbefore hafter
      (hgap.ends (ends_cons (c := '\x7d') (by decide) rest))
    have happend : m.key ++ '"' :: (before ++ ':' :: (after ++ m.value)) ++ (gap ++ ['\x7d']) ++
        rest =
        m.key ++ '"' :: (before ++ ':' :: (after ++ (m.value ++ (gap ++ '\x7d' :: rest)))) := by
      simp
    rw [happend]
    exact ⟨[e], hlast rest (skipGap_mark hgap (by decide) rest), .cons hentry .nil⟩
  | @cons item gap gap' body items hgap hgap' h ih =>
    intro ms hms hkeys hvalues
    obtain _ | @⟨m, _, ms, _, ⟨before, after, hbefore, hafter, rfl⟩, hms⟩ := hms
    obtain ⟨cs, rfl, hrow⟩ := ih hms (fun m' hm' => hkeys m' (List.mem_cons_of_mem m hm'))
      fun m' hm' => hvalues m' (List.mem_cons_of_mem m hm')
    refine ⟨m.key ++ '"' :: (before ++ ':' :: (after ++ m.value)) ++
      (gap ++ ',' :: (gap' ++ '"' :: cs)), rfl, fun fuel rest hfuel => ?_⟩
    simp only [List.length_append, List.length_cons] at hfuel
    obtain ⟨fuel, rfl⟩ : ∃ f, fuel = f + 1 := ⟨fuel - 1, by omega⟩
    obtain ⟨es, hes, hentries⟩ := hrow fuel rest (by rw [List.length_cons]; omega)
    obtain ⟨e, hentry, -, hmore⟩ := member_eq (hkeys m List.mem_cons_self)
      (hvalues m List.mem_cons_self) fuel (by omega) hbefore hafter
      (hgap.ends (ends_cons (c := ',') (by decide) (gap' ++ '"' :: (cs ++ rest))))
    have happend : m.key ++ '"' :: (before ++ ':' :: (after ++ m.value)) ++
        (gap ++ ',' :: (gap' ++ '"' :: cs)) ++ rest =
        m.key ++ '"' :: (before ++ ':' :: (after ++ (m.value ++
          (gap ++ ',' :: (gap' ++ '"' :: (cs ++ rest)))))) := by
      simp
    rw [happend, hmore _ _ (skipGap_mark hgap (by decide) _) (skipGap_mark hgap' (by decide) _),
      hes]
    exact ⟨e :: es, rfl, .cons hentry hentries⟩

theorem value_brace (fuel : Nat) (r : List Char) : value (fuel + 1) ('\x7b' :: r) =
    (.object (firstMember fuel r).1 (firstMember fuel r).2.1, (firstMember fuel r).2.2) := rfl

theorem value_bracket (fuel : Nat) (r : List Char) : value (fuel + 1) ('[' :: r) =
    (.array (firstItem fuel r).1
      (match (firstItem fuel r).2 with | .ok _ => none | .error f => some f),
      (firstItem fuel r).2) := rfl

/-- **An object is read as its members**, each as it is read by itself. -/
theorem reads_object {ms : List Member} {cs : List Char} (h : IsObject ms cs)
    (hkeys : ∀ m ∈ ms, Skimmed m.key) (hvalues : ∀ m ∈ ms, Reads m.value fun _ => True) :
    Reads cs fun v => ∃ es, v = .object es .closed ∧ List.Forall₂ Entry ms es := by
  obtain ⟨items, hms, hcontainer⟩ := h
  intro fuel rest hfuel hrest
  cases hcontainer with
  | @empty gap hgap =>
    cases hms
    simp only [List.length_append, List.length_cons] at hfuel
    obtain ⟨fuel, rfl⟩ : ∃ f, fuel = f + 2 := ⟨fuel - 2, by omega⟩
    have happend : '\x7b' :: (gap ++ ['\x7d']) ++ rest = '\x7b' :: (gap ++ '\x7d' :: rest) := by
      simp
    have hfirst : firstMember (fuel + 1) (gap ++ '\x7d' :: rest) = ([], .closed, .ok rest) := by
      rw [firstMember, skipGap_mark hgap (by decide)]
      rfl
    rw [happend, value_brace, hfirst]
    exact ⟨_, rfl, [], rfl, .nil⟩
  | @full gap body _ hgap hrow =>
    obtain ⟨cs, rfl, hread⟩ := member_row hrow hms hkeys hvalues
    simp only [List.length_append, List.length_cons] at hfuel
    obtain ⟨fuel, rfl⟩ : ∃ f, fuel = f + 2 := ⟨fuel - 2, by omega⟩
    obtain ⟨es, hes, hentries⟩ := hread fuel rest (by rw [List.length_cons]; omega)
    have happend : '\x7b' :: (gap ++ '"' :: cs) ++ rest =
        '\x7b' :: (gap ++ '"' :: (cs ++ rest)) := by
      simp
    have hfirst : firstMember (fuel + 1) (gap ++ '"' :: (cs ++ rest)) =
        (es, .closed, .ok rest) := by
      rw [firstMember, skipGap_mark hgap (by decide)]
      exact hes
    rw [happend, value_brace, hfirst]
    exact ⟨_, rfl, es, rfl, hentries⟩

/-! ### Arrays -/

/-- What a value begins with is no gap and not the end of an array. -/
theorem starts_of_isValue {cs : List Char} (h : IsValue cs) :
    ∃ c r, cs = c :: r ∧ isGap c = false ∧ c ≠ ']' := by
  cases h with
  | null | true | false => exact ⟨_, _, rfl, by decide, by decide⟩
  | number h =>
    rcases h with ⟨whole, fraction, exponent, hwhole, -, -, -, rfl⟩ | ⟨ds, -, rfl⟩
    · obtain ⟨c, more, rfl⟩ := List.exists_cons_of_ne_nil hwhole.1
      have hdigit := hwhole.2 c List.mem_cons_self
      refine ⟨c, _, rfl, isGap_of_isDigit hdigit, fun heq => ?_⟩
      rw [heq] at hdigit
      exact absurd hdigit (by decide)
    · exact ⟨_, _, rfl, by decide, by decide⟩
  | string h => exact ⟨_, _, rfl, by decide, by decide⟩
  | array h hitems => cases h <;> exact ⟨_, _, rfl, by decide, by decide⟩
  | object h hkeys hvalues =>
    obtain ⟨items, -, hcontainer⟩ := h
    cases hcontainer <;> exact ⟨_, _, rfl, by decide, by decide⟩

/-- The elements of an array are read one after the other. -/
theorem item_row {items : List (List Char)} {body : List Char} (h : Row ']' items body)
    (hitems : ∀ i ∈ items, Reads i fun _ => True) :
    ∀ fuel rest, 3 * body.length + 1 ≤ fuel → ∃ vs, item fuel (body ++ rest) = (vs, .ok rest) := by
  induction h with
  | @last i gap hgap =>
    intro fuel rest hfuel
    simp only [List.length_append, List.length_cons, List.length_nil] at hfuel
    obtain ⟨fuel, rfl⟩ : ∃ f, fuel = f + 1 := ⟨fuel - 1, by omega⟩
    obtain ⟨v, hv, -⟩ := hitems i List.mem_cons_self fuel (gap ++ ']' :: rest) (by omega)
      (hgap.ends (ends_cons (by decide) rest))
    have happend : i ++ (gap ++ [']']) ++ rest = i ++ (gap ++ ']' :: rest) := by simp
    rw [happend, item, hv]
    simp only [skipGap_mark hgap (show isGap ']' = false by decide)]
    exact ⟨_, rfl⟩
  | @cons i gap gap' body items hgap hgap' h ih =>
    intro fuel rest hfuel
    simp only [List.length_append, List.length_cons] at hfuel
    obtain ⟨fuel, rfl⟩ : ∃ f, fuel = f + 1 := ⟨fuel - 1, by omega⟩
    obtain ⟨vs, hvs⟩ := ih (fun j hj => hitems j (List.mem_cons_of_mem i hj)) fuel rest (by omega)
    obtain ⟨v, hv, -⟩ := hitems i List.mem_cons_self fuel (gap ++ ',' :: (gap' ++ (body ++ rest)))
      (by omega) (hgap.ends (ends_cons (by decide) _))
    have happend : i ++ (gap ++ ',' :: (gap' ++ body)) ++ rest =
        i ++ (gap ++ ',' :: (gap' ++ (body ++ rest))) := by simp
    rw [happend, item, hv]
    simp only [skipGap_mark hgap (show isGap ',' = false by decide), item_gap fuel hgap', hvs]
    exact ⟨_, rfl⟩

theorem reads_array {items : List (List Char)} {cs : List Char} (h : Container '[' ']' items cs)
    (hitems : ∀ i ∈ items, IsValue i) (hreads : ∀ i ∈ items, Reads i fun _ => True) :
    Reads cs fun v => v.skip = none := by
  intro fuel rest hfuel hrest
  cases h with
  | @empty gap hgap =>
    simp only [List.length_append, List.length_cons] at hfuel
    obtain ⟨fuel, rfl⟩ : ∃ f, fuel = f + 2 := ⟨fuel - 2, by omega⟩
    have happend : '[' :: (gap ++ [']']) ++ rest = '[' :: (gap ++ ']' :: rest) := by simp
    have hfirst : firstItem (fuel + 1) (gap ++ ']' :: rest) = ([], .ok rest) := by
      rw [firstItem, skipGap_mark hgap (by decide)]
      rfl
    rw [happend, value_bracket, hfirst]
    exact ⟨_, rfl, rfl⟩
  | @full gap body _ hgap hrow =>
    simp only [List.length_append, List.length_cons] at hfuel
    obtain ⟨fuel, rfl⟩ : ∃ f, fuel = f + 2 := ⟨fuel - 2, by omega⟩
    obtain ⟨vs, hvs⟩ := item_row hrow hreads fuel rest (by omega)
    obtain ⟨c, r, hbody, hgapless, hopen⟩ : ∃ c r, body = c :: r ∧ isGap c = false ∧ c ≠ ']' := by
      cases hrow with
      | last hgap' =>
        obtain ⟨c, r, rfl, hc⟩ := starts_of_isValue (hitems _ List.mem_cons_self)
        exact ⟨c, _, rfl, hc⟩
      | cons hgap' hgap'' hrow' =>
        obtain ⟨c, r, rfl, hc⟩ := starts_of_isValue (hitems _ List.mem_cons_self)
        exact ⟨c, _, rfl, hc⟩
    have happend : '[' :: (gap ++ body) ++ rest = '[' :: (gap ++ (body ++ rest)) := by simp
    have hfirst : firstItem (fuel + 1) (gap ++ (body ++ rest)) = (vs, .ok rest) := by
      rw [firstItem, skipGap_append hgap, hbody, List.cons_append, skipGap_cons hgapless]
      rw [hbody, List.cons_append] at hvs
      split
      · rename_i heq
        nomatch heq
      · rename_i heq
        exact absurd (List.cons.inj heq).1 hopen
      · exact hvs
    rw [happend, value_bracket, hfirst]
    exact ⟨_, rfl, rfl⟩

/-- **Every value is read, and may be passed over.** -/
theorem reads_value {cs : List Char} (h : IsValue cs) : Reads cs fun v => v.skip = none := by
  induction h with
  | null => exact reads_null.mono fun v hv => hv ▸ rfl
  | true => exact reads_true.mono fun v hv => hv ▸ rfl
  | false => exact reads_false.mono fun v hv => hv ▸ rfl
  | number h => exact reads_number h
  | string h => exact (reads_string h).mono fun v ⟨_, hv, _⟩ => hv ▸ rfl
  | array h hitems ih => exact reads_array h hitems fun i hi => (ih i hi).mono fun _ _ => trivial
  | object h hkeys _ ih =>
    exact (reads_object h hkeys fun m hm => (ih m hm).mono fun _ _ => trivial).mono
      fun v ⟨_, hv, _⟩ => hv ▸ rfl

end InOrder.Json
