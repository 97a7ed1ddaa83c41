import InOrder.Program.Load
import InOrder.Proofs.Images
import InOrder.Proofs.Program.Grammar

/-!
# The two formats of a program

A program is words after a base address. A text lists them (`Program.Lists`) in any layout that the
grammar has; a binary file holds their bytes.

`Program.formats_exact`: every text that lists a program is read as its image, which carries its
words and nothing else; a binary file is loaded as the texts that name no base address are, and is
refused if and only if it does not consist of whole words.
-/

namespace InOrder

/-! ## The bytes of words -/

namespace Bytes

theorem length_flatMap_ofUInt32 (ws : List UInt32) :
    (ws.flatMap ofUInt32).length = 4 * ws.length := by
  induction ws with
  | nil => rfl
  | cons w ws ih =>
    rw [List.flatMap_cons, List.length_append, length_ofUInt32, ih, List.length_cons]
    omega

/-- The bytes of a word among those of all. -/
theorem take_drop_flatMap {ws : List UInt32} {i : Nat} {w : UInt32} (h : ws[i]? = some w) :
    ((ws.flatMap ofUInt32).drop (4 * i)).take 4 = ofUInt32 w := by
  induction ws generalizing i with
  | nil => cases h
  | cons v ws ih =>
    rw [List.flatMap_cons]
    cases i with
    | zero =>
      obtain rfl : v = w := by simpa using h
      exact List.take_left' (length_ofUInt32 v)
    | succ i =>
      rw [Nat.mul_succ, Nat.add_comm, ← List.drop_drop, List.drop_left' (length_ofUInt32 v)]
      exact ih (by simpa using h)

/-- The word at a place, if its bytes are there. -/
theorem u32At_of_take {bs : List UInt8} {i : Nat} {w : UInt32}
    (h : (bs.drop i).take 4 = ofUInt32 w) : u32At bs i = w := by
  rw [u32At, leading_eq_toNat_take, h, ofUInt32, toNat_ofNat, Nat.mod_eq_of_lt w.toNat_lt,
    UInt32.ofNat_toNat]

end Bytes

/-! ## Words in an image -/

namespace Image

/-- The image has just these words, from `b` on. -/
structure Carries (m : Image) (b : UInt64) (ws : List UInt32) : Prop where
  count : m.wordCount = ws.length
  entry : m.entry = b
  words : ∀ i w, ws[i]? = some w → m.read (b + UInt64.ofNat (4 * i)) 4 = Bytes.ofUInt32 w
  outside : ∀ addr len i, i < len →
    (addr + UInt64.ofNat i < b ∨ b.toNat + 4 * ws.length ≤ (addr + UInt64.ofNat i).toNat) →
    (m.read addr len)[i]? = some 0

variable {m : Image}

/-- The bytes of an image that does not reach past the last address. -/
theorem byteAt_inside {k : Nat} (hk : k < m.bytes.size)
    (hfit : m.base.toNat + m.bytes.size ≤ 2 ^ 64) :
    m.byteAt (m.base + UInt64.ofNat k) = m.bytes[k] := by
  have hsum : (m.base + UInt64.ofNat k).toNat = m.base.toNat + k := by
    rw [UInt64.toNat_add, UInt64.toNat_ofNat', Nat.add_mod_mod, Nat.mod_eq_of_lt (by omega)]
  have hle : m.base ≤ m.base + UInt64.ofNat k := by
    rw [UInt64.le_iff_toNat_le, hsum]
    exact Nat.le_add_right _ _
  rw [byteAt, if_neg (UInt64.not_lt.mpr hle), UInt64.toNat_sub_of_le _ _ hle, hsum,
    Nat.add_sub_cancel_left, Array.getD_eq_getD_getElem?, Array.getElem?_eq_getElem hk,
    Option.getD_some]

theorem byteAt_outside {a : UInt64} (h : a < m.base ∨ m.base.toNat + m.bytes.size ≤ a.toNat) :
    m.byteAt a = 0 := by
  rw [byteAt]
  split
  · rfl
  · rename_i hlt
    have hle : m.base ≤ a := UInt64.not_lt.mp hlt
    have hend := h.resolve_left hlt
    have hpast : m.bytes.size ≤ (a - m.base).toNat := by
      rw [UInt64.toNat_sub_of_le _ _ hle]
      omega
    rw [Array.getD_eq_getD_getElem?, Array.getElem?_eq_none hpast, Option.getD_none]

theorem read_inside {k len : Nat} (hk : k + len ≤ m.bytes.size)
    (hfit : m.base.toNat + m.bytes.size ≤ 2 ^ 64) :
    m.read (m.base + UInt64.ofNat k) len = (m.bytes.toList.drop k).take len := by
  refine List.ext_getElem (by simp; omega) fun i hi _ => ?_
  have hi : i < len := by simpa using hi
  have haddr : m.base + UInt64.ofNat k + UInt64.ofNat i = m.base + UInt64.ofNat (k + i) := by
    rw [UInt64.ofNat_add, UInt64.add_assoc]
  simp only [read, List.getElem_map, List.getElem_range, haddr,
    byteAt_inside (show k + i < m.bytes.size by omega) hfit]
  simp

/-- The image of some words carries them. -/
theorem carries_ofWords {b : UInt64} {ws : List UInt32} (h : b.toNat + 4 * ws.length ≤ 2 ^ 64) :
    (ofWords b ws).Carries b ws := by
  have hsize : (ofWords b ws).bytes.size = 4 * ws.length := by
    rw [ofWords, List.size_toArray, Bytes.length_flatMap_ofUInt32]
  refine ⟨?_, rfl, fun i w hw => ?_, fun addr len i hi hout => ?_⟩
  · rw [wordCount, hsize, Nat.mul_div_cancel_left _ (by decide)]
  · have hi : i < ws.length := (List.getElem?_eq_some_iff.mp hw).1
    have hread : (ofWords b ws).read (b + UInt64.ofNat (4 * i)) 4 =
        ((ofWords b ws).bytes.toList.drop (4 * i)).take 4 :=
      read_inside (m := ofWords b ws) (by omega) (hsize ▸ h)
    rw [← Bytes.take_drop_flatMap hw]
    exact hread
  · have hbyte : (ofWords b ws).byteAt (addr + UInt64.ofNat i) = 0 :=
      byteAt_outside (by rwa [hsize])
    rw [read, List.getElem?_map, List.getElem?_range hi, Option.map_some, hbyte]

end Image

namespace Program

/-! ## Words in a text -/

/-- The text lists the words, one a line, after a line for the base address or none. -/
def Lists (base? : Option UInt64) (ws : List UInt32) (text : List Char) : Prop :=
  ∃ ls es, Text.Laid ls text ∧ List.Forall₂ (Says false) ls es ∧
    es.filter (· ≠ .nothing) = base?.toList.map .base ++ ws.map .word

/-- What a text lists can be computed, line by line. -/
theorem lists_of_entries {base? : Option UInt64} {ws : List UInt32} {text : List Char}
    (es : List Entry) (hread : (Text.lines text).map (entry false) = es.map .ok)
    (hsign : ∀ line ∈ Text.lines text, '+' ∉ content line)
    (hes : es.filter (· ≠ .nothing) = base?.toList.map .base ++ ws.map .word) :
    Lists base? ws text := by
  refine ⟨Text.lines text, es, Text.laid_lines text, ?_, hes⟩
  have hlines : List.Forall₂ (fun line e => entry false line = .ok e) (Text.lines text) es := by
    rw [← List.forall₂_eq_eq_eq] at hread
    rwa [List.forall₂_map_left_iff, List.forall₂_map_right_iff] at hread
  refine ((List.forall₂_and_left _ _).mpr ⟨hsign, hlines⟩).imp fun line e h => ?_
  exact says_false_iff.mpr ⟨(entry_eq_ok_iff.mp h.2).1, h.1⟩

/-- Lines that say nothing do not count. -/
theorem filterMap_filter_nothing {β : Type} {f : Entry → Option β} (hf : f .nothing = none)
    (es : List Entry) : (es.filter (· ≠ .nothing)).filterMap f = es.filterMap f := by
  rw [List.filterMap_filter]
  congr 1
  funext e
  cases e <;> simp [hf]

theorem basesFirst_filter_nothing (es : List Entry) :
    BasesFirst (es.filter (· ≠ .nothing)) ↔ BasesFirst es := by
  rw [BasesFirst, BasesFirst, List.pairwise_filter]
  have hpair : ∀ e e' : Entry,
      (decide (e ≠ .nothing) = true → decide (e' ≠ .nothing) = true →
        e.word? = none ∨ e'.base? = none) ↔ e.word? = none ∨ e'.base? = none := by
    intro e e'
    cases e <;> cases e' <;> simp [Entry.word?, Entry.base?]
  simp only [hpair]

theorem words_listing (base? : Option UInt64) (ws : List UInt32) :
    words (base?.toList.map .base ++ ws.map .word) = ws := by
  have hwords : words (ws.map .word) = ws := by
    simp [words, List.filterMap_map, Function.comp_def, Entry.word?]
  cases base? with
  | none => exact hwords
  | some b => exact (words_cons _ _).trans hwords

theorem lastBase_listing (base : UInt64) (base? : Option UInt64) (ws : List UInt32) :
    lastBase base (base?.toList.map .base ++ ws.map .word) = base?.getD base := by
  have hbase : ∀ b, lastBase b (ws.map .word) = b := by
    simp [lastBase, List.filterMap_map, Function.comp_def, Entry.base?]
  cases base? with
  | none => exact hbase base
  | some b => exact (lastBase_cons base _ _).trans (hbase b)

theorem basesFirst_listing (base? : Option UInt64) (ws : List UInt32) :
    BasesFirst (base?.toList.map .base ++ ws.map .word) := by
  have hwords : BasesFirst (ws.map .word) := by
    rw [BasesFirst, List.pairwise_map]
    exact List.pairwise_of_forall fun _ _ => .inr rfl
  cases base? with
  | none => exact hwords
  | some b => exact List.pairwise_cons.mpr ⟨fun _ _ => .inl rfl, hwords⟩

/-- A text that lists a program is read as its image. -/
theorem parse_of_lists {base? : Option UInt64} {ws : List UInt32} {text : List Char}
    (h : Lists base? ws text) : parse text = .ok (.ofWords (base?.getD defaultBase) ws) := by
  obtain ⟨ls, es, hlaid, hsaid, hes⟩ := h
  have hbase : lastBase defaultBase es = base?.getD defaultBase := by
    rw [lastBase, ← filterMap_filter_nothing rfl, hes]
    exact lastBase_listing defaultBase base? ws
  have hwords : words es = ws := by
    rw [words, ← filterMap_filter_nothing rfl, hes]
    exact words_listing base? ws
  refine parse_eq_ok_iff.mpr ⟨ls, es, hlaid, ?_, ?_, ?_⟩
  · exact hsaid.imp fun _ _ hline => (says_false_iff.mp hline).1
  · rw [← basesFirst_filter_nothing, hes]
    exact basesFirst_listing base? ws
  · rw [hbase, hwords]

/-! ## Words in a file -/

theorem wordsOf_flatMap (ws : List UInt32) :
    wordsOf ws.length (ws.flatMap Bytes.ofUInt32) = ws := by
  refine List.ext_getElem (by simp [wordsOf]) fun i _ hi => ?_
  have hword : Bytes.u32At (ws.flatMap Bytes.ofUInt32) (4 * i) = ws[i] :=
    Bytes.u32At_of_take (Bytes.take_drop_flatMap (List.getElem?_eq_getElem hi))
  simpa [wordsOf] using hword

/-- A binary file that holds the bytes of some words. -/
theorem load_words {path : String} (h : isBinary path = true) (ws : List UInt32) :
    load path (.ok (ws.flatMap Bytes.ofUInt32)) = .ok (.ofWords defaultBase ws) := by
  have hlength := Bytes.length_flatMap_ofUInt32 ws
  rw [load, if_pos h, ofBinary, if_pos (by omega), hlength,
    Nat.mul_div_cancel_left _ (by decide), wordsOf_flatMap]

/-- A file that holds a text which is read. -/
theorem load_text {path : String} (h : isBinary path = false) {text : String} {image : Image}
    (hparse : parse text.toList = .ok image) :
    load path (.ok text.toUTF8.data.toList) = .ok image := by
  have hutf8 : String.fromUTF8? (ByteArray.mk text.toUTF8.data.toList.toArray) = some text :=
    dif_pos text.isValidUTF8
  simp only [load, h, Bool.false_eq_true, if_false, hutf8, hparse]

theorem load_refused_iff {path : String} (h : isBinary path = true) (bytes : List UInt8) :
    (∃ e, load path (.ok bytes) = .error e) ↔ bytes.length % 4 ≠ 0 := by
  rw [load, if_pos h, ofBinary]
  by_cases hwhole : bytes.length % 4 = 0 <;> simp [hwhole]

/-- **Both formats give the program that they hold.** -/
theorem formats_exact {b : UInt64} {ws : List UInt32} (h : b.toNat + 4 * ws.length ≤ 2 ^ 64) :
    (∀ text, Lists (some b) ws text → parse text = .ok (.ofWords b ws)) ∧
      (Image.ofWords b ws).Carries b ws ∧
      (∀ path path' (text : String), isBinary path = true → isBinary path' = false →
        Lists none ws text.toList →
        load path (.ok (ws.flatMap Bytes.ofUInt32)) = load path' (.ok text.toUTF8.data.toList)) ∧
      ∀ path bytes, isBinary path = true →
        ((∃ e, load path (.ok bytes) = .error e) ↔ bytes.length % 4 ≠ 0) := by
  refine ⟨fun text htext => parse_of_lists htext, Image.carries_ofWords h, ?_, ?_⟩
  · intro path path' text hpath hpath' htext
    rw [load_words hpath, load_text hpath' (parse_of_lists htext)]
    rfl
  · exact fun path bytes hpath => load_refused_iff hpath bytes

/-- A program of two words in both formats. -/
theorem formats_exact_pair :
    Lists (some 0x1000) [0x13, 0x73]
        " # two words\r\n\r\n@ 0X1000\n\t0x00000000013# the first\n\n 73 \r\n# end".toList ∧
      parse " # two words\r\n\r\n@ 0X1000\n\t0x00000000013# the first\n\n 73 \r\n# end".toList =
        .ok (.ofWords 0x1000 [0x13, 0x73]) ∧
      (Image.ofWords 0x1000 [0x13, 0x73]).Carries 0x1000 [0x13, 0x73] ∧
      load "pair.bin" (.ok [0x13, 0, 0, 0, 0x73, 0, 0, 0]) =
        load "pair.hex" (.ok "0X13\r\n073".toUTF8.data.toList) ∧
      ∃ e, load "pair.bin" (.ok [0x13, 0, 0]) = .error e := by
  have hfits : (0x1000 : UInt64).toNat + 4 * [(0x13 : UInt32), 0x73].length ≤ 2 ^ 64 := by decide
  obtain ⟨htexts, hcarries, hformats, hrefused⟩ := formats_exact hfits
  have hlists : Lists (some 0x1000) [0x13, 0x73]
      " # two words\r\n\r\n@ 0X1000\n\t0x00000000013# the first\n\n 73 \r\n# end".toList :=
    lists_of_entries [.nothing, .nothing, .base 0x1000, .word 0x13, .nothing, .word 0x73, .nothing]
      (by decide) (by decide) (by decide)
  have hbare : Lists none [0x13, 0x73] "0X13\r\n073".toList :=
    lists_of_entries [.word 0x13, .word 0x73] (by decide) (by decide) (by decide)
  refine ⟨hlists, htexts _ hlists, hcarries, ?_, ?_⟩
  · exact hformats "pair.bin" "pair.hex" "0X13\r\n073" (by decide) (by decide) hbare
  · exact (hrefused "pair.bin" [0x13, 0, 0] (by decide)).mpr (by decide)

end Program

end InOrder
