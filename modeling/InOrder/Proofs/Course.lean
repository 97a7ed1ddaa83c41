import InOrder.Image
import InOrder.Isa
import InOrder.Payload.Line
import Mathlib.Algebra.Group.Nat.Defs
import Mathlib.Data.Finset.Card
import Mathlib.Data.Finset.Range

/-!
# The course of a thread

What a thread executes, told without a pipeline. Every thread starts at the entry of the program;
after a jump it goes on at the target of the jump, after any other word at the next word, and
where nothing is loaded the words are zero.

* `Image.pcAt m n` is the address of instruction `n`, `Image.course m n` the first `n`
  instructions.
* `Image.WordAligned`: the entry and the jumps that are executed keep to whole words. Then every
  address of the course is that of a word (`pcAt_aligned`).
* `Image.SuspendsAt m e`: instruction `e` is the first that suspends. Then the course is asked to
  keep to whole words only so far (`SuspendsAt.alignedFrom`).
* `wordAt?_of_read`: a line that was read from the image has the words of the image.
-/

namespace InOrder

/-- Where a thread goes on after the word `inst` at `pc`. -/
def Isa.next (pc : UInt64) (inst : UInt32) : UInt64 :=
  match Isa.classify inst with
  | .jump offset => Isa.displace pc offset
  | .suspend => Isa.nextWord pc
  | .plain => Isa.nextWord pc

namespace Image

/-- The little-endian word at an address. -/
def wordAt (m : Image) (pc : UInt64) : UInt32 := Bytes.u32At (m.read pc 4) 0

/-- The address of instruction `n` of a thread. -/
def pcAt (m : Image) : Nat → UInt64
  | 0 => m.entry
  | n + 1 => Isa.next (m.pcAt n) (m.wordAt (m.pcAt n))

/-- The first `n` instructions of a thread: where each stands, and its word. -/
def course (m : Image) (n : Nat) : List (UInt64 × UInt32) :=
  (List.range n).map fun i => (m.pcAt i, m.wordAt (m.pcAt i))

/-- The program starts at a word, and the jumps that it executes lead to words. -/
structure WordAligned (m : Image) : Prop where
  entry : m.entry.toNat % 4 = 0
  jumps : ∀ n offset, Isa.classify (m.wordAt (m.pcAt n)) = .jump offset → offset % 4 = 0

variable {m : Image}

@[simp] theorem length_course (m : Image) (n : Nat) : (m.course n).length = n := by
  simp [course]

theorem course_succ (m : Image) (n : Nat) :
    m.course (n + 1) = m.course n ++ [(m.pcAt n, m.wordAt (m.pcAt n))] := by
  simp [course, List.range_succ]

/-- What a course begins with is a course. -/
theorem eq_course_of_append {n : Nat} {xs ys : List (UInt64 × UInt32)}
    (h : xs ++ ys = m.course n) : xs = m.course xs.length := by
  have hlen : xs.length ≤ n := by
    have := congrArg List.length h
    simp only [List.length_append, length_course] at this
    omega
  have htake : xs = (m.course n).take xs.length := by rw [← h, List.take_left]
  rw [course, ← List.map_take, List.take_range, Nat.min_eq_left hlen] at htake
  exact htake

/-! ## Whole words -/

theorem displace_aligned {pc : UInt64} {offset : Int} (hpc : pc.toNat % 4 = 0)
    (ho : offset % 4 = 0) : (Isa.displace pc offset).toNat % 4 = 0 := by
  have h : (UInt64.ofBitVec (BitVec.ofInt 64 offset)).toNat % 4 = 0 := by
    rw [UInt64.toNat_ofBitVec, BitVec.toNat_ofInt]
    omega
  unfold Isa.displace
  rw [UInt64.toNat_add]
  omega

theorem nextWord_aligned {pc : UInt64} (hpc : pc.toNat % 4 = 0) :
    (Isa.nextWord pc).toNat % 4 = 0 := by
  have h4 : (4 : UInt64).toNat = 4 := rfl
  unfold Isa.nextWord
  rw [UInt64.toNat_add, h4]
  omega

/-- As far as the jumps keep to whole words, every address is that of a word. -/
theorem pcAt_aligned_of_jumps (hentry : m.entry.toNat % 4 = 0) : ∀ {n : Nat},
    (∀ i < n, ∀ offset, Isa.classify (m.wordAt (m.pcAt i)) = .jump offset → offset % 4 = 0) →
      (m.pcAt n).toNat % 4 = 0
  | 0, _ => hentry
  | n + 1, hjumps => by
    have ih := pcAt_aligned_of_jumps hentry fun i hi => hjumps i (Nat.lt_succ_of_lt hi)
    unfold pcAt Isa.next
    split
    · rename_i offset hk
      exact displace_aligned ih (hjumps n (Nat.lt_succ_self n) offset hk)
    · exact nextWord_aligned ih
    · exact nextWord_aligned ih

/-- **Every address of an aligned course is that of a word.** -/
theorem pcAt_aligned (h : m.WordAligned) (n : Nat) : (m.pcAt n).toNat % 4 = 0 :=
  pcAt_aligned_of_jumps h.entry fun i _ => h.jumps i

/-! ## Up to the word that suspends -/

/-- The course goes on from instruction `n` to instruction `j` without being suspended. -/
structure Passes (m : Image) (n j : Nat) : Prop where
  le : n ≤ j
  goes : ∀ i, n ≤ i → i < j → Isa.classify (m.wordAt (m.pcAt i)) ≠ .suspend

theorem Passes.refl (m : Image) (n : Nat) : m.Passes n n :=
  ⟨Nat.le_refl n, fun _ hle hlt => absurd hlt (Nat.not_lt.mpr hle)⟩

theorem Passes.cons {n j : Nat} (hn : Isa.classify (m.wordAt (m.pcAt n)) ≠ .suspend)
    (h : m.Passes (n + 1) j) : m.Passes n j := by
  refine ⟨Nat.le_of_succ_le h.le, fun i hle hlt => ?_⟩
  rcases Nat.eq_or_lt_of_le hle with rfl | hlt'
  · exact hn
  · exact h.goes i hlt' hlt

/-- The course keeps to whole words from instruction `n` on, until it is suspended. -/
def AlignedFrom (m : Image) (n : Nat) : Prop := ∀ j, m.Passes n j → (m.pcAt j).toNat % 4 = 0

theorem WordAligned.alignedFrom (h : m.WordAligned) (n : Nat) : m.AlignedFrom n :=
  fun j _ => pcAt_aligned h j

/-- Instruction `e` is the first that suspends, and the course keeps to whole words up to there. -/
structure SuspendsAt (m : Image) (e : Nat) : Prop where
  entry : m.entry.toNat % 4 = 0
  jumps : ∀ n < e, ∀ offset, Isa.classify (m.wordAt (m.pcAt n)) = .jump offset → offset % 4 = 0
  goes : ∀ n < e, Isa.classify (m.wordAt (m.pcAt n)) ≠ .suspend
  suspends : Isa.classify (m.wordAt (m.pcAt e)) = .suspend

theorem SuspendsAt.alignedFrom {e n : Nat} (h : m.SuspendsAt e) (hn : n ≤ e) :
    m.AlignedFrom n := by
  intro j hpasses
  have hj : j ≤ e := Nat.le_of_not_lt fun hlt => hpasses.goes e hn hlt h.suspends
  exact pcAt_aligned_of_jumps h.entry fun i hi => h.jumps i (by omega)

/-- A course that comes back to an address goes round. -/
theorem pcAt_add_of_eq {i j : Nat} (h : m.pcAt i = m.pcAt j) : ∀ n, m.pcAt (i + n) = m.pcAt (j + n)
  | 0 => h
  | n + 1 => by rw [← Nat.add_assoc, ← Nat.add_assoc, pcAt, pcAt, pcAt_add_of_eq h n]

/-- A course that is suspended has not come back to an address, for else it would go round. -/
theorem SuspendsAt.pcAt_ne {e i j : Nat} (h : m.SuspendsAt e) (hij : i < j) (hj : j ≤ e) :
    m.pcAt i ≠ m.pcAt j := by
  intro heq
  have hround := pcAt_add_of_eq heq (e - j)
  rw [Nat.add_sub_cancel' hj] at hround
  refine h.goes (i + (e - j)) (by omega) ?_
  rw [hround]
  exact h.suspends

/-- **A course is suspended while there are words left that it has not come to.** -/
theorem SuspendsAt.lt {e : Nat} (h : m.SuspendsAt e) : e < 2 ^ 62 := by
  have hword : ∀ n < e + 1, (m.pcAt n).toNat / 4 < 2 ^ 62 := fun n _ => by
    have hlt := (m.pcAt n).toNat_lt
    omega
  have haligned : ∀ n < e + 1, (m.pcAt n).toNat % 4 = 0 := fun n hn =>
    pcAt_aligned_of_jumps h.entry fun i hi => h.jumps i (by omega)
  have hinj : Set.InjOn (fun n => (m.pcAt n).toNat / 4) (Finset.range (e + 1)) := by
    intro i hi j hj heq
    have hi := Finset.mem_range.mp hi
    have hj := Finset.mem_range.mp hj
    have hi4 := haligned i hi
    have hj4 := haligned j hj
    have hsame : m.pcAt i = m.pcAt j := UInt64.toNat_inj.mp (by simp only at heq; omega)
    rcases Nat.lt_trichotomy i j with hlt | hsame' | hlt
    · exact absurd hsame (h.pcAt_ne hlt (Nat.le_of_lt_succ hj))
    · exact hsame'
    · exact absurd hsame.symm (h.pcAt_ne hlt (Nat.le_of_lt_succ hi))
  have hcard := Finset.card_le_card_of_injOn _ (t := Finset.range (2 ^ 62))
    (fun n hn => Finset.mem_range.mpr (hword n (Finset.mem_range.mp hn))) hinj
  rw [Finset.card_range, Finset.card_range] at hcard
  omega

/-- The thread is suspended at the address after the word that suspends it. -/
theorem SuspendsAt.pcAt_succ {e : Nat} (h : m.SuspendsAt e) :
    m.pcAt (e + 1) = Isa.nextWord (m.pcAt e) := by
  rw [pcAt, Isa.next, h.suspends]

/-! ## A jump to itself -/

/-- The program of one jump, to itself. -/
def spin : Image := .ofWords 0x80000000 [0x6f]

theorem pcAt_spin : ∀ n, spin.pcAt n = 0x80000000
  | 0 => rfl
  | n + 1 => by
    have hword : spin.wordAt 0x80000000 = 0x6f := by decide
    rw [pcAt, pcAt_spin n, hword]
    decide

theorem wordAligned_spin : spin.WordAligned where
  entry := by decide
  jumps n offset hjump := by
    have hword : Isa.classify (spin.wordAt 0x80000000) = .jump 0 := by decide
    rw [pcAt_spin, hword] at hjump
    rw [← Isa.Kind.jump.inj hjump]
    rfl

/-! ## A word that suspends -/

/-- A program of which the first word is plain, and the second one suspends. -/
theorem suspendsAt_one (hentry : m.entry.toNat % 4 = 0)
    (hplain : Isa.classify (m.wordAt (m.pcAt 0)) = .plain)
    (hsuspends : Isa.classify (m.wordAt (m.pcAt 1)) = .suspend) : m.SuspendsAt 1 where
  entry := hentry
  jumps n hn offset hjump := by
    rw [Nat.lt_one_iff.mp hn, hplain] at hjump
    exact Isa.Kind.noConfusion hjump
  goes n hn := by
    rw [Nat.lt_one_iff.mp hn, hplain]
    exact Isa.Kind.noConfusion
  suspends := hsuspends

/-- The program of a plain word, and a word that suspends. -/
def pause : Image := .ofWords 0x80000000 [19, 115]

theorem suspendsAt_pause : pause.SuspendsAt 1 :=
  suspendsAt_one (by decide) (by decide) (by decide)

theorem read_drop (m : Image) (base : UInt64) (n k : Nat) :
    (m.read base n).drop k = m.read (base + UInt64.ofNat k) (n - k) := by
  apply List.ext_getElem
  · simp [length_read]
  · intro i h1 h2
    simp only [read, List.getElem_drop, List.getElem_map, List.getElem_range]
    rw [UInt64.ofNat_add, UInt64.add_assoc]

theorem read_take (m : Image) (base : UInt64) {n k : Nat} (hk : k ≤ n) :
    (m.read base n).take k = m.read base k := by
  rw [read, ← List.map_take, List.take_range, Nat.min_eq_left hk, read]

end Image

/-- **A line read from the image has the words of the image.** -/
theorem Line.wordAt?_of_read {m : Image} {l : Line} {n : Nat} {pc : UInt64}
    (hdata : l.data = m.read l.lineBase n) (hin : (pc - l.lineBase).toNat + 4 ≤ n) :
    l.wordAt? pc = some (m.wordAt pc) := by
  have hlen : l.data.length = n := by rw [hdata, Image.length_read]
  have hpc : l.lineBase + UInt64.ofNat (pc - l.lineBase).toNat = pc := by
    rw [UInt64.ofNat_toNat, UInt64.add_comm, UInt64.sub_add_cancel]
  have hword : (l.data.drop (pc - l.lineBase).toNat).take 4 = m.read pc 4 := by
    rw [hdata, Image.read_drop, hpc, Image.read_take m _ (by omega)]
  unfold Line.wordAt? Image.wordAt
  rw [hlen, if_pos hin, Bytes.u32At, Bytes.u32At, Bytes.leading_eq_toNat_take,
    Bytes.leading_eq_toNat_take, hword, List.drop_zero, Image.read_take m _ (Nat.le_refl 4)]

/-- No word is left in a line after its last one. -/
theorem Line.wordAt?_eq_none {m : Image} {l : Line} {n : Nat} {pc : UInt64}
    (hdata : l.data = m.read l.lineBase n) (h : l.wordAt? pc = none) :
    n < (pc - l.lineBase).toNat + 4 := by
  refine Nat.lt_of_not_le fun hc => ?_
  rw [wordAt?_of_read hdata hc] at h
  exact absurd h (by simp)

end InOrder
