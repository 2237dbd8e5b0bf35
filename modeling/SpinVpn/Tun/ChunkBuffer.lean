import SpinVpn.Lib.Memory
import SpinVpn.Lib.Simulation

/-!
# ChunkBuffer — the circular packet buffer

`badvpn/structure/ChunkBuffer2.h`.  The buffer is an array of blocks.  A packet takes one block with
its length and as many more as its octets need, all in a row; where a packet of the largest size no
longer fits behind the last one, the array wraps before its end.  What the buffer tells about its
input and its output is kept in fields that an operation updates only if it may have changed them.

`Holds` says which packets lie in the array and that those fields are up to date, and every
operation keeps it.  A buffer is then a queue whose packets come out octet for octet as they went
in, the assertions of the source hold in every state, and neither the input nor the output reaches
beyond the array (`chunkBuffer_fifo`).
-/

namespace SpinVpn
namespace Tun

open EventMachine Memory

def bdivideUp (a b : Nat) : Nat :=
  if 0 < a % b then a / b + 1 else a / b

/-- The array, and where in it the packets lie. -/
structure Ring where
  buffer : Mem
  size : Nat
  wrap : Nat
  start : Nat
  used : Nat
  mtu : Nat

/-- The buffer with what it tells about its input and its output.  Addresses are those of octets,
counted from the begin of the array. -/
structure ChunkBuffer2 extends Ring where
  inputDest : Option Nat := none
  inputAvail : Int := -1
  outputDest : Option Nat := none
  outputAvail : Int := -1

/-- `sizeof(struct ChunkBuffer2_block)` -/
def blockSize : Nat :=
  4

/-! ## The operations -/

namespace Ring

def endBlock (r : Ring) : Nat :=
  if r.wrap - r.start ≤ r.used then r.used - (r.wrap - r.start) else r.start + r.used

/-- The number of free blocks behind the last packet. -/
def free (r : Ring) : Int :=
  if r.wrap - r.start ≤ r.used then r.start - r.endBlock else r.size - r.endBlock

/-- It will never be possible to write a packet of the largest size behind the last one. -/
def Never (r : Ring) : Prop :=
  (r.size : Int) - r.endBlock - 1 < r.mtu

instance (r : Ring) : Decidable r.Never :=
  inferInstanceAs (Decidable (_ < _))

/-- The length of the first packet. -/
def firstLen (r : Ring) : Nat :=
  loadInt r.buffer (blockSize * r.start)

end Ring

namespace ChunkBuffer2

def updateInput (s : ChunkBuffer2) : ChunkBuffer2 :=
  if s.Never then { s with inputDest := none, inputAvail := -1 }
  else if 0 < s.free then
    -- more space will become available as packets are read from the buffer
    { s with inputDest := some (blockSize * (s.endBlock + 1)), inputAvail := (s.free - 1) * blockSize }
  else { s with inputDest := none, inputAvail := -1 }

def updateOutput (s : ChunkBuffer2) : ChunkBuffer2 :=
  if 0 < s.used then
    { s with outputDest := some (blockSize * (s.start + 1)), outputAvail := s.firstLen }
  else { s with outputDest := none, outputAvail := -1 }

/-- `ChunkBuffer2_calc_blocks`; `none` stands for -1. -/
def calcBlocks (chunkLen num : Nat) : Option Nat :=
  if bdivideUp chunkLen blockSize > 2147483647 - 1 then none
  else if num > 2147483647 - 1 then none
  else if 1 + bdivideUp chunkLen blockSize > 2147483647 / (num + 1) then none
  else some ((1 + bdivideUp chunkLen blockSize) * (num + 1))

def init (buffer : Mem) (blocks mtu : Nat) : ChunkBuffer2 :=
  updateOutput (updateInput
    { buffer := buffer, size := blocks, wrap := blocks, start := 0, used := 0
      mtu := bdivideUp mtu blockSize })

end ChunkBuffer2

namespace Ring

/-- `ChunkBuffer2_SubmitPacket` up to the updates. -/
def submit (r : Ring) (len : Nat) : Ring :=
  let last := r.endBlock
  let blocklen := bdivideUp len blockSize
  let r₁ := { r with
    buffer := storeInt r.buffer (blockSize * last) len
    used := r.used + (1 + blocklen) }
  if r₁.used ≤ r₁.wrap - r₁.start ∧ (r₁.mtu : Int) > r₁.size - (last + 1 + blocklen) - 1 then
    { r₁ with wrap := last + 1 + blocklen }
  else r₁

/-- `ChunkBuffer2_ConsumePacket` up to the updates. -/
def consume (r : Ring) : Ring :=
  let blocklen := bdivideUp r.firstLen blockSize
  let r₁ := { r with start := r.start + (1 + blocklen), used := r.used - (1 + blocklen) }
  if r₁.start = r₁.wrap then { r₁ with start := 0, wrap := r₁.size } else r₁

end Ring

namespace ChunkBuffer2

def submitPacket (s : ChunkBuffer2) (len : Nat) : ChunkBuffer2 :=
  let s₁ := { s with toRing := s.toRing.submit len }.updateInput
  if s₁.used = 1 + bdivideUp len blockSize then s₁.updateOutput else s₁

def consumePacket (s : ChunkBuffer2) : ChunkBuffer2 :=
  let s₁ := { s with toRing := s.toRing.consume }
  -- only where the data was wrapped, the free blocks may have become more
  let s₂ := if s.wrap - s.start ≤ s.used then s₁.updateInput else s₁
  s₂.updateOutput

/-- Whoever feeds the buffer writes to where its input is. -/
def fill (s : ChunkBuffer2) (l : List UInt8) : ChunkBuffer2 :=
  match s.inputDest with
  | none => s
  | some d => { s with buffer := write s.buffer d l }

/-! ## The assertions of the source -/

/-- `_ChunkBuffer2_assert_buffer` -/
structure AssertBuffer (s : ChunkBuffer2) : Prop where
  size_pos : 0 < s.size
  wrap_pos : 0 < s.wrap
  wrap_le : s.wrap ≤ s.size
  start_lt : s.start < s.wrap
  used_le : s.used ≤ s.wrap
  wrapped : s.wrap = s.size ∨ s.wrap - s.start ≤ s.used

/-- The first half of `_ChunkBuffer2_assert_io`. -/
def AssertInput (s : ChunkBuffer2) : Prop :=
  if s.Never then s.inputDest = none ∧ s.inputAvail = -1
  else if 0 < s.free then
    s.inputDest = some (blockSize * (s.endBlock + 1)) ∧ s.inputAvail = (s.free - 1) * blockSize
  else s.inputDest = none ∧ s.inputAvail = -1

/-- The second half. -/
def AssertOutput (s : ChunkBuffer2) : Prop :=
  if 0 < s.used then
    bdivideUp s.firstLen blockSize + 1 ≤ s.used ∧
      bdivideUp s.firstLen blockSize + 1 ≤ s.wrap - s.start ∧
      s.outputDest = some (blockSize * (s.start + 1)) ∧ s.outputAvail = s.firstLen
  else s.outputDest = none ∧ s.outputAvail = -1

/-- What may be written and what may be read lies in the array. -/
structure InBounds (s : ChunkBuffer2) : Prop where
  input : ∀ d, s.inputDest = some d → (d : Int) + s.inputAvail ≤ blockSize * s.size
  output : ∀ d, s.outputDest = some d → (d : Int) + s.outputAvail ≤ blockSize * s.size

end ChunkBuffer2

/-! ## The blocks of a packet -/

theorem le_blocks (n : Nat) : n ≤ blockSize * bdivideUp n blockSize := by
  unfold bdivideUp blockSize
  split <;> omega

theorem bdivideUp_le_iff {n k : Nat} : bdivideUp n blockSize ≤ k ↔ n ≤ blockSize * k := by
  unfold bdivideUp blockSize
  split <;> omega

/-- The packets `l` lie in a row, from block `a` up to block `b`, and none begins behind `lim`. -/
def Segment (m : Mem) (lim : Nat) : Nat → List (List UInt8) → Nat → Prop
  | a, [], b => a = b
  | a, p :: l, b =>
      a ≤ lim ∧ loadInt m (blockSize * a) = p.length ∧
        read m (blockSize * (a + 1)) p.length = p ∧
        Segment m lim (a + 1 + bdivideUp p.length blockSize) l b

section Segments

variable {m m' : Mem} {lim : Nat}

theorem Segment.le (l : List (List UInt8)) :
    ∀ {a b : Nat}, Segment m lim a l b → a + l.length ≤ b := by
  induction l with
  | nil =>
      intro a b h
      exact Nat.le_of_eq h
  | cons p l ih =>
      intro a b h
      have hrest := ih h.2.2.2
      rw [List.length_cons]
      omega

theorem Segment.snoc (l : List (List UInt8)) {p : List UInt8} {b : Nat} (hlim : b ≤ lim)
    (hlen : loadInt m (blockSize * b) = p.length)
    (hdata : read m (blockSize * (b + 1)) p.length = p) :
    ∀ {a : Nat}, Segment m lim a l b →
      Segment m lim a (l ++ [p]) (b + 1 + bdivideUp p.length blockSize) := by
  induction l with
  | nil =>
      intro a h
      have hab : a = b := h
      rw [hab]
      exact ⟨hlim, hlen, hdata, rfl⟩
  | cons x l ih =>
      intro a h
      exact ⟨h.1, h.2.1, h.2.2.1, ih h.2.2.2⟩

/-- A segment lies in the blocks from its begin to its end. -/
theorem Segment.congr (l : List (List UInt8)) {b : Nat} :
    ∀ {a : Nat}, Segment m lim a l b →
      (∀ i, blockSize * a ≤ i → i < blockSize * b → m i = m' i) → Segment m' lim a l b := by
  induction l with
  | nil =>
      intro a h _
      exact h
  | cons p l ih =>
      intro a h hsame
      have hle := Segment.le l h.2.2.2
      have hfit := le_blocks p.length
      have hbound : blockSize * (a + 1 + bdivideUp p.length blockSize) ≤ blockSize * b :=
        Nat.mul_le_mul_left _ (by omega)
      have hlen : loadInt m (blockSize * a) = loadInt m' (blockSize * a) := by
        apply loadInt_congr
        intro i hi hi'
        exact hsame i hi (by simp only [blockSize] at *; omega)
      have hdata : read m (blockSize * (a + 1)) p.length = read m' (blockSize * (a + 1)) p.length := by
        apply read_congr
        intro i hi hi'
        exact hsame i (by simp only [blockSize] at *; omega) (by simp only [blockSize] at *; omega)
      refine ⟨h.1, hlen ▸ h.2.1, hdata ▸ h.2.2.1, ?_⟩
      apply ih h.2.2.2
      intro i hi hi'
      exact hsame i (by simp only [blockSize] at *; omega) hi'

end Segments

/-! ## What the buffer holds -/

namespace Ring

/-- The last block in which a packet may begin. -/
def lim (r : Ring) : Nat :=
  r.size - 1 - r.mtu

/-- The packets `q` lie in the array, in one piece or with the end of the array between them. -/
inductive Layout (r : Ring) : List (List UInt8) → Prop where
  | straight {q : List (List UInt8)} (hwrap : r.wrap = r.size)
      (hroom : r.start + r.used + 1 + r.mtu ≤ r.size)
      (hq : Segment r.buffer r.lim r.start q (r.start + r.used)) : Layout r q
  | wrapped {q₁ q₂ : List (List UInt8)} {e : Nat} (hne : q₁ ≠ []) (hwrap : r.wrap ≤ r.size)
      (htight : r.size ≤ r.wrap + r.mtu)
      (hq₁ : Segment r.buffer r.lim r.start q₁ r.wrap) (hq₂ : Segment r.buffer r.lim 0 q₂ e)
      (hle : e ≤ r.start) (hused : r.used = r.wrap - r.start + e) : Layout r (q₁ ++ q₂)

variable {r : Ring} {q : List (List UInt8)}

theorem endBlock_straight (hwrap : r.wrap = r.size) (hroom : r.start + r.used + 1 + r.mtu ≤ r.size) :
    r.endBlock = r.start + r.used ∧ r.free = r.size - (r.start + r.used : Nat) := by
  have hcase : ¬ r.wrap - r.start ≤ r.used := by omega
  have hend : r.endBlock = r.start + r.used := if_neg hcase
  exact ⟨hend, by rw [free, if_neg hcase, hend]⟩

theorem endBlock_wrapped {e : Nat} (hused : r.used = r.wrap - r.start + e) :
    r.endBlock = e ∧ r.free = r.start - (e : Int) := by
  have hcase : r.wrap - r.start ≤ r.used := by omega
  have hend : r.endBlock = e := by
    rw [endBlock, if_pos hcase]
    omega
  exact ⟨hend, by rw [free, if_pos hcase, hend]⟩

/-- The first piece is not empty: its end lies behind its begin, and it begins where it may. -/
theorem segment_bounds {m : Mem} {lim a b : Nat} (h : Segment m lim a q b) (hne : q ≠ []) :
    a < b ∧ a ≤ lim := by
  cases q with
  | nil => exact absurd rfl hne
  | cons p q =>
      have hle := Segment.le _ h
      rw [List.length_cons] at hle
      exact ⟨by omega, h.1⟩

end Ring

/-! ## The updates -/

namespace ChunkBuffer2

variable {s : ChunkBuffer2} {q : List (List UInt8)} {p : List UInt8}

@[simp]
theorem updateInput_toRing (s : ChunkBuffer2) : s.updateInput.toRing = s.toRing := by
  unfold updateInput
  split
  · rfl
  · split <;> rfl

@[simp]
theorem updateOutput_toRing (s : ChunkBuffer2) : s.updateOutput.toRing = s.toRing := by
  unfold updateOutput
  split <;> rfl

/-- Nothing but the array and the two fields for the input count. -/
theorem AssertInput.congr {s' : ChunkBuffer2} (h : s.AssertInput) (hring : s'.toRing = s.toRing)
    (hdest : s'.inputDest = s.inputDest) (havail : s'.inputAvail = s.inputAvail) : s'.AssertInput := by
  simpa only [AssertInput, hring, hdest, havail] using h

theorem assertInput_updateInput (s : ChunkBuffer2) : s.updateInput.AssertInput := by
  rw [AssertInput, updateInput_toRing]
  split
  · rename_i hnever
    rw [updateInput, if_pos hnever]
    exact ⟨rfl, rfl⟩
  · rename_i hnever
    split
    · rename_i hfree
      rw [updateInput, if_neg hnever, if_pos hfree]
      exact ⟨rfl, rfl⟩
    · rename_i hfree
      rw [updateInput, if_neg hnever, if_neg hfree]
      exact ⟨rfl, rfl⟩

theorem assertInput_updateOutput (h : s.AssertInput) : s.updateOutput.AssertInput := by
  apply h.congr (updateOutput_toRing s)
  · unfold updateOutput
    split <;> rfl
  · unfold updateOutput
    split <;> rfl

/-- The output is the first packet. -/
def Output (s : ChunkBuffer2) : List (List UInt8) → Prop
  | [] => s.outputDest = none ∧ s.outputAvail = -1
  | p :: _ => s.outputDest = some (blockSize * (s.start + 1)) ∧ s.outputAvail = p.length

/-- The packets `q` are in the buffer, and it tells the truth about its input and its output. -/
structure Holds (s : ChunkBuffer2) (q : List (List UInt8)) : Prop where
  fits : s.mtu + 1 ≤ s.size
  /-- the array can be addressed with an `int` -/
  small : blockSize * s.size ≤ 2147483647
  layout : s.Layout q
  input : s.AssertInput
  output : s.Output q

end ChunkBuffer2

namespace Ring

variable {r : Ring} {q : List (List UInt8)} {p : List UInt8}

/-- Where the first packet lies. -/
theorem Layout.first (h : r.Layout (p :: q)) :
    r.firstLen = p.length ∧ read r.buffer (blockSize * (r.start + 1)) p.length = p ∧
      bdivideUp p.length blockSize + 1 ≤ r.used ∧
      bdivideUp p.length blockSize + 1 ≤ r.wrap - r.start := by
  generalize hl : p :: q = l at h
  cases h with
  | straight hwrap hroom hq =>
      subst hl
      have hle := Segment.le _ hq.2.2.2
      exact ⟨hq.2.1, hq.2.2.1, by omega, by omega⟩
  | wrapped hne hwrap htight hq₁ hq₂ hle hused =>
      rename_i q₁ q₂ e
      cases q₁ with
      | nil => exact absurd rfl hne
      | cons x q₁ =>
          have hx : p = x := (List.cons.inj hl).1
          subst hx
          have hend := Segment.le _ hq₁.2.2.2
          exact ⟨hq₁.2.1, hq₁.2.2.1, by omega, by omega⟩

theorem Layout.used_eq_zero_iff (h : r.Layout q) : r.used = 0 ↔ q = [] := by
  constructor
  · intro hused
    cases q with
    | nil => rfl
    | cons p q =>
        have hpos := h.first.2.2.1
        omega
  · rintro rfl
    generalize hl : ([] : List (List UInt8)) = l at h
    cases h with
    | straight hwrap hroom hq =>
        subst hl
        have hseg : r.start = r.start + r.used := hq
        omega
    | wrapped hne hwrap htight hq₁ hq₂ hle hused =>
        exact absurd (List.append_eq_nil_iff.1 hl.symm).1 hne

/-- A row of packets ends behind its begin, and the first of them begins where it may. -/
theorem Layout.bounds (h : r.Layout q) (hfits : r.mtu + 1 ≤ r.size) :
    r.start < r.wrap ∧ r.wrap ≤ r.size ∧ r.start + 1 + r.mtu ≤ r.size ∧ r.used ≤ r.wrap := by
  cases h with
  | straight hwrap hroom hq =>
      exact ⟨by omega, by omega, by omega, by omega⟩
  | wrapped hne hwrap htight hq₁ hq₂ hle hused =>
      have hb := segment_bounds hq₁ hne
      have hlim : r.start ≤ r.size - 1 - r.mtu := hb.2
      exact ⟨by omega, by omega, by omega, by omega⟩

end Ring

namespace ChunkBuffer2

variable {s : ChunkBuffer2} {q : List (List UInt8)} {p : List UInt8}

theorem output_updateOutput (h : s.Layout q) : s.updateOutput.Output q := by
  cases q with
  | nil =>
      have hused := h.used_eq_zero_iff.2 rfl
      rw [updateOutput, if_neg (by omega)]
      exact ⟨rfl, rfl⟩
  | cons p q =>
      have hfirst := h.first
      rw [updateOutput, if_pos (by omega)]
      exact ⟨rfl, congrArg Int.ofNat hfirst.1⟩

/-! ## The assertions -/

theorem Holds.assertBuffer (h : s.Holds q) : s.AssertBuffer := by
  have hb := h.layout.bounds h.fits
  refine ⟨by omega, by omega, hb.2.1, hb.1, hb.2.2.2, ?_⟩
  cases h.layout with
  | straight hwrap hroom hq => exact Or.inl hwrap
  | wrapped hne hwrap htight hq₁ hq₂ hle hused => exact Or.inr (by omega)

theorem Holds.assertOutput (h : s.Holds q) : s.AssertOutput := by
  have hout := h.output
  cases q with
  | nil =>
      have hused := h.layout.used_eq_zero_iff.2 rfl
      rw [AssertOutput, if_neg (by omega)]
      exact hout
  | cons p q =>
      have hfirst := h.layout.first
      rw [AssertOutput, if_pos (by omega), hfirst.1]
      exact ⟨hfirst.2.2.1, hfirst.2.2.2, hout.1, hout.2⟩

/-- Where there is an input, it lies behind the last packet and before the first one. -/
theorem Holds.room (h : s.Holds q) {d : Nat} (hd : s.inputDest = some d) :
    d = blockSize * (s.endBlock + 1) ∧ s.inputAvail = (s.free - 1) * blockSize ∧ 0 < s.free ∧
      s.endBlock + 1 + s.mtu ≤ s.size := by
  have hinput := h.input
  rw [AssertInput] at hinput
  split at hinput
  · rw [hinput.1] at hd
    cases hd
  · rename_i hnever
    split at hinput
    · rename_i hfree
      rw [hinput.1] at hd
      refine ⟨(Option.some.inj hd).symm, hinput.2, hfree, ?_⟩
      rw [Ring.Never] at hnever
      omega
    · rw [hinput.1] at hd
      cases hd

theorem Holds.inBounds (h : s.Holds q) : s.InBounds where
  input := by
    intro d hd
    have hroom := h.room hd
    have hbounds := h.layout.bounds h.fits
    rw [hroom.1, hroom.2.1, Ring.free]
    simp only [blockSize]
    split <;> omega
  output := by
    intro d hd
    have hout := h.output
    have hbounds := h.layout.bounds h.fits
    cases q with
    | nil =>
        rw [hout.1] at hd
        cases hd
    | cons p q =>
        have hfirst := h.layout.first
        have hfit := le_blocks p.length
        rw [hout.1] at hd
        rw [hout.2, ← Option.some.inj hd]
        simp only [blockSize] at *
        omega

end ChunkBuffer2

/-! ## The steps -/

namespace Ring

variable {r : Ring} {q : List (List UInt8)} {p : List UInt8}

theorem submit_kept (r : Ring) (len : Nat) :
    (r.submit len).mtu = r.mtu ∧ (r.submit len).size = r.size ∧ (r.submit len).start = r.start ∧
      (r.submit len).used = r.used + (1 + bdivideUp len blockSize) := by
  rw [Ring.submit]
  dsimp only
  split <;> exact ⟨rfl, rfl, rfl, rfl⟩

theorem consume_kept (r : Ring) : r.consume.mtu = r.mtu ∧ r.consume.size = r.size := by
  rw [Ring.consume]
  dsimp only
  split <;> exact ⟨rfl, rfl⟩

/-- What lies in the free blocks does not count. -/
theorem Layout.congr (h : r.Layout q) {m : Mem}
    (hsame : ∀ i, i < blockSize * r.endBlock ∨ blockSize * (r.endBlock + r.free.toNat) ≤ i →
      r.buffer i = m i) : Layout { r with buffer := m } q := by
  cases h with
  | straight hwrap hroom hq =>
      have hend := (endBlock_straight hwrap hroom).1
      refine Layout.straight hwrap hroom (Segment.congr _ hq ?_)
      intro i _ hi
      exact hsame i (Or.inl (hend ▸ hi))
  | wrapped hne hwrap htight hq₁ hq₂ hle hused =>
      rename_i q₁ q₂ e
      have hend := endBlock_wrapped hused
      refine Layout.wrapped hne hwrap htight (Segment.congr _ hq₁ ?_) (Segment.congr _ hq₂ ?_) hle hused
      · intro i hi _
        apply hsame i
        right
        simp only [blockSize] at *
        omega
      · intro i _ hi
        exact hsame i (Or.inl (hend.1 ▸ hi))

/-- The octets behind the header of the next packet become that packet. -/
theorem Layout.submit {len : Nat} (h : r.Layout q) (hsmall : blockSize * r.size ≤ 2147483647)
    (hend : r.endBlock + 1 + r.mtu ≤ r.size) (hfree : 0 < r.free)
    (hlen : (len : Int) ≤ (r.free - 1) * blockSize) :
    (r.submit len).Layout (q ++ [read r.buffer (blockSize * (r.endBlock + 1)) len]) := by
  generalize hp : read r.buffer (blockSize * (r.endBlock + 1)) len = p
  generalize hm : storeInt r.buffer (blockSize * r.endBlock) len = m
  have hplen : p.length = len := by rw [← hp, length_read]
  have hsub : r.free ≤ r.size - (r.endBlock : Int) := by
    cases h with
    | straight hwrap hroom hq =>
        have hfields := endBlock_straight hwrap hroom
        omega
    | wrapped hne hwrap htight hq₁ hq₂ hle hused =>
        have hfields := endBlock_wrapped hused
        have hb := segment_bounds hq₁ hne
        omega
  have hblocks : (bdivideUp len blockSize : Int) + 1 ≤ r.free := by
    have hle : bdivideUp len blockSize ≤ r.free.toNat - 1 := by
      rw [bdivideUp_le_iff]
      simp only [blockSize] at *
      omega
    omega
  have hhead : loadInt m (blockSize * r.endBlock) = p.length := by
    rw [← hm, hplen]
    apply loadInt_storeInt
    simp only [blockSize] at *
    omega
  have hdata : read m (blockSize * (r.endBlock + 1)) p.length = p := by
    rw [← hm, hplen, read_storeInt_of_disjoint, hp]
    right
    simp only [blockSize]
    omega
  have hlayout : Layout { r with buffer := m } q := by
    apply h.congr
    intro i hi
    rw [← hm, storeInt, write_of_disjoint]
    rw [Octets.length_toBytes]
    simp only [blockSize] at *
    omega
  have hlim : r.endBlock ≤ r.lim := by
    rw [lim]
    omega
  rw [Ring.submit, hm]
  cases hlayout with
  | straight hwrap hroom hq =>
      have hwrap' : r.wrap = r.size := hwrap
      have hroom' : r.start + r.used + 1 + r.mtu ≤ r.size := hroom
      have hfields := endBlock_straight hwrap' hroom'
      have hrow : Segment m r.lim r.start (q ++ [p]) (r.endBlock + 1 + bdivideUp len blockSize) := by
        rw [← hplen]
        refine Segment.snoc q hlim hhead hdata ?_
        rw [hfields.1]
        exact hq
      dsimp only
      split
      · -- no packet of the largest size fits behind this one: the array ends here
        have hpieces : Layout
            { r with
              buffer := m, used := r.used + (1 + bdivideUp len blockSize)
              wrap := r.endBlock + 1 + bdivideUp len blockSize } ((q ++ [p]) ++ []) :=
          Layout.wrapped (by simp) (by dsimp only; omega) (by dsimp only; omega) hrow rfl (Nat.zero_le _)
            (by dsimp only; omega)
        rwa [List.append_nil] at hpieces
      · refine Layout.straight hwrap (by dsimp only; omega) ?_
        have hlast : r.endBlock + 1 + bdivideUp len blockSize =
            r.start + (r.used + (1 + bdivideUp len blockSize)) := by omega
        rw [hlast] at hrow
        exact hrow
  | wrapped hne hwrap htight hq₁ hq₂ hle hused =>
      rename_i q₁ q₂ e
      have hwrap' : r.wrap ≤ r.size := hwrap
      have hused' : r.used = r.wrap - r.start + e := hused
      have hfields := endBlock_wrapped hused'
      have hrow : Segment m r.lim 0 (q₂ ++ [p]) (e + 1 + bdivideUp len blockSize) := by
        rw [← hplen]
        refine Segment.snoc q₂ ?_ ?_ ?_ hq₂
        · exact hfields.1 ▸ hlim
        · exact hfields.1 ▸ hhead
        · exact hfields.1 ▸ hdata
      dsimp only
      rw [if_neg (by omega), List.append_assoc]
      exact Layout.wrapped hne hwrap htight hq₁ hrow (by dsimp only; omega) (by dsimp only; omega)

/-- The first packet goes, and where it was the last one before the end of the array, the second
piece becomes the first. -/
theorem Layout.consume (h : r.Layout (p :: q)) (hfits : r.mtu + 1 ≤ r.size) :
    r.consume.Layout q := by
  have hfirst := h.first.1
  have hbounds := h.bounds hfits
  rw [Ring.consume, hfirst]
  generalize hl : p :: q = l at h
  cases h with
  | straight hwrap hroom hq =>
      subst hl
      have hle := Segment.le _ hq.2.2.2
      dsimp only
      rw [if_neg (by omega)]
      refine Layout.straight hwrap (by dsimp only; omega) ?_
      have hnext : r.start + (1 + bdivideUp p.length blockSize) =
          r.start + 1 + bdivideUp p.length blockSize := by omega
      have hlast : r.start + (1 + bdivideUp p.length blockSize) +
          (r.used - (1 + bdivideUp p.length blockSize)) = r.start + r.used := by omega
      dsimp only
      rw [hlast, hnext]
      exact hq.2.2.2
  | wrapped hne hwrap htight hq₁ hq₂ hle hused =>
      rename_i q₁ q₂ e
      cases q₁ with
      | nil => exact absurd rfl hne
      | cons x q₁ =>
          obtain ⟨rfl, rfl⟩ := List.cons.inj hl
          have hrest := hq₁.2.2.2
          have hend := Segment.le _ hrest
          have hnext : r.start + 1 + bdivideUp p.length blockSize =
              r.start + (1 + bdivideUp p.length blockSize) := by omega
          dsimp only
          split
          · rename_i hreset
            cases q₁ with
            | nil =>
                refine Layout.straight rfl (by dsimp only; omega) ?_
                have hlast : 0 + (r.used - (1 + bdivideUp p.length blockSize)) = e := by omega
                dsimp only
                rw [hlast]
                exact hq₂
            | cons y q₁ =>
                rw [List.length_cons] at hend
                omega
          · rename_i hreset
            have hmore : q₁ ≠ [] := by
              rintro rfl
              have hstop : r.start + 1 + bdivideUp p.length blockSize = r.wrap := hrest
              omega
            refine Layout.wrapped hmore hwrap htight ?_ hq₂ (by dsimp only; omega) (by dsimp only; omega)
            rw [hnext] at hrest
            exact hrest

end Ring

namespace ChunkBuffer2

variable {s : ChunkBuffer2} {q : List (List UInt8)} {p : List UInt8}

theorem holds_init {blocks mtu : Nat} (buffer : Mem) (hblocks : bdivideUp mtu blockSize + 1 ≤ blocks)
    (hsmall : blockSize * blocks ≤ 2147483647) : (init buffer blocks mtu).Holds [] := by
  have hring : (init buffer blocks mtu).toRing =
      { buffer := buffer, size := blocks, wrap := blocks, start := 0, used := 0
        mtu := bdivideUp mtu blockSize } := by
    rw [init, updateOutput_toRing, updateInput_toRing]
  have hlayout : (init buffer blocks mtu).Layout [] := by
    rw [hring]
    exact Ring.Layout.straight rfl (by dsimp only; omega) rfl
  constructor
  · rw [hring]
    exact hblocks
  · rw [hring]
    exact hsmall
  · exact hlayout
  · exact assertInput_updateOutput (assertInput_updateInput _)
  · rw [init]
    apply output_updateOutput
    rw [init, updateOutput_toRing] at hlayout
    exact hlayout

theorem submitPacket_toRing (s : ChunkBuffer2) (len : Nat) :
    (s.submitPacket len).toRing = s.toRing.submit len := by
  rw [submitPacket]
  dsimp only
  split
  · rw [updateOutput_toRing, updateInput_toRing]
  · rw [updateInput_toRing]

theorem consumePacket_toRing (s : ChunkBuffer2) : s.consumePacket.toRing = s.toRing.consume := by
  rw [consumePacket]
  dsimp only
  rw [updateOutput_toRing]
  split
  · rw [updateInput_toRing]
  · rfl

/-- What is written to the input changes nothing yet. -/
theorem holds_fill (h : s.Holds q) {l : List UInt8} (hl : (l.length : Int) ≤ s.inputAvail) :
    (s.fill l).Holds q := by
  rw [fill]
  split
  · exact h
  · rename_i d hd
    have hroom := h.room hd
    refine ⟨h.fits, h.small, ?_, h.input, ?_⟩
    · apply h.layout.congr
      intro i hi
      rw [write_of_disjoint]
      rw [hroom.1]
      simp only [blockSize] at *
      omega
    · cases q with
      | nil => exact h.output
      | cons p q => exact h.output

theorem holds_submitPacket (h : s.Holds q) {d len : Nat} (hd : s.inputDest = some d)
    (hlen : (len : Int) ≤ s.inputAvail) : (s.submitPacket len).Holds (q ++ [read s.buffer d len]) := by
  obtain ⟨hdest, havail, hfree, hend⟩ := h.room hd
  have hlayout := h.layout.submit h.small hend hfree (havail ▸ hlen)
  rw [← hdest] at hlayout
  have hring := submitPacket_toRing s len
  have hkept := Ring.submit_kept s.toRing len
  constructor
  · rw [hring, hkept.1, hkept.2.1]
    exact h.fits
  · rw [hring, hkept.2.1]
    exact h.small
  · rw [hring]
    exact hlayout
  · rw [submitPacket]
    dsimp only
    split
    · exact assertInput_updateOutput (assertInput_updateInput _)
    · exact assertInput_updateInput _
  · rw [submitPacket]
    dsimp only
    split
    · apply output_updateOutput
      rw [updateInput_toRing]
      exact hlayout
    · -- there was a packet before, and it is still the first one
      rename_i hold
      rw [updateInput_toRing] at hold
      have hne : q ≠ [] := by
        intro hnil
        have hzero := h.layout.used_eq_zero_iff.2 hnil
        exact hold (by dsimp only; rw [hkept.2.2.2, hzero, Nat.zero_add])
      cases q with
      | nil => exact absurd rfl hne
      | cons p q =>
          have hout := h.output
          have hfields : ∀ t : ChunkBuffer2, t.updateInput.outputDest = t.outputDest ∧
              t.updateInput.outputAvail = t.outputAvail := by
            intro t
            unfold updateInput
            split
            · exact ⟨rfl, rfl⟩
            · split <;> exact ⟨rfl, rfl⟩
          refine ⟨?_, ?_⟩
          · rw [(hfields _).1, updateInput_toRing]
            dsimp only
            rw [hkept.2.2.1]
            exact hout.1
          · rw [(hfields _).2]
            exact hout.2

theorem holds_consumePacket (h : s.Holds (p :: q)) : s.consumePacket.Holds q := by
  have hlayout := h.layout.consume h.fits
  have hring := consumePacket_toRing s
  have hkept := Ring.consume_kept s.toRing
  constructor
  · rw [hring, hkept.1, hkept.2]
    exact h.fits
  · rw [hring, hkept.2]
    exact h.small
  · rw [hring]
    exact hlayout
  · rw [consumePacket]
    apply assertInput_updateOutput
    dsimp only
    split
    · exact assertInput_updateInput _
    · -- not wrapped: the packets end where they did
      rename_i hstraight
      have hfirst := h.layout.first
      have hbounds := h.layout.bounds h.fits
      have hend : s.toRing.consume.endBlock = s.endBlock ∧ s.toRing.consume.free = s.free := by
        have hcase : ¬ s.wrap - (s.start + (1 + bdivideUp s.firstLen blockSize)) ≤
            s.used - (1 + bdivideUp s.firstLen blockSize) := by
          rw [hfirst.1]
          omega
        have hne : s.start + (1 + bdivideUp s.firstLen blockSize) ≠ s.wrap := by
          rw [hfirst.1]
          omega
        have hlast : s.toRing.consume.endBlock = s.endBlock := by
          rw [Ring.consume]
          dsimp only
          rw [if_neg hne, Ring.endBlock, Ring.endBlock, if_neg hcase, if_neg hstraight, hfirst.1]
          dsimp only
          omega
        refine ⟨hlast, ?_⟩
        rw [Ring.free, Ring.free, hlast, if_neg hstraight, hkept.2, if_neg]
        rw [Ring.consume]
        dsimp only
        rw [if_neg hne]
        exact hcase
      have hnever : s.toRing.consume.Never ↔ s.Never := by
        rw [Ring.Never, Ring.Never, hend.1, hkept.1, hkept.2]
      have hinput := h.input
      rw [AssertInput] at hinput ⊢
      dsimp only
      rw [hend.1, hend.2]
      simpa only [hnever] using hinput
  · rw [consumePacket]
    apply output_updateOutput
    dsimp only
    split
    · rw [updateInput_toRing]
      exact hlayout
    · exact hlayout

end ChunkBuffer2

/-! ## Runs -/

inductive BufferEvent where
  | write (l : List UInt8)
  | submit (len : Nat)
  | consume
  deriving DecidableEq, Repr

/-- The users of the buffer keep to what it tells them, as the assertions ask of them. -/
def ChunkBuffer2.step (s : ChunkBuffer2) : BufferEvent → Option ChunkBuffer2
  | .write l => if s.inputDest.isSome ∧ (l.length : Int) ≤ s.inputAvail then some (s.fill l) else none
  | .submit len =>
      if s.inputDest.isSome ∧ (len : Int) ≤ s.inputAvail then some (s.submitPacket len) else none
  | .consume => if s.outputDest.isSome then some s.consumePacket else none

def chunkBuffer (buffer : Mem) (blocks mtu : Nat) : Machine ChunkBuffer2 BufferEvent where
  init := ChunkBuffer2.init buffer blocks mtu
  step := ChunkBuffer2.step

/-- The packet that a step submits: what has been written to the input by then. -/
def submitted : ChunkBuffer2 × BufferEvent → Option (List UInt8)
  | (s, .submit len) => s.inputDest.map (fun d => read s.buffer d len)
  | _ => none

/-- The packet that a step consumes: what can be read from the output. -/
def consumed : ChunkBuffer2 × BufferEvent → Option (List UInt8)
  | (s, .consume) => s.outputDest.map (fun d => read s.buffer d s.outputAvail.toNat)
  | _ => none

theorem ChunkBuffer2.Holds.consumed_eq {s : ChunkBuffer2} {q : List (List UInt8)} {p : List UInt8}
    (h : s.Holds (p :: q)) : consumed (s, .consume) = some p := by
  have hout : s.outputDest = some (blockSize * (s.start + 1)) ∧ s.outputAvail = p.length := h.output
  rw [consumed, hout.1, hout.2]
  exact congrArg some h.layout.first.2.1

theorem chunkBuffer_simulation {buffer : Mem} {blocks mtu : Nat}
    (hblocks : bdivideUp mtu blockSize + 1 ≤ blocks) (hsmall : blockSize * blocks ≤ 2147483647) :
    Simulation (chunkBuffer buffer blocks mtu) Queue.machine (fun _ _ => True)
      (fun s e => Queue.ops (submitted (s, e)) (consumed (s, e))) ChunkBuffer2.Holds where
  init := ChunkBuffer2.holds_init buffer hblocks hsmall
  step := by
    intro s e s' q hq _ hst
    cases e with
    | write l =>
        simp only [chunkBuffer, ChunkBuffer2.step, Option.ite_none_right_eq_some,
          Option.some.injEq] at hst
        rcases hst with ⟨⟨_, hl⟩, rfl⟩
        exact ⟨q, Steps.nil, ChunkBuffer2.holds_fill hq hl⟩
    | submit len =>
        simp only [chunkBuffer, ChunkBuffer2.step, Option.ite_none_right_eq_some,
          Option.some.injEq] at hst
        rcases hst with ⟨⟨hsome, hlen⟩, rfl⟩
        rcases Option.isSome_iff_exists.1 hsome with ⟨d, hd⟩
        refine ⟨q ++ [read s.buffer d len], ?_, ChunkBuffer2.holds_submitPacket hq hd hlen⟩
        simp only [submitted, consumed, hd]
        exact Steps.single rfl
    | consume =>
        simp only [chunkBuffer, ChunkBuffer2.step, Option.ite_none_right_eq_some,
          Option.some.injEq] at hst
        rcases hst with ⟨hsome, rfl⟩
        cases q with
        | nil =>
            rw [hq.output.1] at hsome
            cases hsome
        | cons p q =>
            refine ⟨q, ?_, ChunkBuffer2.holds_consumePacket hq⟩
            rw [hq.consumed_eq]
            exact Steps.single Queue.step_take

/-- In every state the assertions hold, input and output lie in the array, and the output is the
oldest packet that was submitted and has not been consumed. -/
theorem chunkBuffer_fifo {buffer : Mem} {blocks mtu : Nat} {h : List (ChunkBuffer2 × BufferEvent)}
    {s : ChunkBuffer2} (hblocks : bdivideUp mtu blockSize + 1 ≤ blocks)
    (hsmall : blockSize * blocks ≤ 2147483647) (hrun : Run (chunkBuffer buffer blocks mtu) h s) :
    (s.AssertBuffer ∧ s.AssertInput ∧ s.AssertOutput ∧ s.InBounds) ∧
      ∃ held, h.filterMap submitted = h.filterMap consumed ++ held ∧
        consumed (s, .consume) = held.head? := by
  rcases Queue.Run.fifo (chunkBuffer_simulation hblocks hsmall) hrun (fun _ _ => trivial) with
    ⟨q, hfifo, hq⟩
  refine ⟨⟨hq.assertBuffer, hq.input, hq.assertOutput, hq.inBounds⟩, q, hfifo, ?_⟩
  cases q with
  | nil =>
      have hnone : s.outputDest = none := hq.output.1
      rw [consumed, hnone]
      rfl
  | cons p q => exact hq.consumed_eq

/-- Three packets in seven blocks.  The array wraps behind the second one. -/
def threePackets : List BufferEvent :=
  [.write [1, 2, 3, 4, 5], .submit 5, .write [6, 7], .submit 2, .consume, .write [8], .submit 1,
    .consume]

theorem chunkBuffer_fifo_threePackets :
    ∃ h s, (chunkBuffer (fun _ => 0) 7 8).play threePackets = some (h, s) ∧
      (s.AssertBuffer ∧ s.AssertInput ∧ s.AssertOutput ∧ s.InBounds) ∧
      ∃ held, h.filterMap submitted = h.filterMap consumed ++ held ∧
        consumed (s, .consume) = held.head? :=
  ⟨_, _, rfl, chunkBuffer_fifo (show bdivideUp 8 blockSize + 1 ≤ 7 by decide)
    (show blockSize * 7 ≤ 2147483647 by decide)
    (run_of_play (chunkBuffer (fun _ => 0) 7 8) threePackets rfl)⟩

end Tun
end SpinVpn
