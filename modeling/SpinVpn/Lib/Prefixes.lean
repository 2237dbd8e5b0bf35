import Mathlib.Algebra.Group.Nat.Defs
import Mathlib.Data.Nat.Init

/-!
# Prefixes — blocks of addresses

A block of `w`-bit addresses is given by its first address and the length of the prefix that all of
its addresses share.  Two lists of blocks that together fill a range without a gap and without an
overlap (`Partition`) are complements there: an address of the range is in a block of the one list
exactly if it is in none of the other (`Partition.covered_iff`).
-/

namespace Prefixes

structure Block where
  base : Nat
  len : Nat
  deriving DecidableEq, Repr

namespace Block

def size (w : Nat) (b : Block) : Nat :=
  2 ^ (w - b.len)

/-- The address has the prefix of the block. -/
def Covers (w : Nat) (b : Block) (a : Nat) : Prop :=
  a / b.size w = b.base / b.size w

instance (w : Nat) (b : Block) (a : Nat) : Decidable (b.Covers w a) :=
  inferInstanceAs (Decidable (_ = _))

/-- There are no bits behind the prefix. -/
def Aligned (w : Nat) (b : Block) : Prop :=
  b.len ≤ w ∧ b.base % b.size w = 0

instance (w : Nat) (b : Block) : Decidable (b.Aligned w) :=
  inferInstanceAs (Decidable (_ ∧ _))

theorem size_pos (w : Nat) (b : Block) : 0 < b.size w :=
  Nat.two_pow_pos _

theorem Aligned.covers_iff {w : Nat} {b : Block} (h : b.Aligned w) {a : Nat} :
    b.Covers w a ↔ b.base ≤ a ∧ a < b.base + b.size w := by
  have hpos := b.size_pos w
  have hbase : b.base / b.size w * b.size w = b.base := Nat.div_mul_cancel (Nat.dvd_of_mod_eq_zero h.2)
  rw [Covers, Nat.div_eq_iff hpos, hbase]
  omega

end Block

/-- Blocks of either list, one behind the other, from `lo` up to `hi`. -/
inductive Partition (w : Nat) : Nat → List Block → List Block → Nat → Prop where
  | done {hi : Nat} : Partition w hi [] [] hi
  | left {b : Block} {rs qs : List Block} {hi : Nat} :
      b.Aligned w → Partition w (b.base + b.size w) rs qs hi → Partition w b.base (b :: rs) qs hi
  | right {b : Block} {rs qs : List Block} {hi : Nat} :
      b.Aligned w → Partition w (b.base + b.size w) rs qs hi → Partition w b.base rs (b :: qs) hi

/-- Walk along both lists. -/
def check (w : Nat) : Nat → Nat → List Block → List Block → Nat → Bool
  | _, lo, [], [], hi => lo = hi
  | fuel + 1, lo, b :: rs, qs, hi =>
      if b.base = lo then b.Aligned w && check w fuel (lo + b.size w) rs qs hi
      else
        match qs with
        | [] => false
        | c :: qs => c.base = lo && c.Aligned w && check w fuel (lo + c.size w) (b :: rs) qs hi
  | fuel + 1, lo, [], c :: qs, hi =>
      c.base = lo && c.Aligned w && check w fuel (lo + c.size w) [] qs hi
  | 0, _, _, _, _ => false

theorem partition_of_check {w fuel lo hi : Nat} {rs qs : List Block}
    (h : check w fuel lo rs qs hi = true) : Partition w lo rs qs hi := by
  induction fuel generalizing lo rs qs with
  | zero =>
      cases rs <;> cases qs <;> simp [check] at h
      subst h
      exact Partition.done
  | succ fuel ih =>
      cases rs with
      | nil =>
          cases qs with
          | nil =>
              obtain rfl : lo = hi := by simpa [check] using h
              exact Partition.done
          | cons c qs =>
              simp only [check, Bool.and_eq_true, decide_eq_true_eq] at h
              obtain ⟨⟨rfl, haligned⟩, hrest⟩ := h
              exact Partition.right haligned (ih hrest)
      | cons b rs =>
          rw [check.eq_def] at h
          dsimp only at h
          split at h
          · rename_i hbase
            subst hbase
            simp only [Bool.and_eq_true, decide_eq_true_eq] at h
            exact Partition.left h.1 (ih h.2)
          · cases qs with
            | nil => cases h
            | cons c qs =>
                simp only [Bool.and_eq_true, decide_eq_true_eq] at h
                obtain ⟨⟨rfl, haligned⟩, hrest⟩ := h
                exact Partition.right haligned (ih hrest)

namespace Partition

variable {w lo hi : Nat} {rs qs : List Block}

theorem aligned (h : Partition w lo rs qs hi) {b : Block} (hb : b ∈ rs ++ qs) : b.Aligned w := by
  induction h with
  | done => cases hb
  | @left c rs qs hi haligned _ ih =>
      rcases List.mem_cons.1 hb with rfl | hb
      · exact haligned
      · exact ih hb
  | @right c rs qs hi haligned _ ih =>
      rcases List.mem_append.1 hb with hb | hb
      · exact ih (List.mem_append_left _ hb)
      · rcases List.mem_cons.1 hb with rfl | hb
        · exact haligned
        · exact ih (List.mem_append_right _ hb)

/-- No block starts before the range does. -/
theorem le_base (h : Partition w lo rs qs hi) {b : Block} (hb : b ∈ rs ++ qs) : lo ≤ b.base := by
  induction h with
  | done => cases hb
  | @left c rs qs hi haligned _ ih =>
      rcases List.mem_cons.1 hb with rfl | hb
      · exact Nat.le_refl _
      · exact Nat.le_trans (Nat.le_add_right _ _) (ih hb)
  | @right c rs qs hi haligned _ ih =>
      rcases List.mem_append.1 hb with hb | hb
      · exact Nat.le_trans (Nat.le_add_right _ _) (ih (List.mem_append_left _ hb))
      · rcases List.mem_cons.1 hb with rfl | hb
        · exact Nat.le_refl _
        · exact Nat.le_trans (Nat.le_add_right _ _) (ih (List.mem_append_right _ hb))

theorem lt_of_covers (h : Partition w lo rs qs hi) {b : Block} (hb : b ∈ rs ++ qs) {a : Nat}
    (hcovers : b.Covers w a) : lo ≤ a := by
  have hbase := h.le_base hb
  have hle := ((h.aligned hb).covers_iff.1 hcovers).1
  omega

/-- In a block of the one list, or in one of the other. -/
theorem covered (h : Partition w lo rs qs hi) {a : Nat} (hlo : lo ≤ a) (hhi : a < hi) :
    (∃ b ∈ rs, b.Covers w a) ∨ ∃ b ∈ qs, b.Covers w a := by
  induction h with
  | done => omega
  | @left b rs qs hi haligned _ ih =>
      by_cases hnext : b.base + b.size w ≤ a
      · rcases ih hnext hhi with ⟨c, hc, hcovers⟩ | hq
        · exact Or.inl ⟨c, List.mem_cons_of_mem _ hc, hcovers⟩
        · exact Or.inr hq
      · exact Or.inl ⟨b, List.mem_cons_self, haligned.covers_iff.2 ⟨hlo, by omega⟩⟩
  | @right b rs qs hi haligned _ ih =>
      by_cases hnext : b.base + b.size w ≤ a
      · rcases ih hnext hhi with hr | ⟨c, hc, hcovers⟩
        · exact Or.inl hr
        · exact Or.inr ⟨c, List.mem_cons_of_mem _ hc, hcovers⟩
      · exact Or.inr ⟨b, List.mem_cons_self, haligned.covers_iff.2 ⟨hlo, by omega⟩⟩

/-- Not in both. -/
theorem not_both (h : Partition w lo rs qs hi) {a : Nat} {b c : Block} (hb : b ∈ rs) (hc : c ∈ qs)
    (hbcovers : b.Covers w a) : ¬c.Covers w a := by
  intro hccovers
  induction h with
  | done => cases hb
  | @left d rs qs hi haligned hrest ih =>
      rcases List.mem_cons.1 hb with rfl | hb
      · have hlow := hrest.lt_of_covers (List.mem_append_right _ hc) hccovers
        have hhigh := (haligned.covers_iff.1 hbcovers).2
        omega
      · exact ih hb hc
  | @right d rs qs hi haligned hrest ih =>
      rcases List.mem_cons.1 hc with rfl | hc
      · have hlow := hrest.lt_of_covers (List.mem_append_left _ hb) hbcovers
        have hhigh := (haligned.covers_iff.1 hccovers).2
        omega
      · exact ih hb hc

/-- The lists are complements. -/
theorem covered_iff (h : Partition w lo rs qs hi) {a : Nat} (hlo : lo ≤ a) (hhi : a < hi) :
    (∃ b ∈ rs, b.Covers w a) ↔ ∀ c ∈ qs, ¬c.Covers w a := by
  constructor
  · rintro ⟨b, hb, hcovers⟩ c hc
    exact h.not_both hb hc hcovers
  · intro hnone
    rcases h.covered hlo hhi with hr | ⟨c, hc, hcovers⟩
    · exact hr
    · exact absurd hcovers (hnone c hc)

end Partition

end Prefixes
