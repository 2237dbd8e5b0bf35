import SpinVpn.Lib.Octets

/-!
# Memory — octets at addresses

Programs that lay out their data by hand write some octets at an address and later read a number of
them from it.  A read gets what the last write put there (`read_write`), and a write does not touch
what lies beside it (`read_write_of_disjoint`).  An integer is stored as four octets.
-/

namespace Memory

/-- What is stored at every address. -/
def Mem : Type :=
  Nat → UInt8

def write (m : Mem) (a : Nat) (l : List UInt8) : Mem :=
  fun i => if a ≤ i ∧ i < a + l.length then l.getD (i - a) 0 else m i

def read (m : Mem) (a : Nat) : Nat → List UInt8
  | 0 => []
  | n + 1 => m a :: read m (a + 1) n

/-- An `int` in memory.  The order of its octets is the same for both directions. -/
def storeInt (m : Mem) (a n : Nat) : Mem :=
  write m a (Octets.toBytes 4 n)

def loadInt (m : Mem) (a : Nat) : Nat :=
  Octets.ofBytes (read m a 4)

section Reading

variable {m m' : Mem} {a b n k : Nat} {l : List UInt8}

@[simp]
theorem length_read (m : Mem) (n : Nat) : ∀ a, (read m a n).length = n := by
  induction n with
  | zero =>
      intro a
      rfl
  | succ n ih =>
      intro a
      exact congrArg Nat.succ (ih (a + 1))

/-- A read depends on nothing but the octets that it reads. -/
theorem read_congr (n : Nat) :
    ∀ a, (∀ i, a ≤ i → i < a + n → m i = m' i) → read m a n = read m' a n := by
  induction n with
  | zero =>
      intro a h
      rfl
  | succ n ih =>
      intro a h
      have hhead : m a = m' a := h a (Nat.le_refl _) (by omega)
      have htail := ih (a + 1) (fun i hle hlt => h i (by omega) (by omega))
      rw [read, read, hhead, htail]

/-! ## Reading after writing -/

theorem write_of_disjoint {i : Nat} (h : i < a ∨ a + l.length ≤ i) : write m a l i = m i := by
  rw [write, if_neg]
  omega

theorem read_write_of_disjoint (h : a + n ≤ b ∨ b + l.length ≤ a) :
    read (write m b l) a n = read m a n := by
  apply read_congr
  intro i hle hlt
  exact write_of_disjoint (by omega)

theorem write_cons (m : Mem) (a : Nat) (x : UInt8) (l : List UInt8) :
    write m a (x :: l) = write (write m a [x]) (a + 1) l := by
  funext i
  by_cases hhead : i = a
  · rw [write_of_disjoint (m := write m a [x]) (Or.inl (by omega))]
    simp [write, hhead]
  · by_cases hin : a + 1 ≤ i ∧ i < a + 1 + l.length
    · have hindex : i - a = (i - (a + 1)) + 1 := by omega
      rw [write, write, if_pos hin, if_pos (by rw [List.length_cons]; omega), hindex,
        List.getD_cons_succ]
    · rw [write_of_disjoint (by rw [List.length_cons]; omega),
        write_of_disjoint (by omega), write_of_disjoint (by rw [List.length_singleton]; omega)]

/-- A read of as many octets as were written, or of fewer. -/
theorem read_write (l : List UInt8) :
    ∀ (m : Mem) (a n : Nat), n ≤ l.length → read (write m a l) a n = l.take n := by
  induction l with
  | nil =>
      intro m a n h
      have hzero : n = 0 := Nat.le_zero.1 h
      rw [hzero]
      rfl
  | cons x l ih =>
      intro m a n h
      cases n with
      | zero => rfl
      | succ n =>
          have hhead : write (write m a [x]) (a + 1) l a = x := by
            rw [write_of_disjoint (Or.inl (Nat.lt_succ_self a))]
            simp [write]
          rw [write_cons, read, hhead, ih _ _ n (Nat.le_of_succ_le_succ h), List.take_succ_cons]

/-! ## Integers -/

theorem loadInt_storeInt (m : Mem) (a : Nat) (h : n < 4294967296) : loadInt (storeInt m a n) a = n := by
  have hread : read (storeInt m a n) a 4 = Octets.toBytes 4 n := by
    rw [storeInt, read_write _ _ _ _ (Nat.le_of_eq (Octets.length_toBytes 4 n).symm),
      List.take_of_length_le (Nat.le_of_eq (Octets.length_toBytes 4 n))]
  rw [loadInt, hread]
  exact Octets.ofBytes_toBytes_of_lt h

theorem read_storeInt_of_disjoint (h : a + n ≤ b ∨ b + 4 ≤ a) :
    read (storeInt m b k) a n = read m a n := by
  apply read_write_of_disjoint
  rw [Octets.length_toBytes]
  exact h

theorem loadInt_congr (h : ∀ i, a ≤ i → i < a + 4 → m i = m' i) : loadInt m a = loadInt m' a := by
  rw [loadInt, loadInt, read_congr 4 a h]

end Reading

end Memory
