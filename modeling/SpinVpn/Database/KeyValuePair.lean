import Mathlib.Data.Finset.Image
import Mathlib.Data.Finset.Max
import SpinVpn.Lib.Codec
import SpinVpn.Lib.Octets
import SpinVpn.Utils.Text

/-!
# KeyValuePair — the stored form of a setting

`database/KeyValuePair.kt`.  A value is stored as octets beside its type, and a getter of another
type gives null.  A set of strings is stored one string after the other, each behind its length; the
length is counted in UTF-16 code units and the string is written in UTF-8, so a set is read back
exactly if all its strings are ASCII (`faithful_iff`).
-/

namespace SpinVpn
namespace Database

open Codec Utils

/-! ## Strings -/

/-- A string of the platform, whose length is an `Int`. -/
structure Text where
  value : String
  fits : (utf16 value).length < 2 ^ 31
  deriving DecidableEq

namespace Text

def length (s : Text) : Nat :=
  (utf16 s.value).length

def toByteArray (s : Text) : List UInt8 :=
  Utf8.bytes s.value.toList

def Ascii (s : Text) : Prop :=
  ∀ c ∈ s.value.toList, c.toNat < 128

instance (s : Text) : Decidable s.Ascii :=
  inferInstanceAs (Decidable (∀ c ∈ s.value.toList, c.toNat < 128))

end Text

/-- `String(bytes)`.  What it makes of octets that are no UTF-8 is not specified. -/
structure Charset where
  string : List UInt8 → String
  string_bytes : ∀ l, string (Utf8.bytes l) = String.ofList l

theorem Charset.string_toByteArray (C : Charset) (s : Text) : C.string s.toByteArray = s.value := by
  rw [Text.toByteArray, C.string_bytes, String.ofList_toList]

/-! ## Buffers -/

inductive Failure
  | bufferUnderflow
  | negativeArraySize
  deriving DecidableEq, Repr

/-- What remains of a `ByteBuffer`. -/
abbrev Buffer : Type :=
  List UInt8

namespace Buffer

def get (buffer : Buffer) (n : Nat) : Except Failure (List UInt8 × Buffer) :=
  if buffer.length < n then .error .bufferUnderflow
  else .ok (buffer.take n, buffer.drop n)

def getInt (buffer : Buffer) : Except Failure (BitVec 32 × Buffer) :=
  (get buffer 4).map (fun r => (BitVec.ofNat 32 (Octets.ofBytes r.1), r.2))

def getLong (buffer : Buffer) : Except Failure (BitVec 64 × Buffer) :=
  (get buffer 8).map (fun r => (BitVec.ofNat 64 (Octets.ofBytes r.1), r.2))

def putInt (i : BitVec 32) : List UInt8 :=
  Octets.toBytes 4 i.toNat

def putLong (l : BitVec 64) : List UInt8 :=
  Octets.toBytes 8 l.toNat

theorem get_append {l : List UInt8} {n : Nat} (h : l.length = n) (rest : Buffer) :
    get (l ++ rest) n = .ok (l, rest) := by
  subst h
  have hlong : ¬ (l ++ rest).length < l.length := by
    rw [List.length_append]
    omega
  rw [get, if_neg hlong, List.take_left, List.drop_left]

theorem getInt_putInt (i : BitVec 32) (rest : Buffer) : getInt (putInt i ++ rest) = .ok (i, rest) := by
  have hfits : i.toNat < 256 ^ 4 := i.isLt
  rw [getInt, putInt, get_append (Octets.length_toBytes 4 _)]
  simp only [Except.map, Octets.ofBytes_toBytes_of_lt hfits, BitVec.ofNat_toNat, BitVec.setWidth_eq]

theorem getLong_putLong (l : BitVec 64) (rest : Buffer) :
    getLong (putLong l ++ rest) = .ok (l, rest) := by
  have hfits : l.toNat < 256 ^ 8 := l.isLt
  rw [getLong, putLong, get_append (Octets.length_toBytes 8 _)]
  simp only [Except.map, Octets.ofBytes_toBytes_of_lt hfits, BitVec.ofNat_toNat, BitVec.setWidth_eq]

/-- What was read is gone. -/
theorem length_getInt {buffer rest : Buffer} {i : BitVec 32} (h : getInt buffer = .ok (i, rest)) :
    rest.length < buffer.length := by
  rw [getInt, get] at h
  split at h
  · cases h
  · rename_i hlong
    cases h
    rw [List.length_drop]
    omega

/-- `ByteArray(buffer.int)`, filled by `buffer.get` -/
def getCounted (buffer : Buffer) : Except Failure (List UInt8 × Buffer) :=
  match getInt buffer with
  | .error e => .error e
  | .ok (n, rest) => if n.toInt < 0 then .error .negativeArraySize else get rest n.toInt.toNat

theorem length_getCounted {buffer rest : Buffer} {chArr : List UInt8}
    (h : getCounted buffer = .ok (chArr, rest)) : rest.length < buffer.length := by
  rw [getCounted] at h
  split at h
  · cases h
  · rename_i n rest' hint
    split at h
    · cases h
    · rw [get] at h
      split at h
      · cases h
      · cases h
        have hless := length_getInt hint
        rw [List.length_drop]
        omega

end Buffer

/-! ## Pairs -/

def typeUninitialized : Int := 0
def typeBoolean : Int := 1
def typeFloat : Int := 2
def typeInt : Int := 3
def typeLong : Int := 4
def typeString : Int := 5
def typeStringSet : Int := 6

structure KeyValuePair where
  key : String
  valueType : Int
  value : List UInt8

namespace KeyValuePair

section Getters

variable (C : Charset) (kv : KeyValuePair)

def boolean : Except Failure (Option Bool) :=
  if kv.valueType = typeBoolean then
    (Buffer.get kv.value 1).map (fun r => some (r.1 ≠ [0]))
  else .ok none

/-- A `Float` stands for its bits. -/
def float : Except Failure (Option (BitVec 32)) :=
  if kv.valueType = typeFloat then (Buffer.getInt kv.value).map (fun r => some r.1) else .ok none

def int : Except Failure (Option (BitVec 32)) :=
  if kv.valueType = typeInt then (Buffer.getInt kv.value).map (fun r => some r.1) else .ok none

def long : Except Failure (Option (BitVec 64)) :=
  if kv.valueType = typeInt then
    (Buffer.getInt kv.value).map (fun r => some (r.1.signExtend 64))
  else if kv.valueType = typeLong then (Buffer.getLong kv.value).map (fun r => some r.1)
  else .ok none

def string : Option String :=
  if kv.valueType = typeString then some (C.string kv.value) else none

/-- `while (buffer.hasRemaining())` -/
def readSet (buffer : Buffer) (result : Finset String) : Except Failure (Finset String) :=
  if buffer = [] then .ok result
  else
    match _h : Buffer.getCounted buffer with
    | .error e => .error e
    | .ok (chArr, rest) => readSet rest (insert (C.string chArr) result)
termination_by buffer.length
decreasing_by exact Buffer.length_getCounted ‹_›

def stringSet : Except Failure (Option (Finset String)) :=
  if kv.valueType = typeStringSet then (readSet C kv.value ∅).map some else .ok none

end Getters

section Puts

variable (kv : KeyValuePair)

def putBoolean (value : Bool) : KeyValuePair :=
  { kv with valueType := typeBoolean, value := [if value then 1 else 0] }

def putFloat (value : BitVec 32) : KeyValuePair :=
  { kv with valueType := typeFloat, value := Buffer.putInt value }

def putInt (value : BitVec 32) : KeyValuePair :=
  { kv with valueType := typeInt, value := Buffer.putInt value }

def putLong (value : BitVec 64) : KeyValuePair :=
  { kv with valueType := typeLong, value := Buffer.putLong value }

def putString (value : Text) : KeyValuePair :=
  { kv with valueType := typeString, value := value.toByteArray }

/-- One string of a set: `intBuffer.putInt(v.length)`, and `v.toByteArray()` -/
def entry (v : Text) : List UInt8 :=
  Buffer.putInt (BitVec.ofNat 32 v.length) ++ v.toByteArray

/-- The strings come in the order in which the set is iterated. -/
def putStringSet (value : List Text) : KeyValuePair :=
  { kv with valueType := typeStringSet, value := value.flatMap entry }

end Puts

/-! ## Values -/

/-- What the six getters say. -/
@[ext]
structure Reading where
  boolean : Option Bool
  float : Option (BitVec 32)
  int : Option (BitVec 32)
  long : Option (BitVec 64)
  string : Option String
  stringSet : Option (Finset String)

def Reading.null : Reading where
  boolean := none
  float := none
  int := none
  long := none
  string := none
  stringSet := none

def read (C : Charset) (kv : KeyValuePair) : Except Failure Reading := do
  let boolean ← kv.boolean
  let float ← kv.float
  let int ← kv.int
  let long ← kv.long
  let stringSet ← kv.stringSet C
  return { boolean, float, int, long, string := kv.string C, stringSet }

inductive Value
  | boolean (b : Bool)
  | float (bits : BitVec 32)
  | int (i : BitVec 32)
  | long (l : BitVec 64)
  | string (s : Text)
  | stringSet (v : Finset Text)

/-- The value from the getters of its type, and null from the others. -/
def Value.reading : Value → Reading
  | .boolean b => { Reading.null with boolean := some b }
  | .float bits => { Reading.null with float := some bits }
  | .int i => { Reading.null with int := some i, long := some (i.signExtend 64) }
  | .long l => { Reading.null with long := some l }
  | .string s => { Reading.null with string := some s.value }
  | .stringSet v => { Reading.null with stringSet := some (v.image Text.value) }

/-- `kv.put(v)`.  A set has a form for each order in which it may be iterated. -/
inductive Put (kv : KeyValuePair) : Value → KeyValuePair → Prop
  | boolean (b : Bool) : Put kv (.boolean b) (kv.putBoolean b)
  | float (bits : BitVec 32) : Put kv (.float bits) (kv.putFloat bits)
  | int (i : BitVec 32) : Put kv (.int i) (kv.putInt i)
  | long (l : BitVec 64) : Put kv (.long l) (kv.putLong l)
  | string (s : Text) : Put kv (.string s) (kv.putString s)
  | stringSet (l : List Text) (h : l.Nodup) : Put kv (.stringSet l.toFinset) (kv.putStringSet l)

/-- The value is read back from whatever is stored for it. -/
def Faithful (C : Charset) (kv : KeyValuePair) (v : Value) : Prop :=
  ∀ kv', Put kv v kv' → kv'.read C = .ok v.reading

/-! ## Single values -/

section Single

variable (C : Charset) (kv : KeyValuePair)

theorem read_putBoolean (b : Bool) : (kv.putBoolean b).read C = .ok (Value.boolean b).reading := by
  cases b with
  | false => rfl
  | true => rfl

/-- A buffer that holds one number holds nothing else. -/
theorem getInt_putInt_alone (i : BitVec 32) : Buffer.getInt (Buffer.putInt i) = .ok (i, []) := by
  have halone := Buffer.getInt_putInt i []
  rwa [List.append_nil] at halone

theorem read_putFloat (bits : BitVec 32) :
    (kv.putFloat bits).read C = .ok (Value.float bits).reading := by
  have hfloat : (kv.putFloat bits).float = .ok (some bits) := by
    rw [float, putFloat, if_pos rfl, getInt_putInt_alone]
    rfl
  rw [read, hfloat]
  rfl

theorem read_putInt (i : BitVec 32) : (kv.putInt i).read C = .ok (Value.int i).reading := by
  have hint : (kv.putInt i).int = .ok (some i) := by
    rw [int, putInt, if_pos rfl, getInt_putInt_alone]
    rfl
  have hlong : (kv.putInt i).long = .ok (some (i.signExtend 64)) := by
    rw [long, putInt, if_pos rfl, getInt_putInt_alone]
    rfl
  rw [read, hint, hlong]
  rfl

theorem read_putLong (l : BitVec 64) : (kv.putLong l).read C = .ok (Value.long l).reading := by
  have halone : Buffer.getLong (Buffer.putLong l) = .ok (l, []) := by
    have halone := Buffer.getLong_putLong l []
    rwa [List.append_nil] at halone
  have hlong : (kv.putLong l).long = .ok (some l) := by
    have htype : typeLong ≠ typeInt := by decide
    rw [long, putLong, if_neg htype, if_pos rfl, halone]
    rfl
  rw [read, hlong]
  rfl

theorem read_putString (s : Text) : (kv.putString s).read C = .ok (Value.string s).reading := by
  have hstring : (kv.putString s).string C = some s.value := by
    rw [string, putString, if_pos rfl, C.string_toByteArray]
  rw [read, hstring]
  rfl

theorem read_putStringSet (l : List Text) :
    (kv.putStringSet l).read C = (readSet C (l.flatMap entry) ∅).map
      (fun result => { Reading.null with stringSet := some result }) := by
  have hset : (kv.putStringSet l).stringSet C = (readSet C (l.flatMap entry) ∅).map some := by
    rw [stringSet, putStringSet, if_pos rfl]
  rw [read, hset]
  cases readSet C (l.flatMap entry) ∅ with
  | error e => rfl
  | ok result => rfl

end Single

/-! ## Lengths -/

section Lengths

theorem length_utf8EncodeChar_eq_one {c : Char} (h : c.toNat < 128) :
    (String.utf8EncodeChar c).length = 1 ∧ (utf16Char c).length = 1 := by
  have hsmall : c.val ≤ 0x7f := by
    rw [UInt32.le_iff_toNat_le]
    exact Nat.le_of_lt_succ h
  have hplane : c.toNat < 0x10000 := by omega
  constructor
  · rw [String.length_utf8EncodeChar, Char.utf8Size]
    exact if_pos hsmall
  · rw [utf16Char, if_pos hplane]
    rfl

/-- The other characters take more octets than code units. -/
theorem length_utf16Char_lt {c : Char} (h : ¬ c.toNat < 128) :
    (utf16Char c).length < (String.utf8EncodeChar c).length := by
  have hval : c.val.toNat = c.toNat := rfl
  rw [String.length_utf8EncodeChar, Char.utf8Size, utf16Char]
  simp only [UInt32.le_iff_toNat_le, hval]
  split_ifs <;> simp_all <;> omega

theorem length_utf16_le (l : List Char) : (l.flatMap utf16Char).length ≤ (Utf8.bytes l).length := by
  induction l with
  | nil => exact Nat.le_refl 0
  | cons c l ih =>
      have hchar : (utf16Char c).length ≤ (String.utf8EncodeChar c).length := by
        by_cases hc : c.toNat < 128
        · rw [(length_utf8EncodeChar_eq_one hc).1, (length_utf8EncodeChar_eq_one hc).2]
        · exact Nat.le_of_lt (length_utf16Char_lt hc)
      rw [Utf8.bytes_cons, List.flatMap_cons, List.length_append, List.length_append]
      omega

/-- The two lengths agree on ASCII texts only. -/
theorem length_utf16_eq_iff (l : List Char) :
    (l.flatMap utf16Char).length = (Utf8.bytes l).length ↔ ∀ c ∈ l, c.toNat < 128 := by
  induction l with
  | nil => simp
  | cons c l ih =>
      have hle := length_utf16_le l
      rw [Utf8.bytes_cons, List.flatMap_cons, List.length_append, List.length_append,
        List.forall_mem_cons, ← ih]
      by_cases hc : c.toNat < 128
      · rw [(length_utf8EncodeChar_eq_one hc).1, (length_utf8EncodeChar_eq_one hc).2]
        omega
      · have hlt := length_utf16Char_lt hc
        omega

end Lengths

/-! ## Sets -/

section Sets

variable {C : Charset} {kv : KeyValuePair} {s : Text} {buffer rest : Buffer}

theorem length_eq_iff (s : Text) : s.length = s.toByteArray.length ↔ s.Ascii :=
  length_utf16_eq_iff s.value.toList

theorem length_lt_of_not_ascii (h : ¬ s.Ascii) : s.length < s.toByteArray.length :=
  Nat.lt_of_le_of_ne (length_utf16_le s.value.toList) (fun heq => h ((length_eq_iff s).1 heq))

/-- The length is read back as it was written. -/
theorem getCounted_entry (s : Text) (rest : Buffer) :
    Buffer.getCounted (entry s ++ rest) = Buffer.get (s.toByteArray ++ rest) s.length := by
  have hfits : s.length < 2 ^ 31 := s.fits
  have hint : (BitVec.ofNat 32 s.length).toInt = (s.length : Int) := by
    rw [BitVec.toInt_eq_toNat_cond, BitVec.toNat_ofNat, Nat.mod_eq_of_lt (by omega),
      if_pos (by omega)]
  have hnat : ¬ (s.length : Int) < 0 := by omega
  calc
    Buffer.getCounted (entry s ++ rest)
        = Buffer.getCounted (Buffer.putInt (BitVec.ofNat 32 s.length) ++ (s.toByteArray ++ rest)) := by
          rw [entry, List.append_assoc]
    _ = Buffer.get (s.toByteArray ++ rest) s.length := by
          rw [Buffer.getCounted, Buffer.getInt_putInt]
          simp only [hint, if_neg hnat, Int.toNat_natCast]

theorem entry_append_ne_nil (s : Text) (rest : Buffer) : entry s ++ rest ≠ [] := by
  intro h
  have hlen := congrArg List.length h
  rw [entry, Buffer.putInt, List.length_append, List.length_append, Octets.length_toBytes] at hlen
  simp at hlen

/-! One turn of the loop. -/

theorem readSet_ok {chArr : List UInt8} {result : Finset String} (hne : buffer ≠ [])
    (h : Buffer.getCounted buffer = .ok (chArr, rest)) :
    readSet C buffer result = readSet C rest (insert (C.string chArr) result) := by
  rw [readSet, if_neg hne]
  split
  · rename_i e he
    rw [h] at he
    cases he
  · rename_i chArr' rest' hok
    rw [h] at hok
    cases hok
    rfl

theorem readSet_error {e : Failure} {result : Finset String} (hne : buffer ≠ [])
    (h : Buffer.getCounted buffer = .error e) : readSet C buffer result = .error e := by
  rw [readSet, if_neg hne]
  split
  · rename_i e' he
    rw [h] at he
    cases he
    rfl
  · rename_i hok
    rw [h] at hok
    cases hok

theorem readSet_nil (result : Finset String) : readSet C [] result = .ok result := by
  rw [readSet, if_pos rfl]

/-- An ASCII string is read back, and the loop goes on behind it. -/
theorem readSet_entry (hs : s.Ascii) (rest : Buffer) (result : Finset String) :
    readSet C (entry s ++ rest) result = readSet C rest (insert s.value result) := by
  have hlen : s.toByteArray.length = s.length := ((length_eq_iff s).2 hs).symm
  have hread : Buffer.getCounted (entry s ++ rest) = .ok (s.toByteArray, rest) := by
    rw [getCounted_entry, Buffer.get_append hlen]
  rw [readSet_ok (entry_append_ne_nil s rest) hread, C.string_toByteArray]

theorem readSet_flatMap (l : List Text) :
    ∀ result : Finset String, (∀ s ∈ l, s.Ascii) →
      readSet C (l.flatMap entry) result = .ok (result ∪ l.toFinset.image Text.value) := by
  induction l with
  | nil =>
      intro result _
      simp [readSet_nil]
  | cons s l ih =>
      intro result h
      have hs := h s List.mem_cons_self
      have hl : ∀ t ∈ l, t.Ascii := fun t ht => h t (List.mem_cons_of_mem s ht)
      calc
        readSet C ((s :: l).flatMap entry) result
            = readSet C (l.flatMap entry) (insert s.value result) := by
              rw [List.flatMap_cons, readSet_entry hs]
        _ = .ok (insert s.value result ∪ l.toFinset.image Text.value) := ih _ hl
        _ = .ok (result ∪ (s :: l).toFinset.image Text.value) := by
              rw [List.toFinset_cons, Finset.image_insert, Finset.insert_union,
                Finset.union_insert]

/-- What was read stays. -/
theorem subset_of_readSet {buffer : Buffer} {result : Finset String} :
    ∀ {final : Finset String}, readSet C buffer result = .ok final → result ⊆ final := by
  induction buffer, result using readSet.induct C with
  | case1 result =>
      intro final h
      rw [readSet_nil] at h
      cases h
      exact Finset.Subset.refl _
  | case2 buffer result hne e he =>
      intro final h
      rw [readSet_error hne he] at h
      cases h
  | case3 buffer result hne chArr rest hok ih =>
      intro final h
      rw [readSet_ok hne hok] at h
      exact (Finset.subset_insert _ _).trans (ih h)

/-- A length that begins with the octet of a broken character is negative. -/
theorem getCounted_of_high {b : UInt8} (hb : 128 ≤ b.toNat) (rest : Buffer) :
    ∃ e, Buffer.getCounted (b :: rest) = .error e := by
  match rest with
  | [] => exact ⟨_, rfl⟩
  | [_] => exact ⟨_, rfl⟩
  | [_, _] => exact ⟨_, rfl⟩
  | x :: y :: z :: rest =>
      have hint : Buffer.getInt (b :: x :: y :: z :: rest) =
          .ok (BitVec.ofNat 32 (Octets.ofBytes [b, x, y, z]), rest) := rfl
      have hvalue : Octets.ofBytes [b, x, y, z] =
          256 * (256 * (256 * b.toNat + x.toNat) + y.toNat) + z.toNat := by
        simp [Octets.ofBytes]
      have hlt := b.toNat_lt
      have hx := x.toNat_lt
      have hy := y.toNat_lt
      have hz := z.toNat_lt
      have hnegative : (BitVec.ofNat 32 (Octets.ofBytes [b, x, y, z])).toInt < 0 := by
        rw [BitVec.toInt_eq_toNat_cond, BitVec.toNat_ofNat, Nat.mod_eq_of_lt (by omega),
          if_neg (by omega)]
        omega
      refine ⟨.negativeArraySize, ?_⟩
      rw [Buffer.getCounted, hint]
      exact if_pos hnegative

end Sets

/-! ## Faithful values -/

section Faithfulness

variable (C : Charset) (kv : KeyValuePair)

theorem faithful_set {v : Finset Text} (h : ∀ s ∈ v, s.Ascii) : Faithful C kv (.stringSet v) := by
  intro kv' hput
  cases hput with
  | stringSet l hnodup =>
      have hl : ∀ s ∈ l, s.Ascii := fun s hs => h s (List.mem_toFinset.2 hs)
      rw [read_putStringSet, readSet_flatMap l ∅ hl, Finset.empty_union]
      rfl

/-- A text of as many octets as the whole string has code units is shorter than the string, and not
ASCII either. -/
theorem shorter_of_cut {w : Text} (hw : ¬ w.Ascii) {p r : List Char}
    (hpr : w.value.toList = p ++ r) (hlen : (Utf8.bytes p).length = w.length) :
    (p.flatMap utf16Char).length < w.length ∧ ∃ c ∈ p, ¬ c.toNat < 128 := by
  have hsum : w.length = (p.flatMap utf16Char).length + (r.flatMap utf16Char).length := by
    rw [Text.length, utf16, hpr, List.flatMap_append, List.length_append]
  have hrest : 0 < (r.flatMap utf16Char).length := by
    cases r with
    | nil =>
        have hlt := length_lt_of_not_ascii hw
        rw [List.append_nil] at hpr
        rw [Text.toByteArray, hpr, hlen] at hlt
        exact absurd hlt (Nat.lt_irrefl _)
    | cons c r =>
        rw [List.flatMap_cons, List.length_append, utf16Char]
        split
        · exact Nat.lt_add_right _ Nat.one_pos
        · exact Nat.lt_add_right _ Nat.two_pos
  refine ⟨by omega, ?_⟩
  by_contra hascii
  have heq := (length_utf16_eq_iff p).2 (by simpa using hascii)
  omega

/-- The first string of a set loses its last octets.  If what is left of it is a text, it is a
shorter one, and not an ASCII one either. -/
theorem readSet_not_ascii {w : Text} (hw : ¬ w.Ascii) (rest : Buffer) {final : Finset String}
    (h : readSet C (entry w ++ rest) ∅ = .ok final) :
    ∃ s ∈ final, (utf16 s).length < w.length ∧ ∃ c ∈ s.toList, ¬ c.toNat < 128 := by
  have hlt := length_lt_of_not_ascii hw
  have hread : Buffer.getCounted (entry w ++ rest) =
      .ok (w.toByteArray.take w.length, w.toByteArray.drop w.length ++ rest) := by
    have hlong : ¬ (w.toByteArray ++ rest).length < w.length := by
      rw [List.length_append]
      omega
    rw [getCounted_entry, Buffer.get, if_neg hlong,
      List.take_append_of_le_length (Nat.le_of_lt hlt),
      List.drop_append_of_le_length (Nat.le_of_lt hlt)]
  rw [readSet_ok (entry_append_ne_nil w rest) hread] at h
  rcases Utf8.cut_bytes w.value.toList w.length (Nat.le_of_lt hlt) with
    ⟨p, r, hpr, htake, hdrop⟩ | ⟨p, c, r, k, -, hpos, hk, -, hdrop⟩
  · -- between two characters
    have hlen : (Utf8.bytes p).length = w.length := by
      rw [← htake, List.length_take]
      exact Nat.min_eq_left (Nat.le_of_lt hlt)
    have hstring : C.string (w.toByteArray.take w.length) = String.ofList p := by
      rw [Text.toByteArray, htake, C.string_bytes]
    rw [hstring] at h
    refine ⟨String.ofList p, subset_of_readSet h (Finset.mem_insert_self _ _), ?_⟩
    rw [utf16, String.toList_ofList]
    exact shorter_of_cut hw hpr hlen
  · -- inside a character, of which an octet is read as the next length
    obtain ⟨b, tail, htail, hb⟩ := Utf8.continuation hpos hk
    obtain ⟨e, he⟩ := getCounted_of_high hb (tail ++ Utf8.bytes r ++ rest)
    have hbuffer : w.toByteArray.drop w.length ++ rest =
        b :: (tail ++ Utf8.bytes r ++ rest) := by
      rw [Text.toByteArray, hdrop, htail]
      simp
    rw [hbuffer, readSet_error (List.cons_ne_nil _ _) he] at h
    cases h

theorem ascii_of_faithful_set {v : Finset Text} (h : Faithful C kv (.stringSet v)) :
    ∀ s ∈ v, s.Ascii := by
  by_contra hnot
  push Not at hnot
  rcases hnot with ⟨s, hs, hascii⟩
  -- the shortest of the strings that are not ASCII comes first
  obtain ⟨w, hw, hmin⟩ := Finset.exists_min_image (v.filter (fun s => ¬ s.Ascii)) Text.length
    ⟨s, Finset.mem_filter.2 ⟨hs, hascii⟩⟩
  rcases Finset.mem_filter.1 hw with ⟨hmem, hwascii⟩
  have hnodup : (w :: (v.erase w).toList).Nodup := by
    rw [List.nodup_cons, Finset.mem_toList]
    exact ⟨Finset.notMem_erase w v, Finset.nodup_toList _⟩
  have hset : (w :: (v.erase w).toList).toFinset = v := by
    rw [List.toFinset_cons, Finset.toList_toFinset, Finset.insert_erase hmem]
  have hread := h _ (hset ▸ Put.stringSet _ hnodup)
  rw [read_putStringSet, List.flatMap_cons] at hread
  cases hfinal : readSet C (entry w ++ (v.erase w).toList.flatMap entry) ∅ with
  | error e =>
      rw [hfinal] at hread
      cases hread
  | ok final =>
      rw [hfinal] at hread
      have heq : final = v.image Text.value := by
        have hreading := Except.ok.inj hread
        exact Option.some.inj (congrArg Reading.stringSet hreading)
      obtain ⟨q, hq, hless, c, hc, hhigh⟩ := readSet_not_ascii C hwascii _ hfinal
      rw [heq] at hq
      rcases Finset.mem_image.1 hq with ⟨t, ht, rfl⟩
      have hle := hmin t (Finset.mem_filter.2 ⟨ht, fun hascii => hhigh (hascii c hc)⟩)
      exact absurd hless (Nat.not_lt_of_le hle)

theorem faithful_iff (C : Charset) (kv : KeyValuePair) (v : Value) :
    Faithful C kv v ↔ ∀ set, v = .stringSet set → ∀ s ∈ set, s.Ascii := by
  cases v with
  | stringSet v =>
      constructor
      · rintro h set heq
        cases heq
        exact ascii_of_faithful_set C kv h
      · intro h
        exact faithful_set C kv (h v rfl)
  | boolean b =>
      refine iff_of_true ?_ (by simp)
      rintro kv' ⟨⟩
      exact read_putBoolean C kv b
  | float bits =>
      refine iff_of_true ?_ (by simp)
      rintro kv' ⟨⟩
      exact read_putFloat C kv bits
  | int i =>
      refine iff_of_true ?_ (by simp)
      rintro kv' ⟨⟩
      exact read_putInt C kv i
  | long l =>
      refine iff_of_true ?_ (by simp)
      rintro kv' ⟨⟩
      exact read_putLong C kv l
  | string s =>
      refine iff_of_true ?_ (by simp)
      rintro kv' ⟨⟩
      exact read_putString C kv s

end Faithfulness

/-! ## An accent -/

/-- The replacement of broken octets does not matter here. -/
def utf8 : Charset where
  string := fun b => String.ofList ((Utf8.decode b).getD [])
  string_bytes := by
    intro l
    rw [Utf8.decode_bytes]
    rfl

def accent : Text where
  value := "é"
  fits := by decide

/-- One code unit and two octets: the second octet is taken for a length. -/
theorem accent_underflow :
    (({ key := "k", valueType := typeUninitialized, value := [] } : KeyValuePair).putStringSet
      [accent]).stringSet utf8 = .error .bufferUnderflow ∧
      ¬ Faithful utf8 { key := "k", valueType := typeUninitialized, value := [] }
        (.stringSet {accent}) := by
  constructor
  · have hfirst : Buffer.getCounted ([accent].flatMap entry) = .ok ([0xc3], [0xa9]) := by
      decide
    have hsecond : Buffer.getCounted [0xa9] = .error .bufferUnderflow := by
      decide
    have hread : readSet utf8 ([accent].flatMap entry) ∅ = .error .bufferUnderflow := by
      rw [readSet_ok (by decide) hfirst, readSet_error (by decide) hsecond]
    rw [stringSet, putStringSet, if_pos rfl, hread]
    rfl
  · intro h
    have hascii := ascii_of_faithful_set utf8 _ h accent (Finset.mem_singleton_self _)
    have hmem : 'é' ∈ accent.value.toList := by simp [accent]
    exact absurd (hascii 'é' hmem) (by simp)

end KeyValuePair

end Database
end SpinVpn
