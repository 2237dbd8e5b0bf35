import SpinVpn.Lib.Octets

/-!
# LocalDnsWorker — queries and replies over a local socket

`bg/LocalDnsWorker.kt`.  Both directions are framed alike: a length of two octets, then the message.
The socket hands over what the client sent in chunks, and a read ends at the end of a chunk.  The
length is read octet by octet, but the query with a single read into an array of zeros; it arrives
as it was sent exactly if what comes after the chunk in which it begins is zero anyway
(`accept_iff`).  What is written decodes to the response in any case.
-/

namespace SpinVpn
namespace Bg

/-! ## Streams -/

/-- What is still to be read, and where each read ends at the latest.  After the last chunk, the
stream is at its end. -/
structure Stream where
  chunks : List (List UInt8)
  nonempty : ∀ c ∈ chunks, c ≠ []
  deriving DecidableEq

namespace Stream

def octets (s : Stream) : List UInt8 :=
  s.chunks.flatten

/-- `InputStream.read` with room for `n` octets; at the end of the stream it gives none. -/
def read (s : Stream) (n : Nat) : List UInt8 × Stream :=
  match s with
  | { chunks := [], nonempty } => ([], { chunks := [], nonempty })
  | { chunks := c :: cs, nonempty } =>
      (c.take n,
        if h : c.drop n = [] then
          { chunks := cs, nonempty := fun d hd => nonempty d (List.mem_cons_of_mem c hd) }
        else
          { chunks := c.drop n :: cs
            nonempty := by
              intro d hd
              rcases List.mem_cons.1 hd with rfl | hd
              · exact h
              · exact nonempty d (List.mem_cons_of_mem c hd) })

/-- `none` stands for the exception at the end of the stream. -/
def readByte (s : Stream) : Option (UInt8 × Stream) :=
  (s.read 1).1.head?.map (fun b => (b, (s.read 1).2))

def readUnsignedShort (s : Stream) : Option (Nat × Stream) :=
  s.readByte.bind (fun high =>
    high.2.readByte.map (fun low => (Octets.ofBytes [high.1, low.1], low.2)))

/-- The octet at which the chunk with octet `i` ends. -/
def chunkEnd : List (List UInt8) → Nat → Nat
  | [], _ => 0
  | c :: cs, i => if i < c.length then c.length else c.length + chunkEnd cs (i - c.length)

end Stream

/-! ## The worker -/

/-- The resolver, and the answer that a query gets when it fails.  `none` stands for exceptions. -/
structure Resolver where
  resolver : List UInt8 → Option (List UInt8)
  servfail : List UInt8 → Option (List UInt8)

def Resolver.response (R : Resolver) (query : List UInt8) : List UInt8 :=
  match R.resolver query with
  | some response => response
  -- empty if the packet cannot be parsed
  | none => (R.servfail query).getD []

/-- `ByteArray(input.readUnsignedShort()).also { input.read(it) }` -/
def readQuery (input : Stream) : Option (List UInt8) :=
  input.readUnsignedShort.map (fun r =>
    let got := (r.2.read r.1).1
    -- what the read does not fill stays zero
    got ++ List.replicate (r.1 - got.length) 0)

/-- `output.writeShort(response.size)` and `output.write(response)` -/
def writeResponse (response : List UInt8) : List UInt8 :=
  Octets.toBytes 2 response.length ++ response

structure Exchange where
  /-- what the resolver is called with -/
  query : Option (List UInt8)
  written : List UInt8
  deriving DecidableEq

def accept (R : Resolver) (input : Stream) : Exchange :=
  match readQuery input with
  -- connection early close
  | none => { query := none, written := [] }
  | some query => { query := some query, written := writeResponse (R.response query) }

/-! ## Framing -/

/-- A message behind its length. -/
def frame (message : List UInt8) : List UInt8 :=
  Octets.toBytes 2 message.length ++ message

def unframe : List UInt8 → Option (List UInt8)
  | a :: b :: message =>
      if message.length = Octets.ofBytes [a, b] then some message else none
  | _ => none

theorem toBytes_two (n : Nat) :
    Octets.toBytes 2 n = [UInt8.ofNat (n / 256), UInt8.ofNat n] := by
  simp [Octets.toBytes]

theorem ofBytes_length {message : List UInt8} (h : message.length ≤ 65535) :
    Octets.ofBytes [UInt8.ofNat (message.length / 256), UInt8.ofNat message.length] =
      message.length := by
  rw [← toBytes_two]
  exact Octets.ofBytes_toBytes_of_lt (by omega)

theorem unframe_frame {message : List UInt8} (h : message.length ≤ 65535) :
    unframe (frame message) = some message := by
  rw [frame, toBytes_two, List.cons_append, List.cons_append, List.nil_append, unframe,
    ofBytes_length h, if_pos rfl]

/-! ## Reading -/

namespace Stream

theorem octets_read (s : Stream) (n : Nat) : (s.read n).1 ++ (s.read n).2.octets = s.octets := by
  rcases s with ⟨_ | ⟨c, cs⟩, hne⟩
  · rfl
  · simp only [read]
    split
    · rename_i h
      rw [octets, octets, List.flatten_cons]
      conv_rhs => rw [← List.take_append_drop n c, h, List.append_nil]
    · rw [octets, octets, List.flatten_cons, List.flatten_cons, ← List.append_assoc,
        List.take_append_drop]

/-- Nothing lies between one octet and the next. -/
theorem readByte_eq {s : Stream} {b : UInt8} {l : List UInt8} (h : s.octets = b :: l) :
    ∃ s', s.readByte = some (b, s') ∧ s'.octets = l ∧
      ∀ i, chunkEnd s.chunks (i + 1) = chunkEnd s'.chunks i + 1 := by
  rcases s with ⟨_ | ⟨c, cs⟩, hne⟩
  · cases h
  · rcases c with _ | ⟨x, c⟩
    · exact absurd rfl (hne [] List.mem_cons_self)
    · have hx : x = b ∧ c ++ cs.flatten = l := by
        simpa [octets] using h
      rcases hx with ⟨rfl, rfl⟩
      refine ⟨_, rfl, ?_, ?_⟩
      · have hsplit := octets_read ⟨(x :: c) :: cs, hne⟩ 1
        rw [h] at hsplit
        exact (List.cons.inj hsplit).2
      · intro i
        rcases c with _ | ⟨y, c⟩
        · have hlate : ¬ i + 1 < [x].length := Nat.not_lt_of_le (Nat.le_add_left 1 i)
          rw [chunkEnd, if_neg hlate]
          exact Nat.add_comm 1 _
        · have hlength : (x :: y :: c).length = (y :: c).length + 1 := rfl
          have hsame : ({ chunks := (x :: y :: c) :: cs, nonempty := hne } : Stream).read 1 =
              ([x], { chunks := (y :: c) :: cs
                      nonempty := fun d hd => by
                        rcases List.mem_cons.1 hd with rfl | hd
                        · exact List.cons_ne_nil _ _
                        · exact hne d (List.mem_cons_of_mem _ hd) }) := rfl
          rw [hsame, chunkEnd, chunkEnd, hlength]
          by_cases hi : i < (y :: c).length
          · rw [if_pos (Nat.succ_lt_succ hi), if_pos hi]
          · rw [if_neg (fun h => hi (Nat.lt_of_succ_lt_succ h)), if_neg hi, Nat.add_sub_add_right]
            exact Nat.add_right_comm _ 1 _

/-- A read gets what is left of the chunk. -/
theorem read_eq (s : Stream) {n : Nat} (h : s.octets.length = n) :
    (s.read n).1 = s.octets.take (chunkEnd s.chunks 0) := by
  rcases s with ⟨_ | ⟨c, cs⟩, hne⟩
  · rfl
  · have hpos : 0 < c.length := List.length_pos_iff.2 (hne c List.mem_cons_self)
    have hle : c.length ≤ n := by
      rw [← h, octets, List.flatten_cons, List.length_append]
      omega
    rw [read, chunkEnd, if_pos hpos, octets, List.flatten_cons, List.take_left,
      List.take_of_length_le hle]

theorem readUnsignedShort_frame {s : Stream} {message : List UInt8} (h : message.length ≤ 65535)
    (hs : s.octets = frame message) :
    ∃ s', s.readUnsignedShort = some (message.length, s') ∧ s'.octets = message ∧
      chunkEnd s.chunks 2 = chunkEnd s'.chunks 0 + 2 := by
  rw [frame, toBytes_two] at hs
  obtain ⟨s₁, hhigh, hs₁, hend₁⟩ := readByte_eq hs
  obtain ⟨s₂, hlow, hs₂, hend₂⟩ := readByte_eq hs₁
  refine ⟨s₂, ?_, hs₂, ?_⟩
  · rw [readUnsignedShort, hhigh, Option.bind_some, hlow, Option.map_some, ofBytes_length h]
  · rw [hend₁ 1, hend₂ 0]

end Stream

/-! ## Queries and replies -/

/-- Filling up with zeros restores zeros only. -/
theorem take_append_replicate_eq_iff (l : List UInt8) (k : Nat) :
    l.take k ++ List.replicate (l.length - (l.take k).length) 0 = l ↔ ∀ b ∈ l.drop k, b = 0 := by
  have hlength : l.length - (l.take k).length = (l.drop k).length := by
    rw [List.length_take, List.length_drop]
    omega
  rw [hlength]
  constructor
  · intro h
    have hdrop : l.take k ++ List.replicate (l.drop k).length 0 = l.take k ++ l.drop k := by
      rw [h, List.take_append_drop]
    rw [← List.append_cancel_left hdrop]
    intro b hb
    exact (List.mem_replicate.1 hb).2
  · intro h
    rw [← List.eq_replicate_length.2 h, List.take_append_drop]

theorem readQuery_frame {input : Stream} {query : List UInt8} (h : query.length ≤ 65535)
    (hs : input.octets = frame query) :
    readQuery input = some query ↔
      ∀ b ∈ (frame query).drop (Stream.chunkEnd input.chunks 2), b = 0 := by
  obtain ⟨rest, hshort, hrest, hend⟩ := Stream.readUnsignedShort_frame h hs
  have hgot : (rest.read query.length).1 = query.take (Stream.chunkEnd rest.chunks 0) := by
    rw [Stream.read_eq rest (by rw [hrest]), hrest]
  have hdrop : (frame query).drop (Stream.chunkEnd input.chunks 2) =
      query.drop (Stream.chunkEnd rest.chunks 0) := by
    rw [hend, frame, toBytes_two]
    rfl
  rw [readQuery, hshort, Option.map_some, hdrop, ← take_append_replicate_eq_iff]
  simp only [hgot, Option.some.injEq]

/-- Whatever was passed to the resolver, what is written decodes to its response. -/
theorem unframe_written {R : Resolver} {input : Stream} {query : List UInt8}
    (h : (accept R input).query = some query) (hfits : (R.response query).length ≤ 65535) :
    unframe (accept R input).written = some (R.response query) := by
  rw [accept] at h ⊢
  split at h
  · cases h
  · cases h
    exact unframe_frame hfits

theorem accept_iff (R : Resolver) (input : Stream) (query : List UInt8)
    (hfits : query.length ≤ 65535) (hsent : input.octets = frame query) :
    ((accept R input).query = some query ∧
        ∀ passed, (accept R input).query = some passed → (R.response passed).length ≤ 65535 →
          unframe (accept R input).written = some (R.response passed)) ↔
      ∀ b ∈ (frame query).drop (Stream.chunkEnd input.chunks 2), b = 0 := by
  have hquery : (accept R input).query = readQuery input := by
    rw [accept]
    split
    · rename_i hnone
      rw [hnone]
    · rename_i hsome
      rw [hsome]
  rw [← readQuery_frame hfits hsent, hquery]
  constructor
  · exact And.left
  · intro h
    exact ⟨h, fun passed hpassed => unframe_written (hquery.trans hpassed)⟩

/-- The resolver gives the query back. -/
def echo : Resolver where
  resolver := some
  servfail := fun _ => none

/-- Two octets in one chunk, with their length in another. -/
def twoChunks : Stream where
  chunks := [[0, 2], [1, 2]]
  nonempty := by decide

theorem accept_iff_twoChunks :
    (accept echo twoChunks).query = some [1, 2] ∧
      ∀ passed, (accept echo twoChunks).query = some passed →
        (echo.response passed).length ≤ 65535 →
        unframe (accept echo twoChunks).written = some (echo.response passed) :=
  (accept_iff echo twoChunks [1, 2] (by decide) (by decide)).2
    (by decide +kernel)

/-- The same octets, with the message in two chunks. -/
def threeChunks : Stream where
  chunks := [[0, 2], [1], [2]]
  nonempty := by decide

theorem accept_threeChunks :
    threeChunks.octets = frame [1, 2] ∧ (accept echo threeChunks).query = some [1, 0] ∧
      (accept echo threeChunks).query ≠ some [1, 2] := by
  decide

end Bg
end SpinVpn
