import Mathlib.Data.List.Induction
import Mathlib.Tactic.Common
import Mathlib.Tactic.IntervalCases

/-!
# Ipaddr6 — IPv6 addresses as texts

`badvpn/misc/ipaddr6.h`, with which `tun2socks` reads the address of its interface.  An address is its
eight blocks of two octets.

What is accepted is less strict than the notation of addresses (`parseIpv6Addr_iff`).  A group has any
number of hexadecimal digits, as long as its value is at most FFFF.  There are eight groups, or, with
`::` in one place, up to seven before it and up to eight in all; and an IPv4 address may stand in the
place of the last two.  The texts that are printed are among those (`parseIpv6Addr_printAddr`).
-/

namespace SpinVpn
namespace Tun
namespace Ipaddr6

def decodeDecimalDigit : Char → Option Nat
  | '0' => some 0 | '1' => some 1 | '2' => some 2 | '3' => some 3 | '4' => some 4
  | '5' => some 5 | '6' => some 6 | '7' => some 7 | '8' => some 8 | '9' => some 9
  | _ => none

def decodeHexDigit : Char → Option Nat
  | '0' => some 0 | '1' => some 1 | '2' => some 2 | '3' => some 3 | '4' => some 4
  | '5' => some 5 | '6' => some 6 | '7' => some 7 | '8' => some 8 | '9' => some 9
  | 'A' => some 10 | 'a' => some 10
  | 'B' => some 11 | 'b' => some 11
  | 'C' => some 12 | 'c' => some 12
  | 'D' => some 13 | 'd' => some 13
  | 'E' => some 14 | 'e' => some 14
  | 'F' => some 15 | 'f' => some 15
  | _ => none

/-! ## Parsing -/

/-- What was read so far: the blocks in `out_addr`, and the block that is being read. -/
structure Reading where
  blocks : List (BitVec 16) := []
  compressPos : Option Nat := none
  block : Nat := 0
  empty : Bool := true
  deriving DecidableEq

/-- One more digit of the block. -/
def Reading.digit (s : Reading) (d : Nat) : Option Reading :=
  if s.block > 65535 / 16 then none
  else if d > 65535 - s.block * 16 then none
  else some { s with block := s.block * 16 + d, empty := false }

/-- The block goes to `out_addr`. -/
def Reading.store (s : Reading) : Reading :=
  { s with blocks := s.blocks ++ [.ofNat 16 s.block], block := 0, empty := true }

/-- A colon: at the start of the text there has to be a second one. -/
def Reading.colon (start isDouble : Bool) (s : Reading) : Option Reading :=
  if start then
    if isDouble then some s else none
  else if s.empty ∨ s.blocks.length = 7 then none
  else some s.store

def Reading.compress (s : Reading) : Option Reading :=
  if s.compressPos.isSome then none else some { s with compressPos := some s.blocks.length }

/-- The first loop of `ipaddr6_parse_ipv6_addr`; `text` is where the block starts.  At a dot it hands
over what follows the last colon. -/
def parseBlocks (start : Bool) (s : Reading) (text : List Char) :
    List Char → Option (Reading × Option (List Char))
  | [] => some (s, none)
  | '.' :: _ => some (s, some text)
  | ':' :: ':' :: rest =>
      (s.colon start true).bind fun s => s.compress.bind fun s => parseBlocks false s rest rest
  | ':' :: rest => (s.colon start false).bind fun s => parseBlocks false s rest rest
  | c :: rest =>
      (decodeHexDigit c).bind fun d => (s.digit d).bind fun s => parseBlocks false s text rest

/-- The loop behind `ipv4_ending`. -/
def parseQuad (bytes : List Nat) (byte : Nat) (empty : Bool) : List Char → Option (List Nat)
  | [] => if bytes.length ≠ 3 ∨ empty then none else some (bytes ++ [byte])
  | c :: rest =>
      if c = '.' then
        if empty ∨ bytes.length = 3 then none else parseQuad (bytes ++ [byte]) 0 true rest
      else if ¬empty ∧ byte = 0 then none
      else
        (decodeDecimalDigit c).bind fun d =>
          if byte > 255 / 10 then none
          else if d > 255 - byte * 10 then none
          else parseQuad bytes (byte * 10 + d) false rest

/-- Two octets of an IPv4 address. -/
def pair (hi lo : Nat) : BitVec 16 :=
  .ofNat 16 (hi * 256 + lo)

def pairs : List Nat → List (BitVec 16)
  | [a, b, c, d] => [pair a b, pair c d]
  | _ => []

/-- From `ipv4_done` on: the blocks behind `::` move to the end. -/
def spread (blocks : List (BitVec 16)) : Option Nat → Option (List (BitVec 16))
  | none => if blocks.length ≠ 8 then none else some blocks
  | some pos => some (blocks.take pos ++ List.replicate (8 - blocks.length) 0 ++ blocks.drop pos)

/-- From the end of the first loop on to `ipv4_done`. -/
def close : Reading × Option (List Char) → Option (List (BitVec 16) × Option Nat)
  | (s, none) =>
      if ¬s.empty then some (s.store.blocks, s.compressPos)
      else if s.compressPos ≠ some s.blocks.length then none
      else some (s.blocks, s.compressPos)
  | (s, some text) =>
      if s.empty ∨ s.blocks.length = 0 ∧ s.compressPos = none then none
      else
        (parseQuad [] 0 true text).bind fun bytes =>
          if 8 - s.blocks.length < 2 then none
          else some (s.blocks ++ pairs bytes, s.compressPos)

/-- `ipaddr6_parse_ipv6_addr`, from the first loop to the end. -/
def parseFrom (start : Bool) (s : Reading) (text : List Char) : Option (List (BitVec 16)) :=
  (parseBlocks start s text text).bind fun r => (close r).bind fun p => spread p.1 p.2

def parseIpv6Addr (name : List Char) : Option (List (BitVec 16)) :=
  parseFrom true {} name

/-! ## Printing -/

structure ZeroRun where
  largestStart : Nat := 0
  largestLen : Nat := 0
  currentStart : Nat := 0
  currentLen : Nat := 0
  deriving DecidableEq

def ZeroRun.next (i : Nat) (r : ZeroRun) (b : BitVec 16) : ZeroRun :=
  if b = 0 then
    let len := r.currentLen + 1
    if len > r.largestLen then
      { r with currentLen := len, largestStart := r.currentStart, largestLen := len }
    else { r with currentLen := len }
  else { r with currentStart := i + 1, currentLen := 0 }

/-- The first of the longest runs of zeros. -/
def zeroRun (i : Nat) (r : ZeroRun) : List (BitVec 16) → ZeroRun
  | [] => r
  | b :: rest => zeroRun (i + 1) (r.next i b) rest

/-- `PRIx16` -/
def hex (b : BitVec 16) : List Char :=
  Nat.toDigits 16 b.toNat

/-- Blocks with colons between them. -/
def join : List (BitVec 16) → List Char
  | [] => []
  | b :: rest => hex b ++ rest.flatMap (fun b => ':' :: hex b)

def printAddr (blocks : List (BitVec 16)) : List Char :=
  let r := zeroRun 0 {} blocks
  if r.largestLen > 1 then
    (blocks.take r.largestStart).flatMap (fun b => hex b ++ [':']) ++
      (if r.largestStart = 0 then [':'] else []) ++
      (blocks.drop (r.largestStart + r.largestLen)).flatMap (fun b => ':' :: hex b) ++
      (if r.largestStart + r.largestLen = 8 then [':'] else [])
  else join blocks

/-! ## The grammar -/

/-- Hexadecimal digits whose value is that of the block. -/
def IsGroup (g : List Char) (b : BitVec 16) : Prop :=
  g ≠ [] ∧ ∃ ds : List Nat, g.map decodeHexDigit = ds.map some ∧
    ds.foldl (fun n d => n * 16 + d) 0 = b.toNat

/-- Four octets in decimal digits, without leading zeros. -/
def IsQuad (text : List Char) (bs : List (BitVec 16)) : Prop :=
  ∃ a b c d : Nat, a ≤ 255 ∧ b ≤ 255 ∧ c ≤ 255 ∧ d ≤ 255 ∧
    text = Nat.toDigits 10 a ++ '.' :: (Nat.toDigits 10 b ++ '.' :: (Nat.toDigits 10 c ++
      '.' :: Nat.toDigits 10 d)) ∧
    bs = [pair a b, pair c d]

/-- Groups with colons between them. -/
inductive Groups : List Char → List (BitVec 16) → Prop where
  | nil : Groups [] []
  | last {g : List Char} {b : BitVec 16} : IsGroup g b → Groups g [b]
  | cons {g rest : List Char} {b : BitVec 16} {bs : List (BitVec 16)} :
      IsGroup g b → Groups rest bs → bs ≠ [] → Groups (g ++ ':' :: rest) (b :: bs)

/-- Groups, of which an IPv4 address may be the last two. -/
inductive Blocks : List Char → List (BitVec 16) → Prop where
  | nil : Blocks [] []
  | last {g : List Char} {b : BitVec 16} : IsGroup g b → Blocks g [b]
  | quad {text : List Char} {bs : List (BitVec 16)} : IsQuad text bs → Blocks text bs
  | cons {g rest : List Char} {b : BitVec 16} {bs : List (BitVec 16)} :
      IsGroup g b → Blocks rest bs → bs ≠ [] → Blocks (g ++ ':' :: rest) (b :: bs)

/-- The texts of an address. -/
def Denotes (text : List Char) (a : List (BitVec 16)) : Prop :=
  (Blocks text a ∧ a.length = 8) ∨
    ∃ front fb rear rb, text = front ++ ':' :: ':' :: rear ∧ Groups front fb ∧ Blocks rear rb ∧
      fb.length ≤ 7 ∧ fb.length + rb.length ≤ 8 ∧
      a = fb ++ List.replicate (8 - (fb.length + rb.length)) 0 ++ rb

theorem Denotes.length_eq {text : List Char} {a : List (BitVec 16)} (h : Denotes text a) :
    a.length = 8 := by
  rcases h with ⟨-, hlen⟩ | ⟨front, fb, rear, rb, -, -, -, -, hle, rfl⟩
  · exact hlen
  · simp only [List.length_append, List.length_replicate]
    omega

/-! ## Digits -/

theorem decodeHexDigit_ne {c : Char} {d : Nat} (h : decodeHexDigit c = some d) :
    c ≠ ':' ∧ c ≠ '.' := by
  constructor <;> rintro rfl <;> cases h

theorem decodeDecimalDigit_iff {c : Char} {d : Nat} :
    decodeDecimalDigit c = some d ↔ d < 10 ∧ c = d.digitChar := by
  constructor
  · intro h
    rw [decodeDecimalDigit.eq_def] at h
    split at h <;> cases h <;> decide
  · rintro ⟨hd, rfl⟩
    interval_cases d <;> rfl

/-- The digits of a block, one after the other. -/
def feed (g : List Char) (s : Reading) : Option Reading :=
  g.foldlM (fun s c => (decodeHexDigit c).bind s.digit) s

theorem le_foldl (ds : List Nat) (n : Nat) : n ≤ ds.foldl (fun n d => n * 16 + d) n := by
  induction ds generalizing n with
  | nil => exact Nat.le_refl n
  | cons d ds ih =>
      have hrest := ih (n * 16 + d)
      rw [List.foldl_cons]
      omega

theorem feed_iff {g : List Char} {B : List (BitVec 16)} {C : Option Nat} {n : Nat} {e : Bool}
    {s : Reading} (hn : n ≤ 65535) :
    feed g ⟨B, C, n, e⟩ = some s ↔ ∃ ds : List Nat, g.map decodeHexDigit = ds.map some ∧
      ds.foldl (fun n d => n * 16 + d) n ≤ 65535 ∧
      s = ⟨B, C, ds.foldl (fun n d => n * 16 + d) n, e && g.isEmpty⟩ := by
  induction g generalizing n e with
  | nil =>
      constructor
      · intro h
        cases h
        exact ⟨[], rfl, hn, by simp⟩
      · rintro ⟨ds, hds, -, rfl⟩
        have hnil : ds = [] := by simpa using hds
        subst hnil
        simp [feed]
  | cons c g ih =>
      have hstep : feed (c :: g) ⟨B, C, n, e⟩ =
          (decodeHexDigit c).bind fun d => (Reading.digit ⟨B, C, n, e⟩ d).bind (feed g) := by
        cases hc : decodeHexDigit c with
        | none => simp [feed, hc]
        | some d =>
            simp only [feed, List.foldlM_cons, hc, Option.bind_some]
            rfl
      rw [hstep]
      constructor
      · intro h
        obtain ⟨d, hd, s₁, hs₁, hfeed⟩ : ∃ d, decodeHexDigit c = some d ∧
            ∃ s₁, Reading.digit ⟨B, C, n, e⟩ d = some s₁ ∧ feed g s₁ = some s := by
          simpa [Option.bind_eq_some_iff] using h
        rw [Reading.digit] at hs₁
        split at hs₁
        · cases hs₁
        split at hs₁
        · cases hs₁
        cases hs₁
        obtain ⟨ds, hds, hle, rfl⟩ := (ih (by omega)).1 hfeed
        exact ⟨d :: ds, by simp [hd, hds], hle, by simp⟩
      · rintro ⟨ds, hds, hle, hs⟩
        cases ds with
        | nil => simp at hds
        | cons d ds =>
            simp only [List.map_cons, List.cons.injEq] at hds
            -- the value so far is at most that of the whole block
            have hfold := le_foldl ds (n * 16 + d)
            rw [List.foldl_cons] at hle
            have hdigit : Reading.digit ⟨B, C, n, e⟩ d = some ⟨B, C, n * 16 + d, false⟩ := by
              rw [Reading.digit, if_neg (by dsimp only; omega), if_neg (by dsimp only; omega)]
            have hrest : feed g ⟨B, C, n * 16 + d, false⟩ = some s :=
              (ih (by omega)).2 ⟨ds, hds.2, hle, by simpa using hs⟩
            simpa [hds.1, hdigit] using hrest

/-- At the start of a block: nothing, or a group. -/
theorem feed_start {g : List Char} {B : List (BitVec 16)} {C : Option Nat} {s : Reading} :
    feed g ⟨B, C, 0, true⟩ = some s ↔ (g = [] ∧ s = ⟨B, C, 0, true⟩) ∨
      ∃ b, IsGroup g b ∧ s = ⟨B, C, b.toNat, false⟩ := by
  rw [feed_iff (Nat.zero_le _)]
  constructor
  · rintro ⟨ds, hds, hle, rfl⟩
    cases g with
    | nil =>
        have hnil : ds = [] := by simpa using hds
        subst hnil
        exact Or.inl ⟨rfl, rfl⟩
    | cons c g =>
        refine Or.inr ⟨.ofNat 16 (ds.foldl (fun n d => n * 16 + d) 0), ⟨by simp, ds, hds, ?_⟩, ?_⟩
        · rw [BitVec.toNat_ofNat, Nat.mod_eq_of_lt (by omega)]
        · rw [BitVec.toNat_ofNat, Nat.mod_eq_of_lt (by omega)]
          simp
  · rintro (⟨rfl, rfl⟩ | ⟨b, ⟨hne, ds, hds, hb⟩, rfl⟩)
    · exact ⟨[], rfl, Nat.zero_le _, rfl⟩
    · have hlt := b.isLt
      refine ⟨ds, hds, by omega, ?_⟩
      cases g with
      | nil => exact absurd rfl hne
      | cons c g => simp [hb]

/-! ## Up to the next colon or dot -/

def isSeparator (c : Char) : Bool :=
  c = ':' ∨ c = '.'

theorem parseBlocks_cons {c : Char} (hc : ¬isSeparator c) (start : Bool) (s : Reading)
    (text rest : List Char) :
    parseBlocks start s text (c :: rest) =
      (decodeHexDigit c).bind fun d => (s.digit d).bind fun s => parseBlocks false s text rest := by
  have hcolon : c ≠ ':' := by
    rintro rfl
    exact hc rfl
  have hdot : c ≠ '.' := by
    rintro rfl
    exact hc rfl
  rw [parseBlocks.eq_def]
  split <;> simp_all

theorem parseBlocks_colon {rest : List Char} (h : rest.head? ≠ some ':') (start : Bool)
    (s : Reading) (text : List Char) :
    parseBlocks start s text (':' :: rest) =
      (s.colon start false).bind fun s => parseBlocks false s rest rest := by
  cases rest with
  | nil => rfl
  | cons c rest =>
      have hc : c ≠ ':' := by simpa using h
      rw [parseBlocks]
      simpa using hc

theorem parseBlocks_feed {g : List Char} (hg : ∀ c ∈ g, ¬isSeparator c) (start : Bool) (s : Reading)
    (text rest : List Char) :
    parseBlocks start s text (g ++ rest) =
      (feed g s).bind fun s => parseBlocks (start && g.isEmpty) s text rest := by
  induction g generalizing start s with
  | nil => simp [feed]
  | cons c g ih =>
      have hg' : ∀ a ∈ g, ¬isSeparator a := fun a ha => hg a (List.mem_cons_of_mem _ ha)
      rw [List.cons_append, parseBlocks_cons (hg c List.mem_cons_self)]
      cases hc : decodeHexDigit c with
      | none => simp [feed, hc]
      | some d =>
          cases hd : s.digit d with
          | none => simp [feed, hc, hd]
          | some s₁ =>
              have hrest := ih hg' false s₁
              simpa [feed, hc, hd] using hrest

theorem IsGroup.not_isSeparator {g : List Char} {b : BitVec 16} (h : IsGroup g b) :
    ∀ c ∈ g, ¬isSeparator c := by
  obtain ⟨-, ds, hds, -⟩ := h
  intro c hc hsep
  have hmem : decodeHexDigit c ∈ ds.map some := hds ▸ List.mem_map_of_mem hc
  obtain ⟨d, -, hd⟩ := List.mem_map.1 hmem
  obtain ⟨hcolon, hdot⟩ := decodeHexDigit_ne hd.symm
  simp [isSeparator, hcolon, hdot] at hsep

/-- A text is what comes before its first separator, and the rest. -/
theorem exists_split (sep : Char → Bool) (text : List Char) :
    ∃ g rest, text = g ++ rest ∧ (∀ c ∈ g, ¬sep c) ∧ (rest = [] ∨ ∃ c r, rest = c :: r ∧ sep c) := by
  refine ⟨text.takeWhile (fun c => !sep c), text.dropWhile (fun c => !sep c),
    List.takeWhile_append_dropWhile.symm, ?_, ?_⟩
  · intro c hc
    have hall : (text.takeWhile (fun c => !sep c)).all (fun c => !sep c) := List.all_takeWhile
    simpa using List.all_eq_true.1 hall c hc
  · cases hrest : text.dropWhile (fun c => !sep c) with
    | nil => exact Or.inl rfl
    | cons c r =>
        refine Or.inr ⟨c, r, rfl, ?_⟩
        have hhead := List.head?_dropWhile_not (fun c => !sep c) text
        rw [hrest] at hhead
        simpa using hhead

theorem split_unique {sep : Char → Bool} {g k r r' : List Char} {c c' : Char}
    (hg : ∀ c ∈ g, ¬sep c) (hk : ∀ c ∈ k, ¬sep c) (hc : sep c) (hc' : sep c')
    (h : g ++ c :: r = k ++ c' :: r') : g = k ∧ c = c' ∧ r = r' := by
  induction g generalizing k with
  | nil =>
      cases k with
      | nil => simpa using h
      | cons a k =>
          simp only [List.nil_append, List.cons_append, List.cons.injEq] at h
          exact absurd (h.1 ▸ hc) (hk a List.mem_cons_self)
  | cons a g ih =>
      cases k with
      | nil =>
          simp only [List.nil_append, List.cons_append, List.cons.injEq] at h
          exact absurd (h.1 ▸ hc') (hg a List.mem_cons_self)
      | cons a' k =>
          simp only [List.cons_append, List.cons.injEq] at h
          obtain ⟨hgg, hrest⟩ := ih (fun x hx => hg x (List.mem_cons_of_mem _ hx))
            (fun x hx => hk x (List.mem_cons_of_mem _ hx)) h.2
          exact ⟨by rw [h.1, hgg], hrest⟩

/-! ## The IPv4 address at the end -/

/-- The digits of an octet, one after the other. -/
def octetStep (p : Nat × Bool) (c : Char) : Option (Nat × Bool) :=
  if ¬p.2 ∧ p.1 = 0 then none
  else
    (decodeDecimalDigit c).bind fun d =>
      if p.1 > 255 / 10 then none
      else if d > 255 - p.1 * 10 then none
      else some (p.1 * 10 + d, false)

theorem parseQuad_feed {t : List Char} (ht : ∀ c ∈ t, c ≠ '.') (bytes : List Nat) (p : Nat × Bool)
    (rest : List Char) :
    parseQuad bytes p.1 p.2 (t ++ rest) =
      (t.foldlM octetStep p).bind fun p => parseQuad bytes p.1 p.2 rest := by
  induction t generalizing p with
  | nil => simp
  | cons c t ih =>
      have hstep : parseQuad bytes p.1 p.2 (c :: (t ++ rest)) =
          (octetStep p c).bind fun p => parseQuad bytes p.1 p.2 (t ++ rest) := by
        rw [parseQuad, if_neg (ht c List.mem_cons_self), octetStep]
        split
        · rfl
        · cases decodeDecimalDigit c with
          | none => rfl
          | some d =>
              simp only [Option.bind_some]
              split
              · rfl
              · split <;> rfl
      rw [List.cons_append, hstep]
      cases hc : octetStep p c with
      | none => simp [hc]
      | some q =>
          have hrest := ih (fun a ha => ht a (List.mem_cons_of_mem _ ha)) q
          simpa [hc] using hrest

/-- Without a leading zero, the digits are those of the number. -/
theorem octet_iff {t : List Char} {n : Nat} {e : Bool} :
    t.foldlM octetStep (0, true) = some (n, e) ↔
      (t = [] ∧ n = 0 ∧ e = true) ∨ (t = Nat.toDigits 10 n ∧ n ≤ 255 ∧ e = false) := by
  induction t using List.reverseRecOn generalizing n e with
  | nil =>
      have hne : ([] : List Char) ≠ Nat.toDigits 10 n := Nat.toDigits_ne_nil.symm
      simp [hne, eq_comm]
  | append_singleton t c ih =>
      rw [List.foldlM_append]
      constructor
      · intro h
        obtain ⟨⟨m, e'⟩, hm, hstep⟩ : ∃ p, t.foldlM octetStep (0, true) = some p ∧
            octetStep p c = some (n, e) := by
          simpa [Option.bind_eq_some_iff] using h
        rw [octetStep] at hstep
        split at hstep
        · cases hstep
        rename_i hlead
        obtain ⟨d, hd, hvalue⟩ := Option.bind_eq_some_iff.1 hstep
        obtain ⟨hlt, rfl⟩ := decodeDecimalDigit_iff.1 hd
        split at hvalue
        · cases hvalue
        split at hvalue
        · cases hvalue
        cases hvalue
        right
        rcases ih.1 hm with ⟨rfl, rfl, rfl⟩ | ⟨rfl, hle, rfl⟩
        · refine ⟨?_, by omega, rfl⟩
          rw [Nat.zero_mul, Nat.zero_add, Nat.toDigits_of_lt_base hlt, List.nil_append]
        · have hpos : 0 < m := by
            simp only [Bool.false_eq_true, not_false_eq_true, true_and] at hlead
            omega
          refine ⟨?_, by omega, rfl⟩
          rw [Nat.toDigits_of_base_le (by omega) (by omega : 10 ≤ m * 10 + d)]
          have hdiv : (m * 10 + d) / 10 = m := by omega
          have hmod : (m * 10 + d) % 10 = d := by omega
          rw [hdiv, hmod]
      · rintro (⟨h, -, -⟩ | ⟨h, hle, rfl⟩)
        · simp at h
        · rw [Nat.toDigits_eq_if (by omega)] at h
          split at h
          · rename_i hlt
            have hone : t ++ [c] = [] ++ [n.digitChar] := h
            obtain ⟨rfl, hc⟩ := List.append_inj' hone rfl
            have hd : decodeDecimalDigit c = some n :=
              decodeDecimalDigit_iff.2 ⟨hlt, List.singleton_inj.1 hc⟩
            have hle' : ¬n > 255 := by omega
            simp [octetStep, hd, hle']
          · rename_i hge
            obtain ⟨rfl, hc⟩ := List.append_inj' h rfl
            have hd : decodeDecimalDigit c = some (n % 10) :=
              decodeDecimalDigit_iff.2 ⟨by omega, List.singleton_inj.1 hc⟩
            have hm := ih.2 (Or.inr ⟨rfl, (by omega : n / 10 ≤ 255), rfl⟩)
            have hlead : ¬n / 10 = 0 := by omega
            have hfits : ¬n / 10 > 255 / 10 := by omega
            have hlast : ¬n % 10 > 255 - n / 10 * 10 := by omega
            have hvalue : n / 10 * 10 + n % 10 = n := by omega
            rw [hm]
            simp [octetStep, hd, hlead, hfits, hlast, hvalue]

theorem not_dot_of_mem_toDigits {n : Nat} : ∀ c ∈ Nat.toDigits 10 n, ¬(c = '.') := by
  rintro c hc rfl
  have hdigit := Nat.isDigit_of_mem_toDigits (by omega) (by omega) hc
  cases hdigit

/-- What stands before the first dot is read on its own. -/
theorem exists_octet (text : List Char) (bytes : List Nat) :
    ∃ t rest, text = t ++ rest ∧ (∀ c ∈ t, ¬decide (c = '.')) ∧
      (rest = [] ∨ ∃ c r, rest = c :: r ∧ decide (c = '.')) ∧
      parseQuad bytes 0 true text =
        (t.foldlM octetStep (0, true)).bind fun p => parseQuad bytes p.1 p.2 rest := by
  obtain ⟨t, rest, rfl, ht, hrest⟩ := exists_split (fun c => c = '.') text
  have hplain : ∀ c ∈ t, c ≠ '.' := by simpa using ht
  exact ⟨t, rest, rfl, ht, hrest, parseQuad_feed hplain bytes (0, true) rest⟩

/-- An octet with others behind it. -/
theorem parseQuad_dot {bytes : List Nat} {text : List Char} {l : List Nat} (hlen : bytes.length < 3) :
    parseQuad bytes 0 true text = some l ↔ ∃ n rest, n ≤ 255 ∧
      text = Nat.toDigits 10 n ++ '.' :: rest ∧ parseQuad (bytes ++ [n]) 0 true rest = some l := by
  obtain ⟨t, rest, rfl, ht, hrest, hfeed⟩ := exists_octet text bytes
  rw [hfeed]
  rcases hrest with rfl | ⟨c, r, rfl, hc⟩
  · constructor
    · intro h
      obtain ⟨p, -, hp⟩ := Option.bind_eq_some_iff.1 h
      rw [parseQuad, if_pos (Or.inl (by omega))] at hp
      cases hp
    · rintro ⟨n, r, -, htext, -⟩
      have hmem : '.' ∈ t := by
        rw [List.append_nil] at htext
        rw [htext]
        simp
      exact absurd rfl (ht '.' hmem)
  · obtain rfl : c = '.' := by simpa using hc
    have hdot : ∀ p : Nat × Bool, parseQuad bytes p.1 p.2 ('.' :: r) =
        if p.2 then none else parseQuad (bytes ++ [p.1]) 0 true r := by
      intro p
      have hlen' : ¬bytes.length = 3 := by omega
      simp [parseQuad, hlen']
    constructor
    · intro h
      obtain ⟨⟨n, e⟩, hp, hquad⟩ := Option.bind_eq_some_iff.1 h
      rw [hdot] at hquad
      rcases octet_iff.1 hp with ⟨-, -, rfl⟩ | ⟨rfl, hle, rfl⟩
      · cases hquad
      · exact ⟨n, r, hle, rfl, hquad⟩
    · rintro ⟨n, rest, hle, htext, hquad⟩
      obtain ⟨rfl, -, rfl⟩ :=
        split_unique ht (by simpa using not_dot_of_mem_toDigits) hc hc htext
      refine Option.bind_eq_some_iff.2 ⟨(n, false), octet_iff.2 (Or.inr ⟨rfl, hle, rfl⟩), ?_⟩
      rw [hdot]
      exact hquad

/-- The last octet. -/
theorem parseQuad_end {bytes : List Nat} {text : List Char} {l : List Nat} (hlen : bytes.length = 3) :
    parseQuad bytes 0 true text = some l ↔
      ∃ n, n ≤ 255 ∧ text = Nat.toDigits 10 n ∧ l = bytes ++ [n] := by
  obtain ⟨t, rest, rfl, ht, hrest, hfeed⟩ := exists_octet text bytes
  rw [hfeed]
  rcases hrest with rfl | ⟨c, r, rfl, hc⟩
  · constructor
    · intro h
      obtain ⟨⟨n, e⟩, hp, hquad⟩ := Option.bind_eq_some_iff.1 h
      rw [parseQuad] at hquad
      rcases octet_iff.1 hp with ⟨-, -, rfl⟩ | ⟨rfl, hle, rfl⟩
      · simp at hquad
      · simp only [hlen, ne_eq, not_true_eq_false, Bool.false_eq_true, or_self, if_false,
          Option.some.injEq] at hquad
        exact ⟨n, hle, List.append_nil _, hquad.symm⟩
    · rintro ⟨n, hle, htext, rfl⟩
      rw [List.append_nil] at htext
      refine Option.bind_eq_some_iff.2 ⟨(n, false), octet_iff.2 (Or.inr ⟨htext, hle, rfl⟩), ?_⟩
      simp [parseQuad, hlen]
  · obtain rfl : c = '.' := by simpa using hc
    constructor
    · intro h
      obtain ⟨p, -, hp⟩ := Option.bind_eq_some_iff.1 h
      rw [parseQuad, if_pos rfl, if_pos (Or.inr hlen)] at hp
      cases hp
    · rintro ⟨n, -, htext, -⟩
      have hmem : '.' ∈ Nat.toDigits 10 n := by
        rw [← htext]
        simp
      exact absurd rfl (not_dot_of_mem_toDigits '.' hmem)

/-- Four octets were read. -/
theorem exists_octets {text : List Char} {l : List Nat} (h : parseQuad [] 0 true text = some l) :
    ∃ a b c d, l = [a, b, c, d] ∧ a ≤ 255 ∧ b ≤ 255 ∧ c ≤ 255 ∧ d ≤ 255 ∧
      text = Nat.toDigits 10 a ++ '.' :: (Nat.toDigits 10 b ++ '.' :: (Nat.toDigits 10 c ++
        '.' :: Nat.toDigits 10 d)) := by
  obtain ⟨a, r₁, ha, rfl, h₁⟩ := (parseQuad_dot (by simp)).1 h
  obtain ⟨b, r₂, hb, rfl, h₂⟩ := (parseQuad_dot (by simp)).1 h₁
  obtain ⟨c, r₃, hc, rfl, h₃⟩ := (parseQuad_dot (by simp)).1 h₂
  obtain ⟨d, hd, rfl, rfl⟩ := (parseQuad_end (by simp)).1 h₃
  exact ⟨a, b, c, d, rfl, ha, hb, hc, hd, rfl⟩

theorem parseQuad_toDigits {a b c d : Nat} (ha : a ≤ 255) (hb : b ≤ 255) (hc : c ≤ 255) (hd : d ≤ 255) :
    parseQuad [] 0 true (Nat.toDigits 10 a ++ '.' :: (Nat.toDigits 10 b ++ '.' :: (Nat.toDigits 10 c ++
      '.' :: Nat.toDigits 10 d))) = some [a, b, c, d] := by
  apply (parseQuad_dot (by simp)).2 ⟨a, _, ha, rfl, ?_⟩
  apply (parseQuad_dot (by simp)).2 ⟨b, _, hb, rfl, ?_⟩
  apply (parseQuad_dot (by simp)).2 ⟨c, _, hc, rfl, ?_⟩
  exact (parseQuad_end (by simp)).2 ⟨d, hd, rfl, rfl⟩

theorem parseQuad_iff {text : List Char} {bs : List (BitVec 16)} :
    (∃ l, parseQuad [] 0 true text = some l ∧ pairs l = bs) ↔ IsQuad text bs := by
  constructor
  · rintro ⟨l, h, rfl⟩
    obtain ⟨a, b, c, d, rfl, ha, hb, hc, hd, rfl⟩ := exists_octets h
    exact ⟨a, b, c, d, ha, hb, hc, hd, rfl, rfl⟩
  · rintro ⟨a, b, c, d, ha, hb, hc, hd, rfl, rfl⟩
    exact ⟨[a, b, c, d], parseQuad_toDigits ha hb hc hd, rfl⟩

/-! ## Shapes of the grammar -/

theorem IsQuad.exists_dot {text : List Char} {bs : List (BitVec 16)} (h : IsQuad text bs) :
    ∃ n r, n ≤ 255 ∧ text = Nat.toDigits 10 n ++ '.' :: r ∧ bs.length = 2 := by
  obtain ⟨a, b, c, d, ha, -, -, -, rfl, rfl⟩ := h
  exact ⟨a, _, ha, rfl, rfl⟩

theorem not_isSeparator_toDigits {n : Nat} : ∀ c ∈ Nat.toDigits 10 n, ¬isSeparator c := by
  intro c hc hsep
  have hdigit := Nat.isDigit_of_mem_toDigits (by omega) (by omega) hc
  rcases (by simpa [isSeparator] using hsep : c = ':' ∨ c = '.') with rfl | rfl
  · cases hdigit
  · cases hdigit

/-- Without a separator there is one group at most. -/
theorem blocks_of_forall {g : List Char} {bs : List (BitVec 16)} (hg : ∀ c ∈ g, ¬isSeparator c) :
    Blocks g bs ↔ (g = [] ∧ bs = []) ∨ ∃ b, IsGroup g b ∧ bs = [b] := by
  constructor
  · intro h
    cases h with
    | nil => exact Or.inl ⟨rfl, rfl⟩
    | last hgroup => exact Or.inr ⟨_, hgroup, rfl⟩
    | quad hquad =>
        obtain ⟨n, r, -, rfl, -⟩ := hquad.exists_dot
        exact absurd rfl (hg '.' (by simp))
    | cons hgroup _ _ => exact absurd rfl (hg ':' (by simp))
  · rintro (⟨rfl, rfl⟩ | ⟨b, hgroup, rfl⟩)
    · exact Blocks.nil
    · exact Blocks.last hgroup

/-- A dot before any colon belongs to an IPv4 address. -/
theorem blocks_of_dot {g r : List Char} {bs : List (BitVec 16)} (hg : ∀ c ∈ g, ¬isSeparator c) :
    Blocks (g ++ '.' :: r) bs ↔ IsQuad (g ++ '.' :: r) bs := by
  constructor
  · intro h
    generalize htext : g ++ '.' :: r = text at h
    cases h with
    | nil => simp at htext
    | last hgroup =>
        subst htext
        exact absurd rfl (hgroup.not_isSeparator '.' (by simp))
    | quad hquad => exact hquad
    | cons hgroup _ _ =>
        obtain ⟨-, hc, -⟩ := split_unique hg hgroup.not_isSeparator rfl rfl htext
        cases hc
  · exact Blocks.quad

/-- A colon comes after a group, and before other blocks. -/
theorem blocks_of_colon {g r : List Char} {bs : List (BitVec 16)} (hg : ∀ c ∈ g, ¬isSeparator c) :
    Blocks (g ++ ':' :: r) bs ↔ ∃ b bs', IsGroup g b ∧ Blocks r bs' ∧ bs' ≠ [] ∧ bs = b :: bs' := by
  constructor
  · intro h
    generalize htext : g ++ ':' :: r = text at h
    cases h with
    | nil => simp at htext
    | last hgroup =>
        subst htext
        exact absurd rfl (hgroup.not_isSeparator ':' (by simp))
    | quad hquad =>
        obtain ⟨n, r', -, rfl, -⟩ := hquad.exists_dot
        obtain ⟨-, hc, -⟩ := split_unique hg not_isSeparator_toDigits rfl rfl htext
        cases hc
    | cons hgroup hrest hne =>
        obtain ⟨rfl, -, rfl⟩ := split_unique hg hgroup.not_isSeparator rfl rfl htext
        exact ⟨_, _, hgroup, hrest, hne, rfl⟩
  · rintro ⟨b, bs', hgroup, hrest, hne, rfl⟩
    exact Blocks.cons hgroup hrest hne

/-- The first octet of an IPv4 address is read as a block, too. -/
theorem isGroup_of_isQuad {g r : List Char} {bs : List (BitVec 16)}
    (hg : ∀ c ∈ g, ¬isSeparator c) (h : IsQuad (g ++ '.' :: r) bs) : ∃ b, IsGroup g b := by
  obtain ⟨n, r', hn, htext, -⟩ := h.exists_dot
  obtain ⟨rfl, -, -⟩ := split_unique hg not_isSeparator_toDigits rfl rfl htext
  have hall : ∀ n : Fin 256, (feed (Nat.toDigits 10 n) ⟨[], none, 0, true⟩).isSome := by
    decide +kernel
  obtain ⟨s, hs⟩ := Option.isSome_iff_exists.1 (hall ⟨n, by omega⟩)
  rcases feed_start.1 hs with ⟨hnil, -⟩ | ⟨b, hgroup, -⟩
  · exact absurd hnil Nat.toDigits_ne_nil
  · exact ⟨b, hgroup⟩

/-! ## What is accepted -/

/-- From within a block to the end. -/
def parseTail (start : Bool) (s : Reading) (text rest : List Char) : Option (List (BitVec 16)) :=
  (parseBlocks start s text rest).bind fun r => (close r).bind fun p => spread p.1 p.2

theorem parseFrom_iff {g rest : List Char} (hg : ∀ c ∈ g, ¬isSeparator c) {start : Bool}
    {B : List (BitVec 16)} {C : Option Nat} {a : List (BitVec 16)} :
    parseFrom start ⟨B, C, 0, true⟩ (g ++ rest) = some a ↔
      (g = [] ∧ parseTail start ⟨B, C, 0, true⟩ rest rest = some a) ∨
        ∃ b, IsGroup g b ∧ parseTail false ⟨B, C, b.toNat, false⟩ (g ++ rest) rest = some a := by
  have hfrom : parseFrom start ⟨B, C, 0, true⟩ (g ++ rest) =
      (feed g ⟨B, C, 0, true⟩).bind fun s => parseTail (start && g.isEmpty) s (g ++ rest) rest := by
    rw [parseFrom, parseBlocks_feed hg, Option.bind_assoc]
    rfl
  rw [hfrom]
  constructor
  · intro h
    obtain ⟨s, hs, hrest⟩ := Option.bind_eq_some_iff.1 h
    rcases feed_start.1 hs with ⟨rfl, rfl⟩ | ⟨b, hgroup, rfl⟩
    · exact Or.inl ⟨rfl, by simpa using hrest⟩
    · have hempty : g.isEmpty = false := by simpa using hgroup.1
      rw [hempty, Bool.and_false] at hrest
      exact Or.inr ⟨b, hgroup, hrest⟩
  · rintro (⟨rfl, hrest⟩ | ⟨b, hgroup, hrest⟩)
    · exact Option.bind_eq_some_iff.2 ⟨_, feed_start.2 (Or.inl ⟨rfl, rfl⟩), by simpa using hrest⟩
    · refine Option.bind_eq_some_iff.2 ⟨_, feed_start.2 (Or.inr ⟨b, hgroup, rfl⟩), ?_⟩
      have hempty : g.isEmpty = false := by simpa using hgroup.1
      rwa [hempty, Bool.and_false]

section Tail

variable {start : Bool} {B : List (BitVec 16)} {C : Option Nat} {b : BitVec 16} {text r : List Char}

theorem parseTail_nil_empty :
    parseTail start ⟨B, C, 0, true⟩ text [] = if C ≠ some B.length then none else spread B C := by
  simp only [parseTail, parseBlocks, Option.bind_some, close, not_true_eq_false, if_false]
  split <;> rfl

theorem parseTail_nil_group :
    parseTail start ⟨B, C, b.toNat, false⟩ text [] = spread (B ++ [b]) C := by
  simp [parseTail, parseBlocks, close, Reading.store]

theorem parseTail_dot_empty : parseTail start ⟨B, C, 0, true⟩ text ('.' :: r) = none := by
  simp [parseTail, parseBlocks, close]

theorem parseTail_dot_group {a : List (BitVec 16)} :
    parseTail start ⟨B, C, b.toNat, false⟩ text ('.' :: r) = some a ↔
      ¬(B.length = 0 ∧ C = none) ∧ B.length ≤ 6 ∧
        ∃ bs, IsQuad text bs ∧ spread (B ++ bs) C = some a := by
  have htail : parseTail start ⟨B, C, b.toNat, false⟩ text ('.' :: r) =
      if B.length = 0 ∧ C = none then none
      else
        (parseQuad [] 0 true text).bind fun bytes =>
          if 8 - B.length < 2 then none else spread (B ++ pairs bytes) C := by
    simp only [parseTail, parseBlocks, Option.bind_some, close, Bool.false_eq_true, false_or]
    split
    · rfl
    · cases parseQuad [] 0 true text with
      | none => rfl
      | some bytes =>
          simp only [Option.bind_some]
          split <;> rfl
  rw [htail]
  split
  · simp_all
  · rename_i hplace
    constructor
    · intro h
      obtain ⟨bytes, hbytes, hspread⟩ := Option.bind_eq_some_iff.1 h
      split at hspread
      · cases hspread
      · exact ⟨hplace, by omega, _, parseQuad_iff.1 ⟨bytes, hbytes, rfl⟩, hspread⟩
    · rintro ⟨-, hlen, bs, hquad, hspread⟩
      obtain ⟨bytes, hbytes, rfl⟩ := parseQuad_iff.2 hquad
      refine Option.bind_eq_some_iff.2 ⟨bytes, hbytes, ?_⟩
      rw [if_neg (by omega)]
      exact hspread

theorem parseTail_colon_empty : parseTail false ⟨B, C, 0, true⟩ text (':' :: r) = none := by
  by_cases h : r.head? = some ':'
  · obtain ⟨r', rfl⟩ : ∃ r', r = ':' :: r' := List.head?_eq_some_iff.1 h
    rfl
  · rw [parseTail, parseBlocks_colon h]
    rfl

theorem parseTail_colon_start (h : r.head? ≠ some ':') :
    parseTail true ⟨B, C, 0, true⟩ text (':' :: r) = none := by
  rw [parseTail, parseBlocks_colon h]
  rfl

theorem parseTail_colon_group (h : r.head? ≠ some ':') :
    parseTail false ⟨B, C, b.toNat, false⟩ text (':' :: r) =
      if B.length = 7 then none else parseFrom false ⟨B ++ [b], C, 0, true⟩ r := by
  rw [parseTail, parseBlocks_colon h, Reading.colon]
  by_cases hlen : B.length = 7
  · simp [hlen]
  · simp [hlen, parseFrom, Reading.store]

theorem parseTail_colons_group :
    parseTail false ⟨B, C, b.toNat, false⟩ text (':' :: ':' :: r) =
      if B.length = 7 ∨ C.isSome then none
      else parseFrom false ⟨B ++ [b], some (B.length + 1), 0, true⟩ r := by
  rw [parseTail, parseBlocks, Reading.colon]
  by_cases hlen : B.length = 7
  · simp [hlen]
  · by_cases hC : C.isSome
    · simp [hlen, hC, Reading.store, Reading.compress]
    · simp [hlen, hC, Reading.store, Reading.compress, parseFrom]

end Tail

/-- No block starts with a colon. -/
theorem not_blocks_colon {r : List Char} {bs : List (BitVec 16)} : ¬Blocks (':' :: r) bs := by
  intro h
  obtain ⟨b, bs', hgroup, -⟩ := (blocks_of_colon (g := []) (by simp)).1 h
  exact hgroup.1 rfl

/-- Behind `::` there are blocks, as many as there is place for. -/
theorem parseFrom_rear {a : List (BitVec 16)} (n : Nat) :
    ∀ {text : List Char} {B : List (BitVec 16)} {p : Nat}, text.length < n → B.length ≤ 7 →
      p ≤ B.length →
        (parseFrom false ⟨B, some p, 0, true⟩ text = some a ↔ ∃ rb, Blocks text rb ∧
          B.length + rb.length ≤ 8 ∧ (rb = [] → p = B.length) ∧ spread (B ++ rb) (some p) = some a) := by
  induction n with
  | zero =>
      intro text B p htext
      exact absurd htext (Nat.not_lt_zero _)
  | succ n ih =>
  intro text B p htext hB hp
  obtain ⟨g, rest, rfl, hg, hrest⟩ := exists_split isSeparator text
  rw [parseFrom_iff hg]
  rcases hrest with rfl | ⟨c, r, rfl, hc⟩
  · rw [parseTail_nil_empty, List.append_nil]
    constructor
    · rintro (⟨rfl, h⟩ | ⟨b, hgroup, h⟩)
      · split at h
        · cases h
        · rename_i hpos
          exact ⟨[], Blocks.nil, by simp; omega, fun _ => by simpa using hpos, by simpa using h⟩
      · rw [parseTail_nil_group] at h
        exact ⟨[b], Blocks.last hgroup, by simp; omega, by simp, h⟩
    · rintro ⟨rb, hblocks, hlen, hend, h⟩
      rcases (blocks_of_forall hg).1 hblocks with ⟨rfl, rfl⟩ | ⟨b, hgroup, rfl⟩
      · refine Or.inl ⟨rfl, ?_⟩
        rw [if_neg (by simp [hend rfl])]
        simpa using h
      · refine Or.inr ⟨b, hgroup, ?_⟩
        rw [parseTail_nil_group]
        exact h
  rcases (by simpa [isSeparator] using hc : c = ':' ∨ c = '.') with rfl | rfl
  · rw [parseTail_colon_empty]
    have hlong : r.length < n := by
      rw [List.length_append, List.length_cons] at htext
      omega
    constructor
    · rintro (⟨-, h⟩ | ⟨b, hgroup, h⟩)
      · cases h
      by_cases hdouble : r.head? = some ':'
      · obtain ⟨r', rfl⟩ : ∃ r', r = ':' :: r' := List.head?_eq_some_iff.1 hdouble
        rw [parseTail_colons_group, if_pos (by simp)] at h
        cases h
      · rw [parseTail_colon_group hdouble] at h
        split at h
        · cases h
        rename_i hfull
        obtain ⟨rb, hblocks, hlen, hend, h⟩ := (ih hlong (by simp; omega) (by simp; omega)).1 h
        rw [List.length_append, List.length_singleton] at hlen hend
        have hne : rb ≠ [] := by
          intro hnil
          have hpos := hend hnil
          omega
        refine ⟨b :: rb, Blocks.cons hgroup hblocks hne, by simp; omega, by simp, ?_⟩
        rwa [← List.append_cons] at h
    · rintro ⟨rb, hblocks, hlen, -, h⟩
      obtain ⟨b, bs, hgroup, hrear, hne, rfl⟩ := (blocks_of_colon hg).1 hblocks
      refine Or.inr ⟨b, hgroup, ?_⟩
      have hdouble : r.head? ≠ some ':' := by
        intro hhead
        obtain ⟨r', rfl⟩ : ∃ r', r = ':' :: r' := List.head?_eq_some_iff.1 hhead
        exact not_blocks_colon hrear
      have hpos := List.length_pos_iff.2 hne
      rw [List.length_cons] at hlen
      rw [parseTail_colon_group hdouble, if_neg (by omega)]
      apply (ih hlong (by simp; omega) (by simp; omega)).2
      refine ⟨bs, hrear, by simp; omega, fun hnil => absurd hnil hne, ?_⟩
      rwa [← List.append_cons]
  · rw [parseTail_dot_empty]
    constructor
    · rintro (⟨-, h⟩ | ⟨b, hgroup, h⟩)
      · cases h
      · obtain ⟨-, hlen, bs, hquad, h⟩ := parseTail_dot_group.1 h
        obtain ⟨-, -, -, -, htwo⟩ := hquad.exists_dot
        exact ⟨bs, Blocks.quad hquad, by omega, by rintro rfl; simp at htwo, h⟩
    · rintro ⟨rb, hblocks, hlen, -, h⟩
      have hquad := (blocks_of_dot hg).1 hblocks
      obtain ⟨-, -, -, -, htwo⟩ := hquad.exists_dot
      obtain ⟨b, hgroup⟩ := isGroup_of_isQuad hg hquad
      exact Or.inr ⟨b, hgroup, parseTail_dot_group.2 ⟨by simp, by omega, rb, hquad, h⟩⟩

/-- The text up to `::`, and what comes behind it. -/
def Compressed (B : List (BitVec 16)) (text : List Char) (a : List (BitVec 16)) : Prop :=
  ∃ front fb rear rb, text = front ++ ':' :: ':' :: rear ∧ Groups front fb ∧ fb ≠ [] ∧
    Blocks rear rb ∧ B.length + fb.length ≤ 7 ∧ B.length + fb.length + rb.length ≤ 8 ∧
    spread (B ++ fb ++ rb) (some (B.length + fb.length)) = some a

theorem not_compressed {B : List (BitVec 16)} {text g : List Char} {a : List (BitVec 16)}
    (hg : ∀ c ∈ g, ¬isSeparator c) (htext : text = g ∨ ∃ r, text = g ++ '.' :: r) :
    ¬Compressed B text a := by
  rintro ⟨front, fb, rear, rb, rfl, hfront, hne, -⟩
  obtain ⟨g', r', hsplit, hg'⟩ : ∃ g' r', front ++ ':' :: ':' :: rear = g' ++ ':' :: r' ∧
      ∀ c ∈ g', ¬isSeparator c := by
    cases hfront with
    | nil => exact absurd rfl hne
    | last hgroup => exact ⟨_, _, rfl, hgroup.not_isSeparator⟩
    | @cons g' rest b bs hgroup _ _ =>
        exact ⟨g', rest ++ ':' :: ':' :: rear, by simp, hgroup.not_isSeparator⟩
  rw [hsplit] at htext
  rcases htext with rfl | ⟨r, htext⟩
  · exact absurd rfl (hg ':' (by simp))
  · obtain ⟨-, hc, -⟩ := split_unique hg' hg rfl rfl htext
    cases hc

theorem compressed_colon {B : List (BitVec 16)} {g r : List Char} {a : List (BitVec 16)}
    (hg : ∀ c ∈ g, ¬isSeparator c) :
    Compressed B (g ++ ':' :: r) a ↔ ∃ b, IsGroup g b ∧
      (Compressed (B ++ [b]) r a ∨ ∃ rear rb, r = ':' :: rear ∧ Blocks rear rb ∧ B.length + 1 ≤ 7 ∧
        B.length + 1 + rb.length ≤ 8 ∧ spread (B ++ [b] ++ rb) (some (B.length + 1)) = some a) := by
  constructor
  · rintro ⟨front, fb, rear, rb, htext, hfront, hne, hrear, hlow, hhigh, h⟩
    cases hfront with
    | nil => exact absurd rfl hne
    | last hgroup =>
        obtain ⟨rfl, -, rfl⟩ := split_unique hg hgroup.not_isSeparator rfl rfl htext
        exact ⟨_, hgroup, Or.inr ⟨rear, rb, rfl, hrear, hlow, hhigh, h⟩⟩
    | cons hgroup hrest hne' =>
        rename_i g' rest b bs
        have htext' : g ++ ':' :: r = g' ++ ':' :: (rest ++ ':' :: ':' :: rear) := by simpa using htext
        obtain ⟨rfl, -, rfl⟩ := split_unique hg hgroup.not_isSeparator rfl rfl htext'
        rw [List.length_cons] at hlow hhigh h
        refine ⟨b, hgroup, Or.inl ⟨rest, bs, rear, rb, rfl, hrest, hne', hrear, ?_, ?_, ?_⟩⟩
        · simp only [List.length_append, List.length_singleton]
          omega
        · simp only [List.length_append, List.length_singleton]
          omega
        · rw [List.length_append, List.length_singleton, ← List.append_cons]
          rwa [show B.length + 1 + bs.length = B.length + (bs.length + 1) by omega]
  · rintro ⟨b, hgroup, hrest | ⟨rear, rb, rfl, hrear, hlow, hhigh, h⟩⟩
    · obtain ⟨front, fb, rear, rb, rfl, hfront, hne, hrear, hlow, hhigh, h⟩ := hrest
      rw [List.length_append, List.length_singleton] at hlow hhigh h
      refine ⟨g ++ ':' :: front, b :: fb, rear, rb, by simp, Groups.cons hgroup hfront hne, by simp,
        hrear, ?_, ?_, ?_⟩
      · rw [List.length_cons]
        omega
      · rw [List.length_cons]
        omega
      · rw [List.length_cons, List.append_cons]
        rwa [show B.length + (fb.length + 1) = B.length + 1 + fb.length by omega]
    · exact ⟨g, [b], rear, rb, rfl, Groups.last hgroup, by simp, hrear, hlow, hhigh, h⟩

theorem spread_none {B a : List (BitVec 16)} : spread B none = some a ↔ B = a ∧ a.length = 8 := by
  rw [spread]
  split
  · rename_i hlen
    constructor
    · intro h
      cases h
    · rintro ⟨rfl, h⟩
      exact absurd h hlen
  · rename_i hlen
    constructor
    · intro h
      cases h
      exact ⟨rfl, by simpa using hlen⟩
    · rintro ⟨rfl, -⟩
      rfl

/-- Before `::` there are blocks; without it, there have to be eight. -/
theorem parseFrom_front {a : List (BitVec 16)} (n : Nat) :
    ∀ {text : List Char} {B : List (BitVec 16)}, text.length < n → B.length ≤ 7 →
      (parseFrom false ⟨B, none, 0, true⟩ text = some a ↔
        (∃ bs, Blocks text bs ∧ bs ≠ [] ∧ spread (B ++ bs) none = some a) ∨ Compressed B text a) := by
  induction n with
  | zero =>
      intro text B htext
      exact absurd htext (Nat.not_lt_zero _)
  | succ n ih =>
  intro text B htext hB
  obtain ⟨g, rest, rfl, hg, hrest⟩ := exists_split isSeparator text
  rw [parseFrom_iff hg]
  rcases hrest with rfl | ⟨c, r, rfl, hc⟩
  · have hnot : ¬Compressed B (g ++ []) a := not_compressed hg (Or.inl (List.append_nil g))
    rw [parseTail_nil_empty, or_iff_left hnot, List.append_nil]
    constructor
    · rintro (⟨-, h⟩ | ⟨b, hgroup, h⟩)
      · cases h
      · rw [parseTail_nil_group] at h
        exact ⟨[b], Blocks.last hgroup, by simp, h⟩
    · rintro ⟨bs, hblocks, hne, h⟩
      rcases (blocks_of_forall hg).1 hblocks with ⟨-, rfl⟩ | ⟨b, hgroup, rfl⟩
      · exact absurd rfl hne
      · refine Or.inr ⟨b, hgroup, ?_⟩
        rw [parseTail_nil_group]
        exact h
  rcases (by simpa [isSeparator] using hc : c = ':' ∨ c = '.') with rfl | rfl
  · have hlong : r.length < n := by
      rw [List.length_append, List.length_cons] at htext
      omega
    rw [parseTail_colon_empty, compressed_colon hg]
    by_cases hdouble : r.head? = some ':'
    · obtain ⟨rear, rfl⟩ : ∃ r', r = ':' :: r' := List.head?_eq_some_iff.1 hdouble
      constructor
      · rintro (⟨-, h⟩ | ⟨b, hgroup, h⟩)
        · cases h
        rw [parseTail_colons_group] at h
        split at h
        · cases h
        rename_i hfull
        simp only [Option.isSome_none, Bool.false_eq_true, or_false] at hfull
        obtain ⟨rb, hblocks, hlen, -, h⟩ :=
          (parseFrom_rear _ (Nat.lt_succ_self _) (by simp; omega) (by simp)).1 h
        rw [List.length_append, List.length_singleton] at hlen
        exact Or.inr ⟨b, hgroup, Or.inr ⟨rear, rb, rfl, hblocks, by omega, hlen, h⟩⟩
      · rintro (⟨bs, hblocks, -, -⟩ | ⟨b, hgroup, hrest⟩)
        · obtain ⟨-, bs', -, hrear, -⟩ := (blocks_of_colon hg).1 hblocks
          exact absurd hrear not_blocks_colon
        refine Or.inr ⟨b, hgroup, ?_⟩
        rcases hrest with hrest | ⟨rear', rb, heq, hrear, hlow, hhigh, h⟩
        · obtain ⟨b', hgroup', -⟩ := (compressed_colon (g := []) (by simp)).1 hrest
          exact absurd rfl hgroup'.1
        · cases heq
          rw [parseTail_colons_group, if_neg (by simp; omega)]
          apply (parseFrom_rear _ (Nat.lt_succ_self _) (by simp; omega) (by simp)).2
          exact ⟨rb, hrear, by simpa using hhigh, fun _ => by simp, h⟩
    · constructor
      · rintro (⟨-, h⟩ | ⟨b, hgroup, h⟩)
        · cases h
        rw [parseTail_colon_group hdouble] at h
        split at h
        · cases h
        rename_i hfull
        rcases (ih hlong (by simp; omega)).1 h with ⟨bs, hblocks, hne, h⟩ | hcompressed
        · rw [← List.append_cons] at h
          exact Or.inl ⟨b :: bs, Blocks.cons hgroup hblocks hne, by simp, h⟩
        · exact Or.inr ⟨b, hgroup, Or.inl hcompressed⟩
      · intro h
        have hgroupTail : ∀ b, IsGroup g b → B.length ≠ 7 →
            parseFrom false ⟨B ++ [b], none, 0, true⟩ r = some a →
            ∃ b, IsGroup g b ∧
              parseTail false ⟨B, none, b.toNat, false⟩ (g ++ ':' :: r) (':' :: r) = some a := by
          intro b hgroup hfull hrest
          refine ⟨b, hgroup, ?_⟩
          rw [parseTail_colon_group hdouble, if_neg hfull]
          exact hrest
        right
        rcases h with ⟨bs, hblocks, -, h⟩ | ⟨b, hgroup, hcompressed | ⟨rear, rb, rfl, -⟩⟩
        · obtain ⟨b, bs', hgroup, hrear, hne, rfl⟩ := (blocks_of_colon hg).1 hblocks
          have hpos := List.length_pos_iff.2 hne
          obtain ⟨hall, height⟩ := spread_none.1 h
          rw [← hall, List.length_append, List.length_cons] at height
          apply hgroupTail b hgroup (by omega)
          apply (ih hlong (by simp; omega)).2
          rw [List.append_cons] at h
          exact Or.inl ⟨bs', hrear, hne, h⟩
        · obtain ⟨front, fb, rear, rb, -, -, hne, -, hlow, -⟩ := id hcompressed
          have hpos := List.length_pos_iff.2 hne
          rw [List.length_append, List.length_singleton] at hlow
          apply hgroupTail b hgroup (by omega)
          exact (ih hlong (by simp; omega)).2 (Or.inr hcompressed)
        · exact absurd rfl hdouble
  · have hnot : ¬Compressed B (g ++ '.' :: r) a := not_compressed hg (Or.inr ⟨r, rfl⟩)
    rw [parseTail_dot_empty, or_iff_left hnot]
    constructor
    · rintro (⟨-, h⟩ | ⟨b, hgroup, h⟩)
      · cases h
      · obtain ⟨-, -, bs, hquad, h⟩ := parseTail_dot_group.1 h
        obtain ⟨-, -, -, -, htwo⟩ := hquad.exists_dot
        exact ⟨bs, Blocks.quad hquad, by rintro rfl; simp at htwo, h⟩
    · rintro ⟨bs, hblocks, -, h⟩
      have hquad := (blocks_of_dot hg).1 hblocks
      obtain ⟨-, -, -, -, htwo⟩ := hquad.exists_dot
      obtain ⟨b, hgroup⟩ := isGroup_of_isQuad hg hquad
      obtain ⟨hall, height⟩ := spread_none.1 h
      rw [← hall, List.length_append] at height
      exact Or.inr ⟨b, hgroup, parseTail_dot_group.2 ⟨by omega, by omega, bs, hquad, h⟩⟩

theorem spread_some {fb rb a : List (BitVec 16)} :
    spread (fb ++ rb) (some fb.length) = some a ↔
      a = fb ++ List.replicate (8 - (fb.length + rb.length)) 0 ++ rb := by
  rw [spread, List.take_left, List.drop_left, List.length_append, Option.some.injEq, eq_comm]

/-- At the start of the text there may be `::` at once. -/
theorem parseIpv6Addr_start {text : List Char} {a : List (BitVec 16)} :
    parseIpv6Addr text = some a ↔ parseFrom false {} text = some a ∨
      ∃ r, text = ':' :: ':' :: r ∧ parseFrom false ⟨[], some 0, 0, true⟩ r = some a := by
  obtain ⟨g, rest, rfl, hg, hrest⟩ := exists_split isSeparator text
  change parseFrom true ⟨[], none, 0, true⟩ (g ++ rest) = some a ↔
    parseFrom false ⟨[], none, 0, true⟩ (g ++ rest) = some a ∨ _
  rw [parseFrom_iff hg, parseFrom_iff hg]
  rcases hrest with rfl | ⟨c, r, rfl, hc⟩
  · have hnot : ¬∃ r, g ++ [] = ':' :: ':' :: r ∧
        parseFrom false ⟨[], some 0, 0, true⟩ r = some a := by
      rintro ⟨r, htext, -⟩
      rw [List.append_nil] at htext
      exact absurd rfl (hg ':' (by simp [htext]))
    rw [parseTail_nil_empty, parseTail_nil_empty, or_iff_left hnot]
  rcases (by simpa [isSeparator] using hc : c = ':' ∨ c = '.') with rfl | rfl
  · have hstart : (∃ r', g ++ ':' :: r = ':' :: ':' :: r' ∧
        parseFrom false ⟨[], some 0, 0, true⟩ r' = some a) ↔
        g = [] ∧ parseTail true ⟨[], none, 0, true⟩ (':' :: r) (':' :: r) = some a := by
      constructor
      · rintro ⟨r', htext, h⟩
        obtain ⟨rfl, -, rfl⟩ := split_unique (k := []) hg (by simp) hc hc htext
        exact ⟨rfl, h⟩
      · rintro ⟨rfl, h⟩
        by_cases hdouble : r.head? = some ':'
        · obtain ⟨r', rfl⟩ : ∃ r', r = ':' :: r' := List.head?_eq_some_iff.1 hdouble
          exact ⟨r', rfl, h⟩
        · rw [parseTail_colon_start hdouble] at h
          cases h
    rw [hstart, parseTail_colon_empty]
    simp only [reduceCtorEq, and_false, false_or]
    exact or_comm
  · have hnot : ¬∃ r', g ++ '.' :: r = ':' :: ':' :: r' ∧
        parseFrom false ⟨[], some 0, 0, true⟩ r' = some a := by
      rintro ⟨r', htext, -⟩
      obtain ⟨-, hcolon, -⟩ := split_unique (k := []) hg (by simp) hc rfl htext
      cases hcolon
    rw [parseTail_dot_empty, parseTail_dot_empty, or_iff_left hnot]

/-- Exactly the texts of an address are accepted, for that address. -/
theorem parseIpv6Addr_iff {text : List Char} {a : List (BitVec 16)} :
    parseIpv6Addr text = some a ↔ Denotes text a := by
  rw [parseIpv6Addr_start, parseFrom_front _ (Nat.lt_succ_self _) (by simp)]
  constructor
  · rintro ((⟨bs, hblocks, -, h⟩ | ⟨front, fb, rear, rb, rfl, hfront, -, hrear, hlow, hhigh, h⟩) |
      ⟨r, rfl, h⟩)
    · obtain ⟨hbs, hlen⟩ := spread_none.1 h
      rw [List.nil_append] at hbs
      exact Or.inl ⟨hbs ▸ hblocks, hlen⟩
    · simp only [List.length_nil, Nat.zero_add, List.nil_append] at hlow hhigh h
      exact Or.inr ⟨front, fb, rear, rb, rfl, hfront, hrear, hlow, hhigh, spread_some.1 h⟩
    · obtain ⟨rb, hblocks, hlen, -, h⟩ :=
        (parseFrom_rear _ (Nat.lt_succ_self _) (by simp) (by simp)).1 h
      simp only [List.length_nil, Nat.zero_add] at hlen
      refine Or.inr ⟨[], [], r, rb, rfl, Groups.nil, hblocks, by simp, by simpa using hlen, ?_⟩
      exact spread_some.1 h
  · rintro (⟨hblocks, hlen⟩ | ⟨front, fb, rear, rb, rfl, hfront, hrear, hlow, hhigh, ha⟩)
    · refine Or.inl (Or.inl ⟨a, hblocks, ?_, ?_⟩)
      · rintro rfl
        simp at hlen
      · exact spread_none.2 ⟨rfl, hlen⟩
    · by_cases hne : fb = []
      · subst hne
        have hnil : front = [] := by
          cases hfront
          rfl
        subst hnil
        refine Or.inr ⟨rear, rfl, ?_⟩
        apply (parseFrom_rear _ (Nat.lt_succ_self _) (by simp) (by simp)).2
        exact ⟨rb, hrear, by simpa using hhigh, fun _ => rfl, spread_some.2 ha⟩
      · refine Or.inl (Or.inr ⟨front, fb, rear, rb, rfl, hfront, hne, hrear, ?_, ?_, ?_⟩)
        · simpa using hlow
        · simpa using hhigh
        · simpa using spread_some.2 ha

example : parseIpv6Addr "::ffff:192.168.1.2".toList =
    some [0, 0, 0, 0, 0, 0xffff, 0xc0a8, 0x0102] := by
  decide

/-- Eight groups, and `::` all the same. -/
example : parseIpv6Addr "1:2:3:4:5:6:7::00008".toList = some [1, 2, 3, 4, 5, 6, 7, 8] := by
  decide

/-! ## What is printed -/

theorem decodeHexDigit_digitChar {n : Nat} (hn : n < 16) : decodeHexDigit n.digitChar = some n := by
  interval_cases n <;> rfl

theorem toDigits_digits (n : Nat) : ∃ ds : List Nat,
    (Nat.toDigits 16 n).map decodeHexDigit = ds.map some ∧
      ds.foldl (fun n d => n * 16 + d) 0 = n := by
  induction n using Nat.strongRecOn with
  | ind n ih =>
      rw [Nat.toDigits_eq_if (by omega)]
      split
      · rename_i hlt
        exact ⟨[n], by simp [decodeHexDigit_digitChar hlt], by simp⟩
      · rename_i hge
        obtain ⟨ds, hds, hvalue⟩ := ih (n / 16) (by omega)
        have hlast : decodeHexDigit (n % 16).digitChar = some (n % 16) :=
          decodeHexDigit_digitChar (by omega)
        refine ⟨ds ++ [n % 16], by simp [hds, hlast], ?_⟩
        rw [List.foldl_append, hvalue, List.foldl_cons, List.foldl_nil]
        omega

theorem isGroup_hex (b : BitVec 16) : IsGroup (hex b) b :=
  ⟨Nat.toDigits_ne_nil, toDigits_digits b.toNat⟩

/-- The runs of zeros in the blocks `done`. -/
structure Runs (done : List (BitVec 16)) (r : ZeroRun) : Prop where
  current : ∃ front, done = front ++ List.replicate r.currentLen 0 ∧ front.length = r.currentStart
  largest : ∃ front rear, done = front ++ List.replicate r.largestLen 0 ++ rear ∧
    front.length = r.largestStart

theorem Runs.next {done : List (BitVec 16)} {r : ZeroRun} (h : Runs done r) (b : BitVec 16) :
    Runs (done ++ [b]) (r.next done.length b) := by
  obtain ⟨⟨front, hcurrent, hstart⟩, ⟨front', rear', hlargest, hstart'⟩⟩ := h
  rw [ZeroRun.next]
  by_cases hb : b = 0
  · have hgrown : done ++ [b] = front ++ List.replicate (r.currentLen + 1) 0 := by
      rw [hb, List.replicate_succ', ← List.append_assoc, ← hcurrent]
    rw [if_pos hb]
    dsimp only
    split
    · exact ⟨⟨front, hgrown, hstart⟩, ⟨front, [], by simpa using hgrown, hstart⟩⟩
    · exact ⟨⟨front, hgrown, hstart⟩, ⟨front', rear' ++ [b], by rw [hlargest]; simp, hstart'⟩⟩
  · rw [if_neg hb]
    exact ⟨⟨done ++ [b], by simp, by simp⟩, ⟨front', rear' ++ [b], by rw [hlargest]; simp, hstart'⟩⟩

theorem Runs.zeroRun {done : List (BitVec 16)} {r : ZeroRun} (h : Runs done r)
    (rest : List (BitVec 16)) : Runs (done ++ rest) (zeroRun done.length r rest) := by
  induction rest generalizing done r with
  | nil => rwa [List.append_nil]
  | cons b rest ih =>
      have hnext := ih (h.next b)
      rw [List.length_append, List.length_singleton, List.append_assoc] at hnext
      exact hnext

theorem runs_init : Runs [] {} where
  current := ⟨[], rfl, rfl⟩
  largest := ⟨[], [], rfl, rfl⟩

theorem groups_join (bs : List (BitVec 16)) : Groups (join bs) bs := by
  induction bs with
  | nil => exact Groups.nil
  | cons b bs ih =>
      cases bs with
      | nil =>
          rw [join, List.flatMap_nil, List.append_nil]
          exact Groups.last (isGroup_hex b)
      | cons c bs =>
          exact Groups.cons (isGroup_hex b) ih (by simp)

theorem Groups.blocks {text : List Char} {bs : List (BitVec 16)} (h : Groups text bs) :
    Blocks text bs := by
  induction h with
  | nil => exact Blocks.nil
  | last hgroup => exact Blocks.last hgroup
  | cons hgroup _ hne ih => exact Blocks.cons hgroup ih hne

theorem flatMap_front {bs : List (BitVec 16)} :
    bs.flatMap (fun b => hex b ++ [':']) ++ (if bs.length = 0 then [':'] else []) =
      join bs ++ [':'] := by
  induction bs with
  | nil => rfl
  | cons b bs ih =>
      cases bs with
      | nil => simp [join]
      | cons c bs =>
          simp only [List.length_cons, Nat.add_eq_zero_iff, Nat.one_ne_zero, and_false, if_false,
            List.append_nil] at ih ⊢
          rw [List.flatMap_cons, ih]
          simp [join]

theorem flatMap_rear {bs : List (BitVec 16)} :
    bs.flatMap (fun b => ':' :: hex b) ++ (if bs.length = 0 then [':'] else []) = ':' :: join bs := by
  cases bs <;> simp [join]

/-- What is printed is a text of the address. -/
theorem denotes_printAddr {a : List (BitVec 16)} (ha : a.length = 8) : Denotes (printAddr a) a := by
  have hruns := runs_init.zeroRun a
  rw [List.nil_append, List.length_nil] at hruns
  rw [printAddr]
  generalize zeroRun 0 {} a = r at hruns ⊢
  obtain ⟨front, rear, hlargest, hstart⟩ := hruns.largest
  split
  · rename_i hlen
    have hall : front.length + r.largestLen + rear.length = 8 := by
      rw [hlargest, List.length_append, List.length_append, List.length_replicate] at ha
      exact ha
    have htake : a.take r.largestStart = front := by
      rw [hlargest, List.append_assoc, ← hstart, List.take_left]
    have hdrop : a.drop (r.largestStart + r.largestLen) = rear := by
      rw [hlargest, ← hstart]
      exact List.drop_left' (by simp)
    have hend : (if r.largestStart + r.largestLen = 8 then [':'] else []) =
        if rear.length = 0 then [':'] else [] := by
      rw [← hstart]
      exact if_congr (by omega) rfl rfl
    refine Or.inr ⟨join front, front, join rear, rear, ?_, groups_join front,
      (groups_join rear).blocks, by omega, by omega, ?_⟩
    · rw [htake, hdrop, hend, ← hstart, flatMap_front, List.append_assoc, flatMap_rear]
      simp
    · rw [show 8 - (front.length + rear.length) = r.largestLen by omega]
      exact hlargest
  · exact Or.inl ⟨(groups_join a).blocks, ha⟩

/-- Every address is read back from what is printed for it. -/
theorem parseIpv6Addr_printAddr {a : List (BitVec 16)} (ha : a.length = 8) :
    parseIpv6Addr (printAddr a) = some a :=
  parseIpv6Addr_iff.2 (denotes_printAddr ha)

example : String.ofList (printAddr [0x2001, 0xdb8, 0, 0, 1, 0, 0, 1]) = "2001:db8::1:0:0:1" := by
  decide

/-- The texts of an address are those that are accepted for it.  What is printed is one of them, so
that it stands for all of them. -/
theorem parseIpv6Addr_texts :
    (∀ text a, parseIpv6Addr text = some a ↔ Denotes text a) ∧
      (∀ a : List (BitVec 16), a.length = 8 → parseIpv6Addr (printAddr a) = some a) ∧
      ∀ text a, parseIpv6Addr text = some a →
        a.length = 8 ∧ parseIpv6Addr (printAddr a) = some a := by
  refine ⟨fun _ _ => parseIpv6Addr_iff, fun _ ha => parseIpv6Addr_printAddr ha, fun text a h => ?_⟩
  have hlen : a.length = 8 := (parseIpv6Addr_iff.1 h).length_eq
  exact ⟨hlen, parseIpv6Addr_printAddr hlen⟩

end Ipaddr6
end Tun
end SpinVpn
