import Mathlib.Data.List.Basic
import SpinVpn.Lib.Codec

/-!
# Uri — the two URI parsers of the app

A shared profile is read by `android.net.Uri` and by `java.net.URI`.  The model follows both on the
part of a URI after `ss://`, the only scheme the app reads:

* `android.net.Uri` cuts the text at the first `?` and `#` and never fails, and
* `java.net.URI` checks every character, and reads a host and a port only from an authority of the
  server-based form.

`Framework` leaves open what the two libraries and `Base64` do to texts that no encoder wrote, and
the grammar of hosts; Android's hosts have underscores, those of the standard library have not.
-/

namespace SpinVpn
namespace Net

open Codec

/-! ## Texts -/

/-- The parts of a text before and after a character, for each place where it occurs. -/
def splits (c : Char) : List Char → List (List Char × List Char)
  | [] => []
  | d :: l =>
      let rest := (splits c l).map (fun s => (d :: s.1, s.2))
      if d = c then ([], l) :: rest else rest

theorem splits_of_not_mem {c : Char} {l : List Char} (h : c ∉ l) : splits c l = [] := by
  induction l with
  | nil => rfl
  | cons d l ih =>
      rw [List.mem_cons, not_or] at h
      simp [splits, ih h.2, Ne.symm h.1]

theorem splits_append {c : Char} {l : List Char} (h : c ∉ l) (r : List Char) :
    splits c (l ++ c :: r) = (l, r) :: (splits c r).map (fun s => (l ++ c :: s.1, s.2)) := by
  induction l with
  | nil => simp [splits]
  | cons d l ih =>
      rw [List.mem_cons, not_or] at h
      simp [splits, ih h.2, Ne.symm h.1, Function.comp_def]

/-- The last place comes last. -/
theorem splits_append_last {c : Char} {r : List Char} (h : c ∉ r) (l : List Char) :
    splits c (l ++ c :: r) = (splits c l).map (fun s => (s.1, s.2 ++ c :: r)) ++ [(l, r)] := by
  induction l with
  | nil => simp [splits, splits_of_not_mem h]
  | cons d l ih =>
      by_cases hd : d = c
      · simp [splits, ih, hd, Function.comp_def]
      · simp [splits, ih, hd, Function.comp_def]

theorem mem_splits {c : Char} {l : List Char} {s : List Char × List Char} (h : s ∈ splits c l) :
    l = s.1 ++ c :: s.2 := by
  induction l generalizing s with
  | nil => cases h
  | cons d l ih =>
      have hrest : s ∈ (splits c l).map (fun s => (d :: s.1, s.2)) → d :: l = s.1 ++ c :: s.2 := by
        intro hmem
        rcases List.mem_map.1 hmem with ⟨t, ht, rfl⟩
        exact congrArg (List.cons d) (ih ht)
      simp only [splits] at h
      split at h
      · rename_i hd
        rcases List.mem_cons.1 h with rfl | hmem
        · rw [hd]
          rfl
        · exact hrest hmem
      · exact hrest h

/-- The characters that `Uri.encode` leaves alone. -/
def unescaped (c : Char) : Bool :=
  c.isAlphanum || "_-!.~'()*".toList.contains c

/-- `Uri.encode(s, null)` -/
def uriEncode (l : List Char) : List Char :=
  Percent.encode unescaped l

structure Framework where
  /-- `String(bytes)` -/
  stringOf : List UInt8 → List Char
  stringOf_bytes : ∀ l, stringOf (Utf8.bytes l) = l
  /-- `Base64.decode` over the url-safe alphabet; `none` where it throws -/
  base64UrlDecode : List Char → Option (List UInt8)
  base64UrlDecode_encode : ∀ b, base64UrlDecode (Base64.encode b) = some b
  /-- `Base64.decode` over the standard alphabet -/
  base64Decode : List Char → Option (List UInt8)
  /-- the decoder of `Uri`, which in a query also turns `+` into a space -/
  uriDecode : Bool → List Char → List Char
  uriDecode_encode : ∀ convertPlus l, uriDecode convertPlus (uriEncode l) = l
  /-- `lowercase(Locale.ENGLISH)` -/
  lowercase : List Char → List Char
  /-- the host names and IPv4 addresses that `java.net.URI` reads -/
  hostName : List Char → Bool
  hostName_chars : ∀ h, hostName h = true →
    h ≠ [] ∧ ∀ c ∈ h, c.isAlphanum = true ∨ c ∈ "-._".toList
  /-- the IPv6 addresses that it reads in brackets, with their scope -/
  ipv6Address : List Char → Bool
  ipv6Address_chars : ∀ h, ipv6Address h = true →
    ':' ∈ h ∧ ∀ c ∈ h, c.isAlphanum = true ∨ c ∈ ":._%".toList

/-! ## android.net.Uri -/

namespace AndroidUri

def encodedAuthority (uri : List Char) : List Char :=
  uri.takeWhile (fun c => !"/\\?#".toList.contains c)

/-- Up to the last `@` of the authority. -/
def encodedUserInfo (uri : List Char) : Option (List Char) :=
  (splits '@' (encodedAuthority uri)).getLast?.map Prod.fst

def encodedHost (uri : List Char) : List Char :=
  let hostPort := ((splits '@' (encodedAuthority uri)).getLast?.map Prod.snd).getD
    (encodedAuthority uri)
  match (splits ':' hostPort).getLast? with
  | some (host, port) => if port.all Char.isDigit then host else hostPort
  | none => hostPort

def encodedFragment (uri : List Char) : Option (List Char) :=
  (splits '#' uri).head?.map Prod.snd

/-- A `?` behind the `#` belongs to the fragment. -/
def encodedQuery (uri : List Char) : Option (List Char) :=
  match (splits '?' uri).head? with
  | none => none
  | some (before, query) =>
      if before.contains '#' then none else some (query.takeWhile (fun c => c ≠ '#'))

/-- The first parameter with the key; one without `=` has the empty value. -/
def getQueryParameter (F : Framework) (key uri : List Char) : Option (List Char) :=
  (encodedQuery uri).bind (fun query =>
    (query.splitOn '&').findSome? (fun parameter =>
      match (splits '=' parameter).head? with
      | none => if parameter = key then some [] else none
      | some (name, value) => if name = key then some (F.uriDecode true value) else none))

end AndroidUri

/-! ## java.net.URI -/

namespace JavaUri

def isUnreserved (c : Char) : Bool :=
  c.isAlphanum || "-_.!~*'()".toList.contains c

def isUserInfoChar (c : Char) : Bool :=
  isUnreserved c || ";:&=+$,".toList.contains c

def isRegNameChar (c : Char) : Bool :=
  isUnreserved c || "$,;:@&=+".toList.contains c

def isPathChar (c : Char) : Bool :=
  isUnreserved c || ":@&=+$,;/".toList.contains c

def isUriChar (c : Char) : Bool :=
  isUnreserved c || ";/?:@&=+$,[]".toList.contains c

/-- The numbers that `Integer.parseInt` accepts. -/
def maxInt : Nat :=
  2147483647

def isHexDigit (c : Char) : Bool :=
  c.isDigit || "abcdefABCDEF".toList.contains c

/-- `checkChars`: legal characters and escaped octets. -/
def checkChars (legal : Char → Bool) : List Char → Bool
  | '%' :: a :: b :: l => isHexDigit a && isHexDigit b && checkChars legal l
  | c :: l => c ≠ '%' && legal c && checkChars legal l
  | [] => true

/-- The port behind a `:`; none is given as `-1`. -/
def parsePort : List Char → Option Int
  | [] => some (-1)
  | ':' :: digits =>
      if digits = [] then some (-1)
      else if digits.all Char.isDigit && Nat.ofDigitChars 10 digits 0 ≤ maxInt then
        some (Nat.ofDigitChars 10 digits 0)
      else none
  | _ => none

/-- Host and port of a server-based authority without its user info. -/
def parseHostPort (F : Framework) (l : List Char) : Option (List Char × Int) :=
  match l with
  | '[' :: inner =>
      match (splits ']' inner).head? with
      | none => none
      | some (address, port) =>
          if F.ipv6Address address then (parsePort port).map (fun n => ('[' :: address ++ [']'], n))
          else none
  | _ =>
      let host := l.takeWhile (fun c => c ≠ ':')
      if F.hostName host then
        (parsePort (l.dropWhile (fun c => c ≠ ':'))).map (fun n => (host, n))
      else none

def parseServer (F : Framework) (authority : List Char) : Option (List Char × Int) :=
  match (splits '@' authority).head? with
  | none => parseHostPort F authority
  | some (userInfo, hostPort) =>
      if checkChars isUserInfoChar userInfo then parseHostPort F hostPort else none

/-- An authority that is not server-based is taken as a registry-based name, without a host. -/
def parseAuthority (F : Framework) (authority : List Char) : Option (Option (List Char) × Int) :=
  match parseServer F authority with
  | some (host, port) => some (some host, port)
  | none => if checkChars isRegNameChar authority then some (none, -1) else none

/-- Host and port of a URI; `none` stands for `URISyntaxException`. -/
def parse (F : Framework) (uri : List Char) : Option (Option (List Char) × Int) :=
  let authority := uri.takeWhile (fun c => !"/?#".toList.contains c)
  let rest := uri.dropWhile (fun c => !"/?#".toList.contains c)
  let path := rest.takeWhile (fun c => !"?#".toList.contains c)
  let rest' := rest.dropWhile (fun c => !"?#".toList.contains c)
  let query := (rest'.takeWhile (fun c => c ≠ '#')).drop 1
  let fragment := (rest'.dropWhile (fun c => c ≠ '#')).drop 1
  if checkChars isPathChar path && checkChars isUriChar query && checkChars isUriChar fragment then
    if authority = [] then (if rest = [] then none else some (none, -1))
    else parseAuthority F authority
  else none

end JavaUri

end Net
end SpinVpn
