import SpinVpn.Database.SharedLink
import SpinVpn.Utils.Text

/-!
# Legacy — links that are Base64 as a whole

Before SIP002, a link was `ss://` and the Base64 form of `method:password@host:port`.
`findAllUrls` takes a link without user info for one of these, and what it decodes is the host of
the URI.  The standard alphabet has a slash, at which the authority ends: of a link with a slash,
only the beginning is decoded, and what comes out is not the server that was encoded
(`legacy_iff`).
-/

namespace SpinVpn
namespace Database

open Codec Net

/-! ## Links -/

/-- A server, as a legacy link describes it. -/
structure LegacyServer where
  method : String
  password : String
  host : String
  port : Nat
  method_nonempty : method.toList ≠ []
  method_noColon : ':' ∉ method.toList
  password_line : isLine password.toList = true
  host_nonempty : host.toList ≠ []
  host_noAt : '@' ∉ host.toList
  host_line : isLine host.toList = true
  port_pos : 1 ≤ port
  port_le : port ≤ 65535

namespace LegacyServer

variable (s : LegacyServer)

def digits : List Char :=
  (toString s.port).toList

def text : List Char :=
  s.method.toList ++ ':' :: (s.password.toList ++ '@' :: (s.host.toList ++ ':' :: s.digits))

def octets : List UInt8 :=
  Utf8.bytes s.text

def base64 (padded : Bool) : List Char :=
  Base64.Standard.encode s.octets ++ if padded then Base64.Standard.padding s.octets else []

def link (padded : Bool) : String :=
  String.ofList ("ss://".toList ++ s.base64 padded)

/-- The profile is that of the server. -/
structure Recovered (F : Framework) (r : Profile) : Prop where
  method : r.method = String.ofList (F.lowercase s.method.toList)
  password : r.password = s.password
  host : r.host = s.host
  remotePort : r.remotePort = s.port

end LegacyServer

/-- What the decoders do to the texts of such links: nothing is percent-encoded; Base64 is read
over the standard alphabet, also where it was cut off, and with its padding or without it; a text
that ends inside a character ends in a replacement. -/
structure LegacyLaws (F : Framework) : Prop where
  uriDecode_plain : ∀ l, '%' ∉ l → F.uriDecode false l = l
  base64Decode_standard : ∀ l, (∀ c ∈ l, c ∈ Base64.Standard.alphabet) →
    F.base64Decode l = Base64.Standard.decode l
  base64Decode_padded : ∀ b,
    F.base64Decode (Base64.Standard.encode b ++ Base64.Standard.padding b) = some b
  stringOf_broken : ∀ (l : List Char) (c : Char) (k : Nat), 0 < k →
    k < (String.utf8EncodeChar c).length →
    (F.stringOf (Utf8.bytes l ++ (String.utf8EncodeChar c).take k)).getLast? = some '\ufffd'

/-! ## `legacyPattern` -/

section Pattern

variable {l method password host port : List Char} {m : LegacyMatch}

/-- The last group: what follows the last colon. -/
theorem findSome_server (hne : host ≠ []) (hline : isLine host = true) (hport : port ≠ [])
    (hdigits : port.all Char.isDigit = true) (method password : List Char) :
    (splits ':' (host ++ ':' :: port)).findSome? (fun (host, port) =>
        if !host.isEmpty && isLine host && !port.isEmpty && port.all Char.isDigit then
          some ({ method, password, host, port } : LegacyMatch)
        else none) =
      some { method, password, host, port } := by
  have hcolon : ':' ∉ port := by
    intro hmem
    exact absurd (List.all_eq_true.1 hdigits _ hmem) (by decide)
  -- before the last colon, the port would have a colon itself
  have hearlier : ∀ s ∈ (splits ':' host).map (fun s => (s.1, s.2 ++ ':' :: port)),
      s.2.all Char.isDigit = false := by
    intro s hs
    rcases List.mem_map.1 hs with ⟨t, -, rfl⟩
    have hdigit : Char.isDigit ':' = false := by decide
    simp [hdigit]
  have hnone : ((splits ':' host).map (fun s => (s.1, s.2 ++ ':' :: port))).findSome?
      (fun (host, port) =>
        if !host.isEmpty && isLine host && !port.isEmpty && port.all Char.isDigit then
          some ({ method, password, host, port } : LegacyMatch)
        else none) = none := by
    refine List.findSome?_eq_none_iff.2 (fun s hs => ?_)
    simp only [hearlier s hs, Bool.and_false, Bool.false_eq_true, if_false]
  have hfull : (!host.isEmpty && isLine host && !port.isEmpty && port.all Char.isDigit) = true := by
    simp [hne, hline, hport, hdigits]
  rw [splits_append_last hcolon, List.findSome?_append, hnone, Option.none_or, List.findSome?_cons]
  simp only [hfull, if_true]

theorem not_mem_server (hat : '@' ∉ host) (hdigits : port.all Char.isDigit = true) :
    '@' ∉ host ++ ':' :: port := by
  intro hmem
  rcases List.mem_append.1 hmem with hmem | hmem
  · exact hat hmem
  · rcases List.mem_cons.1 hmem with heq | hmem
    · exact absurd heq (by decide)
    · exact absurd (List.all_eq_true.1 hdigits _ hmem) (by decide)

theorem matchLegacy_eq (hmethod : method ≠ []) (hcolon : ':' ∉ method)
    (hpassword : isLine password = true) (hne : host ≠ []) (hat : '@' ∉ host)
    (hline : isLine host = true) (hport : port ≠ []) (hdigits : port.all Char.isDigit = true) :
    matchLegacy (method ++ ':' :: (password ++ '@' :: (host ++ ':' :: port))) =
      if isLine method then some { method, password, host, port } else none := by
  rw [matchLegacy, splits_append hcolon, List.findSome?_cons]
  cases hmethodLine : isLine method with
  | true =>
      have hserver := not_mem_server hat hdigits
      have hfound := findSome_server hne hline hport hdigits method password
      have hempty : method.isEmpty = false := by simpa using hmethod
      simp only [hempty, hmethodLine, Bool.not_false, Bool.and_self, if_true,
        splits_append_last hserver, List.reverse_append, List.reverse_singleton,
        List.singleton_append, List.findSome?_cons, hpassword, hfound]
  | false =>
      -- every other method begins with this one
      have hnone : ((splits ':' (password ++ '@' :: (host ++ ':' :: port))).map
          (fun s => (method ++ ':' :: s.1, s.2))).findSome? (fun (method, rest) =>
            if !method.isEmpty && isLine method then
              (splits '@' rest).reverse.findSome? (fun (password, server) =>
                if isLine password then
                  (splits ':' server).findSome? (fun (host, port) =>
                    if !host.isEmpty && isLine host && !port.isEmpty && port.all Char.isDigit then
                      some ({ method, password, host, port } : LegacyMatch)
                    else none)
                else none)
            else none) = none := by
        refine List.findSome?_eq_none_iff.2 (fun s hs => ?_)
        rcases List.mem_map.1 hs with ⟨t, -, rfl⟩
        simp [isLine_append, hmethodLine]
      simp only [hmethodLine, Bool.and_false, Bool.false_eq_true, if_false]
      exact hnone

/-- A match takes the whole text apart. -/
theorem matchLegacy_sound (h : matchLegacy l = some m) :
    l = m.method ++ ':' :: (m.password ++ '@' :: (m.host ++ ':' :: m.port)) ∧ m.port ≠ [] ∧
      m.port.all Char.isDigit = true := by
  rcases List.exists_of_findSome?_eq_some h with ⟨⟨method, rest⟩, hmethod, h⟩
  dsimp only at h
  split at h
  · rcases List.exists_of_findSome?_eq_some h with ⟨⟨password, server⟩, hpassword, h⟩
    dsimp only at h
    split at h
    · rcases List.exists_of_findSome?_eq_some h with ⟨⟨host, port⟩, hhost, h⟩
      dsimp only at h
      split at h
      · rename_i hport
        cases h
        simp only [Bool.and_eq_true, Bool.not_eq_true', List.isEmpty_eq_false_iff] at hport
        have hl := mem_splits hmethod
        have hrest := mem_splits (List.mem_reverse.1 hpassword)
        have hserver := mem_splits hhost
        dsimp only at hl hrest hserver
        refine ⟨?_, hport.1.2, hport.2⟩
        rw [hl, hrest, hserver]
      · cases h
    · cases h
  · cases h

/-- Two ways to take one text apart: the first colon and the last at sign stand where they stand. -/
theorem legacy_parts {method' rest : List Char} (hcolon : ':' ∉ method)
    (hserver : '@' ∉ host ++ ':' :: port)
    (h : method' ++ ':' :: (password ++ '@' :: rest) =
      method ++ ':' :: (password ++ '@' :: (host ++ ':' :: port))) :
    method' = method ∧ rest = host ++ ':' :: port := by
  have hshort : method.length ≤ method'.length := by
    by_contra hlt
    have hlt' : method'.length < method.length := Nat.lt_of_not_le hlt
    -- the colon behind the shorter method would be part of the longer one
    have hget := congrArg (fun l => l[method'.length]?) h
    simp only [List.getElem?_append_right (Nat.le_refl _), Nat.sub_self, List.getElem?_cons_zero,
      List.getElem?_append_left hlt'] at hget
    exact hcolon (List.mem_of_getElem? hget.symm)
  have hlong : method'.length ≤ method.length := by
    by_contra hlt
    have hlt' : method.length < method'.length := Nat.lt_of_not_le hlt
    have hassoc : ∀ m r : List Char, m ++ ':' :: (password ++ '@' :: r) =
        (m ++ ':' :: password) ++ '@' :: r := by
      intro m r
      simp
    rw [hassoc, hassoc] at h
    -- the at sign of the longer one would be part of the server
    have hle : (method ++ ':' :: password).length < (method' ++ ':' :: password).length := by
      simp only [List.length_append, List.length_cons]
      omega
    have hget := congrArg (fun l => l[(method' ++ ':' :: password).length]?) h
    simp only [List.getElem?_append_right (Nat.le_refl _), Nat.sub_self, List.getElem?_cons_zero] at hget
    rw [List.getElem?_append_right (Nat.le_of_lt hle), List.getElem?_cons,
      if_neg (by omega)] at hget
    exact hserver (List.mem_of_getElem? hget.symm)
  have hlength : method'.length = method.length := Nat.le_antisymm hlong hshort
  rcases List.append_inj h hlength with ⟨hmethod, htail⟩
  exact ⟨hmethod, (List.cons.inj (List.append_cancel_left (List.cons.inj htail).2)).2⟩

end Pattern

/-! ## The text -/

section Text

variable (s : LegacyServer)

theorem digits_ne_nil : s.digits ≠ [] := by
  rw [LegacyServer.digits, Nat.toString_eq_repr, Nat.toList_repr]
  exact Nat.toDigits_ne_nil

theorem all_digits : s.digits.all Char.isDigit = true :=
  List.all_eq_true.2 (fun _ hc => Utils.isDigit_of_mem_toString hc)

theorem value_digits : Nat.ofDigitChars 10 s.digits 0 = s.port := by
  rw [LegacyServer.digits, Nat.toString_eq_repr, Nat.toList_repr, Nat.ofDigitChars_ten_toDigits]

theorem matchLegacy_text :
    matchLegacy s.text =
      if isLine s.method.toList then
        some { method := s.method.toList, password := s.password.toList, host := s.host.toList,
               port := s.digits }
      else none :=
  matchLegacy_eq s.method_nonempty s.method_noColon s.password_line s.host_nonempty s.host_noAt
    s.host_line (digits_ne_nil s) (all_digits s)

/-- More digits make a greater number. -/
theorem lt_ofDigitChars_append {n : Nat} (hn : 1 ≤ n) {l m : List Char} (hm : m ≠ [])
    (hl : Nat.ofDigitChars 10 l 0 = n) : n < Nat.ofDigitChars 10 (l ++ m) 0 := by
  have hgrows : ∀ (m : List Char) (k : Nat), k ≤ Nat.ofDigitChars 10 m k := by
    intro m
    induction m with
    | nil =>
        intro k
        exact Nat.le_refl k
    | cons c m ih =>
        intro k
        rw [Nat.ofDigitChars_cons]
        exact Nat.le_trans (by omega) (ih _)
  cases m with
  | nil => exact absurd rfl hm
  | cons c m =>
      rw [Nat.ofDigitChars_append, hl, Nat.ofDigitChars_cons]
      exact Nat.lt_of_lt_of_le (by omega) (hgrows m _)

/-- A proper beginning of the text is not the text of the same server. -/
theorem not_recovered_of_prefix {l rest : List Char} (htext : s.text = l ++ rest) (hrest : rest ≠ [])
    {m : LegacyMatch} (hm : matchLegacy l = some m) (hpassword : m.password = s.password.toList)
    (hhost : m.host = s.host.toList) : Nat.ofDigitChars 10 m.port 0 ≠ s.port := by
  intro hport
  have hl := (matchLegacy_sound hm).1
  have hserver := not_mem_server s.host_noAt (all_digits s)
  have hsame : m.method ++ ':' :: (s.password.toList ++ '@' ::
      (s.host.toList ++ ':' :: m.port ++ rest)) =
      s.method.toList ++ ':' :: (s.password.toList ++ '@' :: (s.host.toList ++ ':' :: s.digits)) := by
    rw [← LegacyServer.text, htext, hl, hpassword, hhost]
    simp
  have hdigits : s.digits = m.port ++ rest := by
    have hparts := (legacy_parts s.method_noColon hserver hsame).2
    rw [List.append_assoc] at hparts
    exact (List.cons.inj (List.append_cancel_left hparts)).2.symm
  have hlt := lt_ofDigitChars_append s.port_pos hrest hport
  rw [← hdigits, value_digits] at hlt
  exact Nat.lt_irrefl _ hlt

end Text

/-! ## The link -/

section Link

variable {F : Framework} (feature : Option Profile) (s : LegacyServer) (padded : Bool)

/-- A property of the alphabet and of the padding. -/
theorem forall_base64 {Q : Char → Prop} [DecidablePred Q]
    (h : Base64.Standard.codePoints.all (fun n => decide (Q (Char.ofNat n))) = true) (hpad : Q '=') :
    ∀ c ∈ s.base64 padded, Q c := by
  intro c hc
  rcases List.mem_append.1 hc with hc | hc
  · exact Base64.Standard.forall_alphabet h c (Base64.Standard.mem_encode hc)
  · split at hc
    · rw [List.eq_of_mem_replicate hc]
      exact hpad
    · cases hc

theorem octets_ne_nil : s.octets ≠ [] := by
  rw [LegacyServer.octets, LegacyServer.text]
  rcases hmethod : s.method.toList with _ | ⟨c, method⟩
  · exact absurd hmethod s.method_nonempty
  · rw [List.cons_append, Utf8.bytes_cons]
    exact List.append_ne_nil_of_left_ne_nil String.utf8EncodeChar_ne_nil _

theorem encode_ne_nil : Base64.Standard.encode s.octets ≠ [] := by
  have hne := octets_ne_nil s
  rw [Base64.Standard.encode, Ne, List.map_eq_nil_iff, Base64.sextets.eq_def]
  split
  · rename_i heq
    exact absurd heq hne
  all_goals exact List.cons_ne_nil _ _

/-- The regular expression finds the link to its end. -/
theorem findAllUrls_legacy :
    findAllUrls F feature (s.link padded) = (parseUrl F feature (s.base64 padded)).toList := by
  have hurl : ∀ c ∈ s.base64 padded, isUrlChar c = true :=
    forall_base64 s padded (by decide +kernel) (by decide)
  have hlast : ∀ c ∈ s.base64 padded, isLastUrlChar c = true :=
    forall_base64 s padded (by decide +kernel) (by decide)
  have hne : s.base64 padded ≠ [] :=
    List.append_ne_nil_of_left_ne_nil (encode_ne_nil s) _
  have hcut : cutLink (s.base64 padded) = s.base64 padded := by
    refine List.rdropWhile_eq_self_iff.2 (fun hl => ?_)
    simp [hlast _ (List.getLast_mem hl)]
  have hcutNe : cutLink (s.base64 padded) ≠ [] := by
    rw [hcut]
    exact hne
  have htext : (s.link padded).toList = "ss://".toList ++ s.base64 padded := String.toList_ofList
  have hfind : findAll 0 (s.link padded).toList = [s.base64 padded] := by
    calc
      findAll 0 (s.link padded).toList = findAll 0 ("ss://".toList ++ s.base64 padded) := by
        rw [htext]
      _ = [cutLink (s.base64 padded)] := findAll_link hurl hcutNe
      _ = [s.base64 padded] := by rw [hcut]
  rw [findAllUrls, hfind]
  cases hparse : parseUrl F feature (s.base64 padded) with
  | none => rw [List.filterMap_cons_none hparse, List.filterMap_nil, Option.toList_none]
  | some r => rw [List.filterMap_cons_some hparse, List.filterMap_nil, Option.toList_some]

/-- The part of the link before its first slash. -/
def LegacyServer.authority : List Char :=
  (s.base64 padded).takeWhile (fun c => c ≠ '/')

theorem not_mem_authority {c : Char}
    (h : Base64.Standard.codePoints.all (fun n => decide (Char.ofNat n ≠ c)) = true)
    (hpad : '=' ≠ c) : c ∉ s.authority padded := by
  intro hmem
  have hbase64 : c ∈ s.base64 padded := (List.takeWhile_prefix _).subset hmem
  exact forall_base64 s padded (Q := fun d => d ≠ c) h hpad c hbase64 rfl

theorem takeWhile_congr {p q : Char → Bool} {l : List Char} (h : ∀ c ∈ l, p c = q c) :
    l.takeWhile p = l.takeWhile q := by
  induction l with
  | nil => rfl
  | cons c l ih =>
      rw [List.takeWhile_cons, List.takeWhile_cons, h c List.mem_cons_self,
        ih (fun d hd => h d (List.mem_cons_of_mem c hd))]

theorem encodedAuthority_legacy :
    AndroidUri.encodedAuthority (s.base64 padded) = s.authority padded := by
  have hchars : ∀ c ∈ s.base64 padded, (!"/\\?#".toList.contains c) = decide (c ≠ '/') :=
    forall_base64 s padded (by decide +kernel) (by decide)
  rw [AndroidUri.encodedAuthority, LegacyServer.authority]
  exact takeWhile_congr hchars

theorem parseUrl_legacy :
    parseUrl F feature (s.base64 padded) = parseLegacy F feature (s.base64 padded) := by
  have hat : '@' ∉ s.authority padded := not_mem_authority s padded (by decide +kernel) (by decide)
  rw [parseUrl, AndroidUri.encodedUserInfo, encodedAuthority_legacy, splits_of_not_mem hat]
  rfl

theorem encodedHost_legacy : AndroidUri.encodedHost (s.base64 padded) = s.authority padded := by
  have hat : '@' ∉ s.authority padded := not_mem_authority s padded (by decide +kernel) (by decide)
  have hcolon : ':' ∉ s.authority padded := not_mem_authority s padded (by decide +kernel) (by decide)
  rw [AndroidUri.encodedHost, encodedAuthority_legacy, splits_of_not_mem hat]
  simp only [List.getLast?_nil, Option.map_none, Option.getD_none, splits_of_not_mem hcolon]

/-- The profile of the server is read exactly if its parts are matched in what is decoded. -/
theorem recovered_iff (hF : LegacyLaws F) :
    (∃ r, findAllUrls F feature (s.link padded) = [r] ∧ s.Recovered F r) ↔
      ∃ b m, F.base64Decode (s.authority padded) = some b ∧ matchLegacy (F.stringOf b) = some m ∧
        F.lowercase m.method = F.lowercase s.method.toList ∧ m.password = s.password.toList ∧
        m.host = s.host.toList ∧ Nat.ofDigitChars 10 m.port 0 = s.port := by
  have hpercent : '%' ∉ s.authority padded := not_mem_authority s padded (by decide +kernel) (by decide)
  have hparse : parseUrl F feature (s.base64 padded) =
      (F.base64Decode (s.authority padded)).bind (fun bytes =>
        (matchLegacy (F.stringOf bytes)).bind (fun m =>
          if Nat.ofDigitChars 10 m.port 0 ≤ JavaUri.maxInt then
            some { applyFeature feature {} with
              method := String.ofList (F.lowercase m.method)
              password := String.ofList m.password
              host := String.ofList m.host
              remotePort := Nat.ofDigitChars 10 m.port 0
              plugin := (AndroidUri.getQueryParameter F pluginKey (s.base64 padded)).map
                String.ofList
              name := (AndroidUri.encodedFragment (s.base64 padded)).map
                (fun f => String.ofList (F.uriDecode false f)) }
          else none)) := by
    rw [parseUrl_legacy, parseLegacy, encodedHost_legacy, hF.uriDecode_plain _ hpercent]
  constructor
  · rintro ⟨r, hr, hrecovered⟩
    rw [findAllUrls_legacy, Option.toList_eq_singleton_iff, hparse] at hr
    rcases Option.bind_eq_some_iff.1 hr with ⟨b, hb, hr⟩
    rcases Option.bind_eq_some_iff.1 hr with ⟨m, hm, hr⟩
    split at hr
    · cases hr
      rcases hrecovered with ⟨hmethod, hpassword, hhost, hport⟩
      refine ⟨b, m, hb, hm, String.ofList_inj.1 hmethod, ?_, ?_, Int.ofNat.inj hport⟩
      · rw [← hpassword, String.toList_ofList]
      · rw [← hhost, String.toList_ofList]
    · cases hr
  · rintro ⟨b, m, hb, hm, hmethod, hpassword, hhost, hport⟩
    have hfits : Nat.ofDigitChars 10 m.port 0 ≤ JavaUri.maxInt := by
      have hle := s.port_le
      rw [hport, JavaUri.maxInt]
      omega
    rw [findAllUrls_legacy, hparse, hb, Option.bind_some, hm, Option.bind_some, if_pos hfits]
    refine ⟨_, rfl, ?_, ?_, ?_, ?_⟩
    · exact congrArg String.ofList hmethod
    · rw [hpassword, String.ofList_toList]
    · rw [hhost, String.ofList_toList]
    · exact congrArg Int.ofNat hport

end Link

/-! ## Slashes -/

section Slashes

variable {F : Framework} (s : LegacyServer) (padded : Bool)

theorem authority_of_slash (h : '/' ∈ s.base64 padded) :
    ∃ j < (Base64.sextets s.octets).length,
      s.authority padded = (Base64.Standard.encode s.octets).take j := by
  have hmem : '/' ∈ Base64.Standard.encode s.octets := by
    rcases List.mem_append.1 h with h | h
    · exact h
    · split at h
      · exact absurd (List.eq_of_mem_replicate h) (by decide)
      · cases h
  obtain ⟨before, rest, hsplit, hbefore⟩ := List.eq_append_cons_of_mem hmem
  have hall : ∀ c ∈ before, decide (c ≠ '/') = true := by
    intro c hc
    simpa using fun heq : c = '/' => hbefore (heq ▸ hc)
  refine ⟨before.length, ?_, ?_⟩
  · have hlength := congrArg List.length hsplit
    rw [Base64.Standard.encode, List.length_map, List.length_append, List.length_cons] at hlength
    omega
  · rw [LegacyServer.authority, LegacyServer.base64, hsplit, List.take_left, List.append_assoc,
      List.takeWhile_append_of_pos hall, List.cons_append, List.takeWhile_cons_of_neg (by simp),
      List.append_nil]

theorem authority_of_not_slash (h : '/' ∉ s.base64 padded) :
    s.authority padded = s.base64 padded := by
  refine List.takeWhile_eq_self_iff.2 (fun c hc => ?_)
  simpa using fun heq : c = '/' => h (heq ▸ hc)

theorem base64Decode_whole (hF : LegacyLaws F) : F.base64Decode (s.base64 padded) = some s.octets := by
  cases padded with
  | true => exact hF.base64Decode_padded s.octets
  | false =>
      have hplain : s.base64 false = Base64.Standard.encode s.octets := List.append_nil _
      calc
        F.base64Decode (s.base64 false) = F.base64Decode (Base64.Standard.encode s.octets) := by
          rw [hplain]
        _ = Base64.Standard.decode (Base64.Standard.encode s.octets) :=
          hF.base64Decode_standard _ (fun _ hc => Base64.Standard.mem_encode hc)
        _ = some s.octets := Base64.Standard.decode_encode _

/-- What is decoded of a link that was cut off is not the server. -/
theorem not_recovered_of_slash (hF : LegacyLaws F) (h : '/' ∈ s.base64 padded) {b : List UInt8}
    {m : LegacyMatch} (hb : F.base64Decode (s.authority padded) = some b)
    (hm : matchLegacy (F.stringOf b) = some m) (hpassword : m.password = s.password.toList)
    (hhost : m.host = s.host.toList) : Nat.ofDigitChars 10 m.port 0 ≠ s.port := by
  obtain ⟨j, hj, hauthority⟩ := authority_of_slash s padded h
  rw [hauthority, hF.base64Decode_standard _ (fun c hc =>
    Base64.Standard.mem_encode (List.mem_of_mem_take hc)), Base64.Standard.decode_take_encode] at hb
  rcases Base64.octets_take_sextets s.octets j hj with hnone | ⟨n, hn, hsome⟩
  · rw [hnone] at hb
    cases hb
  · rw [hsome] at hb
    cases hb
    rcases Utf8.cut_bytes s.text n (Nat.le_of_lt hn) with
      ⟨p, r, htext, htake, -⟩ | ⟨p, c, r, k, -, hpos, hk, htake, -⟩
    · -- a shorter text
      have hrest : r ≠ [] := by
        rintro rfl
        rw [List.append_nil] at htext
        have hlength := congrArg List.length htake
        rw [List.length_take, ← htext, ← LegacyServer.octets] at hlength
        omega
      rw [LegacyServer.octets, htake, F.stringOf_bytes] at hm
      exact not_recovered_of_prefix s htext hrest hm hpassword hhost
    · -- a text that does not end in a digit
      have hlast := hF.stringOf_broken p c k hpos hk
      rw [LegacyServer.octets, htake] at hm
      obtain ⟨hl, hport, hdigits⟩ := matchLegacy_sound hm
      have hdigit : m.port.getLast? = some '\ufffd' := by
        rw [hl] at hlast
        rcases List.eq_nil_or_concat m.port with hnil | ⟨port, d, hconcat⟩
        · exact absurd hnil hport
        · have hend : m.method ++ ':' :: (m.password ++ '@' :: (m.host ++ ':' :: m.port)) =
              (m.method ++ ':' :: (m.password ++ '@' :: (m.host ++ ':' :: port))) ++ [d] := by
            simp [hconcat]
          rw [hend, List.getLast?_concat] at hlast
          rw [hconcat, List.concat_eq_append, List.getLast?_concat, hlast]
      exact absurd (List.all_eq_true.1 hdigits _ (List.mem_of_getLast? hdigit)) (by decide)

theorem legacy_iff (F : Framework) (hF : LegacyLaws F) (feature : Option Profile) (s : LegacyServer)
    (padded : Bool) :
    (∃ r, findAllUrls F feature (s.link padded) = [r] ∧ s.Recovered F r) ↔
      '/' ∉ s.base64 padded ∧ isLine s.method.toList = true := by
  rw [recovered_iff feature s padded hF]
  constructor
  · rintro ⟨b, m, hb, hm, -, hpassword, hhost, hport⟩
    have hslash : '/' ∉ s.base64 padded := fun h =>
      not_recovered_of_slash s padded hF h hb hm hpassword hhost hport
    refine ⟨hslash, ?_⟩
    rw [authority_of_not_slash s padded hslash, base64Decode_whole s padded hF] at hb
    cases hb
    rw [LegacyServer.octets, F.stringOf_bytes, matchLegacy_text] at hm
    by_contra hline
    rw [if_neg hline] at hm
    cases hm
  · rintro ⟨hslash, hline⟩
    refine ⟨s.octets,
      { method := s.method.toList, password := s.password.toList, host := s.host.toList,
        port := s.digits }, ?_, ?_, rfl, rfl, rfl, value_digits s⟩
    · rw [authority_of_not_slash s padded hslash, base64Decode_whole s padded hF]
    · rw [LegacyServer.octets, F.stringOf_bytes, matchLegacy_text, if_pos hline]

end Slashes

/-! ## One framework -/

/-- The decoders of the library.  Padding is passed over, and octets that are no text are read as
one replacement. -/
def legacyFramework : Framework :=
  { simpleFramework with
    stringOf := fun b => (Utf8.decode b).getD ['\ufffd']
    stringOf_bytes := by
      intro l
      rw [Utf8.decode_bytes, Option.getD_some]
    base64Decode := fun l => Base64.Standard.decode (l.filter (fun c => c ≠ '=')) }

theorem legacyFramework_laws : LegacyLaws legacyFramework := by
  have hfilter : ∀ l : List Char, (∀ c ∈ l, c ∈ Base64.Standard.alphabet) →
      l.filter (fun c => c ≠ '=') = l := by
    intro l hl
    refine List.filter_eq_self.2 (fun c hc => ?_)
    have halphabet : ∀ d ∈ Base64.Standard.alphabet, d ≠ '=' :=
      Base64.Standard.forall_alphabet (by decide +kernel)
    exact decide_eq_true (halphabet c (hl c hc))
  refine ⟨?_, ?_, ?_, ?_⟩
  · intro l hl
    show (Percent.decode l).getD [] = l
    rw [Percent.decode_plain l hl, Option.getD_some]
  · intro l hl
    exact congrArg Base64.Standard.decode (hfilter l hl)
  · intro b
    have hpadding : (Base64.Standard.padding b).filter (fun c => c ≠ '=') = [] := by
      simp [Base64.Standard.padding]
    show Base64.Standard.decode (List.filter _ _) = some b
    rw [List.filter_append, hpadding, List.append_nil,
      hfilter _ (fun c hc => Base64.Standard.mem_encode hc), Base64.Standard.decode_encode]
  · intro l c k hpos hk
    show ((Utf8.decode _).getD ['\ufffd']).getLast? = some '\ufffd'
    rw [Utf8.decode_broken hpos hk, Option.getD_none, List.getLast?_singleton]

/-- The server of `ProfileTest.parsing`. -/
def blowfishServer : LegacyServer where
  method := "bf-cfb"
  password := "test"
  host := "192.168.100.1"
  port := 8888
  method_nonempty := by decide
  method_noColon := by decide
  password_line := by decide
  host_nonempty := by decide
  host_noAt := by decide
  host_line := by decide
  port_pos := by decide
  port_le := by decide

theorem legacy_iff_blowfish :
    blowfishServer.link false = "ss://YmYtY2ZiOnRlc3RAMTkyLjE2OC4xMDAuMTo4ODg4" ∧
      ∃ r, findAllUrls legacyFramework none (blowfishServer.link false) = [r] ∧
        blowfishServer.Recovered legacyFramework r :=
  ⟨by decide +kernel,
    (legacy_iff legacyFramework legacyFramework_laws none blowfishServer false).2
      ⟨by decide +kernel, by decide⟩⟩

def questionServer : LegacyServer where
  method := "aa"
  password := "???"
  host := "b"
  port := 1
  method_nonempty := by decide
  method_noColon := by decide
  password_line := by decide
  host_nonempty := by decide
  host_noAt := by decide
  host_line := by decide
  port_pos := by decide
  port_le := by decide

/-- The authority is `YWE6Pz8`, which is `aa:??`. -/
theorem findAllUrls_question :
    questionServer.link false = "ss://YWE6Pz8/QGI6MQ" ∧ LegacyLaws legacyFramework ∧
      findAllUrls legacyFramework none (questionServer.link false) = [] ∧
      ¬ ∃ r, findAllUrls legacyFramework none (questionServer.link false) = [r] ∧
        questionServer.Recovered legacyFramework r := by
  have hnone : findAllUrls legacyFramework none (questionServer.link false) = [] := by
    decide +kernel
  refine ⟨by decide +kernel, legacyFramework_laws, hnone, ?_⟩
  rintro ⟨r, hr, -⟩
  rw [hnone] at hr
  cases hr

end Database
end SpinVpn
