import SpinVpn.Lib.Prefixes
import SpinVpn.Brand.BrandStrategy
import SpinVpn.Database.Profile
import SpinVpn.Net.Subnet
import SpinVpn.Tun.Ipaddr6

/-!
# Tunnel — what goes into the tunnel

`bg/VpnService.kt`, where `startVpn` sets the interface up.  Which applications are tunnelled is up to
`BrandStrategy`; which destinations are, to the route of the profile.  Unless all of them are, these
are the addresses of the resource `bypass_private_route`: exactly those outside of sixteen blocks, which
are reserved or belong to two public resolvers (`startVpn_routes`).

How the platform reads and writes addresses is a parameter, of which `Canonical` is assumed.  Of
`VpnService.Builder` it is assumed that an address of the interface or of a resolver is refused just if
it is a loopback address or the unspecified one, and a route just if it is a loopback address or has
bits behind its prefix; what is not refused is added as it is.
-/

namespace SpinVpn
namespace Bg
namespace Tunnel

open Net Utils Prefixes

/-! ## Addresses -/

/-- The address as a number. -/
def value (a : InetAddress) : Nat :=
  a.address.foldl (fun n o => n * 256 + o.toNat) 0

def isLoopbackAddress (a : InetAddress) : Bool :=
  if a.address.length = 4 then a.address.head? = some 127 else value a = 1

def isAnyLocalAddress (a : InetAddress) : Bool :=
  value a = 0

/-- The octets of eight blocks. -/
def octets (blocks : List (BitVec 16)) : List UInt8 :=
  blocks.flatMap (fun b => [UInt8.ofNat (b.toNat / 256), UInt8.ofNat b.toNat])

theorem length_octets {blocks : List (BitVec 16)} (h : blocks.length = 8) :
    (octets blocks).length = 16 := by
  simp [octets, List.length_flatMap, h]

/-- The blocks of an IPv4 address that is mapped to IPv6.  The platform takes them for the IPv4
address. -/
def Mapped (blocks : List (BitVec 16)) : Prop :=
  blocks.take 6 = [0, 0, 0, 0, 0, 0xffff]

instance (blocks : List (BitVec 16)) : Decidable (Mapped blocks) :=
  inferInstanceAs (Decidable (_ = _))

/-- Addresses in decimal octets, and IPv6 addresses in their shortest form, are read as such. -/
structure Canonical (T : AddressText) : Prop where
  lawful : T.Lawful
  quad : ∀ {text : String} {l : List Nat}, Tun.Ipaddr6.parseQuad [] 0 true text.toList = some l →
    ∃ a, T.parseNumericAddress text = some a ∧ a.address = l.map UInt8.ofNat
  blocks : ∀ {l : List (BitVec 16)}, l.length = 8 → ¬Mapped l →
    ∃ a, T.parseNumericAddress (String.ofList (Tun.Ipaddr6.printAddr l)) = some a ∧
      a.address = octets l

/-! ## The interface -/

/-- `VpnService.Builder` -/
structure Builder where
  session : String
  mtu : Nat
  addresses : List (InetAddress × Nat) := []
  dnsServers : List InetAddress := []
  apps : Brand.Builder := Brand.Builder.new
  routes : List (InetAddress × Nat) := []
  metered : Bool := true

namespace Builder

variable (T : AddressText) (b : Builder) (text : String)

/-- The bits behind the prefix. -/
def blockOf (r : InetAddress × Nat) : Block where
  base := value r.1
  len := r.2

/-- `none` stands for the exceptions. -/
def addAddress (prefixLength : Nat) : Option Builder :=
  (T.parseNumericAddress text).bind fun a =>
    if isLoopbackAddress a ∨ isAnyLocalAddress a ∨ a.addressLength < prefixLength then none
    else some { b with addresses := b.addresses ++ [(a, prefixLength)] }

def addDnsServer : Option Builder :=
  (T.parseNumericAddress text).bind fun a =>
    if isLoopbackAddress a ∨ isAnyLocalAddress a then none
    else some { b with dnsServers := b.dnsServers ++ [a] }

/-- A route has no bits behind its prefix. -/
def addRoute (prefixLength : Nat) : Option Builder :=
  (T.parseNumericAddress text).bind fun a =>
    if isLoopbackAddress a ∨ ¬(blockOf (a, prefixLength)).Aligned a.addressLength then none
    else some { b with routes := b.routes ++ [(a, prefixLength)] }

end Builder

def vpnMtu : Nat := 1500
def privateVlan4Client : String := "172.19.0.1"
def privateVlan4Router : String := "172.19.0.2"
def privateVlan6Client : String := "fdfe:dcba:9876::1"

/-- `R.array.bypass_private_route` -/
def bypassPrivateRoute : List String :=
  ["1.0.0.0/8", "2.0.0.0/7", "4.0.0.0/6", "8.0.0.0/7", "11.0.0.0/8", "12.0.0.0/6", "16.0.0.0/4",
    "32.0.0.0/3", "64.0.0.0/3", "96.0.0.0/6", "100.0.0.0/10", "100.128.0.0/9", "101.0.0.0/8",
    "102.0.0.0/7", "104.0.0.0/5", "112.0.0.0/10", "112.64.0.0/11", "112.96.0.0/12",
    "112.112.0.0/13", "112.120.0.0/14", "112.124.0.0/19", "112.124.32.0/21", "112.124.40.0/22",
    "112.124.44.0/23", "112.124.46.0/24", "112.124.48.0/20", "112.124.64.0/18", "112.124.128.0/17",
    "112.125.0.0/16", "112.126.0.0/15", "112.128.0.0/9", "113.0.0.0/8", "114.0.0.0/10",
    "114.64.0.0/11", "114.96.0.0/12", "114.112.0.0/15", "114.114.0.0/18", "114.114.64.0/19",
    "114.114.96.0/20", "114.114.112.0/23", "114.114.115.0/24", "114.114.116.0/22",
    "114.114.120.0/21", "114.114.128.0/17", "114.115.0.0/16", "114.116.0.0/14", "114.120.0.0/13",
    "114.128.0.0/9", "115.0.0.0/8", "116.0.0.0/6", "120.0.0.0/6", "124.0.0.0/7", "126.0.0.0/8",
    "128.0.0.0/3", "160.0.0.0/5", "168.0.0.0/8", "169.0.0.0/9", "169.128.0.0/10", "169.192.0.0/11",
    "169.224.0.0/12", "169.240.0.0/13", "169.248.0.0/14", "169.252.0.0/15", "169.255.0.0/16",
    "170.0.0.0/7", "172.0.0.0/12", "172.32.0.0/11", "172.64.0.0/10", "172.128.0.0/9",
    "173.0.0.0/8", "174.0.0.0/7", "176.0.0.0/4", "192.0.0.8/29", "192.0.0.16/28", "192.0.0.32/27",
    "192.0.0.64/26", "192.0.0.128/25", "192.0.1.0/24", "192.0.3.0/24", "192.0.4.0/22",
    "192.0.8.0/21", "192.0.16.0/20", "192.0.32.0/19", "192.0.64.0/18", "192.0.128.0/17",
    "192.1.0.0/16", "192.2.0.0/15", "192.4.0.0/14", "192.8.0.0/13", "192.16.0.0/12",
    "192.32.0.0/11", "192.64.0.0/12", "192.80.0.0/13", "192.88.0.0/18", "192.88.64.0/19",
    "192.88.96.0/23", "192.88.98.0/24", "192.88.100.0/22", "192.88.104.0/21", "192.88.112.0/20",
    "192.88.128.0/17", "192.89.0.0/16", "192.90.0.0/15", "192.92.0.0/14", "192.96.0.0/11",
    "192.128.0.0/11", "192.160.0.0/13", "192.169.0.0/16", "192.170.0.0/15", "192.172.0.0/14",
    "192.176.0.0/12", "192.192.0.0/10", "193.0.0.0/8", "194.0.0.0/7", "196.0.0.0/7",
    "198.0.0.0/12", "198.16.0.0/15", "198.20.0.0/14", "198.24.0.0/13", "198.32.0.0/12",
    "198.48.0.0/15", "198.50.0.0/16", "198.51.0.0/18", "198.51.64.0/19", "198.51.96.0/22",
    "198.51.101.0/24", "198.51.102.0/23", "198.51.104.0/21", "198.51.112.0/20", "198.51.128.0/17",
    "198.52.0.0/14", "198.56.0.0/13", "198.64.0.0/10", "198.128.0.0/9", "199.0.0.0/8",
    "200.0.0.0/7", "202.0.0.0/8", "203.0.0.0/18", "203.0.64.0/19", "203.0.96.0/20",
    "203.0.112.0/24", "203.0.114.0/23", "203.0.116.0/22", "203.0.120.0/21", "203.0.128.0/17",
    "203.1.0.0/16", "203.2.0.0/15", "203.4.0.0/14", "203.8.0.0/13", "203.16.0.0/12",
    "203.32.0.0/11", "203.64.0.0/10", "203.128.0.0/9", "204.0.0.0/6", "208.0.0.0/4"]

/-- `Acl.ALL`, `Acl.BYPASS_CHN`, `Acl.CUSTOM_RULES` -/
def isFull (route : String) : Bool :=
  route ∈ ["all", "bypass-china", "custom-rules"]

/-- The routes of `bypass_private_route`, one after the other. -/
def addBypass (T : AddressText) (items : List String) (b : Builder) : Option Builder :=
  items.foldlM (fun b it => (Subnet.fromString T it).bind fun subnet =>
    b.addRoute T (T.hostAddress subnet.address) subnet.prefixSize) b

def addRoutes (T : AddressText) (p : Database.Profile) (b : Builder) : Option Builder :=
  if isFull p.route then
    (b.addRoute T "0.0.0.0" 0).bind fun b => if p.ipv6 then b.addRoute T "::" 0 else some b
  else
    (addBypass T bypassPrivateRoute b).bind fun b =>
      (b.addRoute T privateVlan4Router 32).bind fun b =>
        if p.ipv6 then b.addRoute T "2000::" 3 else some b

/-- `startVpn` up to `establish`, on a device with the given `SDK_INT`. -/
def startVpn (T : AddressText) (fromJson : String → Option Brand.MStrategy) (stored : Option String)
    (d : Brand.Device) (sdk : Nat) (p : Database.Profile) : Option Builder := do
  let b : Builder := { session := p.formattedName, mtu := vpnMtu }
  let b ← b.addAddress T privateVlan4Client 30
  let b ← b.addDnsServer T privateVlan4Router
  let b ← (if p.ipv6 then b.addAddress T privateVlan6Client 126 else some b)
  let apps ← Brand.brand fromJson stored d b.apps d.packageName
  let b ← addRoutes T p { b with apps := apps }
  some { b with metered := if 29 ≤ sdk then p.metered else b.metered }

/-- A destination that has a route among `rs`; its addresses have that many octets. -/
def Covered (rs : List (InetAddress × Nat)) (length a : Nat) : Prop :=
  ∃ r ∈ rs, r.1.address.length = length ∧ (Builder.blockOf r).Covers (8 * length) a

/-! ## The addresses that stay outside -/

def quad (a b c d len : Nat) : Block where
  base := ((a * 256 + b) * 256 + c) * 256 + d
  len := len

/-- This network, private and link-local networks, loopback, documentation and benchmarks, multicast
and what is reserved, and the networks of the resolvers 112.124.47.27 and 114.114.114.114. -/
def bypassed : List Block :=
  [quad 0 0 0 0 8, quad 10 0 0 0 8, quad 100 64 0 0 10, quad 112 124 47 0 24, quad 114 114 114 0 24,
    quad 127 0 0 0 8, quad 169 254 0 0 16, quad 172 16 0 0 12, quad 192 0 0 0 29, quad 192 0 2 0 24,
    quad 192 88 99 0 24, quad 192 168 0 0 16, quad 198 18 0 0 15, quad 198 51 100 0 24,
    quad 203 0 113 0 24, quad 224 0 0 0 3]

/-- The block of an entry. -/
def entryBlock (it : String) : Option Block :=
  match split2 '/' it with
  | (text, some size) =>
      (Tun.Ipaddr6.parseQuad [] 0 true text.toList).bind fun l =>
        (toInt size).bind fun n =>
          if 0 ≤ n ∧ n ≤ 32 then some ⟨l.foldl (fun n o => n * 256 + o) 0, n.toNat⟩ else none
  | (_, none) => none

theorem bypassPrivateRoute_blocks : ∃ blocks, bypassPrivateRoute.mapM entryBlock = some blocks ∧
    check 32 171 0 blocks bypassed (2 ^ 32) ∧ ∀ b ∈ blocks, b.base / 2 ^ 24 ≠ 127 := by
  -- the table is read once, and what is asked of it is computed
  have hread : (bypassPrivateRoute.mapM entryBlock).any (fun blocks =>
      check 32 171 0 blocks bypassed (2 ^ 32) && blocks.all (fun b => b.base / 2 ^ 24 ≠ 127)) := by
    decide +kernel
  obtain ⟨blocks, hblocks, h⟩ := (Option.any_eq_true _ _).1 hread
  obtain ⟨hcheck, hloop⟩ := Bool.and_eq_true_iff.1 h
  exact ⟨blocks, hblocks, hcheck, by simpa using hloop⟩

/-! ## Addresses without a zone -/

section Plain

open Tun.Ipaddr6 (parseQuad parseIpv6Addr printAddr pair hex join)

/-- The blocks that octets make up. -/
def blocksOf : List UInt8 → List (BitVec 16)
  | hi :: lo :: rest => pair hi.toNat lo.toNat :: blocksOf rest
  | _ => []

theorem blocksOf_octets (blocks : List (BitVec 16)) : blocksOf (octets blocks) = blocks := by
  induction blocks with
  | nil => rfl
  | cons b blocks ih =>
      have hpair : pair (UInt8.ofNat (b.toNat / 256)).toNat (UInt8.ofNat b.toNat).toNat = b := by
        have hlt := b.isLt
        rw [pair, UInt8.toNat_ofNat', UInt8.toNat_ofNat', ← BitVec.toNat_inj, BitVec.toNat_ofNat]
        omega
      calc blocksOf (octets (b :: blocks))
          = pair (UInt8.ofNat (b.toNat / 256)).toNat (UInt8.ofNat b.toNat).toNat ::
              blocksOf (octets blocks) := rfl
        _ = b :: blocks := by rw [hpair, ih]

/-- Octets in decimal, with dots between them. -/
def dotted : List UInt8 → List Char
  | [] => []
  | [o] => Nat.toDigits 10 o.toNat
  | o :: rest => Nat.toDigits 10 o.toNat ++ '.' :: dotted rest

def ofOctets (l : List UInt8) : Option InetAddress :=
  if h : l.length = 4 ∨ l.length = 16 then some { address := l, size := h } else none

/-- The address of eight blocks. -/
def ofBlocks (blocks : List (BitVec 16)) : Option InetAddress :=
  ofOctets (octets (if Mapped blocks then blocks.drop 6 else blocks))

/-- Four octets in decimal, or the blocks of `ipaddr6.h`. -/
def plain : AddressText where
  parseNumericAddress text :=
    match parseQuad [] 0 true text.toList with
    | some l => ofOctets (l.map UInt8.ofNat)
    | none => (parseIpv6Addr text.toList).bind ofBlocks
  hostAddress a :=
    String.ofList
      (if a.address.length = 4 then dotted a.address else printAddr (blocksOf a.address))

theorem isAddressChar_of_isDigit {c : Char} (h : c.isDigit) : isAddressChar c := by
  have hrange : 48 ≤ c.toNat ∧ c.toNat ≤ 57 := by
    rw [Char.isDigit, Bool.and_eq_true, decide_eq_true_eq, decide_eq_true_eq] at h
    exact ⟨UInt32.le_iff_toNat_le.1 h.1, UInt32.le_iff_toNat_le.1 h.2⟩
  have hne : ∀ x : Char, x.toNat < 48 ∨ 57 < x.toNat → c ≠ x := by
    rintro x hx rfl
    omega
  have hspace : isWhitespace c = false := by
    simp only [isWhitespace, List.contains_eq_mem, List.mem_cons, List.not_mem_nil, or_false,
      Bool.or_eq_false_iff, Bool.and_eq_false_iff, decide_eq_false_iff_not]
    omega
  simp [isAddressChar, hspace, hne '/' (by decide), hne '#' (by decide), hne '[' (by decide)]

theorem isAddressChar_of_mem_hex {b : BitVec 16} {c : Char} (hc : c ∈ hex b) :
    isAddressChar c ∧ c ≠ '.' := by
  obtain ⟨-, ds, hds, -⟩ := Tun.Ipaddr6.isGroup_hex b
  have hmem : Tun.Ipaddr6.decodeHexDigit c ∈ ds.map some := hds ▸ List.mem_map_of_mem hc
  obtain ⟨d, -, hd⟩ := List.mem_map.1 hmem
  refine ⟨?_, (Tun.Ipaddr6.decodeHexDigit_ne hd.symm).2⟩
  rw [Tun.Ipaddr6.decodeHexDigit.eq_def] at hd
  split at hd <;> first | decide | cases hd

theorem isAddressChar_of_mem_printAddr {blocks : List (BitVec 16)} {c : Char}
    (hc : c ∈ printAddr blocks) : isAddressChar c ∧ c ≠ '.' := by
  have hcolon : isAddressChar ':' ∧ ':' ≠ '.' := by decide
  have hone : ∀ {p : Prop} [Decidable p], c ∈ (if p then [':'] else []) → c = ':' := by
    intro p _ h
    split at h
    · exact List.mem_singleton.1 h
    · cases h
  have hmem : c = ':' ∨ ∃ b : BitVec 16, c ∈ hex b := by
    rw [printAddr] at hc
    split at hc
    · simp only [List.mem_append, List.mem_flatMap, List.mem_cons, List.not_mem_nil, or_false] at hc
      rcases hc with ((⟨b, -, h⟩ | h) | ⟨b, -, h⟩) | h
      · exact h.symm.imp_right fun h => ⟨b, h⟩
      · exact Or.inl (hone h)
      · exact h.imp_right fun h => ⟨b, h⟩
      · exact Or.inl (hone h)
    · cases blocks with
      | nil => cases hc
      | cons b rest =>
          simp only [join, List.mem_append, List.mem_flatMap, List.mem_cons] at hc
          rcases hc with h | ⟨b', -, h⟩
          · exact Or.inr ⟨b, h⟩
          · exact h.imp_right fun h => ⟨b', h⟩
  rcases hmem with rfl | ⟨b, hb⟩
  · exact hcolon
  · exact isAddressChar_of_mem_hex hb

/-- Four octets are read back from what is printed for them. -/
theorem parseQuad_dotted {l : List UInt8} (hlen : l.length = 4) :
    parseQuad [] 0 true (dotted l) = some (l.map UInt8.toNat) := by
  obtain ⟨a, b, c, d, rfl⟩ := List.length_eq_four.1 hlen
  have hle : ∀ o : UInt8, o.toNat ≤ 255 := fun o => Nat.le_of_lt_succ o.toNat_lt
  exact Tun.Ipaddr6.parseQuad_toDigits (hle a) (hle b) (hle c) (hle d)

theorem parse_dotted {l : List UInt8} (hlen : l.length = 4) :
    plain.parseNumericAddress (String.ofList (dotted l)) = ofOctets l := by
  have hoctets : (l.map UInt8.toNat).map UInt8.ofNat = l := by
    rw [List.map_map]
    exact (List.map_congr_left fun _ _ => UInt8.ofNat_toNat).trans (List.map_id l)
  simp only [plain, String.toList_ofList, parseQuad_dotted hlen, hoctets]

/-- Blocks are not read as four octets. -/
theorem parse_printAddr {blocks : List (BitVec 16)} (hlen : blocks.length = 8) :
    plain.parseNumericAddress (String.ofList (printAddr blocks)) = ofBlocks blocks := by
  have hquad : parseQuad [] 0 true (printAddr blocks) = none := by
    by_contra hsome
    obtain ⟨l, hl⟩ := Option.ne_none_iff_exists'.1 hsome
    obtain ⟨w, x, y, z, -, -, -, -, -, htext⟩ := Tun.Ipaddr6.exists_octets hl
    have hdot : '.' ∈ printAddr blocks := by
      rw [htext]
      simp
    exact (isAddressChar_of_mem_printAddr hdot).2 rfl
  simp only [plain, String.toList_ofList, hquad, Tun.Ipaddr6.parseIpv6Addr_printAddr hlen,
    Option.bind_some]

theorem exists_ofOctets {l : List UInt8} (h : l.length = 4 ∨ l.length = 16) :
    ∃ a, ofOctets l = some a ∧ a.address = l :=
  ⟨_, dif_pos h, rfl⟩

theorem address_of_ofOctets {l : List UInt8} {a : InetAddress} (h : ofOctets l = some a) :
    a.address = l := by
  rw [ofOctets] at h
  split at h
  · cases h
    rfl
  · cases h

/-- What was read is four octets, or eight blocks of an address that is not mapped. -/
theorem plain_cases {text : String} {a : InetAddress} (h : plain.parseNumericAddress text = some a) :
    ofOctets a.address = some a ∧ (a.address.length = 4 ∨
      ∃ blocks : List (BitVec 16), blocks.length = 8 ∧ ¬Mapped blocks ∧ a.address = octets blocks) := by
  simp only [plain] at h
  split at h
  · rename_i l hl
    obtain ⟨w, x, y, z, rfl, -⟩ := Tun.Ipaddr6.exists_octets hl
    have ha := address_of_ofOctets h
    exact ⟨ha ▸ h, Or.inl (ha ▸ rfl)⟩
  · obtain ⟨blocks, hblocks, hread⟩ := Option.bind_eq_some_iff.1 h
    have hlen := (Tun.Ipaddr6.parseIpv6Addr_iff.1 hblocks).length_eq
    have ha := address_of_ofOctets hread
    refine ⟨ha ▸ hread, ?_⟩
    split at ha
    · refine Or.inl ?_
      rw [ha]
      simp [octets, List.length_flatMap, hlen]
    · rename_i hmapped
      exact Or.inr ⟨blocks, hlen, hmapped, ha⟩

/-- The printed text of what was read. -/
theorem hostAddress_cases {text : String} {a : InetAddress}
    (h : plain.parseNumericAddress text = some a) :
    (a.address.length = 4 ∧ plain.hostAddress a = String.ofList (dotted a.address)) ∨
      ∃ blocks : List (BitVec 16), blocks.length = 8 ∧ ¬Mapped blocks ∧ a.address = octets blocks ∧
        plain.hostAddress a = String.ofList (printAddr blocks) := by
  rcases (plain_cases h).2 with hfour | ⟨blocks, hlen, hmapped, ha⟩
  · exact Or.inl ⟨hfour, by simp only [plain, if_pos hfour]⟩
  · have hnot : ¬(octets blocks).length = 4 := by
      rw [length_octets hlen]
      decide
    refine Or.inr ⟨blocks, hlen, hmapped, ha, ?_⟩
    simp only [plain, ha, if_neg hnot, blocksOf_octets]

theorem isAddressChar_of_parseQuad {text : List Char} {l : List Nat}
    (h : parseQuad [] 0 true text = some l) : ∀ c ∈ text, isAddressChar c := by
  obtain ⟨w, x, y, z, -, -, -, -, -, rfl⟩ := Tun.Ipaddr6.exists_octets h
  have hdot : isAddressChar '.' := by decide
  have hdigits : ∀ n, ∀ c ∈ Nat.toDigits 10 n, isAddressChar c := fun n c hc =>
    isAddressChar_of_isDigit (Nat.isDigit_of_mem_toDigits (by omega) (by omega) hc)
  simp only [List.forall_mem_append, List.forall_mem_cons]
  exact ⟨hdigits w, hdot, hdigits x, hdot, hdigits y, hdot, hdigits z⟩

theorem plain_inverse {text : String} {a : InetAddress} (h : plain.parseNumericAddress text = some a) :
    plain.parseNumericAddress (plain.hostAddress a) = some a := by
  have hread := (plain_cases h).1
  rcases hostAddress_cases h with ⟨hfour, htext⟩ | ⟨blocks, hlen, hmapped, ha, htext⟩
  · rw [htext, parse_dotted hfour, hread]
  · rw [htext, parse_printAddr hlen, ofBlocks, if_neg hmapped, ← ha, hread]

theorem plain_lawful : plain.Lawful where
  inverse := plain_inverse
  nonempty := by
    intro text a h hempty
    have hread := plain_inverse h
    rw [hempty] at hread
    cases hread
  chars := by
    intro text a h c hc
    rcases hostAddress_cases h with ⟨hfour, htext⟩ | ⟨blocks, -, -, -, htext⟩
    · rw [htext, String.toList_ofList] at hc
      exact isAddressChar_of_parseQuad (parseQuad_dotted hfour) c hc
    · rw [htext, String.toList_ofList] at hc
      exact (isAddressChar_of_mem_printAddr hc).1

theorem plain_canonical : Canonical plain where
  lawful := plain_lawful
  quad := by
    intro text l hl
    obtain ⟨w, x, y, z, rfl, -⟩ := Tun.Ipaddr6.exists_octets hl
    simp only [plain, hl]
    exact exists_ofOctets (Or.inl rfl)
  blocks := by
    intro blocks hlen hmapped
    rw [parse_printAddr hlen, ofBlocks, if_neg hmapped]
    exact exists_ofOctets (Or.inr (length_octets hlen))

end Plain

/-! ## What is added -/

section Added

variable {T : AddressText}

theorem value_quad {a : InetAddress} {l : List Nat} {w x y z : Nat} (hl : l = [w, x, y, z])
    (hw : w ≤ 255) (hx : x ≤ 255) (hy : y ≤ 255) (hz : z ≤ 255) (ha : a.address = l.map UInt8.ofNat) :
    value a = l.foldl (fun n o => n * 256 + o) 0 ∧ a.address.length = 4 ∧
      (isLoopbackAddress a ↔ value a / 2 ^ 24 = 127) := by
  subst hl
  have hoctet : ∀ n, n ≤ 255 → (UInt8.ofNat n).toNat = n := by
    intro n hn
    rw [UInt8.toNat_ofNat', Nat.mod_eq_of_lt (by omega)]
  have hvalue : value a = ((w * 256 + x) * 256 + y) * 256 + z := by
    simp [value, ha, hoctet w hw, hoctet x hx, hoctet y hy, hoctet z hz]
  refine ⟨by simpa using hvalue, by simp [ha], ?_⟩
  have hdiv : value a / 2 ^ 24 = w := by omega
  have hhead : a.address.head? = some (UInt8.ofNat w) := by simp [ha]
  rw [hdiv, isLoopbackAddress, if_pos (by simp [ha]), hhead, decide_eq_true_eq, Option.some.injEq,
    ← UInt8.toNat_inj, hoctet w hw]
  rfl

theorem addRoute_of_parse {b : Builder} {text : String} {n : Nat} {a : InetAddress}
    (hparse : T.parseNumericAddress text = some a) (hloop : ¬isLoopbackAddress a)
    (haligned : (Builder.blockOf (a, n)).Aligned a.addressLength) :
    b.addRoute T text n = some { b with routes := b.routes ++ [(a, n)] } := by
  rw [Builder.addRoute, hparse, Option.bind_some, if_neg]
  exact not_or.2 ⟨hloop, not_not.2 haligned⟩

/-- An entry that is in order is added as its block. -/
theorem exists_entry (hT : Canonical T) {it : String} {blk : Block} (h : entryBlock it = some blk)
    (haligned : blk.Aligned 32) (hloop : blk.base / 2 ^ 24 ≠ 127) :
    ∃ r : InetAddress × Nat, r.1.address.length = 4 ∧ Builder.blockOf r = blk ∧
      ∀ b : Builder, ((Subnet.fromString T it).bind fun subnet =>
        b.addRoute T (T.hostAddress subnet.address) subnet.prefixSize) =
          some { b with routes := b.routes ++ [r] } := by
  rw [entryBlock] at h
  split at h
  · rename_i text size hsplit
    obtain ⟨l, hl, h⟩ := Option.bind_eq_some_iff.1 h
    obtain ⟨n, hn, h⟩ := Option.bind_eq_some_iff.1 h
    split at h
    · rename_i hrange
      cases h
      obtain ⟨a, hparse, ha⟩ := hT.quad hl
      obtain ⟨w, x, y, z, hlist, hw, hx, hy, hz, -⟩ := Tun.Ipaddr6.exists_octets hl
      obtain ⟨hvalue, hlen, hloopback⟩ := value_quad hlist hw hx hy hz ha
      have hblock : Builder.blockOf (a, n.toNat) = ⟨l.foldl (fun n o => n * 256 + o) 0, n.toNat⟩ := by
        rw [Builder.blockOf, hvalue]
      have hlength : a.addressLength = 32 := by rw [InetAddress.addressLength, hlen]
      refine ⟨(a, n.toNat), hlen, hblock, fun b => ?_⟩
      have hfrom : Subnet.fromString T it = some ⟨a, n.toNat, by omega⟩ := by
        simp only [Subnet.fromString, hsplit, hparse, hn]
        rw [dif_pos ⟨hrange.1, by omega⟩]
      rw [hfrom, Option.bind_some]
      apply addRoute_of_parse (hT.lawful.inverse hparse)
      · rw [hloopback, hvalue]
        exact hloop
      · rw [hblock, hlength]
        exact haligned
    · cases h
  · cases h

theorem exists_addBypass (hT : Canonical T) (items : List String) :
    ∀ {blocks : List Block}, items.mapM entryBlock = some blocks →
      (∀ blk ∈ blocks, blk.Aligned 32 ∧ blk.base / 2 ^ 24 ≠ 127) →
        ∃ rs : List (InetAddress × Nat), (∀ r ∈ rs, r.1.address.length = 4) ∧
          rs.map Builder.blockOf = blocks ∧
          ∀ b : Builder, addBypass T items b = some { b with routes := b.routes ++ rs } := by
  induction items with
  | nil =>
      intro blocks h _
      cases h
      exact ⟨[], by simp, rfl, by simp [addBypass]⟩
  | cons it items ih =>
      intro blocks h hblocks
      obtain ⟨blk, hblk, rest, hrest, rfl⟩ : ∃ blk, entryBlock it = some blk ∧
          ∃ rest, items.mapM entryBlock = some rest ∧ blk :: rest = blocks := by
        simpa [List.mapM_cons, Option.bind_eq_some_iff] using h
      obtain ⟨hfirst, hothers⟩ := List.forall_mem_cons.1 hblocks
      obtain ⟨r, hlen, hblock, hadd⟩ := exists_entry hT hblk hfirst.1 hfirst.2
      obtain ⟨rs, hlens, hmap, hall⟩ := ih hrest hothers
      refine ⟨r :: rs, List.forall_mem_cons.2 ⟨hlen, hlens⟩, by rw [List.map_cons, hblock, hmap],
        fun b => ?_⟩
      have hothers := hall { b with routes := b.routes ++ [r] }
      rw [addBypass, List.foldlM_cons, hadd]
      simpa [addBypass] using hothers

/-! ## What is routed -/

theorem covered_append {rs rs' : List (InetAddress × Nat)} {length a : Nat} :
    Covered (rs ++ rs') length a ↔ Covered rs length a ∨ Covered rs' length a := by
  simp only [Covered, List.mem_append, or_and_right, exists_or]

theorem covered_singleton {r : InetAddress × Nat} {length a : Nat} :
    Covered [r] length a ↔
      r.1.address.length = length ∧ (Builder.blockOf r).Covers (8 * length) a := by
  simp only [Covered, List.mem_singleton, exists_eq_left]

theorem not_covered_nil {length a : Nat} : ¬Covered [] length a := by
  simp [Covered]

/-- The number of `privateVlan4Router`. -/
def router : Nat :=
  (quad 172 19 0 2 32).base

/-- The global unicast addresses, `2000::/3`. -/
def globalUnicast : Block where
  base := 0x2000 * 2 ^ 112
  len := 3

theorem exists_route (hT : Canonical T) {text : String} {l : List Nat} {n : Nat}
    (hl : Tun.Ipaddr6.parseQuad [] 0 true text.toList = some l)
    (hloop : l.foldl (fun n o => n * 256 + o) 0 / 2 ^ 24 ≠ 127)
    (haligned : Block.Aligned 32 ⟨l.foldl (fun n o => n * 256 + o) 0, n⟩) :
    ∃ r : InetAddress × Nat, r.1.address.length = 4 ∧
      Builder.blockOf r = ⟨l.foldl (fun n o => n * 256 + o) 0, n⟩ ∧
      ∀ b : Builder, b.addRoute T text n = some { b with routes := b.routes ++ [r] } := by
  obtain ⟨a, hparse, ha⟩ := hT.quad hl
  obtain ⟨w, x, y, z, hlist, hw, hx, hy, hz, -⟩ := Tun.Ipaddr6.exists_octets hl
  obtain ⟨hvalue, hlen, hloopback⟩ := value_quad hlist hw hx hy hz ha
  have hlength : a.addressLength = 32 := by rw [InetAddress.addressLength, hlen]
  refine ⟨(a, n), hlen, by rw [Builder.blockOf, hvalue], fun b => addRoute_of_parse hparse ?_ ?_⟩
  · rw [hloopback, hvalue]
    exact hloop
  · rw [Builder.blockOf, hvalue, hlength]
    exact haligned

theorem exists_route6 (hT : Canonical T) {text : String} {blocks : List (BitVec 16)} {n v : Nat}
    (htext : text = String.ofList (Tun.Ipaddr6.printAddr blocks)) (hlen : blocks.length = 8)
    (hmapped : ¬Mapped blocks) (hv : (octets blocks).foldl (fun n o => n * 256 + o.toNat) 0 = v)
    (hone : v ≠ 1) (haligned : Block.Aligned 128 ⟨v, n⟩) :
    ∃ r : InetAddress × Nat, r.1.address.length = 16 ∧ Builder.blockOf r = ⟨v, n⟩ ∧
      ∀ b : Builder, b.addRoute T text n = some { b with routes := b.routes ++ [r] } := by
  obtain ⟨a, hparse, ha⟩ := hT.blocks hlen hmapped
  have hoctets : a.address.length = 16 := by rw [ha, length_octets hlen]
  have hvalue : value a = v := by rw [value, ha, hv]
  have hlength : a.addressLength = 128 := by rw [InetAddress.addressLength, hoctets]
  refine ⟨(a, n), hoctets, by rw [Builder.blockOf, hvalue], fun b =>
    addRoute_of_parse (htext ▸ hparse) ?_ ?_⟩
  · rw [isLoopbackAddress, if_neg (by omega), hvalue]
    simpa using hone
  · rw [Builder.blockOf, hvalue, hlength]
    exact haligned

/-- A route that is added with IPv6 only. -/
theorem exists_ipv6 (hT : Canonical T) (ipv6 : Bool) {text : String} {blocks : List (BitVec 16)}
    {n v : Nat} (htext : text = String.ofList (Tun.Ipaddr6.printAddr blocks))
    (hlen : blocks.length = 8) (hmapped : ¬Mapped blocks)
    (hv : (octets blocks).foldl (fun n o => n * 256 + o.toNat) 0 = v) (hone : v ≠ 1)
    (haligned : Block.Aligned 128 ⟨v, n⟩) :
    ∃ rs, (∀ b : Builder, (if ipv6 then b.addRoute T text n else some b) =
        some { b with routes := b.routes ++ rs }) ∧
      (∀ a, ¬Covered rs 4 a) ∧
      ∀ a, Covered rs 16 a ↔ ipv6 ∧ Block.Covers 128 ⟨v, n⟩ a := by
  cases ipv6 with
  | false => exact ⟨[], by simp, fun _ => not_covered_nil, fun _ => by simp [not_covered_nil]⟩
  | true =>
      obtain ⟨r, hr, hblock, hadd⟩ := exists_route6 hT htext hlen hmapped hv hone haligned
      refine ⟨[r], by simpa using hadd, fun a => ?_, fun a => ?_⟩
      · rw [covered_singleton, hr]
        simp
      · rw [covered_singleton, hr, hblock]
        simp

theorem covers_zero {w a : Nat} (ha : a < 2 ^ w) : Block.Covers w ⟨0, 0⟩ a := by
  rw [Block.Covers, Block.size, Nat.sub_zero, Nat.zero_div, Nat.div_eq_of_lt ha]

theorem covers_router {a : Nat} : Block.Covers 32 ⟨router, 32⟩ a ↔ a = router := by
  rw [Block.Covers, Block.size, Nat.sub_self, Nat.pow_zero, Nat.div_one, Nat.div_one]

theorem covered_blocks {rs : List (InetAddress × Nat)} {blocks : List Block}
    (hlens : ∀ r ∈ rs, r.1.address.length = 4) (hmap : rs.map Builder.blockOf = blocks) {a : Nat} :
    Covered rs 4 a ↔ ∃ b ∈ blocks, b.Covers 32 a := by
  subst hmap
  constructor
  · rintro ⟨r, hr, -, hcovers⟩
    exact ⟨_, List.mem_map_of_mem hr, hcovers⟩
  · rintro ⟨b, hb, hcovers⟩
    obtain ⟨r, hr, rfl⟩ := List.mem_map.1 hb
    exact ⟨r, hr, hlens r hr, hcovers⟩

theorem not_covered_of_length {rs : List (InetAddress × Nat)}
    (hlens : ∀ r ∈ rs, r.1.address.length = 4) {a : Nat} : ¬Covered rs 16 a := by
  rintro ⟨r, hr, hlen, -⟩
  rw [hlens r hr] at hlen
  cases hlen

/-- The routes of a profile, and what they cover. -/
theorem exists_addRoutes (hT : Canonical T) (p : Database.Profile) :
    ∃ rs, (∀ b : Builder, addRoutes T p b = some { b with routes := b.routes ++ rs }) ∧
      (∀ a < 2 ^ 32, Covered rs 4 a ↔
        isFull p.route ∨ a = router ∨ ∀ q ∈ bypassed, ¬q.Covers 32 a) ∧
      ∀ a < 2 ^ 128, Covered rs 16 a ↔ p.ipv6 ∧ (isFull p.route ∨ globalUnicast.Covers 128 a) := by
  by_cases hfull : isFull p.route
  · have hzero : Tun.Ipaddr6.parseQuad [] 0 true "0.0.0.0".toList = some [0, 0, 0, 0] := by decide
    have hzero6 : "::" = String.ofList (Tun.Ipaddr6.printAddr (List.replicate 8 0)) := by decide
    obtain ⟨r, hr, hblock, hadd⟩ := exists_route hT (n := 0) hzero (by decide) (by decide)
    obtain ⟨rs, hadd6, hnot, hcovered⟩ :=
      exists_ipv6 hT p.ipv6 (n := 0) (v := 0) hzero6 rfl (by decide) (by decide) (by decide)
        (by decide)
    refine ⟨[r] ++ rs, fun b => ?_, fun a ha => ?_, fun a ha => ?_⟩
    · rw [addRoutes, if_pos hfull, hadd, Option.bind_some, hadd6, List.append_assoc]
    · rw [covered_append, covered_singleton, hr, hblock]
      simp only [true_and, hfull, true_or, iff_true]
      exact Or.inl (covers_zero ha)
    · rw [covered_append, covered_singleton, hr, hcovered]
      have hall : Block.Covers 128 ⟨0, 0⟩ a := covers_zero ha
      simp [hfull, hall]
  · have hrouter : Tun.Ipaddr6.parseQuad [] 0 true privateVlan4Router.toList =
        some [172, 19, 0, 2] := by decide
    have hglobal : "2000::" =
        String.ofList (Tun.Ipaddr6.printAddr [0x2000, 0, 0, 0, 0, 0, 0, 0]) := by decide
    obtain ⟨blocks, hblocks, hcheck, hloop⟩ := bypassPrivateRoute_blocks
    have hpartition := partition_of_check hcheck
    have hok : ∀ blk ∈ blocks, blk.Aligned 32 ∧ blk.base / 2 ^ 24 ≠ 127 := fun blk hblk =>
      ⟨hpartition.aligned (List.mem_append_left _ hblk), hloop blk hblk⟩
    obtain ⟨r, hr, hblock, hadd⟩ := exists_route hT (n := 32) hrouter (by decide) (by decide)
    obtain ⟨rs6, hadd6, hnot, hcovered⟩ :=
      exists_ipv6 hT p.ipv6 (n := 3) (v := globalUnicast.base) hglobal rfl (by decide) (by decide)
        (by decide) (by decide)
    obtain ⟨rs, hlens, hmap, hbypass⟩ := exists_addBypass hT bypassPrivateRoute hblocks hok
    refine ⟨rs ++ [r] ++ rs6, fun b => ?_, fun a ha => ?_, fun a ha => ?_⟩
    · rw [addRoutes, if_neg hfull, hbypass, Option.bind_some, hadd, Option.bind_some, hadd6,
        List.append_assoc, List.append_assoc]
    · have hone : Covered [r] 4 a ↔ a = router := by
        rw [covered_singleton, hblock, ← covers_router]
        exact and_iff_right hr
      rw [covered_append, covered_append, covered_blocks hlens hmap,
        hpartition.covered_iff (Nat.zero_le a) ha, hone]
      simp only [hnot, or_false, hfull, Bool.false_eq_true, false_or]
      exact or_comm
    · have hone : ∀ r' ∈ [r], r'.1.address.length = 4 := List.forall_mem_singleton.2 hr
      rw [covered_append, covered_append, hcovered]
      simp only [hfull, Bool.false_eq_true, not_covered_of_length hlens, not_covered_of_length hone,
        false_or]
      rfl

theorem exists_address (hT : Canonical T) {text : String} {l : List Nat}
    (hl : Tun.Ipaddr6.parseQuad [] 0 true text.toList = some l)
    (hloop : l.foldl (fun n o => n * 256 + o) 0 / 2 ^ 24 ≠ 127)
    (hany : l.foldl (fun n o => n * 256 + o) 0 ≠ 0) :
    ∃ a, T.parseNumericAddress text = some a ∧ value a = l.foldl (fun n o => n * 256 + o) 0 ∧
      ¬isLoopbackAddress a ∧ ¬isAnyLocalAddress a ∧ a.addressLength = 32 := by
  obtain ⟨a, hparse, ha⟩ := hT.quad hl
  obtain ⟨w, x, y, z, hlist, hw, hx, hy, hz, -⟩ := Tun.Ipaddr6.exists_octets hl
  obtain ⟨hvalue, hlen, hloopback⟩ := value_quad hlist hw hx hy hz ha
  refine ⟨a, hparse, hvalue, ?_, ?_, by rw [InetAddress.addressLength, hlen]⟩
  · rw [hloopback, hvalue]
    exact hloop
  · rw [isAnyLocalAddress, hvalue]
    simpa using hany

theorem addAddress_of_parse {b : Builder} {text : String} {n : Nat} {a : InetAddress}
    (hparse : T.parseNumericAddress text = some a) (hloop : ¬isLoopbackAddress a)
    (hany : ¬isAnyLocalAddress a) (hn : n ≤ a.addressLength) :
    b.addAddress T text n = some { b with addresses := b.addresses ++ [(a, n)] } := by
  rw [Builder.addAddress, hparse, Option.bind_some, if_neg]
  exact not_or.2 ⟨hloop, not_or.2 ⟨hany, Nat.not_lt.2 hn⟩⟩

/-- The address of the interface in IPv6, if there is to be one. -/
theorem exists_client6 (hT : Canonical T) (ipv6 : Bool) :
    ∃ l, ∀ b : Builder, (if ipv6 then b.addAddress T privateVlan6Client 126 else some b) =
      some { b with addresses := b.addresses ++ l } := by
  cases ipv6 with
  | false => exact ⟨[], by simp⟩
  | true =>
      have htext : privateVlan6Client = String.ofList
          (Tun.Ipaddr6.printAddr [0xfdfe, 0xdcba, 0x9876, 0, 0, 0, 0, 1]) := by decide
      obtain ⟨a, hparse, ha⟩ := hT.blocks (l := [0xfdfe, 0xdcba, 0x9876, 0, 0, 0, 0, 1]) rfl (by decide)
      have hoctets : a.address.length = 16 := by rw [ha, length_octets rfl]
      have hvalue : value a = 0xfdfedcba987600000000000000000001 := by
        rw [value, ha]
        rfl
      have hloop : ¬isLoopbackAddress a := by
        rw [isLoopbackAddress, if_neg (by omega), hvalue]
        decide
      have hany : ¬isAnyLocalAddress a := by
        rw [isAnyLocalAddress, hvalue]
        decide
      refine ⟨[(a, 126)], fun b => ?_⟩
      rw [if_pos rfl, htext]
      apply addAddress_of_parse hparse hloop hany
      rw [InetAddress.addressLength, hoctets]
      decide

theorem exists_brand (fromJson : String → Option Brand.MStrategy) (stored : Option String)
    (d : Brand.Device) : ∃ apps, Brand.brand fromJson stored d .new d.packageName = some apps := by
  by_cases htwo : (Brand.getStrategy fromJson stored).strategy = 2
  · exact ⟨_, Brand.brand_two htwo⟩
  · by_cases hone : (Brand.getStrategy fromJson stored).strategy = 1
    · exact (Brand.brand_one hone).imp fun _ h => h.1
    · exact (Brand.brand_other hone htwo).imp fun _ h => h.1

/-- The interface comes up for every profile.  Its routes cover all of IPv4 or what is not reserved;
IPv6 only if the profile asks for it; and the resolver of the interface in any case. -/
theorem startVpn_routes (hT : Canonical T) (fromJson : String → Option Brand.MStrategy)
    (stored : Option String) (d : Brand.Device) (sdk : Nat) (p : Database.Profile) :
    ∃ b, startVpn T fromJson stored d sdk p = some b ∧
      (∀ a < 2 ^ 32, Covered b.routes 4 a ↔
        isFull p.route ∨ a = router ∨ ∀ q ∈ bypassed, ¬q.Covers 32 a) ∧
      (∀ a < 2 ^ 128, Covered b.routes 16 a ↔
        p.ipv6 ∧ (isFull p.route ∨ globalUnicast.Covers 128 a)) ∧
      ∃ s, b.dnsServers = [s] ∧ Covered b.routes 4 (value s) := by
  have hclient : Tun.Ipaddr6.parseQuad [] 0 true privateVlan4Client.toList =
      some [172, 19, 0, 1] := by decide
  have hrouter : Tun.Ipaddr6.parseQuad [] 0 true privateVlan4Router.toList =
      some [172, 19, 0, 2] := by decide
  obtain ⟨client, hparse, -, hloop, hany, hlength⟩ := exists_address hT hclient (by decide) (by decide)
  obtain ⟨server, hserver, hvalue, hloop', hany', -⟩ :=
    exists_address hT hrouter (by decide) (by decide)
  obtain ⟨l, hclient6⟩ := exists_client6 hT p.ipv6
  obtain ⟨apps, happs⟩ := exists_brand fromJson stored d
  obtain ⟨rs, hroutes, h4, h6⟩ := exists_addRoutes hT p
  have hdns : ∀ b : Builder, b.addDnsServer T privateVlan4Router =
      some { b with dnsServers := b.dnsServers ++ [server] } := by
    intro b
    rw [Builder.addDnsServer, hserver, Option.bind_some, if_neg (not_or.2 ⟨hloop', hany'⟩)]
  let b : Builder :=
    { session := p.formattedName, mtu := vpnMtu, addresses := [(client, 30)] ++ l
      dnsServers := [server], apps := apps, routes := rs
      metered := if 29 ≤ sdk then p.metered else true }
  refine ⟨b, ?_, h4, h6, server, rfl, ?_⟩
  · have hlen : 30 ≤ client.addressLength := by omega
    simp only [startVpn, addAddress_of_parse hparse hloop hany hlen, hdns, hclient6, happs, hroutes,
      Option.bind_eq_bind, Option.bind_some, List.nil_append, b]
  · apply (h4 _ (hvalue ▸ by decide)).2
    exact Or.inr (Or.inl hvalue)

/-- On a route that bypasses the private addresses, those stay outside and others do not. -/
theorem startVpn_routes_private :
    ∃ b, startVpn plain Brand.secondStrategy none Brand.bare 30 { route := "bypass-lan" } = some b ∧
      Covered b.routes 4 (quad 8 8 8 8 32).base ∧ ¬Covered b.routes 4 (quad 192 168 1 1 32).base ∧
      ¬Covered b.routes 16 globalUnicast.base := by
  obtain ⟨b, hb, h4, h6, -⟩ :=
    startVpn_routes plain_canonical Brand.secondStrategy none Brand.bare 30 { route := "bypass-lan" }
  refine ⟨b, hb, ?_, ?_, ?_⟩
  · rw [h4 _ (by decide)]
    decide
  · rw [h4 _ (by decide)]
    decide
  · rw [h6 _ (by decide)]
    decide

end Added

end Tunnel
end Bg
end SpinVpn
