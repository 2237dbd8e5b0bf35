import SpinVpn.Lib.OnesComplement

/-!
# UdpPacket — datagrams as packets of the device

`badvpn/misc/ipv4_proto.h`, `badvpn/misc/ipv6_proto.h`, `badvpn/misc/udp_proto.h`, and from
`badvpn/tun2socks/tun2socks.c` the two functions at the ends: `process_device_udp_packet` takes a
datagram out of a packet of the device, `udpgw_client_handler_received` puts one into a packet for
it.

What is put in is what is taken out (`udpPacket_roundTrip`).  A datagram whose sum is wrong is never
taken out, and one whose sum is right is, unless its checksum is written as `0xFFFF`
(`udpChecksum_accepted_iff`): the guard that would write zero so is never entered.
-/

namespace SpinVpn
namespace Tun

open Octets OnesComplement

/-! ## Headers -/

/-- `BAddr`, an address and a port. -/
inductive BAddr where
  | ipv4 (ip : BitVec 32) (port : BitVec 16)
  | ipv6 (ip : BitVec 128) (port : BitVec 16)
  deriving DecidableEq, Repr

/-- A field of a header in network order. -/
def octets {v : Nat} (w : Nat) (x : BitVec v) : List UInt8 :=
  toBytes w x.toNat

/-- `struct ipv4_header` -/
structure Ipv4Header where
  version4Ihl4 : BitVec 8
  ds : BitVec 8
  totalLength : BitVec 16
  identification : BitVec 16
  flags3FragmentOffset13 : BitVec 16
  ttl : BitVec 8
  protocol : BitVec 8
  checksum : BitVec 16
  sourceAddress : BitVec 32
  destinationAddress : BitVec 32
  deriving DecidableEq, Repr

/-- `struct ipv6_header` -/
structure Ipv6Header where
  version4Tc4 : BitVec 8
  tc4Fl4 : BitVec 8
  fl : BitVec 16
  payloadLength : BitVec 16
  nextHeader : BitVec 8
  hopLimit : BitVec 8
  sourceAddress : BitVec 128
  destinationAddress : BitVec 128
  deriving DecidableEq, Repr

/-- `struct udp_header` -/
structure UdpHeader where
  sourcePort : BitVec 16
  destPort : BitVec 16
  length : BitVec 16
  checksum : BitVec 16
  deriving DecidableEq, Repr

def Ipv4Header.bytes (h : Ipv4Header) : List UInt8 :=
  octets 1 h.version4Ihl4 ++ (octets 1 h.ds ++ (octets 2 h.totalLength ++ (octets 2 h.identification ++
    (octets 2 h.flags3FragmentOffset13 ++ (octets 1 h.ttl ++ (octets 1 h.protocol ++
      (octets 2 h.checksum ++ (octets 4 h.sourceAddress ++ octets 4 h.destinationAddress))))))))

def Ipv4Header.read (data : List UInt8) : Ipv4Header where
  version4Ihl4 := .ofNat 8 (field 1 data 0)
  ds := .ofNat 8 (field 1 data 1)
  totalLength := .ofNat 16 (field 2 data 2)
  identification := .ofNat 16 (field 2 data 4)
  flags3FragmentOffset13 := .ofNat 16 (field 2 data 6)
  ttl := .ofNat 8 (field 1 data 8)
  protocol := .ofNat 8 (field 1 data 9)
  checksum := .ofNat 16 (field 2 data 10)
  sourceAddress := .ofNat 32 (field 4 data 12)
  destinationAddress := .ofNat 32 (field 4 data 16)

def Ipv6Header.bytes (h : Ipv6Header) : List UInt8 :=
  octets 1 h.version4Tc4 ++ (octets 1 h.tc4Fl4 ++ (octets 2 h.fl ++ (octets 2 h.payloadLength ++
    (octets 1 h.nextHeader ++ (octets 1 h.hopLimit ++ (octets 16 h.sourceAddress ++
      octets 16 h.destinationAddress))))))

def Ipv6Header.read (data : List UInt8) : Ipv6Header where
  version4Tc4 := .ofNat 8 (field 1 data 0)
  tc4Fl4 := .ofNat 8 (field 1 data 1)
  fl := .ofNat 16 (field 2 data 2)
  payloadLength := .ofNat 16 (field 2 data 4)
  nextHeader := .ofNat 8 (field 1 data 6)
  hopLimit := .ofNat 8 (field 1 data 7)
  sourceAddress := .ofNat 128 (field 16 data 8)
  destinationAddress := .ofNat 128 (field 16 data 24)

def UdpHeader.bytes (h : UdpHeader) : List UInt8 :=
  octets 2 h.sourcePort ++ (octets 2 h.destPort ++ (octets 2 h.length ++ octets 2 h.checksum))

def UdpHeader.read (data : List UInt8) : UdpHeader where
  sourcePort := .ofNat 16 (field 2 data 0)
  destPort := .ofNat 16 (field 2 data 2)
  length := .ofNat 16 (field 2 data 4)
  checksum := .ofNat 16 (field 2 data 6)

/-! ## Checksums -/

/-- `hton16(~t)` -/
def ipv4Checksum (header : Ipv4Header) (extra : List UInt8) : BitVec 16 :=
  BitVec.ofNat 16 (2 ^ 32 - 1 - fold (words header.bytes + words extra))

/-- The end of `udp_checksum` and `udp_ip6_checksum`; `t` has 32 bits. -/
def udpFinish (sum : Nat) : BitVec 16 :=
  let t := 2 ^ 32 - 1 - fold sum
  BitVec.ofNat 16 (if t = 0 then 65535 else t)

/-- What goes before the header into the sum of a datagram. -/
def pseudoIpv4 (sourceAddr destAddr : BitVec 32) (payloadLen : Nat) : Nat :=
  words (octets 4 sourceAddr) + words (octets 4 destAddr) + words (toBytes 2 17) +
    words (toBytes 2 (8 + payloadLen))

def pseudoIpv6 (sourceAddr destAddr : BitVec 128) (payloadLen : Nat) : Nat :=
  words (octets 16 sourceAddr) + words (octets 16 destAddr) +
    words (toBytes 4 (8 + payloadLen)) + words (toBytes 4 17)

def udpChecksum (header : UdpHeader) (payload : List UInt8) (sourceAddr destAddr : BitVec 32) :
    BitVec 16 :=
  udpFinish (pseudoIpv4 sourceAddr destAddr payload.length + words header.bytes + words payload)

def udpIp6Checksum (header : UdpHeader) (payload : List UInt8) (sourceAddr destAddr : BitVec 128) :
    BitVec 16 :=
  udpFinish (pseudoIpv6 sourceAddr destAddr payload.length + words header.bytes + words payload)

/-! ## Checks -/

def ipv4Check (data : List UInt8) : Option (Ipv4Header × List UInt8) :=
  if data.length < 20 then none
  else
    let header := Ipv4Header.read data
    let headerLen := header.version4Ihl4.toNat % 16 * 4
    if header.version4Ihl4.toNat / 16 ≠ 4 then none
    else if headerLen < 20 ∨ headerLen > data.length then none
    else if header.totalLength.toNat < headerLen ∨ header.totalLength.toNat > data.length then none
    else if header.checksum ≠
        ipv4Checksum { header with checksum := 0 } ((data.drop 20).take (headerLen - 20)) then none
    else some (header, (data.drop headerLen).take (header.totalLength.toNat - headerLen))

def ipv6Check (data : List UInt8) : Option (Ipv6Header × List UInt8) :=
  if data.length < 40 then none
  else
    let header := Ipv6Header.read data
    if header.version4Tc4.toNat / 16 ≠ 6 then none
    else if header.payloadLength.toNat > data.length - 40 then none
    else some (header, (data.drop 40).take header.payloadLength.toNat)

def udpCheck (data : List UInt8) : Option (UdpHeader × List UInt8) :=
  if data.length < 8 then none
  else
    let header := UdpHeader.read data
    if header.length.toNat < 8 ∨ header.length.toNat > data.length then none
    -- ignore stray data
    else some (header, (data.drop 8).take (header.length.toNat - 8))

/-! ## From the device -/

/-- What the options and the device say: whether there is a relay for datagrams, a DNS gateway and an
IPv6 address, and `BTap_GetMTU`. -/
structure Options where
  udpgwRemoteServerAddr : Bool
  dnsgw : Bool
  netifIp6addr : Bool
  mtu : Nat
  deriving DecidableEq, Repr

/-- `udp_mtu` -/
def Options.udpMtu (o : Options) : Nat :=
  if o.netifIp6addr then max (o.mtu - 28) (o.mtu - 48) else o.mtu - 28

/-- A DNS query by its header, the fields of which lie as on a little-endian machine. -/
def isDnsQuery (data : List UInt8) : Bool :=
  12 ≤ data.length ∧ byteAt data 2 < 128 ∧ (byteAt data 3).toNat % 16 = 0 ∧ field 2 data 6 = 0 ∧
    field 2 data 8 = 0

/-- The arguments of `SocksUdpGwClient_SubmitPacket`. -/
structure Submitted where
  localAddr : BAddr
  remoteAddr : BAddr
  isDns : Bool
  data : List UInt8
  deriving DecidableEq, Repr

def udpOfIpv4 (o : Options) (data : List UInt8) : Option Submitted :=
  if data.length < 20 ∨ byteAt data 9 ≠ 17 then none
  else
    (ipv4Check data).bind (fun (ip, data) =>
      (udpCheck data).bind (fun (udp, data) =>
        if udp.checksum ≠ udpChecksum { udp with checksum := 0 } data ip.sourceAddress
            ip.destinationAddress then none
        else
          some {
            localAddr := .ipv4 ip.sourceAddress udp.sourcePort
            remoteAddr := .ipv4 ip.destinationAddress udp.destPort
            isDns := o.dnsgw && udp.destPort == 53 && isDnsQuery data
            data := data }))

def udpOfIpv6 (o : Options) (data : List UInt8) : Option Submitted :=
  if !o.netifIp6addr then none
  else if data.length < 40 ∨ byteAt data 6 ≠ 17 then none
  else
    (ipv6Check data).bind (fun (ip, data) =>
      (udpCheck data).bind (fun (udp, data) =>
        if udp.checksum ≠ udpIp6Checksum { udp with checksum := 0 } data ip.sourceAddress
            ip.destinationAddress then none
        else
          some {
            localAddr := .ipv6 ip.sourceAddress udp.sourcePort
            remoteAddr := .ipv6 ip.destinationAddress udp.destPort
            isDns := false
            data := data }))

/-- What is submitted; with `none` the packet goes on to lwIP. -/
def processDeviceUdpPacket (o : Options) (data : List UInt8) : Option Submitted :=
  if !o.udpgwRemoteServerAddr then none
  else
    let version := if 0 < data.length then (byteAt data 0).toNat / 16 else 0
    let submitted :=
      if version = 4 then udpOfIpv4 o data else if version = 6 then udpOfIpv6 o data else none
    submitted.filter (fun s => s.data.length ≤ o.udpMtu)

/-! ## To the device -/

/-- The packet that is written to the device, if any. -/
def udpgwClientHandlerReceived (o : Options) (localAddr remoteAddr : BAddr) (data : List UInt8) :
    Option (List UInt8) :=
  match localAddr, remoteAddr with
  | .ipv4 localIp localPort, .ipv4 remoteIp remotePort =>
      if data.length > 65535 - 28 ∨ data.length + 28 > o.mtu then none
      else
        let iph : Ipv4Header := {
          version4Ihl4 := 0x45, ds := 0, totalLength := .ofNat 16 (28 + data.length)
          identification := 0, flags3FragmentOffset13 := 0, ttl := 64, protocol := 17, checksum := 0
          sourceAddress := remoteIp, destinationAddress := localIp }
        let udph : UdpHeader := {
          sourcePort := remotePort, destPort := localPort, length := .ofNat 16 (8 + data.length)
          checksum := 0 }
        some ({ iph with checksum := ipv4Checksum iph [] }.bytes ++
          ({ udph with checksum := udpChecksum udph data remoteIp localIp }.bytes ++ data))
  | .ipv6 localIp localPort, .ipv6 remoteIp remotePort =>
      if !o.netifIp6addr then none
      else if data.length > 65535 - 8 ∨ data.length + 48 > o.mtu then none
      else
        let iph : Ipv6Header := {
          version4Tc4 := 0x60, tc4Fl4 := 0, fl := 0, payloadLength := .ofNat 16 (8 + data.length)
          nextHeader := 17, hopLimit := 64, sourceAddress := remoteIp
          destinationAddress := localIp }
        let udph : UdpHeader := {
          sourcePort := remotePort, destPort := localPort, length := .ofNat 16 (8 + data.length)
          checksum := 0 }
        some (iph.bytes ++
          ({ udph with checksum := udpIp6Checksum udph data remoteIp localIp }.bytes ++ data))
  -- the types of both addresses agree
  | _, _ => none

/-! ## What is read back -/

@[simp] theorem length_octets {v : Nat} (w : Nat) (x : BitVec v) : (octets w x).length = w :=
  length_toBytes w x.toNat

theorem field_octets {v w : Nat} (x : BitVec v) (rest : List UInt8) (h : 2 ^ v ≤ 256 ^ w) :
    field w (octets w x ++ rest) 0 = x.toNat :=
  field_toBytes (Nat.lt_of_lt_of_le x.isLt h) rest

theorem field_octets_skip {v w k start : Nat} (x : BitVec v) (rest : List UInt8) (h : k ≤ start) :
    field w (octets k x ++ rest) start = field w rest (start - k) := by
  have hstart : start = (octets k x).length + (start - k) := by
    rw [length_octets, Nat.add_sub_cancel' h]
  calc field w (octets k x ++ rest) start
      = field w (octets k x ++ rest) ((octets k x).length + (start - k)) := by rw [← hstart]
    _ = field w rest (start - k) := field_append w _ _ _

theorem Ipv4Header.read_bytes (h : Ipv4Header) (rest : List UInt8) : read (h.bytes ++ rest) = h := by
  simp [read, bytes, List.append_assoc, field_octets, field_octets_skip]

theorem Ipv6Header.read_bytes (h : Ipv6Header) (rest : List UInt8) : read (h.bytes ++ rest) = h := by
  simp [read, bytes, List.append_assoc, field_octets, field_octets_skip]

theorem UdpHeader.read_bytes (h : UdpHeader) (rest : List UInt8) : read (h.bytes ++ rest) = h := by
  simp [read, bytes, List.append_assoc, field_octets, field_octets_skip]

@[simp] theorem Ipv4Header.length_bytes (h : Ipv4Header) : h.bytes.length = 20 := by
  simp [bytes]

@[simp] theorem Ipv6Header.length_bytes (h : Ipv6Header) : h.bytes.length = 40 := by
  simp [bytes]

@[simp] theorem UdpHeader.length_bytes (h : UdpHeader) : h.bytes.length = 8 := by
  simp [bytes]

/-- A header with the right lengths in front of its payload passes the check. -/
theorem udpCheck_bytes (h : UdpHeader) (data : List UInt8) (hlen : h.length.toNat = 8 + data.length) :
    udpCheck (h.bytes ++ data) = some (h, data) := by
  have hlong : ¬ (h.bytes ++ data).length < 8 := by simp
  have hfit : ¬ (h.length.toNat < 8 ∨ h.length.toNat > (h.bytes ++ data).length) := by
    simp only [List.length_append, UdpHeader.length_bytes]
    omega
  rw [udpCheck, if_neg hlong]
  simp only [UdpHeader.read_bytes]
  rw [if_neg hfit, List.drop_left' (UdpHeader.length_bytes h), hlen, Nat.add_sub_cancel_left,
    List.take_length]

theorem ipv4Check_bytes (h : Ipv4Header) (payload : List UInt8) (hversion : h.version4Ihl4 = 0x45)
    (hlen : h.totalLength.toNat = 20 + payload.length)
    (hsum : h.checksum = ipv4Checksum { h with checksum := 0 } []) :
    ipv4Check (h.bytes ++ payload) = some (h, payload) := by
  have hlong : ¬ (h.bytes ++ payload).length < 20 := by simp
  rw [ipv4Check, if_neg hlong]
  simp only [Ipv4Header.read_bytes]
  have hihl : h.version4Ihl4.toNat = 69 := by rw [hversion]; rfl
  rw [hihl, hlen]
  have hfit : ¬ (20 + payload.length < 69 % 16 * 4 ∨
      20 + payload.length > (h.bytes ++ payload).length) := by
    simp
  rw [if_neg (by decide), if_neg (by simp), if_neg hfit]
  simp only [Nat.reduceMod, Nat.reduceMul, Nat.sub_self, List.take_zero]
  rw [if_neg (by simpa using hsum), List.drop_left' (Ipv4Header.length_bytes h),
    Nat.add_sub_cancel_left, List.take_length]

theorem ipv6Check_bytes (h : Ipv6Header) (payload : List UInt8) (hversion : h.version4Tc4 = 0x60)
    (hlen : h.payloadLength.toNat = payload.length) :
    ipv6Check (h.bytes ++ payload) = some (h, payload) := by
  have hlong : ¬ (h.bytes ++ payload).length < 40 := by simp
  have hsix : ¬ h.version4Tc4.toNat / 16 ≠ 6 := by
    rw [hversion]
    decide
  rw [ipv6Check, if_neg hlong]
  simp only [Ipv6Header.read_bytes]
  rw [if_neg hsix, hlen, if_neg (by simp), List.drop_left' (Ipv6Header.length_bytes h),
    List.take_length]

theorem udpOfIpv4_bytes (o : Options) (ip : Ipv4Header) (udp : UdpHeader) (data : List UInt8)
    (hversion : ip.version4Ihl4 = 0x45) (hprotocol : ip.protocol = 17)
    (htotal : ip.totalLength.toNat = 28 + data.length)
    (hsum : ip.checksum = ipv4Checksum { ip with checksum := 0 } [])
    (hlen : udp.length.toNat = 8 + data.length)
    (hudp : udp.checksum =
      udpChecksum { udp with checksum := 0 } data ip.sourceAddress ip.destinationAddress) :
    udpOfIpv4 o (ip.bytes ++ (udp.bytes ++ data)) = some {
      localAddr := .ipv4 ip.sourceAddress udp.sourcePort
      remoteAddr := .ipv4 ip.destinationAddress udp.destPort
      isDns := o.dnsgw && udp.destPort == 53 && isDnsQuery data, data := data } := by
  have hnine : byteAt (ip.bytes ++ (udp.bytes ++ data)) 9 = 17 := by
    apply UInt8.toNat_inj.1
    rw [toNat_byteAt]
    simp [Ipv4Header.bytes, List.append_assoc, field_octets, field_octets_skip, hprotocol]
  have hip := ipv4Check_bytes ip (udp.bytes ++ data) hversion (by simp; omega) hsum
  rw [udpOfIpv4, if_neg (by simp [hnine]), hip, Option.bind_some]
  simp only [udpCheck_bytes udp data hlen, Option.bind_some]
  rw [if_neg (by simpa using hudp)]

theorem udpOfIpv6_bytes (o : Options) (ip : Ipv6Header) (udp : UdpHeader) (data : List UInt8)
    (hip6 : o.netifIp6addr = true) (hversion : ip.version4Tc4 = 0x60) (hnext : ip.nextHeader = 17)
    (hpayload : ip.payloadLength.toNat = 8 + data.length)
    (hlen : udp.length.toNat = 8 + data.length)
    (hudp : udp.checksum =
      udpIp6Checksum { udp with checksum := 0 } data ip.sourceAddress ip.destinationAddress) :
    udpOfIpv6 o (ip.bytes ++ (udp.bytes ++ data)) = some {
      localAddr := .ipv6 ip.sourceAddress udp.sourcePort
      remoteAddr := .ipv6 ip.destinationAddress udp.destPort
      isDns := false, data := data } := by
  have hsix : byteAt (ip.bytes ++ (udp.bytes ++ data)) 6 = 17 := by
    apply UInt8.toNat_inj.1
    rw [toNat_byteAt]
    simp [Ipv6Header.bytes, List.append_assoc, field_octets, field_octets_skip, hnext]
  have hip := ipv6Check_bytes ip (udp.bytes ++ data) hversion (by simp; omega)
  rw [udpOfIpv6, if_neg (by simp [hip6]), if_neg (by simp [hsix]), hip, Option.bind_some]
  simp only [udpCheck_bytes udp data hlen, Option.bind_some]
  rw [if_neg (by simpa using hudp)]

/-- The version decides which of both is asked. -/
theorem process_ipv4 {o : Options} {data : List UInt8} (hrelay : o.udpgwRemoteServerAddr = true)
    (hne : 0 < data.length) (hversion : (byteAt data 0).toNat / 16 = 4) :
    processDeviceUdpPacket o data =
      (udpOfIpv4 o data).filter (fun s => s.data.length ≤ o.udpMtu) := by
  simp [processDeviceUdpPacket, hrelay, hne, hversion]

theorem process_ipv6 {o : Options} {data : List UInt8} (hrelay : o.udpgwRemoteServerAddr = true)
    (hne : 0 < data.length) (hversion : (byteAt data 0).toNat / 16 = 6) :
    processDeviceUdpPacket o data =
      (udpOfIpv6 o data).filter (fun s => s.data.length ≤ o.udpMtu) := by
  simp [processDeviceUdpPacket, hrelay, hne, hversion]

theorem version_ipv4 (ip : Ipv4Header) (rest : List UInt8) (hversion : ip.version4Ihl4 = 0x45) :
    (byteAt (ip.bytes ++ rest) 0).toNat / 16 = 4 := by
  rw [toNat_byteAt]
  simp [Ipv4Header.bytes, List.append_assoc, field_octets, hversion]

theorem version_ipv6 (ip : Ipv6Header) (rest : List UInt8) (hversion : ip.version4Tc4 = 0x60) :
    (byteAt (ip.bytes ++ rest) 0).toNat / 16 = 6 := by
  rw [toNat_byteAt]
  simp [Ipv6Header.bytes, List.append_assoc, field_octets, hversion]

theorem roundTrip_ipv4 (o : Options) (localIp remoteIp : BitVec 32) (localPort remotePort : BitVec 16)
    (data packet : List UInt8) (hrelay : o.udpgwRemoteServerAddr = true)
    (hpacket : udpgwClientHandlerReceived o (.ipv4 localIp localPort) (.ipv4 remoteIp remotePort) data =
      some packet) :
    processDeviceUdpPacket o packet = some {
      localAddr := .ipv4 remoteIp remotePort, remoteAddr := .ipv4 localIp localPort
      isDns := o.dnsgw && localPort == 53 && isDnsQuery data, data := data } := by
  simp only [udpgwClientHandlerReceived] at hpacket
  split at hpacket
  · cases hpacket
  · rename_i hfit
    simp only [Option.some.injEq] at hpacket
    subst hpacket
    have hmtu : data.length ≤ o.udpMtu := by
      rw [Options.udpMtu]
      split <;> omega
    rw [process_ipv4 hrelay (by simp) (version_ipv4 _ _ rfl), udpOfIpv4_bytes]
    · exact Option.filter_some_pos (by simpa using hmtu)
    · rfl
    · rfl
    · simp only [BitVec.toNat_ofNat]
      omega
    · rfl
    · simp only [BitVec.toNat_ofNat]
      omega
    · rfl

theorem roundTrip_ipv6 (o : Options) (localIp remoteIp : BitVec 128)
    (localPort remotePort : BitVec 16) (data packet : List UInt8)
    (hrelay : o.udpgwRemoteServerAddr = true)
    (hpacket : udpgwClientHandlerReceived o (.ipv6 localIp localPort) (.ipv6 remoteIp remotePort) data =
      some packet) :
    processDeviceUdpPacket o packet = some {
      localAddr := .ipv6 remoteIp remotePort, remoteAddr := .ipv6 localIp localPort
      isDns := false, data := data } := by
  simp only [udpgwClientHandlerReceived] at hpacket
  split at hpacket
  · cases hpacket
  · rename_i hip6
    split at hpacket
    · cases hpacket
    · rename_i hfit
      simp only [Option.some.injEq] at hpacket
      subst hpacket
      have hmtu : data.length ≤ o.udpMtu := by
        rw [Options.udpMtu]
        split <;> omega
      rw [process_ipv6 hrelay (by simp) (version_ipv6 _ _ rfl), udpOfIpv6_bytes]
      · exact Option.filter_some_pos (by simpa using hmtu)
      · simpa using hip6
      · rfl
      · rfl
      · simp only [BitVec.toNat_ofNat]
        omega
      · simp only [BitVec.toNat_ofNat]
        omega
      · rfl

/-- A datagram that was put into a packet is taken out of it again, with both addresses in the places
of a packet that goes the other way. -/
theorem udpPacket_roundTrip (o : Options) (localAddr remoteAddr : BAddr) (data packet : List UInt8)
    (hrelay : o.udpgwRemoteServerAddr = true)
    (hpacket : udpgwClientHandlerReceived o localAddr remoteAddr data = some packet) :
    processDeviceUdpPacket o packet = some {
      localAddr := remoteAddr, remoteAddr := localAddr, data := data
      isDns := match localAddr with
        | .ipv4 _ port => o.dnsgw && port == 53 && isDnsQuery data
        | .ipv6 _ _ => false } := by
  cases localAddr with
  | ipv4 localIp localPort =>
      cases remoteAddr with
      | ipv4 remoteIp remotePort =>
          exact roundTrip_ipv4 o localIp remoteIp localPort remotePort data packet hrelay hpacket
      | ipv6 remoteIp remotePort => cases hpacket
  | ipv6 localIp localPort =>
      cases remoteAddr with
      | ipv4 remoteIp remotePort => cases hpacket
      | ipv6 remoteIp remotePort =>
          exact roundTrip_ipv6 o localIp remoteIp localPort remotePort data packet hrelay hpacket

/-- A relay without a DNS gateway, over a device of 1500 octets. -/
def relayOptions : Options where
  udpgwRemoteServerAddr := true
  dnsgw := false
  netifIp6addr := false
  mtu := 1500

theorem udpPacket_roundTrip_reply :
    ∃ packet, udpgwClientHandlerReceived relayOptions (.ipv4 1 2) (.ipv4 3 53) [7, 8, 9] =
        some packet ∧
      processDeviceUdpPacket relayOptions packet = some {
        localAddr := .ipv4 3 53, remoteAddr := .ipv4 1 2, isDns := false, data := [7, 8, 9] } :=
  ⟨_, rfl, udpPacket_roundTrip relayOptions (.ipv4 1 2) (.ipv4 3 53) [7, 8, 9] _ rfl rfl⟩

/-! ## Which datagrams are taken -/

/-- A datagram in a packet, with the sum of its pseudo header, before its checksum is looked at. -/
inductive Datagram (o : Options) (data : List UInt8) : Nat → UdpHeader → List UInt8 → Prop where
  | ipv4 {ip : Ipv4Header} {body payload : List UInt8} {udp : UdpHeader} :
      0 < data.length → (byteAt data 0).toNat / 16 = 4 → byteAt data 9 = 17 →
      ipv4Check data = some (ip, body) → udpCheck body = some (udp, payload) →
      Datagram o data (pseudoIpv4 ip.sourceAddress ip.destinationAddress payload.length) udp payload
  | ipv6 {ip : Ipv6Header} {body payload : List UInt8} {udp : UdpHeader} :
      0 < data.length → (byteAt data 0).toNat / 16 = 6 → byteAt data 6 = 17 →
      o.netifIp6addr = true →
      ipv6Check data = some (ip, body) → udpCheck body = some (udp, payload) →
      Datagram o data (pseudoIpv6 ip.sourceAddress ip.destinationAddress payload.length) udp payload

theorem toNat_udpFinish (sum : Nat) : (udpFinish sum).toNat = checksum sum := by
  have hlt := fold_lt sum
  -- a complement in 32 bits is never zero
  have hguard : ¬ 2 ^ 32 - 1 - fold sum = 0 := by omega
  simp only [udpFinish, if_neg hguard, BitVec.toNat_ofNat, OnesComplement.checksum]
  omega

theorem words_octets_two (x : BitVec 16) : words (octets 2 x) = x.toNat :=
  words_toBytes x.isLt

theorem UdpHeader.words_bytes (h : UdpHeader) :
    words h.bytes = words { h with checksum := 0 }.bytes + h.checksum.toNat := by
  simp [bytes, words_append, words_octets_two]
  omega

/-- A checksum of `0xFFFF` is never the computed one, though it makes the sum right where that is
zero. -/
theorem checksum_eq_iff {pseudo : Nat} (hpos : 0 < pseudo) (udp : UdpHeader) (payload : List UInt8) :
    udp.checksum = udpFinish (pseudo + words { udp with checksum := 0 }.bytes + words payload) ↔
      fold (pseudo + words udp.bytes + words payload) = 65535 ∧ udp.checksum ≠ 0xFFFF := by
  have hsum : pseudo + words udp.bytes + words payload =
      pseudo + words { udp with checksum := 0 }.bytes + words payload + udp.checksum.toNat := by
    rw [UdpHeader.words_bytes]
    omega
  have hcomputed := checksum_lt_of_pos
    (show 0 < pseudo + words { udp with checksum := 0 }.bytes + words payload by omega)
  have hother : udp.checksum ≠ 0xFFFF ↔ udp.checksum.toNat ≠ 65535 := by
    rw [ne_eq, ← BitVec.toNat_inj]
    rfl
  rw [hsum, fold_add_eq_iff (by omega) udp.checksum.isLt, ← BitVec.toNat_inj, toNat_udpFinish, hother]
  omega

theorem pseudoIpv4_pos (sourceAddr destAddr : BitVec 32) (payloadLen : Nat) :
    0 < pseudoIpv4 sourceAddr destAddr payloadLen := by
  have hprotocol : words (toBytes 2 17) = 17 := words_toBytes (by omega)
  rw [pseudoIpv4, hprotocol]
  omega

theorem pseudoIpv6_pos (sourceAddr destAddr : BitVec 128) (payloadLen : Nat) :
    0 < pseudoIpv6 sourceAddr destAddr payloadLen := by
  have hnext : words (toBytes 4 17) = 17 := by decide
  rw [pseudoIpv6, hnext]
  omega

theorem length_of_ipv4Check {data : List UInt8} {r : Ipv4Header × List UInt8}
    (h : ipv4Check data = some r) : 20 ≤ data.length := by
  by_contra hlt
  rw [ipv4Check, if_pos (by omega)] at h
  cases h

theorem length_of_ipv6Check {data : List UInt8} {r : Ipv6Header × List UInt8}
    (h : ipv6Check data = some r) : 40 ≤ data.length := by
  by_contra hlt
  rw [ipv6Check, if_pos (by omega)] at h
  cases h

theorem udpOfIpv4_eq_some {o : Options} {data : List UInt8} {s : Submitted}
    (h : udpOfIpv4 o data = some s) :
    byteAt data 9 = 17 ∧ ∃ ip body udp, ipv4Check data = some (ip, body) ∧
      udpCheck body = some (udp, s.data) ∧
      udp.checksum =
        udpChecksum { udp with checksum := 0 } s.data ip.sourceAddress ip.destinationAddress := by
  rw [udpOfIpv4] at h
  split at h
  · cases h
  · rename_i hprotocol
    obtain ⟨⟨ip, body⟩, hip, h⟩ := Option.bind_eq_some_iff.1 h
    obtain ⟨⟨udp, payload⟩, hudp, h⟩ := Option.bind_eq_some_iff.1 h
    dsimp only at h
    split at h
    · cases h
    · rename_i hsum
      cases h
      exact ⟨by simpa using fun hne => hprotocol (Or.inr hne), ip, body, udp, hip, hudp,
        by simpa using hsum⟩

theorem udpOfIpv6_eq_some {o : Options} {data : List UInt8} {s : Submitted}
    (h : udpOfIpv6 o data = some s) :
    o.netifIp6addr = true ∧ byteAt data 6 = 17 ∧ ∃ ip body udp, ipv6Check data = some (ip, body) ∧
      udpCheck body = some (udp, s.data) ∧
      udp.checksum =
        udpIp6Checksum { udp with checksum := 0 } s.data ip.sourceAddress ip.destinationAddress := by
  rw [udpOfIpv6] at h
  split at h
  · cases h
  · rename_i hip6
    split at h
    · cases h
    · rename_i hnext
      obtain ⟨⟨ip, body⟩, hip, h⟩ := Option.bind_eq_some_iff.1 h
      obtain ⟨⟨udp, payload⟩, hudp, h⟩ := Option.bind_eq_some_iff.1 h
      dsimp only at h
      split at h
      · cases h
      · rename_i hsum
        cases h
        exact ⟨by simpa using hip6, by simpa using fun hne => hnext (Or.inr hne), ip, body, udp, hip,
          hudp, by simpa using hsum⟩

/-- Exactly those datagrams are submitted that fit, whose sum is right and whose checksum is not
written as `0xFFFF`. -/
theorem udpChecksum_accepted_iff (o : Options) (data : List UInt8)
    (hrelay : o.udpgwRemoteServerAddr = true) :
    (∃ s, processDeviceUdpPacket o data = some s) ↔
      ∃ pseudo udp payload, Datagram o data pseudo udp payload ∧ payload.length ≤ o.udpMtu ∧
        fold (pseudo + words udp.bytes + words payload) = 65535 ∧ udp.checksum ≠ 0xFFFF := by
  constructor
  · rintro ⟨s, hs⟩
    rw [processDeviceUdpPacket, if_neg (by simp [hrelay])] at hs
    obtain ⟨hsome, hfit⟩ := Option.filter_eq_some_iff.1 hs
    have hfit : s.data.length ≤ o.udpMtu := by simpa using hfit
    by_cases hne : 0 < data.length
    · rw [if_pos hne] at hsome
      split at hsome
      · rename_i hversion
        obtain ⟨hprotocol, ip, body, udp, hip, hudp, hsum⟩ := udpOfIpv4_eq_some hsome
        exact ⟨_, udp, s.data, .ipv4 hne hversion hprotocol hip hudp, hfit,
          (checksum_eq_iff (pseudoIpv4_pos _ _ _) udp s.data).1 hsum⟩
      · split at hsome
        · rename_i hversion
          obtain ⟨hip6, hnext, ip, body, udp, hip, hudp, hsum⟩ := udpOfIpv6_eq_some hsome
          exact ⟨_, udp, s.data, .ipv6 hne hversion hnext hip6 hip hudp, hfit,
            (checksum_eq_iff (pseudoIpv6_pos _ _ _) udp s.data).1 hsum⟩
        · cases hsome
    · -- nothing has no version
      rw [if_neg hne] at hsome
      cases hsome
  · rintro ⟨pseudo, udp, payload, hdatagram, hfit, hsum⟩
    cases hdatagram with
    | ipv4 hne hversion hprotocol hip hudp =>
        have hlen := length_of_ipv4Check hip
        have hcheck := (checksum_eq_iff (pseudoIpv4_pos _ _ _) udp payload).2 hsum
        rw [process_ipv4 hrelay hne hversion, udpOfIpv4, if_neg (by simp [hprotocol, hlen]), hip,
          Option.bind_some]
        simp only [hudp, Option.bind_some]
        rw [if_neg (fun hne => hne hcheck)]
        exact ⟨_, Option.filter_some_pos (by simpa using hfit)⟩
    | ipv6 hne hversion hnext hip6 hip hudp =>
        have hlen := length_of_ipv6Check hip
        have hcheck := (checksum_eq_iff (pseudoIpv6_pos _ _ _) udp payload).2 hsum
        rw [process_ipv6 hrelay hne hversion, udpOfIpv6, if_neg (by simp [hip6]),
          if_neg (by simp [hnext, hlen]), hip, Option.bind_some]
        simp only [hudp, Option.bind_some]
        rw [if_neg (fun hne => hne hcheck)]
        exact ⟨_, Option.filter_some_pos (by simpa using hfit)⟩

theorem udpChecksum_accepted_iff_reply :
    ∃ packet, udpgwClientHandlerReceived relayOptions (.ipv4 1 2) (.ipv4 3 53) [7, 8, 9] =
        some packet ∧
      ∃ pseudo udp payload, Datagram relayOptions packet pseudo udp payload ∧
        payload.length ≤ relayOptions.udpMtu ∧
        fold (pseudo + words udp.bytes + words payload) = 65535 ∧ udp.checksum ≠ 0xFFFF :=
  ⟨_, rfl, (udpChecksum_accepted_iff relayOptions _ rfl).1
    ⟨_, roundTrip_ipv4 relayOptions 1 3 2 53 [7, 8, 9] _ rfl rfl⟩⟩

end Tun
end SpinVpn
