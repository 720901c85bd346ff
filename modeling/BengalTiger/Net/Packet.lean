import Mathlib.Data.List.Basic
import BengalTiger.Common
import BengalTiger.Net.Arp

set_option autoImplicit false

/-!
# Packets on the wire

The byte layouts that `kernel/net.c` writes and reads: big-endian fields, the Internet checksum,
and the Ethernet, ARP, IPv4, UDP and DHCP packets as the sending functions build them. The
packed C structures are written out as byte lists.

## Main definitions

* `Net.be16`, `Net.be32` and `Net.toBe16`,
  `Net.toBe32` — `ntohs`, `ntohl` and `htons`, `htonl` on bytes.
* `Net.netChecksum` — `net_checksum`.
* `Net.ethFrame`, `Net.arpPacket`, `Net.ipv4Packet`,
  `Net.udpPacket`, `Net.dhcpPacket`.

## Main results

* `Net.netChecksum_ipv4Header` — a sent header passes the receiver's checksum test.
-/

namespace BengalTiger.Net

/-! ## Fields -/

/-- `ntohs` of a two-byte field. -/
def be16 (a b : UInt8) : ℕ := a.toNat * 256 + b.toNat

/-- `ntohl` of a four-byte field. -/
def be32 (a b c d : UInt8) : UInt32 :=
  UInt32.ofNat (a.toNat * 16777216 + b.toNat * 65536 + c.toNat * 256 + d.toNat)

/-- A two-byte field from `htons`. -/
def toBe16 (v : ℕ) : List UInt8 := [UInt8.ofNat (v / 256), UInt8.ofNat v]

/-- A four-byte field from `htonl`. -/
def toBe32 (v : UInt32) : List UInt8 :=
  [UInt8.ofNat (v.toNat / 16777216), UInt8.ofNat (v.toNat / 65536), UInt8.ofNat (v.toNat / 256),
    UInt8.ofNat v.toNat]

/-- A two-byte field is read back. -/
lemma be16_toBe16 (v : ℕ) : be16 (UInt8.ofNat (v / 256)) (UInt8.ofNat v) = u16 v := by
  simp only [be16, u16, UInt8.toNat_ofNat']
  omega

/-- A four-byte field is read back. -/
lemma be32_toBe32 (v : UInt32) :
    be32 (UInt8.ofNat (v.toNat / 16777216)) (UInt8.ofNat (v.toNat / 65536))
      (UInt8.ofNat (v.toNat / 256)) (UInt8.ofNat v.toNat) = v := by
  have hv := v.toNat_lt
  apply UInt32.toNat_inj.1
  simp only [be32, UInt8.toNat_ofNat', UInt32.toNat_ofNat']
  omega

/-! ## The Internet checksum -/

/-- The summation loop of `net_checksum`, in `uint32_t` arithmetic. -/
def wordSum : List UInt8 → ℕ → ℕ
  | a :: b :: rest, sum => wordSum rest (u32 (sum + be16 a b))
  | [a], sum => u32 (sum + a.toNat * 256)
  | [], sum => sum

/-- `while (sum >> 16) sum = (sum & 0xFFFF) + (sum >> 16)`, for a number of rounds. -/
def foldCarry : ℕ → ℕ → ℕ
  | 0, sum => sum
  | n + 1, sum => if sum / 65536 = 0 then sum else foldCarry n (sum % 65536 + sum / 65536)

/-- `net_checksum`. Two rounds of carries suffice for a `uint32_t`. -/
def netChecksum (data : List UInt8) : ℕ := u16 (4294967295 - foldCarry 3 (wordSum data 0))

/-- The sum of the big-endian 16-bit words of a byte string. -/
def wordTotal : List UInt8 → ℕ
  | a :: b :: rest => be16 a b + wordTotal rest
  | [a] => a.toNat * 256
  | [] => 0

/-- The loop computes the sum as long as it fits into 32 bits. -/
lemma wordSum_eq (data : List UInt8) (sum : ℕ) (h : sum + wordTotal data < 4294967296) :
    wordSum data sum = sum + wordTotal data := by
  induction data using wordTotal.induct generalizing sum with
  | case1 a b rest ih =>
    rw [wordTotal] at h ⊢
    rw [wordSum, u32_of_lt (by omega), ih _ (by omega)]
    omega
  | case2 a =>
    rw [wordTotal] at h ⊢
    rw [wordSum, u32_of_lt h]
  | case3 => rfl

/-- The carry loop ends with a 16-bit value congruent to the sum, which is zero only for zero. -/
lemma foldCarry_spec {sum : ℕ} (h : sum < 4294967296) :
    foldCarry 3 sum < 65536 ∧ foldCarry 3 sum % 65535 = sum % 65535 ∧
      (0 < sum → 0 < foldCarry 3 sum) := by
  simp only [foldCarry]
  split_ifs <;> omega

/-- The checksum is the complement of the folded sum. -/
lemma netChecksum_eq {data : List UInt8} (h : wordTotal data < 4294967296) :
    netChecksum data = 65535 - foldCarry 3 (wordTotal data) := by
  have hf := (foldCarry_spec h).1
  rw [netChecksum, wordSum_eq data 0 (by omega), Nat.zero_add, u16]
  omega

/-- **The Internet checksum test**: the checksum is zero when the sum is positive and divisible
by 65535. -/
lemma netChecksum_eq_zero_iff {data : List UInt8} (h : wordTotal data < 4294967296) :
    netChecksum data = 0 ↔ 0 < wordTotal data ∧ wordTotal data % 65535 = 0 := by
  obtain ⟨hlt, hmod, hpos⟩ := foldCarry_spec h
  rw [netChecksum_eq h]
  constructor
  · intro h0
    refine ⟨?_, by omega⟩
    by_contra hz
    have : wordTotal data = 0 := by omega
    rw [this] at h0
    simp [foldCarry] at h0
  · rintro ⟨h0, hm⟩
    have := hpos h0
    omega

/-! ## Packets -/

/-- The frame that `send_eth_frame` builds. -/
def ethFrame (dst src : Mac) (ethertype : ℕ) (payload : List UInt8) : List UInt8 :=
  dst.toList ++ src.toList ++ toBe16 ethertype ++ payload

/-- The packet that `send_arp_packet` builds. -/
def arpPacket (oper : ℕ) (sha : Mac) (spa : UInt32) (tha : Mac) (tpa : UInt32) : List UInt8 :=
  toBe16 1 ++ toBe16 0x0800 ++ [6, 4] ++ toBe16 oper ++ sha.toList ++ toBe32 spa ++ tha.toList ++
    toBe32 tpa

/-- The header that `send_ipv4_packet` builds, with a value for the checksum field. -/
def ipv4Header (src dst : UInt32) (id : UInt16) (proto : UInt8) (payloadLen checksum : ℕ) :
    List UInt8 :=
  [0x45, 0] ++ toBe16 (20 + payloadLen) ++ toBe16 id.toNat ++ [0, 0] ++ [64, proto] ++
    toBe16 checksum ++ toBe32 src ++ toBe32 dst

/-- The packet that `send_ipv4_packet` builds: the checksum is that of the header with a zero
checksum field. -/
def ipv4Packet (src dst : UInt32) (id : UInt16) (proto : UInt8) (payload : List UInt8) :
    List UInt8 :=
  ipv4Header src dst id proto payload.length
    (netChecksum (ipv4Header src dst id proto payload.length 0)) ++ payload

/-- The checksum field adds its value to the sum of the header's words. -/
lemma wordTotal_ipv4Header (src dst : UInt32) (id : UInt16) (proto : UInt8)
    (payloadLen checksum : ℕ) :
    wordTotal (ipv4Header src dst id proto payloadLen checksum) =
      wordTotal (ipv4Header src dst id proto payloadLen 0) + u16 checksum := by
  have h0 : u16 0 = 0 := rfl
  simp only [ipv4Header, toBe16, toBe32, List.cons_append, List.nil_append, wordTotal,
    be16_toBe16, h0]
  omega

/-- The sum of a header's words is positive and small. -/
lemma wordTotal_ipv4Header_bounds (src dst : UInt32) (id : UInt16) (proto : UInt8)
    (payloadLen : ℕ) :
    0 < wordTotal (ipv4Header src dst id proto payloadLen 0) ∧
      wordTotal (ipv4Header src dst id proto payloadLen 0) < 655360 := by
  have hb : ∀ a b : UInt8, be16 a b < 65536 := by
    intro a b
    have ha := a.toNat_lt
    have hb := b.toNat_lt
    unfold be16
    omega
  have h45 : be16 0x45 0 = 17664 := rfl
  simp only [ipv4Header, toBe16, toBe32, List.cons_append, List.nil_append, wordTotal, h45]
  refine ⟨by omega, ?_⟩
  have h1 := hb (UInt8.ofNat ((20 + payloadLen) / 256)) (UInt8.ofNat (20 + payloadLen))
  have h2 := hb (UInt8.ofNat (id.toNat / 256)) (UInt8.ofNat id.toNat)
  have h3 := hb 0 0
  have h4 := hb 64 proto
  have h5 := hb (UInt8.ofNat (0 / 256)) (UInt8.ofNat 0)
  have h6 := hb (UInt8.ofNat (src.toNat / 16777216)) (UInt8.ofNat (src.toNat / 65536))
  have h7 := hb (UInt8.ofNat (src.toNat / 256)) (UInt8.ofNat src.toNat)
  have h8 := hb (UInt8.ofNat (dst.toNat / 16777216)) (UInt8.ofNat (dst.toNat / 65536))
  have h9 := hb (UInt8.ofNat (dst.toNat / 256)) (UInt8.ofNat dst.toNat)
  omega

/-- A sent header passes the receiver's checksum test. -/
lemma netChecksum_ipv4Header (src dst : UInt32) (id : UInt16) (proto : UInt8)
    (payloadLen : ℕ) :
    netChecksum (ipv4Header src dst id proto payloadLen
      (netChecksum (ipv4Header src dst id proto payloadLen 0))) = 0 := by
  obtain ⟨hpos, hlt⟩ := wordTotal_ipv4Header_bounds src dst id proto payloadLen
  have hfit : wordTotal (ipv4Header src dst id proto payloadLen 0) < 4294967296 := by omega
  obtain ⟨hf, hmod, hfpos⟩ := foldCarry_spec hfit
  have hc := netChecksum_eq hfit
  have htotal := wordTotal_ipv4Header src dst id proto payloadLen
    (netChecksum (ipv4Header src dst id proto payloadLen 0))
  have h16 : u16 (netChecksum (ipv4Header src dst id proto payloadLen 0)) =
      netChecksum (ipv4Header src dst id proto payloadLen 0) := by
    rw [hc]
    exact Nat.mod_eq_of_lt (by omega)
  rw [h16] at htotal
  have := hfpos hpos
  rw [netChecksum_eq_zero_iff (by omega)]
  omega

/-- The datagram that `net_send_udp` and `send_dhcp_message` build, without a checksum. -/
def udpPacket (srcPort dstPort : ℕ) (payload : List UInt8) : List UInt8 :=
  toBe16 srcPort ++ toBe16 dstPort ++ toBe16 (8 + payload.length) ++ [0, 0] ++ payload

/-- `DHCP_MAGIC_COOKIE`. -/
def dhcpMagicCookie : UInt32 := 0x63825363

/-- The options that `send_dhcp_message` writes. -/
def dhcpOptions (msgType : UInt8) (reqIp srvIp : UInt32) : List UInt8 :=
  [53, 1, msgType] ++
    (if msgType = 3 ∧ reqIp ≠ 0 then [50, 4] ++ toBe32 reqIp else []) ++
    (if msgType = 3 ∧ srvIp ≠ 0 then [54, 4] ++ toBe32 srvIp else []) ++
    [55, 3, 1, 3, 6, 255]

/-- The message that `send_dhcp_message` builds, with the option area of 308 bytes. -/
def dhcpPacket (mac : Mac) (msgType : UInt8) (xid reqIp srvIp : UInt32) : List UInt8 :=
  [1, 1, 6, 0] ++ toBe32 xid ++ toBe16 0 ++ toBe16 0x8000 ++ List.replicate 16 0 ++
    mac.toList ++ List.replicate 10 0 ++ List.replicate 192 0 ++ toBe32 dhcpMagicCookie ++
    dhcpOptions msgType reqIp srvIp ++
    List.replicate (308 - (dhcpOptions msgType reqIp srvIp).length) 0

end BengalTiger.Net
