import Mathlib.Algebra.Group.Nat.Defs
import Mathlib.Tactic.Common

/-!
Internet addresses as the standard library of the modelled program has them:
32 and 128 bit addresses, socket addresses with a port, and their text form.
The text form of an IPv6 address shortens the first longest run of at least
two zero segments to `::`, and prints an IPv4-mapped address in dotted form.
-/

namespace Net

abbrev Ipv4Addr := BitVec 32

abbrev Ipv6Addr := BitVec 128

inductive IpAddr where
  | V4 (addr : Ipv4Addr)
  | V6 (addr : Ipv6Addr)
deriving DecidableEq, Repr

inductive SocketAddr where
  | V4 (ip : Ipv4Addr) (port : UInt16)
  | V6 (ip : Ipv6Addr) (port : UInt16) (flowinfo scopeId : UInt32)
deriving DecidableEq, Repr

/-- `::ffff:a.b.c.d` and nothing else is an IPv4-mapped address. -/
def toIpv4Mapped (addr : Ipv6Addr) : Option Ipv4Addr :=
  if addr.extractLsb' 32 96 = 0xffff#96 then some (addr.extractLsb' 0 32) else none

/-- The inverse direction, `Ipv4Addr::to_ipv6_mapped`. -/
def toIpv6Mapped (addr : Ipv4Addr) : Ipv6Addr := 0xffff#96 ++ addr

theorem toIpv4Mapped_toIpv6Mapped (addr : Ipv4Addr) :
    toIpv4Mapped (toIpv6Mapped addr) = some addr := by
  unfold toIpv4Mapped toIpv6Mapped
  rw [BitVec.extractLsb'_append_eq_left, BitVec.extractLsb'_append_eq_right]
  simp

namespace IpAddr

def isIpv4 : IpAddr → Bool
  | V4 _ => true
  | V6 _ => false

def isUnspecified : IpAddr → Bool
  | V4 addr => addr == 0
  | V6 addr => addr == 0

/-- `127.0.0.0/8` and `::1`; an IPv4-mapped loopback address is not one. -/
def isLoopback : IpAddr → Bool
  | V4 addr => addr.extractLsb' 24 8 == 127#8
  | V6 addr => addr == 1

end IpAddr

namespace SocketAddr

def ip : SocketAddr → IpAddr
  | V4 addr _ => .V4 addr
  | V6 addr _ _ _ => .V6 addr

def port : SocketAddr → UInt16
  | V4 _ port => port
  | V6 _ port _ _ => port

end SocketAddr

/-! ### Text form -/

def octet (addr : Ipv4Addr) (index : Nat) : Nat := (addr.extractLsb' (24 - 8 * index) 8).toNat

def showIpv4 (addr : Ipv4Addr) : String :=
  toString (octet addr 0) ++ "." ++ toString (octet addr 1) ++ "." ++
    toString (octet addr 2) ++ "." ++ toString (octet addr 3)

def segments (addr : Ipv6Addr) : List Nat :=
  (List.range 8).map (fun index => (addr.extractLsb' (112 - 16 * index) 16).toNat)

/-- The segment in lower-case hexadecimal without leading zeros. -/
def showSegment (segment : Nat) : String := String.ofList (Nat.toDigits 16 segment)

def showSegments (list : List Nat) : String := ":".intercalate (list.map showSegment)

/-- Start and length of the first longest run of zeros; `(0, 0)` without one.
`current` is the run being read and `best` the longest one so far. -/
def longestZeros : Nat → Nat × Nat → Nat × Nat → List Nat → Nat × Nat
  | _, _, best, [] => best
  | index, current, best, segment :: rest =>
      if segment = 0 then
        let current := (if current.2 = 0 then index else current.1, current.2 + 1)
        longestZeros (index + 1) current (if best.2 < current.2 then current else best) rest
      else
        longestZeros (index + 1) (0, 0) best rest

def showIpv6 (addr : Ipv6Addr) : String :=
  match toIpv4Mapped addr with
  | some mapped => "::ffff:" ++ showIpv4 mapped
  | none =>
      let zeros := longestZeros 0 (0, 0) (0, 0) (segments addr)
      if 1 < zeros.2 then
        showSegments ((segments addr).take zeros.1) ++ "::" ++
          showSegments ((segments addr).drop (zeros.1 + zeros.2))
      else
        showSegments (segments addr)

def IpAddr.show : IpAddr → String
  | .V4 addr => showIpv4 addr
  | .V6 addr => showIpv6 addr

def SocketAddr.show : SocketAddr → String
  | .V4 ip port => showIpv4 ip ++ ":" ++ toString port.toNat
  | .V6 ip port _ scopeId =>
      if scopeId = 0 then "[" ++ showIpv6 ip ++ "]:" ++ toString port.toNat
      else "[" ++ showIpv6 ip ++ "%" ++ toString scopeId.toNat ++ "]:" ++ toString port.toNat

example : SocketAddr.show (.V6 0x20010db8000000000000000000000001#128 443 0 0) =
    "[2001:db8::1]:443" := by decide +kernel

example : SocketAddr.show (.V6 (toIpv6Mapped 0xc0000201#32) 80 0 3) =
    "[::ffff:192.0.2.1%3]:80" := by decide +kernel

/-! ### Length of the text form -/

theorem length_repr_le {n digits : Nat} (hpos : 0 < digits) (hlt : n < 10 ^ digits) :
    (toString n).length ≤ digits := (Nat.length_repr_le_iff hpos).mpr hlt

theorem length_showIpv4_le (addr : Ipv4Addr) : (showIpv4 addr).length ≤ 15 := by
  have hoctet : ∀ index, (toString (octet addr index)).length ≤ 3 := by
    intro index
    have hlt : octet addr index < 2 ^ 8 := BitVec.isLt _
    exact length_repr_le (by decide) (by omega)
  have h0 := hoctet 0
  have h1 := hoctet 1
  have h2 := hoctet 2
  have h3 := hoctet 3
  have hdot : ".".length = 1 := by decide
  unfold showIpv4
  simp only [String.length_append, hdot]
  omega

theorem length_showSegments_le (list : List Nat) (hlist : ∀ segment ∈ list, segment < 2 ^ 16) :
    (showSegments list).length ≤ 5 * list.length := by
  have hcolon : ":".length = 1 := by decide
  unfold showSegments
  induction list with
  | nil => simp
  | cons segment rest ih =>
      have hdigits : (showSegment segment).length ≤ 4 := by
        have hlt := hlist segment List.mem_cons_self
        unfold showSegment
        rw [String.length_ofList]
        exact (Nat.length_toDigits_le_iff (by decide) (by decide)).mpr (by omega)
      have htail := ih fun segment h => hlist segment (List.mem_cons_of_mem _ h)
      cases rest with
      | nil =>
          simp only [List.map_cons, List.map_nil, String.intercalate_singleton, List.length_cons,
            List.length_nil]
          omega
      | cons next rest =>
          simp only [List.map_cons, String.intercalate_cons_cons, String.length_append, hcolon,
            List.length_cons] at htail ⊢
          omega

theorem segments_lt (addr : Ipv6Addr) : ∀ segment ∈ segments addr, segment < 2 ^ 16 := by
  intro segment hsegment
  obtain ⟨index, _, rfl⟩ := List.mem_map.mp hsegment
  exact BitVec.isLt _

theorem length_showIpv6_le (addr : Ipv6Addr) : (showIpv6 addr).length ≤ 82 := by
  have hcount : (segments addr).length = 8 := by simp [segments]
  have hmapped : "::ffff:".length = 7 := by decide
  have hgap : "::".length = 2 := by decide
  unfold showIpv6
  split
  · rename_i mapped _
    have hv4 := length_showIpv4_le mapped
    rw [String.length_append, hmapped]
    omega
  · dsimp only
    split_ifs
    · have hleft := length_showSegments_le
        ((segments addr).take (longestZeros 0 (0, 0) (0, 0) (segments addr)).1)
        fun segment h => segments_lt addr segment (List.mem_of_mem_take h)
      have hright := length_showSegments_le
        ((segments addr).drop ((longestZeros 0 (0, 0) (0, 0) (segments addr)).1 +
          (longestZeros 0 (0, 0) (0, 0) (segments addr)).2))
        fun segment h => segments_lt addr segment (List.mem_of_mem_drop h)
      rw [List.length_take] at hleft
      rw [List.length_drop] at hright
      simp only [String.length_append, hgap]
      omega
    · have hall := length_showSegments_le (segments addr) (segments_lt addr)
      omega

theorem SocketAddr.length_show_le (addr : SocketAddr) : addr.show.length ≤ 102 := by
  have hport : ∀ port : UInt16, (toString port.toNat).length ≤ 5 := by
    intro port
    have hlt := port.toNat_lt
    exact length_repr_le (by decide) (by omega)
  have hopen : "[".length = 1 := by decide
  have hclose : "]:".length = 2 := by decide
  have hcolon : ":".length = 1 := by decide
  have hpercent : "%".length = 1 := by decide
  cases addr with
  | V4 ip port =>
      have hv4 := length_showIpv4_le ip
      have hdigits := hport port
      simp only [SocketAddr.show, String.length_append, hcolon]
      omega
  | V6 ip port flowinfo scopeId =>
      have hv6 := length_showIpv6_le ip
      have hdigits := hport port
      have hscope : (toString scopeId.toNat).length ≤ 10 := by
        have hlt := scopeId.toNat_lt
        exact length_repr_le (by decide) (by omega)
      simp only [SocketAddr.show]
      split_ifs
      · simp only [String.length_append, hopen, hclose]
        omega
      · simp only [String.length_append, hopen, hclose, hpercent]
        omega

end Net
