/-
  NETWORKS OF IP ADDRESSES (the `ipnet` crate): an address and how many of its bits count.
-/
import Featherbit.Rust.IpAddr

namespace Featherbit

namespace IpAddr

/-- The bits of an address of the family. -/
def width : IpAddr → Nat
  | v4 _ => 32
  | v6 _ => 128

/-- `u32::from`, `u128::from`. -/
def value : IpAddr → Nat
  | v4 addr => ((addr.a.toNat * 256 + addr.b.toNat) * 256 + addr.c.toNat) * 256 + addr.d.toNat
  | v6 addr => addr.segments.foldl (fun n segment => n * 65536 + segment.toNat) 0

end IpAddr

/-- A network: an address and how many of its bits count. -/
structure Network where
  net : IpAddr
  bits : Nat
  bits_le : bits ≤ net.width
deriving DecidableEq

/-- The address is in the network: it is of its family and agrees with it in the first bits. -/
def Network.Contains (n : Network) (ip : IpAddr) : Prop :=
  n.net.width = ip.width ∧
    n.net.value / 2 ^ (n.net.width - n.bits) = ip.value / 2 ^ (n.net.width - n.bits)

instance (n : Network) (ip : IpAddr) : Decidable (n.Contains ip) :=
  inferInstanceAs (Decidable (_ ∧ _))

/-- `s.parse::<IpNet>()` of the `ipnet` crate. -/
class IpNetParser where
  parse : String → Option Network

end Featherbit
