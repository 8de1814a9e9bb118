/-
  SOCKET ADDRESSES (`std::net`), as they are printed.

  An IPv6 address stands in brackets, with its zone after a `%` where there is one; the port is what follows
  the last colon.  Two addresses of one IP print alike exactly when they have the same port and the same
  zone (`display_eq_iff`); the flow information is not printed.
-/
import Featherbit.Lib.Split
import Featherbit.Rust.IpAddr
import Featherbit.Rust.Std

namespace Featherbit

/-- `SocketAddr`. -/
inductive SocketAddr where
  | v4 (ip : Ipv4Addr) (port : UInt16)
  | v6 (ip : Ipv6Addr) (port : UInt16) (flowinfo scopeId : UInt32)
deriving DecidableEq

namespace SocketAddr

def ip : SocketAddr → IpAddr
  | v4 ip _ => .v4 ip
  | v6 ip _ _ _ => .v6 ip

def port : SocketAddr → UInt16
  | v4 _ port => port
  | v6 _ port _ _ => port

/-- The zone of an IPv6 address; no other address has one. -/
def scopeId : SocketAddr → UInt32
  | v4 _ _ => 0
  | v6 _ _ _ scopeId => scopeId

/-- The zone as it is printed. -/
def zoneText (scopeId : UInt32) : String := if scopeId = 0 then "" else "%" ++ showNat scopeId.toNat

/-- `Display for SocketAddr`. -/
def display : SocketAddr → String
  | v4 ip port => (IpAddr.v4 ip).display ++ ":" ++ showNat port.toNat
  | v6 ip port _ scopeId =>
    "[" ++ (IpAddr.v6 ip).display ++ zoneText scopeId ++ "]:" ++ showNat port.toNat

example : (v4 ⟨10, 1, 2, 3⟩ 44321).display = "10.1.2.3:44321" := by decide

theorem append_right_inj {s t u : String} : s ++ t = s ++ u ↔ t = u := by
  constructor
  · intro h
    have hlist := congrArg String.toList h
    rw [String.toList_append, String.toList_append] at hlist
    exact String.toList_inj.mp (List.append_cancel_left hlist)
  · rintro rfl
    rfl

/-- No bracket stands in a zone. -/
theorem bracket_not_mem_zoneText (scope : UInt32) : ']' ∉ (zoneText scope).toList := by
  unfold zoneText
  split
  · exact List.not_mem_nil
  · intro hmem
    rw [String.toList_append] at hmem
    rcases List.mem_append.mp hmem with hmem | hmem
    · exact absurd hmem (by decide)
    · exact not_mem_showNat (by decide) _ hmem

theorem zoneText_inj {scope scope' : UInt32} (h : zoneText scope = zoneText scope') : scope = scope' := by
  have hempty : ∀ n, "%" ++ showNat n ≠ "" := by
    intro n heq
    have hlist := congrArg String.toList heq
    rw [String.toList_append] at hlist
    exact absurd hlist (List.append_ne_nil_of_left_ne_nil (by decide) _)
  unfold zoneText at h
  by_cases hzero : scope = 0
  · by_cases hzero' : scope' = 0
    · rw [hzero, hzero']
    · rw [if_pos hzero, if_neg hzero'] at h
      exact absurd h.symm (hempty _)
  · by_cases hzero' : scope' = 0
    · rw [if_neg hzero, if_pos hzero'] at h
      exact absurd h (hempty _)
    · rw [if_neg hzero, if_neg hzero', append_right_inj, showNat_inj] at h
      exact UInt32.toNat_inj.mp h

/-- What stands after the IP of an IPv6 address can be read back. -/
theorem afterIp_inj {scope scope' : UInt32} {port port' : UInt16} :
    zoneText scope ++ ("]:" ++ showNat port.toNat) = zoneText scope' ++ ("]:" ++ showNat port'.toNat) ↔
      port = port' ∧ scope = scope' := by
  constructor
  · intro h
    have hcut : ∀ (scope : UInt32) (text : String),
        Split.splitOnce ']' (zoneText scope ++ ("]:" ++ text)).toList =
          some ((zoneText scope).toList, ':' :: text.toList) := by
      intro scope text
      rw [String.toList_append, String.toList_append]
      exact Split.splitOnce_append (bracket_not_mem_zoneText scope) _
    have hparts := hcut scope (showNat port.toNat)
    rw [h, hcut] at hparts
    obtain ⟨hzone, hport⟩ := Prod.mk.inj (Option.some.inj hparts)
    refine ⟨?_, (zoneText_inj (String.toList_inj.mp hzone)).symm⟩
    exact UInt16.toNat_inj.mp (showNat_inj.mp (String.toList_inj.mp (List.cons.inj hport).2)).symm
  · rintro ⟨rfl, rfl⟩
    rfl

theorem display_v6 (ip : Ipv6Addr) (port : UInt16) (flowinfo scopeId : UInt32) :
    (v6 ip port flowinfo scopeId).display = ("[" ++ (IpAddr.v6 ip).display) ++
      (zoneText scopeId ++ ("]:" ++ showNat port.toNat)) := by
  show "[" ++ (IpAddr.v6 ip).display ++ zoneText scopeId ++ "]:" ++ showNat port.toNat = _
  rw [String.append_assoc, String.append_assoc]

/-- **Same IP.**  Two addresses of one IP print alike iff port and zone are the same. -/
theorem display_eq_iff {addr addr' : SocketAddr} (h : addr.ip = addr'.ip) :
    addr.display = addr'.display ↔ addr.port = addr'.port ∧ addr.scopeId = addr'.scopeId := by
  cases addr with
  | v4 ip port =>
    cases addr' with
    | v4 ip' port' =>
      cases h
      unfold display
      rw [append_right_inj, showNat_inj, UInt16.toNat_inj]
      exact (and_iff_left rfl).symm
    | v6 ip' port' flowinfo' scopeId' => nomatch h
  | v6 ip port flowinfo scopeId =>
    cases addr' with
    | v4 ip' port' => nomatch h
    | v6 ip' port' flowinfo' scopeId' =>
      cases h
      rw [display_v6, display_v6, append_right_inj]
      exact afterIp_inj

end SocketAddr

end Featherbit
