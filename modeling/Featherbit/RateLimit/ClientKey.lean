/-
  WHICH BUCKET A CLIENT'S REQUESTS SHARE (`RateLimitPlugin::execute`, `plugins/native/rate_limit.rs`).

  Without a key header the key is `remote_addr`, the address of the socket as it is printed: with the
  port of the connection, which `$remote_addr`, the key of a `limit-count` node, does without.

  Two requests share a bucket when either would do the same to the buckets (`SameBucket`).
  `sameBucket_iff`: for two addresses of one IP that is so exactly when port and zone are the same too, and
  otherwise the second request finds its bucket as if the first had not come (`execute_apart`).
-/
import Featherbit.Plugins.RateLimit
import Featherbit.Rust.SocketAddr

namespace Featherbit

namespace RateLimitPlugin

section SameBucket

variable (plugin : RateLimitPlugin)

/-- Either request is answered alike and leaves the same buckets, whatever the buckets are. -/
def SameBucket (ctx ctx' : Context) : Prop :=
  ∀ now buckets, (plugin.execute ctx now buckets).1.isOk = (plugin.execute ctx' now buckets).1.isOk ∧
    (plugin.execute ctx now buckets).2 = (plugin.execute ctx' now buckets).2

variable {plugin} {ctx ctx' : Context}

theorem sameBucket_iff_key : plugin.SameBucket ctx ctx' ↔ plugin.key ctx = plugin.key ctx' := by
  constructor
  · intro h
    by_contra hne
    -- the bucket that the first one makes
    have hbuckets := congrArg (fun buckets : HashMap TokenBucket => buckets[plugin.key ctx]?) (h 0 ∅).2
    rw [execute_buckets, execute_buckets, if_pos rfl, if_neg hne] at hbuckets
    rw [Std.ExtTreeMap.getElem?_empty] at hbuckets
    nomatch hbuckets
  · intro h now buckets
    refine ⟨?_, ?_⟩
    · rw [execute_isOk, execute_isOk, h]
    · unfold execute
      rw [h]

/-- A request under another key changes nothing for this one. -/
theorem execute_apart (hkey : plugin.key ctx ≠ plugin.key ctx') (now now' : Nat)
    (buckets : HashMap TokenBucket) :
    (plugin.execute ctx' now' (plugin.execute ctx now buckets).2).1 =
      (plugin.execute ctx' now' buckets).1 := by
  have hbucket : plugin.bucketOf (plugin.execute ctx now buckets).2 (plugin.key ctx') now' =
      plugin.bucketOf buckets (plugin.key ctx') now' := by
    unfold bucketOf
    rw [execute_buckets, if_neg hkey.symm]
  unfold execute at hbucket ⊢
  dsimp only at hbucket ⊢
  rw [hbucket]

/-- **The client key.**  Two requests without the key header, from sockets of one IP, share a bucket exactly
    when their ports are the same, and their zones; and where they do not, the one changes nothing for the
    other. -/
theorem sameBucket_iff {addr addr' : SocketAddr} (hip : addr.ip = addr'.ip)
    (haddr : ctx.request.remoteAddr = addr.display) (haddr' : ctx'.request.remoteAddr = addr'.display)
    (hheader : plugin.headerKey ctx = none) (hheader' : plugin.headerKey ctx' = none) :
    (plugin.SameBucket ctx ctx' ↔ addr.port = addr'.port ∧ addr.scopeId = addr'.scopeId) ∧
    (¬ plugin.SameBucket ctx ctx' → ∀ now now' buckets,
      (plugin.execute ctx' now' (plugin.execute ctx now buckets).2).1 =
        (plugin.execute ctx' now' buckets).1) := by
  have hkey : plugin.key ctx = addr.display := by
    unfold key
    rw [hheader, haddr]
    rfl
  have hkey' : plugin.key ctx' = addr'.display := by
    unfold key
    rw [hheader', haddr']
    rfl
  constructor
  · rw [sameBucket_iff_key, hkey, hkey']
    exact SocketAddr.display_eq_iff hip
  · intro hne now now' buckets
    exact execute_apart (fun h => hne (sameBucket_iff_key.mpr h)) now now' buckets

/-- The defaults, and two requests of one connection. -/
theorem sameBucket_iff_keepAlive :
    let addr := SocketAddr.v4 ⟨10, 1, 2, 3⟩ 44321
    let ctx := Context.new { (default : GatewayRequest) with remoteAddr := "10.1.2.3:44321" }
    ((fromConfig ∅).SameBucket ctx ctx ↔ addr.port = addr.port ∧ addr.scopeId = addr.scopeId) ∧
    (¬ (fromConfig ∅).SameBucket ctx ctx → ∀ now now' buckets,
      ((fromConfig ∅).execute ctx now' ((fromConfig ∅).execute ctx now buckets).2).1 =
        ((fromConfig ∅).execute ctx now' buckets).1) := by
  intro addr ctx
  have haddr : ctx.request.remoteAddr = addr.display := by decide
  exact sameBucket_iff rfl haddr haddr rfl rfl

/-- One client with two connections, and a bucket of one token: both requests are let through. -/
theorem two_connections_two_buckets :
    let plugin : RateLimitPlugin := ⟨1, 1, .remoteAddr⟩
    let ctx := Context.new
      { (default : GatewayRequest) with remoteAddr := (SocketAddr.v4 ⟨10, 1, 2, 3⟩ 44321).display }
    let ctx' := Context.new
      { (default : GatewayRequest) with remoteAddr := (SocketAddr.v4 ⟨10, 1, 2, 3⟩ 44322).display }
    ¬ plugin.SameBucket ctx ctx' ∧
    (plugin.execute ctx 0 (plugin.execute ctx 0 ∅).2).1.isOk = false ∧
    (plugin.execute ctx' 0 (plugin.execute ctx 0 ∅).2).1.isOk = true := by
  intro plugin ctx ctx'
  refine ⟨fun h => ?_, by decide +kernel, by decide +kernel⟩
  have hkey := sameBucket_iff_key.mp h
  revert hkey
  decide

end SameBucket

end RateLimitPlugin

end Featherbit
