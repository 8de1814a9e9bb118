/-
  HOW MUCH A CLIENT KEY IS LET THROUGH (`TokenBucket` and `RateLimitPlugin::execute`,
  `plugins/native/rate_limit.rs`).

  1. A bucket of the node is a bucket that refills (`tryConsume_take`), so the potential argument is the
     one of `Refill`.

  2. What holds of a key's bucket after every visit (`Accounted`): it is made full, so nothing has to be
     known about the times at which buckets are made.

  3. `tokenBucket_bound`: the level, and the number of admitted requests in every interval.
-/
import Featherbit.Lib.Refill
import Featherbit.Plugins.RateLimit

namespace Featherbit

theorem secondsOf_le {m n : Nat} : secondsOf m ≤ secondsOf n ↔ m ≤ n := by
  unfold secondsOf
  rw [div_le_div_iff_of_pos_right (by norm_num), Nat.cast_le]

theorem secondsOf_sub {m n : Nat} (h : m ≤ n) : secondsOf (n - m) = secondsOf n - secondsOf m := by
  unfold secondsOf
  rw [Nat.cast_sub h, sub_div]

namespace TokenBucket

/-- What the bucket holds, in seconds. -/
def level (bucket : TokenBucket) : Refill.Level ℚ := ⟨bucket.tokens, secondsOf bucket.lastRefill⟩

variable {bucket : TokenBucket} {now : Nat}

/-- The size and the rate of a bucket stay. -/
theorem tryConsume_frame (bucket : TokenBucket) (now : Nat) :
    (bucket.tryConsume now).2.maxTokens = bucket.maxTokens ∧
    (bucket.tryConsume now).2.refillRate = bucket.refillRate ∧
    (bucket.tryConsume now).2.lastRefill = now := by
  unfold tryConsume
  dsimp only
  split
  · exact ⟨rfl, rfl, rfl⟩
  · exact ⟨rfl, rfl, rfl⟩

/-- **Refinement.**  To consume is to take. -/
theorem tryConsume_take (h : bucket.lastRefill ≤ now) :
    (bucket.tryConsume now).1 =
        (Refill.take bucket.refillRate bucket.maxTokens bucket.level (secondsOf now)).1 ∧
      (bucket.tryConsume now).2.level =
        (Refill.take bucket.refillRate bucket.maxTokens bucket.level (secondsOf now)).2 := by
  have hrefilled : Refill.refilled bucket.refillRate bucket.maxTokens bucket.level (secondsOf now) =
      min (bucket.tokens + secondsOf (now - bucket.lastRefill) * bucket.refillRate)
        bucket.maxTokens := by
    rw [secondsOf_sub h]
    rfl
  unfold Refill.take
  rw [hrefilled]
  unfold tryConsume
  dsimp only
  split
  · exact ⟨rfl, rfl⟩
  · exact ⟨rfl, rfl⟩

end TokenBucket

namespace RateLimitPlugin

section Bound

variable (plugin : RateLimitPlugin)

/-- The buckets after some visits of the node. -/
def after (visits : List (Nat × Context)) : HashMap TokenBucket :=
  visits.foldl (fun buckets visit => (plugin.execute visit.2 visit.1 buckets).2) ∅

/-- The visit is one of the key between `start` and `stop`, and it is let through. -/
def Admits (key : String) (start stop : Nat) (buckets : HashMap TokenBucket) (visit : Nat × Context) :
    Prop :=
  plugin.key visit.2 = key ∧ start ≤ visit.1 ∧ visit.1 ≤ stop ∧
    (plugin.execute visit.2 visit.1 buckets).1.isOk = true

instance (key : String) (start stop : Nat) (buckets : HashMap TokenBucket) (visit : Nat × Context) :
    Decidable (plugin.Admits key start stop buckets visit) := inferInstanceAs (Decidable (_ ∧ _))

/-- How many visits of the key are let through between `start` and `stop`. -/
def admitted (key : String) (start stop : Nat) :
    HashMap TokenBucket → List (Nat × Context) → Nat
  | _, [] => 0
  | buckets, visit :: visits =>
    (if plugin.Admits key start stop buckets visit then 1 else 0) +
      admitted key start stop (plugin.execute visit.2 visit.1 buckets).2 visits

/-- What holds of a key's bucket at `now`, when `n` of its requests were let through since `start`. -/
def Accounted (key : String) (start : Nat) (buckets : HashMap TokenBucket) (now n : Nat) : Prop :=
  (buckets[key]? = none → n = 0) ∧
    ∀ bucket, buckets[key]? = some bucket →
      bucket.maxTokens = plugin.burst.toNat ∧ bucket.refillRate = plugin.requestsPerSecond.toNat ∧
      bucket.lastRefill ≤ now ∧ Refill.Within (plugin.burst.toNat : ℚ) bucket.level ∧
      Refill.Spent (plugin.requestsPerSecond.toNat : ℚ) plugin.burst.toNat (secondsOf start)
        bucket.level n

variable {plugin} {key : String} {start stop now n : Nat} {buckets : HashMap TokenBucket}

theorem rate_nonneg : 0 ≤ (plugin.requestsPerSecond.toNat : ℚ) := Nat.cast_nonneg _

/-- The bucket that a visit finds, a full one where there is none. -/
theorem Accounted.bucketOf (h : plugin.Accounted key start buckets now n) {t : Nat} (ht : now ≤ t) :
    (plugin.bucketOf buckets key t).maxTokens = plugin.burst.toNat ∧
    (plugin.bucketOf buckets key t).refillRate = plugin.requestsPerSecond.toNat ∧
    (plugin.bucketOf buckets key t).lastRefill ≤ t ∧
    Refill.Within (plugin.burst.toNat : ℚ) (plugin.bucketOf buckets key t).level ∧
    Refill.Spent (plugin.requestsPerSecond.toNat : ℚ) plugin.burst.toNat (secondsOf start)
      (plugin.bucketOf buckets key t).level n := by
  unfold RateLimitPlugin.bucketOf
  cases hbucket : buckets[key]? with
  | none =>
    rw [h.1 hbucket]
    have hfull : Refill.Within (plugin.burst.toNat : ℚ) ⟨plugin.burst.toNat, secondsOf t⟩ :=
      ⟨Nat.cast_nonneg _, le_refl _⟩
    exact ⟨rfl, rfl, Nat.le_refl t, hfull, Refill.spent_full rate_nonneg _ _⟩
  | some bucket =>
    obtain ⟨hmax, hrate, hlast, hwithin, hspent⟩ := h.2 bucket hbucket
    exact ⟨hmax, hrate, hlast.trans ht, hwithin, hspent⟩

/-- One visit. -/
theorem accounted_step (h : plugin.Accounted key start buckets now n) {visit : Nat × Context}
    (ht : now ≤ visit.1) (hstop : visit.1 ≤ stop) :
    plugin.Accounted key start (plugin.execute visit.2 visit.1 buckets).2 visit.1
      (n + if plugin.Admits key start stop buckets visit then 1 else 0) := by
  obtain ⟨t, ctx⟩ := visit
  dsimp only at ht hstop ⊢
  by_cases hkey : key = plugin.key ctx
  · obtain ⟨hmax, hrate, hlast, hwithin, hspent⟩ := h.bucketOf ht
    obtain ⟨htaken, hlevel⟩ := TokenBucket.tryConsume_take hlast
    obtain ⟨hmax', hrate', hlast'⟩ := TokenBucket.tryConsume_frame
      (plugin.bucketOf buckets key t) t
    have htime := secondsOf_le.mpr hlast
    rw [hmax, hrate] at htaken hlevel
    unfold Accounted
    rw [execute_buckets, if_pos hkey]
    refine ⟨fun hnone => (nomatch hnone), fun bucket hbucket => ?_⟩
    obtain rfl := Option.some.inj hbucket
    refine ⟨hmax'.trans hmax, hrate'.trans hrate, hlast'.le, ?_, ?_⟩
    · rw [hlevel]
      exact Refill.take_within rate_nonneg hwithin htime
    · rw [hlevel]
      have hspent' := Refill.spent_take rate_nonneg htime hspent
      have hcount : (if secondsOf start ≤ secondsOf t then n + Refill.taken
            (plugin.requestsPerSecond.toNat : ℚ) plugin.burst.toNat
            (plugin.bucketOf buckets key t).level (secondsOf t) else n) =
          n + if plugin.Admits key start stop buckets (t, ctx) then 1 else 0 := by
        have hadmits : plugin.Admits key start stop buckets (t, ctx) ↔ start ≤ t ∧
            ((plugin.bucketOf buckets key t).tryConsume t).1 = true := by
          unfold Admits
          rw [execute_isOk, ← hkey]
          exact ⟨fun h => ⟨h.2.1, h.2.2.2⟩, fun h => ⟨rfl, h.1, hstop, h.2⟩⟩
        unfold Refill.taken
        rw [← htaken]
        by_cases hstart : start ≤ t
        · rw [if_pos (secondsOf_le.mpr hstart)]
          congr 1
          exact if_congr (by rw [hadmits]; exact (and_iff_right hstart).symm) rfl rfl
        · rw [if_neg (fun hle => hstart (secondsOf_le.mp hle)),
            if_neg (fun h => hstart (hadmits.mp h).1), Nat.add_zero]
      rw [← hcount]
      exact hspent'
  · have hnot : ¬ plugin.Admits key start stop buckets (t, ctx) := fun hadmits => hkey hadmits.1.symm
    unfold Accounted
    rw [execute_buckets, if_neg hkey, if_neg hnot]
    refine ⟨h.1, fun bucket hbucket => ?_⟩
    obtain ⟨hmax, hrate, hlast, hrest⟩ := h.2 bucket hbucket
    exact ⟨hmax, hrate, hlast.trans ht, hrest⟩

/-- A run. -/
theorem accounted_run {visits : List (Nat × Context)} (hsorted : visits.Pairwise fun a b => a.1 ≤ b.1)
    (hfrom : ∀ visit ∈ visits, now ≤ visit.1) (hstop : ∀ visit ∈ visits, visit.1 ≤ stop)
    (h : plugin.Accounted key start buckets now n) (hnow : now ≤ stop) :
    ∃ last, last ≤ stop ∧ plugin.Accounted key start
      (visits.foldl (fun buckets visit => (plugin.execute visit.2 visit.1 buckets).2) buckets) last
      (n + plugin.admitted key start stop buckets visits) := by
  induction visits generalizing buckets now n with
  | nil => exact ⟨now, hnow, h⟩
  | cons visit visits ih =>
    obtain ⟨hfirst, hsorted⟩ := List.pairwise_cons.mp hsorted
    have hle := hstop visit List.mem_cons_self
    have hstep := accounted_step h (hfrom visit List.mem_cons_self) hle
    obtain ⟨last, hlast, hrest⟩ := ih hsorted hfirst
      (fun v hv => hstop v (List.mem_cons_of_mem _ hv)) hstep hle
    refine ⟨last, hlast, ?_⟩
    rw [List.foldl_cons, admitted, ← Nat.add_assoc]
    exact hrest

theorem admitted_append (early late : List (Nat × Context)) :
    plugin.admitted key start stop buckets (early ++ late) =
      plugin.admitted key start stop buckets early + plugin.admitted key start stop
        (early.foldl (fun buckets visit => (plugin.execute visit.2 visit.1 buckets).2) buckets) late := by
  induction early generalizing buckets with
  | nil => exact (Nat.zero_add _).symm
  | cons visit early ih =>
    rw [List.cons_append, admitted, ih, admitted, List.foldl_cons, Nat.add_assoc]

/-- After the interval nothing is counted. -/
theorem admitted_late {late : List (Nat × Context)} (hlate : ∀ visit ∈ late, stop < visit.1) :
    plugin.admitted key start stop buckets late = 0 := by
  induction late generalizing buckets with
  | nil => rfl
  | cons visit late ih =>
    have hfirst := hlate visit List.mem_cons_self
    rw [admitted, if_neg fun h => Nat.not_le.mpr hfirst h.2.2.1,
      ih fun v hv => hlate v (List.mem_cons_of_mem _ hv)]

/-- The visits up to a time come first. -/
theorem exists_early {visits : List (Nat × Context)} (hsorted : visits.Pairwise fun a b => a.1 ≤ b.1)
    (stop : Nat) : ∃ early late, visits = early ++ late ∧ (∀ visit ∈ early, visit.1 ≤ stop) ∧
      ∀ visit ∈ late, stop < visit.1 := by
  induction visits with
  | nil => exact ⟨[], [], rfl, by simp, by simp⟩
  | cons visit visits ih =>
    obtain ⟨hfirst, hsorted⟩ := List.pairwise_cons.mp hsorted
    by_cases hle : visit.1 ≤ stop
    · obtain ⟨early, late, rfl, hearly, hlate⟩ := ih hsorted
      exact ⟨visit :: early, late, rfl, by simpa using ⟨hle, fun a b hb => hearly (a, b) hb⟩, hlate⟩
    · refine ⟨[], visit :: visits, rfl, by simp, fun v hv => ?_⟩
      rcases List.mem_cons.mp hv with rfl | hv
      · exact Nat.not_le.mp hle
      · exact Nat.lt_of_lt_of_le (Nat.not_le.mp hle) (hfirst v hv)

/-- Nothing was let through yet. -/
theorem accounted_start (plugin : RateLimitPlugin) (key : String) (start : Nat) :
    plugin.Accounted key start ∅ 0 0 :=
  ⟨fun _ => rfl, fun bucket hbucket => by rw [Std.ExtTreeMap.getElem?_empty] at hbucket; nomatch hbucket⟩

end Bound

/-- **The bound.**  For every burst and rate and every visits of the node at nondecreasing times, by any
    clients: the level of a bucket is between 0 and the burst, and in an interval of `T` seconds no more than
    `burst + rate * T` requests of a key are let through. -/
theorem tokenBucket_bound (plugin : RateLimitPlugin) {visits : List (Nat × Context)}
    (hsorted : visits.Pairwise fun a b => a.1 ≤ b.1) (key : String) :
    (∀ bucket, (plugin.after visits)[key]? = some bucket →
      0 ≤ bucket.tokens ∧ bucket.tokens ≤ plugin.burst.toNat) ∧
    ∀ start stop, start ≤ stop → (plugin.admitted key start stop ∅ visits : ℚ) ≤
      plugin.burst.toNat + plugin.requestsPerSecond.toNat * secondsOf (stop - start) := by
  constructor
  · intro bucket hbucket
    have hstop : ∀ visit ∈ visits, visit.1 ≤ (visits.map Prod.fst).sum := fun visit hvisit =>
      List.le_sum_of_mem (List.mem_map_of_mem hvisit)
    obtain ⟨last, -, hrest⟩ := accounted_run hsorted (fun _ _ => Nat.zero_le _) hstop
      (accounted_start plugin key 0) (Nat.zero_le _)
    obtain ⟨-, -, -, hwithin, -⟩ := hrest.2 bucket hbucket
    exact hwithin
  · intro start stop hspan
    obtain ⟨early, late, rfl, hearly, hlate⟩ := exists_early hsorted stop
    obtain ⟨last, hlast, hrest⟩ := accounted_run (List.pairwise_append.mp hsorted).1
      (fun _ _ => Nat.zero_le _) hearly
      (accounted_start plugin key start) (Nat.zero_le _)
    rw [admitted_append, admitted_late hlate, Nat.add_zero, secondsOf_sub hspan]
    rw [Nat.zero_add] at hrest
    obtain ⟨-, -, hbefore, hwithin, hspent⟩ := hrest.bucketOf hlast
    exact hspent.le rate_nonneg hwithin (secondsOf_le.mpr hspan) (secondsOf_le.mpr hbefore)

/-- Three requests at once, of which two are let through, and one two seconds later. -/
theorem tokenBucket_bound_rush :
    let plugin : RateLimitPlugin := ⟨1, 2, .remoteAddr⟩
    let ctx := Context.new { (default : GatewayRequest) with remoteAddr := "10.1.2.3:44321" }
    let visits := [(0, ctx), (0, ctx), (0, ctx), (2000000000, ctx)]
    plugin.admitted "10.1.2.3:44321" 0 0 ∅ visits = 2 ∧
    (∀ bucket, (plugin.after visits)["10.1.2.3:44321"]? = some bucket →
      0 ≤ bucket.tokens ∧ bucket.tokens ≤ 2) ∧
    ∀ start stop, start ≤ stop → (plugin.admitted "10.1.2.3:44321" start stop ∅ visits : ℚ) ≤
      2 + 1 * secondsOf (stop - start) := by
  intro plugin ctx visits
  have hsorted : visits.Pairwise fun a b => a.1 ≤ b.1 := by
    simp [visits]
  exact ⟨by decide +kernel, plugin.tokenBucket_bound hsorted "10.1.2.3:44321"⟩

end RateLimitPlugin

end Featherbit
