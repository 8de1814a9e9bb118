/-
  THE `rate-limit` NODE (`plugins/native/rate_limit.rs`): a bucket of tokens for each client key.

  A visit holds its bucket's entry of the map while it looks at the clock and takes a token, so the
  visits of one key take effect one after the other, at nondecreasing times.  A bucket is made full
  on the first visit of its key; the two readings of the clock on that visit are one here, as what is
  full stays full.  The numbers are exact.
-/
import Mathlib
import Featherbit.Plugins

namespace Featherbit

/-- Where the client key is taken from. -/
inductive KeySource where
  | remoteAddr
  | header (name : String)
deriving DecidableEq

/-- A token bucket. -/
structure TokenBucket where
  tokens : ℚ
  lastRefill : Nat
  maxTokens : ℚ
  refillRate : ℚ
deriving DecidableEq

/-- A time of the clock, in seconds. -/
def secondsOf (nanos : Nat) : ℚ := nanos / 1000000000

namespace TokenBucket

/-- `TokenBucket::new`. -/
def new (maxTokens refillRate : ℚ) (now : Nat) : TokenBucket where
  tokens := maxTokens
  lastRefill := now
  maxTokens := maxTokens
  refillRate := refillRate

/-- `try_consume`. -/
def tryConsume (bucket : TokenBucket) (now : Nat) : Bool × TokenBucket :=
  let elapsed := secondsOf (now - bucket.lastRefill)
  let tokens := min (bucket.tokens + elapsed * bucket.refillRate) bucket.maxTokens
  if 1 ≤ tokens then (true, { bucket with tokens := tokens - 1, lastRefill := now })
  else (false, { bucket with tokens := tokens, lastRefill := now })

end TokenBucket

/-- A configured `rate-limit` node. -/
structure RateLimitPlugin where
  requestsPerSecond : UInt64
  burst : UInt64
  keySource : KeySource

namespace RateLimitPlugin

/-- `RateLimitPlugin::from_config`. -/
def fromConfig (config : HashMap Json) : RateLimitPlugin :=
  let requestsPerSecond := (config["requests_per_second"]?.bind Json.asU64).getD 100
  { requestsPerSecond := requestsPerSecond
    burst := (config["burst"]?.bind Json.asU64).getD requestsPerSecond
    keySource :=
      match (config["key_from"]?.bind Json.asStr).bind (stripPrefix "header:") with
      | some name => .header name
      | none => .remoteAddr }

variable (plugin : RateLimitPlugin)

/-- The first value of the configured header. -/
def headerKey (ctx : Context) : Option String :=
  match plugin.keySource with
  | .remoteAddr => none
  | .header header => ctx.request.headers[header]?.bind List.head?

/-- The client key. -/
def key (ctx : Context) : String := (plugin.headerKey ctx).getD ctx.request.remoteAddr

/-- The bucket of a key, full if there is none yet. -/
def bucketOf (buckets : HashMap TokenBucket) (key : String) (now : Nat) : TokenBucket :=
  buckets[key]?.getD (.new plugin.burst.toNat plugin.requestsPerSecond.toNat now)

/-- The answer to a request too many. -/
def reject (ctx : Context) : PluginResult :=
  .error {
    context := { ctx with response := {
      statusCode := 429
      headers := (ctx.response.headers.insert "content-type" ["application/json"]).insert
        "retry-after" ["1"]
      body := asBytes
        "\x7b\"error\": \"rate_limited\", \"message\": \"Too many requests\"\x7d" } }
    error := { nodeId := "", code := "RATE_LIMITED", message := "Too many requests",
               metadata := ∅ } }

/-- `execute` at time `now`. -/
def execute (ctx : Context) (now : Nat) (buckets : HashMap TokenBucket) :
    PluginResult × HashMap TokenBucket :=
  let key := plugin.key ctx
  let (allowed, bucket) := (plugin.bucketOf buckets key now).tryConsume now
  (if allowed then .ok { context := ctx, namedOutputs := ∅ } else reject ctx,
    buckets.insert key bucket)

variable {plugin} {ctx : Context} {now : Nat} {buckets : HashMap TokenBucket}

/-- A request is admitted iff its bucket holds a token. -/
theorem execute_isOk : (plugin.execute ctx now buckets).1.isOk =
    ((plugin.bucketOf buckets (plugin.key ctx) now).tryConsume now).1 := by
  unfold execute
  dsimp only
  cases (TokenBucket.tryConsume _ now).1 <;> rfl

/-- The visit takes from the bucket of its key, and leaves every other one alone. -/
theorem execute_buckets (key : String) : (plugin.execute ctx now buckets).2[key]? =
    if key = plugin.key ctx then some ((plugin.bucketOf buckets key now).tryConsume now).2
    else buckets[key]? := by
  unfold execute
  dsimp only
  rw [HashMap.get_insert]
  by_cases h : key = plugin.key ctx
  · rw [if_pos h, if_pos h, h]
  · rw [if_neg h, if_neg h]

end RateLimitPlugin

end Featherbit
