import Mathlib.Data.Rat.Floor

/-!
# The rate limit of the gateway

The token bucket of `gateway/lua/middleware/quota_check.lua`, for one tenant and operation.
Numbers are exact, and requests are handled one at a time. The two entries of the shared
dictionary, for the tokens and for the time of the last refill, are always set together, to
expire after the same 60 seconds.
-/

namespace WslVault.Gateway

def burstRatio : ℚ := 11 / 10

structure Bucket where
  tokens : ℚ
  lastTs : ℚ

/-- `dict:get` of both entries. -/
def getBucket (dict : Option Bucket) (now : ℚ) : Option Bucket :=
  dict.filter fun b => now - b.lastTs ≤ 60

structure Verdict where
  allowed : Bool
  remaining : ℚ
  capacity : ℚ

def tokenBucketCheck (rate : ℚ) (dict : Option Bucket) (now : ℚ) : Option Bucket × Verdict :=
  let burstCap := rate * burstRatio
  match getBucket dict now with
  | none => (some ⟨burstCap - 1, now⟩, ⟨true, burstCap - 1, burstCap⟩)
  | some b =>
    let elapsed := now - b.lastTs
    let refilled := min (b.tokens + elapsed * rate) burstCap
    if refilled < 1 then (some ⟨refilled, now⟩, ⟨false, refilled, burstCap⟩)
    else (some ⟨refilled - 1, now⟩, ⟨true, refilled - 1, burstCap⟩)

def retryAfterSeconds (remaining rate : ℚ) : ℤ :=
  if rate ≤ 0 then 1 else max 1 ⌈(1 - remaining) / rate⌉

end WslVault.Gateway
