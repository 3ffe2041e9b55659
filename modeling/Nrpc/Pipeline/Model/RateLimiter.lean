import Nrpc.Common.Outcome
import Nrpc.Common.Text
/-!
# The rate limiter

The `RateLimiter` of `pipeline/plugin`, a before hook. It keeps the times of
the last calls it has let pass, the oldest in front, and lets a call pass
while there are fewer than its limit or when the oldest has become old
enough, whose place the call then takes. Times are numbers of nanoseconds.
-/

namespace Nrpc

namespace Pipeline

/-- The source's `RateLimiter`. -/
structure RateLimiter where
  limit : ℤ
  interval : Int64
  /-- The list `times`, front to back. -/
  times : List ℤ
  forceDisable : Bool

/-- The source's `NewRateLimiter`. -/
def newRateLimiter (limit : ℤ) (interval : Int64) (forceDisable : Bool) : RateLimiter :=
  ⟨limit, interval, [], forceDisable⟩

/-- `now.Sub(t)`: a duration holds 64 bits, and one out of their range is the
largest or the smallest there is. -/
def sub (now t : ℤ) : Int64 := Int64.ofIntClamp (now - t)

/-- The source's `shouldRateLimit`, with the limiter it leaves. `Front` of an
empty list is nil, and its value cannot be read. -/
def shouldRateLimit (r : RateLimiter) (now : ℤ) : Outcome GoString (Bool × RateLimiter) :=
  if (r.times.length : ℤ) < r.limit then
    .ok (false, { r with times := r.times ++ [now] })
  else
    match r.times with
    | [] => .panic
    | front :: rest =>
      if sub now front < r.interval then .ok (true, r)
      -- the front gets the new time and is moved to the back
      else .ok (false, { r with times := rest ++ [now] })

def errRateLimitExceeded : GoString := lit "rate limit exceeded"

/-- The source's `HandleBefore` at the time it reads: the context, the value,
and an error for a refused call if the limiter is to enforce its limit. -/
def handleBefore {C V : Type} (r : RateLimiter) (now : ℤ) (ctx : C) (value : V) :
    Outcome GoString ((C × V × Option GoString) × RateLimiter) := do
  let (limited, r) ← shouldRateLimit r now
  if limited ∧ r.forceDisable then return ((ctx, value, some errRateLimitExceeded), r)
  else return ((ctx, value, none), r)

/-- Calls of `shouldRateLimit` one after the other: what they return, and the
limiter they leave. -/
def shouldRateLimits (r : RateLimiter) :
    List ℤ → Outcome GoString (List Bool × RateLimiter)
  | [] => .ok ([], r)
  | now :: calls => do
    let (limited, r) ← shouldRateLimit r now
    let (answers, r) ← shouldRateLimits r calls
    return (limited :: answers, r)

/-- The times of the calls that were let pass. -/
def accepted (calls : List ℤ) (answers : List Bool) : List ℤ :=
  ((calls.zip answers).filter fun call => !call.2).map Prod.fst

end Pipeline

end Nrpc
