import Frp.Str

/-!
# Delays between retries

`fastBackoffImpl.Backoff` of `pkg/util/wait/backoff.go`, in nanoseconds since the zero `Time`.
The arithmetic with floats is left open: `scale` multiplies by `Factor`, and `jitter` is what
the random numbers of one call make of a duration.
-/

namespace Frp

structure BackoffOptions where
  duration : Int
  scale : Int → Int
  maxDuration : Int
  initDurationIfFail : Int
  fastRetryCount : Int
  fastRetryDelay : Int
  fastRetryWindow : Int

structure BackoffCall where
  previousDuration : Int
  previousConditionError : Bool
  now : Int
  jitter : Int → Int
  now_pos : 0 < now

/-- The delay a call returns, and how it came to it: at the first call, as a fast retry, after an
error or after a success. -/
inductive BackoffOutcome
  | first (delay : Int)
  | fast (delay : Int)
  | slow (delay : Int) (reset : Bool)
  | normal (delay : Int)

namespace BackoffOutcome

def delay : BackoffOutcome → Int
  | first delay | fast delay | slow delay _ | normal delay => delay

def isFast : BackoffOutcome → Bool
  | fast _ => true
  | first _ | slow _ _ | normal _ => false

def isReset : BackoffOutcome → Bool
  | slow _ reset => reset
  | first _ | fast _ | normal _ => false

end BackoffOutcome

structure FastBackoff where
  lastCalledTime : Int := 0
  consecutiveErrCount : Nat := 0
  fastRetryCutoffTime : Int := 0
  countsInFastRetryWindow : Nat := 1

namespace BackoffOptions

def uncapped (o : BackoffOptions) (consecutiveErrCount : Nat) (c : BackoffCall) : Int :=
  c.jitter (o.scale (emptyOr
    (if consecutiveErrCount = 1 then emptyOr o.initDurationIfFail c.previousDuration else c.previousDuration)
    1000000000))

def slowDelay (o : BackoffOptions) (consecutiveErrCount : Nat) (c : BackoffCall) : Int :=
  if o.maxDuration > 0 ∧ o.uncapped consecutiveErrCount c > o.maxDuration then o.maxDuration
  else o.uncapped consecutiveErrCount c

def retry (o : BackoffOptions) (f : FastBackoff) (c : BackoffCall) : FastBackoff × BackoffOutcome :=
  if f.countsInFastRetryWindow ≤ o.fastRetryCount then (f, .fast (c.jitter o.fastRetryDelay))
  else if c.now > f.fastRetryCutoffTime then
    ({ f with fastRetryCutoffTime := c.now + o.fastRetryWindow, countsInFastRetryWindow := 0 },
      .slow (o.slowDelay f.consecutiveErrCount c) true)
  else (f, .slow (o.slowDelay f.consecutiveErrCount c) false)

def backoff (o : BackoffOptions) (f : FastBackoff) (c : BackoffCall) : FastBackoff × BackoffOutcome :=
  if f.lastCalledTime = 0 then ({ f with lastCalledTime := c.now }, .first o.duration)
  else if c.previousConditionError then
    if o.fastRetryCount > 0 then
      o.retry ⟨c.now, f.consecutiveErrCount + 1, f.fastRetryCutoffTime, f.countsInFastRetryWindow + 1⟩ c
    else
      ({ f with lastCalledTime := c.now, consecutiveErrCount := f.consecutiveErrCount + 1 },
        .slow (o.slowDelay (f.consecutiveErrCount + 1) c) false)
  else ({ f with lastCalledTime := c.now, consecutiveErrCount := 0 }, .normal o.duration)

def run (o : BackoffOptions) : FastBackoff → List BackoffCall → List (BackoffCall × BackoffOutcome)
  | _, [] => []
  | f, c :: rest => (c, (o.backoff f c).2) :: o.run (o.backoff f c).1 rest

end BackoffOptions

end Frp
