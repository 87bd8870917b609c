import Chargeback.Time.Instant

/-!
# The schedule of uploads

Uploads take place at a fixed interval. While they fail, the pauses between them
double up to a bound; a jitter on top of every pause spreads the retries of
several programs.

## Main definitions

* `UploadSettings`: batch size, interval, bound and jitter.
* `UploadSettings.backoff`: the pause after a number of failures.
* `UploadSettings.jitterAt`: what is added to a pause at a given time.
-/

namespace Chargeback

/-- The settings of the upload loop. Times are in milliseconds. -/
structure UploadSettings where
  batchSize : Nat := 50
  interval : Nat := 10000
  maxBackoff : Nat := 300000
  requestTimeout : Nat := 30000
  jitter : Nat := 1000
deriving DecidableEq, Repr

/-- Nanoseconds since the start of 1970, as a word of 64 bits counts them; zero for
earlier times. -/
def Instant.clockNanos (t : Instant) : Nat :=
  (t.seconds * 1000000000 + t.nanos).toNat % UInt64.size

namespace UploadSettings

/-- The pause after a number of failures without a success in between. It doubles
sixteen times at most, and is never longer than the bound nor shorter than the
interval. -/
def backoff (s : UploadSettings) (failures : Nat) : Nat :=
  min (s.interval * Nat.pow 2 (min failures 16)) (max s.maxBackoff s.interval)

/-- What is added to a pause at a given time: the clock spreads the retries. -/
def jitterAt (s : UploadSettings) (now : Instant) : Nat :=
  if s.jitter = 0 then 0 else now.clockNanos % s.jitter

/-- The pause at a given time after a number of failures. The sum has no bound here. A timer
that counts seconds in a word of 64 bits panics on a sum that it cannot hold, so this is its
pause as long as `max maxBackoff interval` and `jitter` together are less than `2 ^ 64` seconds. -/
def pause (s : UploadSettings) (failures : Nat) (now : Instant) : Nat :=
  s.backoff failures + s.jitterAt now

end UploadSettings

end Chargeback
