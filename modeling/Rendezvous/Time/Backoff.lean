import Rendezvous.Time.Duration

namespace Rendezvous

structure Backoff where
  base : Duration := .ofSeconds 1
  max : Duration := .ofSeconds 30
deriving DecidableEq

namespace Backoff

def maxDoublings : Nat := 31

def factor (attempt : Nat) : UInt32 := 1 <<< (min attempt maxDoublings).toUInt32

def delay (b : Backoff) (attempt : Nat) : Duration :=
  (b.base.scale (factor attempt)).shorter b.max

end Backoff
end Rendezvous
