import Rendezvous.Time.Duration

namespace Rendezvous

def defaultBufferSize : Nat := 4096

def defaultMaxLineLength : Nat := 1024

-- The settings of a broker. Buffers are taken to fit the memory: that none can be had beyond half the
-- address space is left out.
structure Config where
  identificationTimeout : Duration := .ofSeconds 30
  keepaliveInterval : Duration := .ofSeconds 30
  maxMissedKeepalives : Nat := 4
  bufferSize : Nat := defaultBufferSize
  maxLineLength : Nat := defaultMaxLineLength
  maxPendingBytes : Nat := 65536
deriving DecidableEq

end Rendezvous
