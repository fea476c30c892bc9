import Rendezvous.Control.LineReader
import Rendezvous.Network.Stream

namespace Rendezvous

abbrev Arrivals := List (Except Fault Bytes)

namespace Arrivals

def untilFault : Arrivals → Bytes
  | [] => []
  | .error _ :: _ => []
  | .ok bs :: rest => bs ++ untilFault rest

def readOn (maxLength : Nat) :
    LineReader → Arrivals → Except Error (String × Bytes) × Arrivals
  | _, [] => (.error (.protocol .closedEarly), [])
  | _, .error e :: rest => (.error (.fault e), rest)
  | r, .ok bs :: rest =>
    match r.push maxLength bs with
    | .line text beyond => (.ok (text, beyond), rest)
    | .refused cause => (.error (.protocol cause), rest)
    | .incomplete r => readOn maxLength r rest

def readLine (maxLength : Nat) (as : Arrivals) : Except Error (String × Bytes) × Arrivals :=
  readOn maxLength {} as

end Arrivals

namespace Stream

inductive LineResult where
  | waits
  | fails (cause : Error)
  | line (text : String)
deriving DecidableEq

def readLineOn (maxLength : Nat) :
    Nat → LineReader → Stream → Connections → LineResult × Stream × Connections
  | 0, _, s, cs => (.waits, s, cs)
  | bound + 1, r, s, cs =>
    match s.read cs r.room with
    | .waits => (.waits, s, cs)
    | .fails e => (.fails (.fault e), s, cs)
    | .done ([], s, cs) => (.fails (.protocol .closedEarly), s, cs)
    | .done (bs, s, cs) =>
      match r.push maxLength bs with
      | .line text rest => (.line text, s.unread rest, cs)
      | .refused cause => (.fails (.protocol cause), s, cs)
      | .incomplete r => readLineOn maxLength bound r s cs

-- Reads one line, and puts back what was read beyond it. If the line is not there yet or is
-- refused, what was read of it is lost.
def readLine (maxLength : Nat) (s : Stream) (cs : Connections) :
    LineResult × Stream × Connections :=
  readLineOn maxLength ((s.content cs).length + 1) {} s cs

end Stream
end Rendezvous
