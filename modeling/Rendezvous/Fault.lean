namespace Rendezvous

inductive FaultKind where
  | notFound
  | permissionDenied
  | connectionRefused
  | connectionReset
  | connectionAborted
  | networkUnreachable
  | notConnected
  | addrInUse
  | addrNotAvailable
  | brokenPipe
  | invalidInput
  | invalidData
  | timedOut
  | writeZero
  | unexpectedEof
  | other
  | uncategorized
deriving DecidableEq, Repr

def FaultKind.description : FaultKind → String
  | notFound => "entity not found"
  | permissionDenied => "permission denied"
  | connectionRefused => "connection refused"
  | connectionReset => "connection reset"
  | connectionAborted => "connection aborted"
  | networkUnreachable => "network unreachable"
  | notConnected => "not connected"
  | addrInUse => "address in use"
  | addrNotAvailable => "address not available"
  | brokenPipe => "broken pipe"
  | invalidInput => "invalid input parameter"
  | invalidData => "invalid data"
  | timedOut => "timed out"
  | writeZero => "write zero"
  | unexpectedEof => "unexpected end of file"
  | other => "other error"
  | uncategorized => "uncategorized error"

structure Fault where
  kind : FaultKind
  text : Option String := none
deriving DecidableEq, Repr

def Fault.message (f : Fault) : String := f.text.getD f.kind.description

inductive Attempt (α : Type) where
  | waits
  | fails (fault : Fault)
  | done (result : α)
deriving DecidableEq, Repr

def Attempt.map {α β : Type} (f : α → β) : Attempt α → Attempt β
  | waits => .waits
  | fails e => .fails e
  | done a => .done (f a)

end Rendezvous
