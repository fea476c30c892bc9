import Rendezvous.Fault

namespace Rendezvous.WebSocket

inductive UrlError where
  | tlsUnsupported
  | noHost
  | emptyHost
  | unsupportedScheme
  | unableToConnect (target : String)
deriving DecidableEq, Repr

def UrlError.message : UrlError → String
  | tlsUnsupported => "TLS support not compiled in"
  | noHost => "No host name in the URL"
  | emptyHost => "URL contains empty host name"
  | unsupportedScheme => "URL scheme not supported"
  | unableToConnect target => "Unable to connect to " ++ target

inductive SyntaxError where
  | invalidCharacter
  | invalidAuthority
  | invalidPort
  | invalidFormat
  | tooLong
  | empty
  | schemeTooLong
deriving DecidableEq, Repr

def SyntaxError.message : SyntaxError → String
  | invalidCharacter => "invalid uri character"
  | invalidAuthority => "invalid authority"
  | invalidPort => "invalid port"
  | invalidFormat => "invalid format"
  | tooLong => "uri too long"
  | empty => "empty string"
  | schemeTooLong => "scheme too long"

inductive Violation where
  | sendAfterClosing
  | receivedAfterClosing
  | nonZeroReservedBits
  | unmaskedFrameFromClient
  | maskedFrameFromServer
  | fragmentedControlFrame
  | controlFrameTooBig
  | unexpectedContinuation
  | expectedFragment (opcode : String)
  | resetWithoutClosing
  | invalidOpcode (code : Nat)
  | invalidCloseSequence
deriving DecidableEq, Repr

def Violation.message : Violation → String
  | sendAfterClosing => "Sending after closing is not allowed"
  | receivedAfterClosing => "Remote sent after having closed"
  | nonZeroReservedBits => "Reserved bits are non-zero"
  | unmaskedFrameFromClient => "Received an unmasked frame from client"
  | maskedFrameFromServer => "Received a masked frame from server"
  | fragmentedControlFrame => "Fragmented control frame"
  | controlFrameTooBig => "Control frame too big (payload must be 125 bytes or less)"
  | unexpectedContinuation => "Continue frame but nothing to continue"
  | expectedFragment opcode => "While waiting for more fragments received: " ++ opcode
  | resetWithoutClosing => "Connection reset without closing handshake"
  | invalidOpcode code => "Encountered invalid opcode: " ++ toString code
  | invalidCloseSequence => "Invalid close sequence"

inductive Error where
  | connectionClosed
  | alreadyClosed
  | fault (source : Fault)
  | violation (cause : Violation)
  | messageTooLong (size limit : Nat)
  | tooManyHeaders
  | notUtf8
  | attackAttempt
  | url (problem : UrlError)
  | malformedUrl (problem : SyntaxError)
deriving DecidableEq, Repr

namespace Error

def message : Error → String
  | connectionClosed => "Connection closed normally"
  | alreadyClosed => "Trying to work with closed connection"
  | fault source => "IO error: " ++ source.message
  | violation cause => "WebSocket protocol error: " ++ cause.message
  | messageTooLong size limit =>
    "Space limit exceeded: Message too long: " ++ toString size ++ " > " ++ toString limit
  | tooManyHeaders => "Space limit exceeded: Too many headers"
  | notUtf8 => "UTF-8 encoding error"
  | attackAttempt => "Attack attempt detected"
  | url problem => "URL error: " ++ problem.message
  | malformedUrl problem => "HTTP format error: " ++ problem.message

def isTransient : Error → Bool
  | url _ => false
  | _ => true

def isClosed : Error → Bool
  | connectionClosed => true
  | alreadyClosed => true
  | _ => false

-- A failed WebSocket as a failed byte stream: a failure of the host stays what it is, and any
-- other one becomes one of the given kind.
def toFault (kind : FaultKind) : Error → Fault
  | fault source => source
  | e => ⟨kind, some e.message⟩

end Error
end Rendezvous.WebSocket
