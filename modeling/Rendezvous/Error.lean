import Rendezvous.BrokerAddress
import Rendezvous.Control.Reply
import Rendezvous.Text.Quoted
import Rendezvous.WebSocket.Error

namespace Rendezvous

inductive ProtocolError where
  | lineTooLong
  | notUtf8
  | closedEarly
  | noIdentification
  | refusedLine (cause : CommandError) (line : String)
  | unexpectedReply (line : String)
  | described (text : String)
deriving DecidableEq, Repr

def ProtocolError.message : ProtocolError → String
  | lineTooLong => "control line too long"
  | notUtf8 => "control line is not valid UTF-8"
  | closedEarly => "connection closed before control line"
  | noIdentification => "no identification line before deadline"
  | refusedLine cause line => cause.message ++ ": " ++ Text.quoted line
  | unexpectedReply line => "unexpected reply " ++ Text.quoted line
  | described text => text

inductive Error where
  | connect (address : String) (source : Fault)
  | bind (address : String) (source : Fault)
  | invalidAddress (address : String) (cause : AddressError)
  | protocol (cause : ProtocolError)
  | notFound (name : Name)
  | rejected (text : String)
  | accessDenied (reason : String)
  | replyTimeout
  | fault (source : Fault)
  | webSocket (source : WebSocket.Error)
deriving DecidableEq

namespace Error

def message : Error → String
  | connect address source => "failed to connect to " ++ address ++ ": " ++ source.message
  | bind address source => "failed to bind " ++ address ++ ": " ++ source.message
  | invalidAddress address cause =>
    "invalid broker address " ++ Text.quoted address ++ ": " ++ cause.message
  | protocol cause => "protocol error: " ++ cause.message
  | notFound name => "service not found: " ++ name.text
  | rejected text => "broker rejected the request: " ++ text
  | accessDenied reason => "access denied: " ++ reason
  | replyTimeout => "timed out waiting for broker reply"
  | fault source => "I/O error: " ++ source.message
  | webSocket source => "WebSocket error: " ++ source.message

def isTransient : Error → Bool
  | connect _ _ => true
  | replyTimeout => true
  | fault _ => true
  | webSocket source => source.isTransient
  | _ => false

end Error

def parseBroker (s : String) : Except Error BrokerAddress :=
  match BrokerAddress.ofString s with
  | .ok a => .ok a
  | .error cause => .error (.invalidAddress s cause)

end Rendezvous
