import Rendezvous.Control.Command

namespace Rendezvous

inductive Reply where
  | ok (text : String)
  | error (text : String)
deriving DecidableEq, Repr

namespace Reply

def serviceRegistered : Reply := .ok "Service registered"

def connectedToService : Reply := .ok "Connected to service"

def serviceNotFound : Reply := .error "Service not found"

def invalidProtocol : Reply := .error "Invalid protocol"

def invalidServiceName : Reply := .error "Invalid service name"

def accessDenied : Reply := .error "Access denied"

def okWord : List Char := "OK".toList

def errorWord : List Char := "ERROR".toList

def ofLine? (line : String) : Option Reply :=
  match splitColon (Text.trim line.toList) with
  | none => none
  | some (word, rest) =>
    if word = okWord then some (.ok (String.ofList rest))
    else if word = errorWord then some (.error (String.ofList rest))
    else none

def toLine : Reply → String
  | ok text => "OK:" ++ text ++ "\n"
  | error text => "ERROR:" ++ text ++ "\n"

def display (r : Reply) : String := String.ofList (Text.trimRight r.toLine.toList)

end Reply

def CommandError.reply : CommandError → Reply
  | unrecognised => .invalidProtocol
  | name _ => .invalidServiceName

end Rendezvous
