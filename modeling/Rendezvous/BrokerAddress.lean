namespace Rendezvous

inductive AddressError where
  | tlsUnsupported
  | unexpectedForm
deriving DecidableEq, Repr

def AddressError.message : AddressError → String
  | tlsUnsupported => "TLS is not supported"
  | unexpectedForm => "expected host:port or ws:// URL"

inductive BrokerAddress where
  | tcp (target : String)
  | webSocket (url : String)
deriving DecidableEq, Repr

namespace BrokerAddress

def schemeMark : List Char := "://".toList

def hasScheme : List Char → Bool
  | [] => false
  | c :: cs => schemeMark.isPrefixOf (c :: cs) || hasScheme cs

def withoutTcp (cs : List Char) : List Char :=
  if "tcp://".toList.isPrefixOf cs then cs.drop 6 else cs

def ofString (s : String) : Except AddressError BrokerAddress :=
  let cs := s.toList
  if "wss://".toList.isPrefixOf cs then .error .tlsUnsupported
  else if "ws://".toList.isPrefixOf cs then .ok (.webSocket s)
  else if (withoutTcp cs).isEmpty || hasScheme (withoutTcp cs) then .error .unexpectedForm
  else .ok (.tcp (String.ofList (withoutTcp cs)))

def display : BrokerAddress → String
  | tcp target => "tcp://" ++ target
  | webSocket url => url

end BrokerAddress
end Rendezvous
