import Rendezvous.Name
import Rendezvous.Text.Blank

namespace Rendezvous

inductive Command where
  | register (name : Name)
  | request (name : Name)
deriving DecidableEq

inductive CommandError where
  | unrecognised
  | name (fault : NameError)
deriving DecidableEq, Repr

def CommandError.message : CommandError → String
  | unrecognised => "unrecognised control line"
  | name fault => fault.message

def splitColon : List Char → Option (List Char × List Char)
  | [] => none
  | c :: cs =>
    if c = ':' then some ([], cs) else (splitColon cs).map fun p => (c :: p.1, p.2)

namespace Command

def registerWord : List Char := "REGISTER".toList

def requestWord : List Char := "REQUEST".toList

def name : Command → Name
  | register n => n
  | request n => n

def named (make : Name → Command) (cs : List Char) : Except CommandError Command :=
  match Name.ofString (String.ofList cs) with
  | .ok n => .ok (make n)
  | .error e => .error (.name e)

-- The command on a line. Blanks around it do not count, and the name is all that follows the
-- first colon.
def ofLine (line : String) : Except CommandError Command :=
  match splitColon (Text.trim line.toList) with
  | none => .error .unrecognised
  | some (word, rest) =>
    if word = registerWord then named register rest
    else if word = requestWord then named request rest
    else .error .unrecognised

def toLine : Command → String
  | register n => "REGISTER:" ++ n.text ++ "\n"
  | request n => "REQUEST:" ++ n.text ++ "\n"

end Command
end Rendezvous
