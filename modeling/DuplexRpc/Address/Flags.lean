import DuplexRpc.Address.Basic

/-!
Choosing the address to listen on: `--listen` names it, `--port` only its port.
-/
namespace DuplexRpc.Address

def listenFlag : String := "--listen"

def portFlag : String := "--port"

def ofPortText (port : String) : String := "tcp://:" ++ port

/-- The address named by the first flag that has a value. A flag takes the next argument as its
value, whatever that is. -/
def ofFlags : List String → String
  | [] => defaultText
  | flag :: args =>
    if flag = listenFlag then
      match args with
      | uri :: _ => uri
      | [] => defaultText
    else if flag = portFlag then
      match args with
      | port :: _ => ofPortText port
      | [] => defaultText
    else ofFlags args

/-- The address named by options that are already read. -/
def ofOptions (listen : Option String) (port : Option UInt16) : String :=
  match listen, port with
  | some uri, _ => uri
  | none, some port => ofPortText (portText port)
  | none, none => defaultText

end DuplexRpc.Address
