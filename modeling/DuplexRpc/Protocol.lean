/-!
The fixed words and codes of the wire protocol.
-/
namespace DuplexRpc.Protocol

/-- The version marker of every envelope. -/
def version : String := "2.0"

/-- The subprotocol a peer has to echo while the link is opened. -/
def subprotocol : String := "holon-rpc"

def heartbeatMethod : String := "rpc.heartbeat"

/-- How the ids of the client's own calls begin. -/
def clientMark : String := "c"

/-- How the ids of the calls from the peer begin. -/
def serverMark : String := "s"

def parseError : Int32 := -32700
def invalidRequest : Int32 := -32600
def methodNotFound : Int32 := -32601
def internalError : Int32 := -32603
def handlerFault : Int32 := 13

end DuplexRpc.Protocol
