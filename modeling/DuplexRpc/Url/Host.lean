import DuplexRpc.Network.Ip

/-!
Hosts of URLs: an address, or a domain name in its normal form.
-/
namespace DuplexRpc.Url

inductive Host where
  | domain (name : String)
  | ip (ip : Ip)
  deriving DecidableEq

def Host.text : Host → String
  | domain name => name
  | ip (.v4 n) => Ip.dottedText n
  | ip (.v6 groups) => "[" ++ Ip.groupsText groups.toList ++ "]"

end DuplexRpc.Url
