import DuplexRpc.Backoff

/-!
The timings of a client.
-/
namespace DuplexRpc

structure Config where
  /-- the time between two heartbeats -/
  heartbeatInterval : Duration
  /-- how long a heartbeat may take -/
  heartbeatTimeout : Duration
  /-- how long opening the link may take, and waiting for it to be open -/
  connectTimeout : Duration
  /-- how long a call may take that does not say -/
  requestTimeout : Duration
  backoff : Backoff
  deriving DecidableEq

namespace Config

def standard : Config :=
  ⟨.ofMillis 15000, .ofMillis 5000, .ofMillis 10000, .ofMillis 10000, .standard⟩

def withHeartbeatInterval (c : Config) (d : Duration) : Config := { c with heartbeatInterval := d }
def withHeartbeatTimeout (c : Config) (d : Duration) : Config := { c with heartbeatTimeout := d }
def withConnectTimeout (c : Config) (d : Duration) : Config := { c with connectTimeout := d }
def withRequestTimeout (c : Config) (d : Duration) : Config := { c with requestTimeout := d }
def withBackoff (c : Config) (b : Backoff) : Config := { c with backoff := b }

end Config
end DuplexRpc
