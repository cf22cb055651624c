import DuplexRpc.Client.Calling

/-!
What a task waits for: a dial, the end of a write, the next frame, or a timer.
-/
namespace DuplexRpc

/-- A timer that keeps running over several phases has one kind in all of them. -/
inductive Timer where
  | opening | admission | answer | heartbeat | retry
  deriving DecidableEq, Repr

def OpenPhase.dialing? : OpenPhase → Option Url
  | .dialing url => some url
  | _ => none

def OpenPhase.isTimed : OpenPhase → Bool
  | .dialing _ | .refusing | .request | .lock => true
  | _ => false

def SendPhase.writing? : SendPhase → Option Generation
  | .writing g => some g
  | _ => none

def ClosePhase.writing? : ClosePhase → Option Generation
  | .shaking g _ => some g
  | _ => none

def CallPhase.writing? : CallPhase → Option Generation
  | .sending _ _ p => p.writing?
  | _ => none

def CallPhase.timer? (config : Config) (spec : CallSpec) : CallPhase → Option (Timer × Duration)
  | .awaitOpen => some (.admission, config.connectTimeout)
  | .awaitAnswer _ => some (.answer, spec.deadline config)
  | _ => none

namespace Task

/-- The URL that the task dials. -/
def dialing? : Task → Option Url
  | connect (.opening _ p) => p.dialing?
  | reconnect _ (.opening p) => p.dialing?
  | _ => none

/-- The generation to whose sink the task writes. -/
def writing? : Task → Option Generation
  | connect (.closing _ p) => p.writing?
  | connect (.failing p _) => p.writing?
  | close (some p) => p.writing?
  | call _ p => p.writing?
  | receive _ (.replying _ p) => p.writing?
  | heart _ (.probing p) => p.writing?
  | _ => none

/-- The generation whose next frame the task awaits. -/
def reading? : Task → Option Generation
  | receive g .idle => some g
  | _ => none

/-- The timer that runs, and its full length. A heart without an interval never beats. -/
def timer? (config : Config) : Task → Option (Timer × Duration)
  | connect (.opening _ p) => if p.isTimed then some (.opening, config.connectTimeout) else none
  | reconnect _ (.opening p) => if p.isTimed then some (.opening, config.connectTimeout) else none
  | reconnect _ (.sleeping _ delay) => some (.retry, delay)
  | call spec p => p.timer? config spec
  | heart _ .ticking =>
    if config.heartbeatInterval = .zero then none else some (.heartbeat, config.heartbeatInterval)
  | heart g (.probing p) => p.timer? config (.heartbeat config g)
  | _ => none

end Task
end DuplexRpc
