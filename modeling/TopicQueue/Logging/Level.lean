namespace TopicQueue

inductive Level where
  | error
  | warn
  | info
  | debug
  | trace
  deriving DecidableEq, Repr

namespace Level

def text : Level → String
  | .error => "ERROR"
  | .warn => "WARN"
  | .info => "INFO"
  | .debug => "DEBUG"
  | .trace => "TRACE"

/-- Higher is more talkative. -/
def rank : Level → Nat
  | .error => 1
  | .warn => 2
  | .info => 3
  | .debug => 4
  | .trace => 5

/-- The level that a setting names, in any case. What is no name means the usual level. -/
def ofSetting (name : String) : Level :=
  let name := name.map Char.toLower
  if name = "error" then .error
  else if name = "warn" || name = "warning" then .warn
  else if name = "debug" then .debug
  else if name = "trace" then .trace
  else .info

end Level

end TopicQueue
