import TopicQueue.Cli.Arguments
import TopicQueue.Cli.EnvironmentFile
import TopicQueue.Config.Load
import TopicQueue.Http.Address
import TopicQueue.Logging.Filter
import TopicQueue.Store.Place

namespace TopicQueue.Cli

inductive Failure where
  | configuration (error : Config.LoadError)
  | store (error : StoreError)
  | address (error : Http.Address.BindError)

structure Line where
  level : Level
  target : String
  words : String

/-- How a run goes. -/
inductive Course where
  /-- It ends at once, with lines of output that are no log. -/
  | quits (code : Nat) (output : List String)
  | fails (log : List String) (failure : Failure)
  /-- It listens. When it is told to stop, it logs some more and ends well. -/
  | serves (log farewell : List String)

def programName : String := "workq"

def programVersion : String := "0.1.0"

def filterVariable : String := "RUST_LOG"

/-- The filter of a run. A text that is no filter counts as none. -/
def filterOf (env : Variables) (level : Level) : LogFilter :=
  (((env.look filterVariable).bind LogFilter.parse).getD (.upTo level))

def shown (f : LogFilter) (lines : List Line) : List String :=
  (lines.filter fun l => f.shows l.target l.level).map fun l => l.level.text ++ " " ++ l.words

def mainTarget : String := "workq"

def serverTarget : String := "workq::transport::http"

def loadFailed : Line := ⟨.error, mainTarget, "Failed to load configuration: <config>"⟩

def serverFailed (reason : String) : Line := ⟨.error, mainTarget, "Server failed: " ++ reason⟩

def storeOpened (path : String) : Line := ⟨.info, mainTarget, "opened store path=" ++ path⟩

/-- The host under which a server is found: names stand for the address they lead to. -/
def shownHost (host : String) : String := if host = "localhost" then "127.0.0.1" else host

def listening (host : String) : Line :=
  ⟨.info, serverTarget, "HTTP server listening on http://" ++ shownHost host ++ ":<port>"⟩

def stopping : Line := ⟨.info, mainTarget, "Shutdown signal received. Exiting gracefully."⟩

def bindReason : Http.Address.BindError → String
  | .invalidInput => "invalid socket address"
  | .unresolved => "failed to lookup address information: Name or service not known"
  | .addrNotAvailable => "Cannot assign requested address (os error 99)"

/-- Options of the command line win over what is configured. -/
def overridden (s : Settings) (o : ServeOptions) : Settings :=
  { s with server := { s.server with
      host := o.host.getD s.server.host
      port := o.port.getD s.server.port } }

def serveWith (files : Files) (env : Variables) (s : Settings) : Course :=
  let filter := filterOf env (.ofSetting s.logging.level)
  match Store.openAt files s.storage.path s.storage.flushOnInsert with
  | .error e => .fails (shown filter [serverFailed e.message]) (.store e)
  | .ok _ =>
    let opened := storeOpened s.storage.path
    match Http.Address.bind (s.server.host ++ ":" ++ toString s.server.port.toNat) with
    | .error e => .fails (shown filter [opened, serverFailed (bindReason e)]) (.address e)
    | .ok () =>
      .serves (shown filter [opened, listening s.server.host]) (shown filter [stopping])

def run (files : Files) (env : Variables) (arguments : List String) : Course :=
  let env := EnvironmentFile.extend files env
  match parse arguments with
  | .misuse => .quits 2 []
  | .help => .quits 0 []
  | .version => .quits 0 [programName ++ " " ++ programVersion]
  | .serve options =>
    match Config.load files env options.config with
    | .error e => .fails (shown (filterOf env .info) [loadFailed]) (.configuration e)
    | .ok settings => serveWith files env (overridden settings options)

namespace Course

def exitCode : Course → Nat
  | .quits code _ => code
  | .fails .. => 1
  | .serves .. => 0

def lines : Course → List String
  | .quits _ output => output
  | .fails log _ => log
  | .serves log farewell => log ++ farewell

def isServing : Course → Bool
  | .serves .. => true
  | _ => false

/-- Requests do not travel to a server that a run starts, so one that is to answer some has no
outcome. -/
def hasOutcome (c : Course) (requests : Nat) : Bool := !c.isServing || requests = 0

end Course

end TopicQueue.Cli
