import TopicQueue.Config.Convert
import TopicQueue.Config.Document
import TopicQueue.Config.Environment
import TopicQueue.Config.Toml
import TopicQueue.Config.Yaml
import TopicQueue.Place
import TopicQueue.Text.Lossy

namespace TopicQueue.Config

inductive Format where
  | toml
  | json
  | yaml
  deriving DecidableEq, Repr

namespace Format

def ofExtension? (s : String) : Option Format :=
  if s = "toml" then some .toml
  else if s = "json" then some .json
  else if s = "yaml" || s = "yml" then some .yaml
  else none

def extensions : List String := ["toml", "json", "yaml", "yml"]

def parse (format : Format) (contents : Bytes) : Option Entries :=
  let text := Text.ofFile contents
  match format with
  | .toml => Toml.parse text
  | .json => Document.parse (Bytes.ofText (String.ofList text))
  | .yaml => Yaml.parse text

end Format

/-- What follows the last dot of a path's last name, unless the name starts with that dot. -/
def extension? (path : String) : Option String :=
  let name := path.toList.reverse.takeWhile (· != '/')
  match name.span (· != '.') with
  | (e, _ :: _ :: _) => some (String.ofList e.reverse)
  | _ => none

/-- The file that a path means, and its format: the one of that very name, which has to have an
extension that is known, or the first one with an extension added. -/
def find? (files : Files) (path : String) : Option (Format × Bytes) :=
  match files.read path with
  | some contents => ((extension? path).bind Format.ofExtension?).map (·, contents)
  | none =>
    Format.extensions.findSome? fun e => do
      let contents ← files.read (path ++ "." ++ e)
      return (← Format.ofExtension? e, contents)

inductive LoadError where
  /-- The file that was named is missing or of no known format. -/
  | file
  | parse
  | value
  deriving DecidableEq, Repr

def defaultFile : String := "config/default"

/-- The entries of the configuration file. One that is not named may be missing. -/
def fileEntries (files : Files) (path : Option String) : Except LoadError Entries :=
  match find? files (path.getD defaultFile) with
  | none => if path.isSome then .error .file else .ok []
  | some (format, contents) =>
    match format.parse contents with
    | none => .error .parse
    | some es => .ok es

/-- Keys at the top of a file are paths. -/
def layEntries (es : Entries) (root : Value) : Value :=
  es.foldl (fun root (k, v) => root.lay k v) root

/-- The settings that a file's entries and the environment give. -/
def settings (es : Entries) (environment : List (String × String)) : Except LoadError Settings :=
  let root := Environment.lay environment (layEntries es (.table []))
  match root.toSettings with
  | .error .mismatch => .error .value
  | .ok p => .ok (p.onto {})

def load (files : Files) (environment : List (String × String)) (path : Option String) :
    Except LoadError Settings := do
  settings (← fileEntries files path) environment

end TopicQueue.Config
