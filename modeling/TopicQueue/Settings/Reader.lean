import TopicQueue.Json.Record
import TopicQueue.Settings

namespace TopicQueue.Settings

open Json

/-- A record under construction and the names of the fields read so far. -/
abbrev Draft (σ : Type) := σ × List String

def field {α σ : Type} (name : String) (read : Reader α) (store : α → σ → σ) : RecordField (Draft σ) where
  name
  present := fun d => d.2.contains name
  read := fun d bs => (read bs).map fun (v, rest) => ((store v d.1, name :: d.2), rest)

def port : Reader UInt16 := number fun
  | .natural n => if n < Limit.bits16 then some n.toUInt16 else none
  | _ => none

def size : Reader UInt64 := number fun
  | .natural n => if n < Limit.bits64 then some n.toUInt64 else none
  | _ => none

/-- How a field of either kind of record is read. -/
structure Mode where
  lift : {α : Type} → Reader α → Reader (Option α)

/-- Null stands for a field that is not given. -/
def lenient : Mode := ⟨optional⟩

def strict : Mode := ⟨fun read bs => (read bs).map fun (v, rest) => (some v, rest)⟩

def serverFields (m : Mode) : List (RecordField (Draft PartialServer)) :=
  [field "host" (m.lift string) fun v p => { p with host := v },
   field "port" (m.lift port) fun v p => { p with port := v },
   field "max_payload_bytes" (m.lift size) fun v p => { p with maxPayloadBytes := v }]

def storageFields (m : Mode) : List (RecordField (Draft PartialStorage)) :=
  [field "path" (m.lift string) fun v p => { p with path := v },
   field "flush_on_insert" (m.lift boolean) fun v p => { p with flushOnInsert := v }]

def loggingFields (m : Mode) : List (RecordField (Draft PartialLogging)) :=
  [field "level" (m.lift string) fun v p => { p with level := v }]

def draft {σ α : Type} (fields : List (RecordField (Draft σ))) (start : σ) (finish : σ → Option α) :
    Reader α := record fields (start, []) fun d => finish d.1

def partialReader : Reader PartialSettings :=
  draft
    [field "server" (optional (draft (serverFields lenient) {} some)) fun v p => { p with server := v },
     field "storage" (optional (draft (storageFields lenient) {} some)) fun v p => { p with storage := v },
     field "logging" (optional (draft (loggingFields lenient) {} some)) fun v p => { p with logging := v }]
    {} some

def completeServer (p : PartialServer) : Option ServerSettings := do
  return ⟨← p.host, ← p.port, ← p.maxPayloadBytes⟩

def completeStorage (p : PartialStorage) : Option StorageSettings := do
  return ⟨← p.path, ← p.flushOnInsert⟩

def completeLogging (p : PartialLogging) : Option LoggingSettings := do return ⟨← p.level⟩

structure Sections where
  server : Option ServerSettings := none
  storage : Option StorageSettings := none
  logging : Option LoggingSettings := none

def completeReader : Reader Settings :=
  draft
    [field "server" (draft (serverFields strict) {} completeServer) fun v p => { p with server := some v },
     field "storage" (draft (storageFields strict) {} completeStorage) fun v p => { p with storage := some v },
     field "logging" (draft (loggingFields strict) {} completeLogging) fun v p => { p with logging := some v }]
    ({} : Sections) fun s => do return ⟨← s.server, ← s.storage, ← s.logging⟩

def parsePartial (bs : Bytes) : Except Flaw PartialSettings := whole partialReader bs

def parse (bs : Bytes) : Except Flaw Settings := whole completeReader bs

end TopicQueue.Settings
