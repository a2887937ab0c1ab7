namespace TopicQueue

structure ServerSettings where
  host : String := "127.0.0.1"
  port : UInt16 := 8080
  maxPayloadBytes : UInt64 := 1048576
  deriving DecidableEq, Repr

structure StorageSettings where
  path : String := "workq_db"
  /-- An entry reaches the disk before its publication is acknowledged. -/
  flushOnInsert : Bool := true
  deriving DecidableEq, Repr

structure LoggingSettings where
  level : String := "info"
  deriving DecidableEq, Repr

/-- Without anything said, the defaults. -/
structure Settings where
  server : ServerSettings := {}
  storage : StorageSettings := {}
  logging : LoggingSettings := {}
  deriving DecidableEq, Repr

structure PartialServer where
  host : Option String := none
  port : Option UInt16 := none
  maxPayloadBytes : Option UInt64 := none
  deriving DecidableEq, Repr

structure PartialStorage where
  path : Option String := none
  flushOnInsert : Option Bool := none
  deriving DecidableEq, Repr

structure PartialLogging where
  level : Option String := none
  deriving DecidableEq, Repr

structure PartialSettings where
  server : Option PartialServer := none
  storage : Option PartialStorage := none
  logging : Option PartialLogging := none
  deriving DecidableEq, Repr

namespace PartialSettings

/-- What is given wins, leaf by leaf; all else comes from the settings below. -/
def onto (p : PartialSettings) (below : Settings) : Settings :=
  let server := p.server.getD {}
  let storage := p.storage.getD {}
  let logging := p.logging.getD {}
  { server := {
      host := server.host.getD below.server.host
      port := server.port.getD below.server.port
      maxPayloadBytes := server.maxPayloadBytes.getD below.server.maxPayloadBytes }
    storage := {
      path := storage.path.getD below.storage.path
      flushOnInsert := storage.flushOnInsert.getD below.storage.flushOnInsert }
    logging := { level := logging.level.getD below.logging.level } }

end PartialSettings

end TopicQueue
