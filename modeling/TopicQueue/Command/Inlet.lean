import TopicQueue.Limit
import TopicQueue.Command.Reader

namespace TopicQueue

inductive Chunk where
  | data (octets : Bytes)
  | lost (reason : String)
  deriving DecidableEq, Repr

def Chunk.size : Chunk → Nat
  | .data octets => octets.length
  | .lost _ => 0

inductive Reading where
  | pending
  | ended
  | failed (error : ReadError)
  | command (command : Command)
  deriving DecidableEq, Repr

inductive Inlet where
  | commands (queue : List (Except ReadError Command)) (closed : Bool)
  | chunks (buffer : Bytes) (queue : List Chunk) (closed : Bool)

namespace Inlet

def readChunks (closed : Bool) : Bytes → List Chunk → Reading × Inlet
  | buffer, [] =>
    if closed then
      match Command.decodeLast buffer with
      | (.ok none, buffer) => (.ended, .chunks buffer [] closed)
      | (.ok (some c), buffer) => (.command c, .chunks buffer [] closed)
      | (.error e, buffer) => (.failed e, .chunks buffer [] closed)
    else
      match Command.decode buffer with
      | (.ok none, buffer) => (.pending, .chunks buffer [] closed)
      | (.ok (some c), buffer) => (.command c, .chunks buffer [] closed)
      | (.error e, buffer) => (.failed e, .chunks buffer [] closed)
  | buffer, chunk :: queue =>
    match Command.decode buffer with
    | (.ok (some c), buffer) => (.command c, .chunks buffer (chunk :: queue) closed)
    | (.error e, buffer) => (.failed e, .chunks buffer (chunk :: queue) closed)
    | (.ok none, buffer) =>
      match chunk with
      | .data octets => readChunks closed (buffer ++ octets) queue
      | .lost reason => (.failed (.lost reason), .chunks buffer queue closed)

def next : Inlet → Reading × Inlet
  | .commands [] closed => (if closed then .ended else .pending, .commands [] closed)
  | .commands (.ok c :: queue) closed => (.command c, .commands queue closed)
  | .commands (.error e :: queue) closed => (.failed e, .commands queue closed)
  | .chunks buffer queue closed => readChunks closed buffer queue

def close : Inlet → Inlet
  | .commands queue _ => .commands queue true
  | .chunks buffer queue _ => .chunks buffer queue true

def pushCommand (item : Except ReadError Command) : Inlet → Inlet
  | .commands queue closed => .commands (queue ++ [item]) closed
  | inlet => inlet

def pushChunk (chunk : Chunk) : Inlet → Inlet
  | .chunks buffer queue closed => .chunks buffer (queue ++ [chunk]) closed
  | inlet => inlet

/-- An upper bound on the commands that are still to come out. -/
def unread : Inlet → Nat
  | .commands queue _ => queue.length
  | .chunks buffer queue _ =>
    buffer.length + tally Chunk.size queue

end Inlet

/-- The readings of a body that has come to its end, up to the first failure or the end of input. -/
def Inlet.all : Nat → Inlet → List (Except ReadError Command)
  | 0, _ => []
  | turns + 1, inlet =>
    match inlet.next with
    | (.command c, inlet) => .ok c :: Inlet.all turns inlet
    | (.failed e, _) => [.error e]
    | (.ended, _) | (.pending, _) => []

/-- The commands of a body that arrives in these chunks. -/
def Command.ofChunks (chunks : List Chunk) : List (Except ReadError Command) :=
  let inlet := Inlet.chunks [] chunks true
  Inlet.all (inlet.unread + 1) inlet

end TopicQueue
