namespace TopicQueue

inductive Command where
  | init
  /-- The message at hand was processed: remove it and fetch the next. -/
  | ack
  /-- The message at hand failed: put it back in front and fetch. -/
  | nack
  | unknown (text : String)
  deriving DecidableEq, Repr

namespace Command

/-- Names are matched exactly, case included. -/
def ofText (s : String) : Command :=
  if s = "INIT" then .init
  else if s = "ACK" then .ack
  else if s = "NACK" then .nack
  else .unknown s

def text : Command → String
  | .init => "INIT"
  | .ack => "ACK"
  | .nack => "NACK"
  | .unknown s => s

theorem text_ofText (s : String) : (ofText s).text = s := by
  unfold ofText
  split
  · simp_all [text]
  · split
    · simp_all [text]
    · split <;> simp_all [text]

end Command

end TopicQueue
