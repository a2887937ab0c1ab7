import TopicQueue.Place
import TopicQueue.Store

namespace TopicQueue.Store

def notADirectory : String := "IO error: Not a directory (os error 20)"

def fileExists : String := "IO error: File exists (os error 17)"

/-- Opens the store at a path, given the regular files that there are. -/
def openAt (files : Files) (path : String) (flushOnInsert : Bool) : Except StoreError Store :=
  let place := Place.ofPath path
  if files.any fun f => Place.ofPath f.1 == place then .error (.backend fileExists)
  else if files.any fun f => place.isBelow (Place.ofPath f.1) then .error (.backend notADirectory)
  else .ok { flushOnInsert }

end TopicQueue.Store
