namespace TopicQueue

abbrev Bytes := List UInt8

namespace Bytes

def ofText (s : String) : Bytes := s.toUTF8.data.toList

def text? (b : Bytes) : Option String := String.fromUTF8? b.toByteArray

theorem text?_ofText (s : String) : text? (ofText s) = some s := by
  have h : (ofText s).toByteArray = s.toUTF8 := by
    apply ByteArray.ext
    simp [ofText]
  rw [text?, h]
  simp [String.fromUTF8?, String.isValidUTF8, String.fromUTF8]

theorem text?_eq_some {b : Bytes} {s : String} (h : text? b = some s) : b = ofText s := by
  unfold text? String.fromUTF8? at h
  split at h
  · have e := Option.some.inj h
    subst e
    simp [ofText, String.fromUTF8]
  · cases h

end Bytes

end TopicQueue
