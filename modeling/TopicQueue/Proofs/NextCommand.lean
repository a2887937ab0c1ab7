import Mathlib.Data.List.DropRight
import TopicQueue.Proofs.CommandStream

namespace TopicQueue

namespace Command

variable {buffer rest after v more : Bytes} {s : String} {c : Command}
  {answer : Except ReadError (Option Command)}

theorem Decoded.took_iff {bs : Bytes} {r : Except ReadError (Option Command) × Bytes}
    (h : Decoded bs r) : r = (.ok (some c), after) ↔
      ∃ v s, bs = v ++ after ∧ Written v s ∧ c = .ofText s := by
  constructor
  · rintro rfl
    cases h with
    | took he hv => exact ⟨_, _, he, hv, rfl⟩
  · rintro ⟨v, s, he, hv, rfl⟩
    cases h with
    | took he' hv' =>
      obtain ⟨-, rfl, rfl⟩ := hv.1.unique hv'.1 (he.symm.trans he')
      rfl
    | waits hs => exact absurd hv (hs v s after he)
    | failed _ _ hs => exact absurd hv (hs [] v s after (by rw [List.append_nil, he]))

/-- What is no command has been left as it was. -/
theorem Decoded.kept {bs : Bytes} (h : Decoded bs (answer, rest))
    (hno : ∀ c, answer ≠ .ok (some c)) : rest = bs := by
  cases h with
  | took => exact absurd rfl (hno _)
  | waits => rfl
  | failed => rfl

/-- A literal of which the end is still to come. -/
theorem Decoded.begun {bs : Bytes} {r : Except ReadError (Option Command) × Bytes}
    (h : Decoded bs r) (hv : Written v s) (he : v = bs ++ more) (hne : more ≠ []) :
    r = (.ok none, bs) := by
  cases h with
  | @took v' s' after he' hv' =>
    -- The two literals would start the same octets, and so be one.
    rw [he', List.append_assoc, ← List.append_nil v] at he
    obtain ⟨-, -, hnil⟩ := hv.1.unique hv'.1 he
    exact absurd (List.append_eq_nil_iff.mp hnil.symm).2 hne
  | waits => rfl
  | failed _ _ hs => exact absurd hv (hs more v s [] (by rw [List.append_nil, he]))

/-- Where there is nothing yet, there is room for the rest of a command. -/
theorem decode_short (h : decode buffer = (.ok none, rest)) : rest.length ≤ maxBytes := by
  unfold decode at h
  generalize buffer.dropWhile isSpace = bs at h
  cases bs with
  | nil =>
    cases h
    exact Nat.zero_le maxBytes
  | cons b tail =>
    dsimp only at h
    split at h
    · split at h <;> cases h
    · split at h
      · cases h
      · rename_i hshort
        cases h
        exact Nat.le_of_not_lt hshort
    · cases h

theorem decode_dropWhile (buffer : Bytes) : decode (buffer.dropWhile isSpace) = decode buffer := by
  rw [decode, decode, List.dropWhile_idempotent]

/-- Blanks behind blanks are none. -/
theorem all_blank_iff (buffer : Bytes) :
    (buffer.dropWhile isSpace).all isSpace = true ↔ buffer.dropWhile isSpace = [] := by
  constructor
  · intro hall
    have hbare := dropWhile_bare buffer
    cases hd : buffer.dropWhile isSpace with
    | nil => rfl
    | cons b tail =>
      rw [hd] at hall hbare
      have hb : isSpace b = true := List.all_eq_true.mp hall b List.mem_cons_self
      rw [hbare b rfl] at hb
      cases hb
  · intro hnil
    rw [hnil]
    rfl

/-- One look at a buffer, `bs` being its octets behind the blanks in front. -/
structure Exact (buffer bs : Bytes) : Prop where
  /-- A command is taken just where a literal of one stands in front, and no octet more. -/
  took : ∀ c after, decode buffer = (.ok (some c), after) ↔
    ∃ v s, bs = v ++ after ∧ Written v s ∧ c = .ofText s ∧ c.text = s
  /-- Any other answer leaves all but the blanks. -/
  kept : ∀ answer rest, decode buffer = (answer, rest) → (∀ c, answer ≠ .ok (some c)) → rest = bs
  short : ∀ rest, decode buffer = (.ok none, rest) → rest.length ≤ maxBytes
  /-- A literal of a command cut anywhere is awaited. -/
  begun : ∀ v s more, Written v s → v = bs ++ more → more ≠ [] → decode buffer = (.ok none, bs)
  /-- One more look at what is left sees the same. -/
  again : ∀ answer rest, decode buffer = (answer, rest) → (∀ c, answer ≠ .ok (some c)) →
    decode rest = (answer, rest)
  /-- At the end of the input nothing is awaited any more. -/
  truncated : decode buffer = (.ok none, bs) → bs ≠ [] →
    decodeLast buffer = (.error .truncated, bs)
  /-- But for that, the end makes no difference. -/
  last : decode buffer ≠ (.ok none, bs) ∨ bs = [] → decodeLast buffer = decode buffer

/-- What a reader carries over to the octets it is fed with. It is fed only where a look has found
nothing yet. -/
inductive Carries : Bytes → Bytes → Prop where
  | waits {buffer rest : Bytes} (h : decode buffer = (.ok none, rest)) : Carries buffer rest
  | took {buffer after rest : Bytes} {c : Command} (h : decode buffer = (.ok (some c), after))
      (hc : Carries after rest) : Carries buffer rest
  | fed {buffer left rest : Bytes} (h : decode buffer = (.ok none, left)) (octets : Bytes)
      (hc : Carries (left ++ octets) rest) : Carries buffer rest

theorem Carries.short (h : Carries buffer rest) : rest.length ≤ maxBytes := by
  induction h with
  | waits h => exact decode_short h
  | took _ _ ih => exact ih
  | fed _ _ _ ih => exact ih

/-- A body that has run dry is carried over so. -/
theorem pending_carries {closed : Bool} {queue : List Chunk} {inlet : Inlet}
    (h : Inlet.readChunks closed buffer queue = (.pending, inlet)) :
    ∃ rest, inlet = .chunks rest [] closed ∧ Carries buffer rest := by
  induction queue generalizing buffer with
  | nil =>
    simp only [Inlet.readChunks] at h
    split at h
    · split at h <;> cases h
    · split at h
      · rename_i rest hd
        cases h
        exact ⟨rest, rfl, .waits hd⟩
      · cases h
      · cases h
  | cons chunk queue ih =>
    simp only [Inlet.readChunks] at h
    split at h
    · cases h
    · cases h
    · rename_i left hd
      split at h
      · rename_i octets
        obtain ⟨rest, he, hc⟩ := ih h
        exact ⟨rest, he, .fed hd octets hc⟩
      · cases h

theorem decodeLast_waits (hd : decode buffer = (.ok none, buffer.dropWhile isSpace)) :
    decodeLast buffer = (if buffer.dropWhile isSpace = [] then .ok none else .error .truncated,
      buffer.dropWhile isSpace) := by
  simp only [decodeLast, hd, all_blank_iff]
  split <;> rfl

/-- The look is exact, whatever the buffer holds, and no reader carries over more octets than the
longest command has, one that reads chunks among them. -/
theorem decode_exact :
    (∀ buffer, Exact buffer (buffer.dropWhile isSpace)) ∧
    (∀ buffer rest, Carries buffer rest → rest.length ≤ maxBytes) ∧
    ∀ closed buffer queue inlet, Inlet.readChunks closed buffer queue = (.pending, inlet) →
      ∃ rest, inlet = .chunks rest [] closed ∧ Carries buffer rest := by
  refine ⟨fun buffer => ?_, fun _ _ h => h.short, fun _ _ _ _ h => pending_carries h⟩
  have hd := decode_decoded buffer
  constructor
  case took =>
    intro c after
    rw [hd.took_iff]
    constructor
    · rintro ⟨v, s, he, hv, rfl⟩
      exact ⟨v, s, he, hv, rfl, text_ofText s⟩
    · rintro ⟨v, s, he, hv, hc, -⟩
      exact ⟨v, s, he, hv, hc⟩
  case kept =>
    intro answer rest h hno
    rw [h] at hd
    exact hd.kept hno
  case short =>
    intro rest h
    exact decode_short h
  case begun =>
    intro v s more hv he hne
    exact hd.begun hv he hne
  case again =>
    intro answer rest h hno
    rw [h] at hd
    rw [hd.kept hno, decode_dropWhile, h, hd.kept hno]
  case truncated =>
    intro h hne
    rw [decodeLast_waits h, if_neg hne]
  case last =>
    intro h
    generalize hr : decode buffer = r at hd h
    cases hd with
    | took => simp only [decodeLast, hr]
    | waits =>
      rcases h with h | h
      · exact absurd rfl h
      · rw [decodeLast_waits hr, if_pos h]
    | failed => simp only [decodeLast, hr]

-- The blanks, the escapes and the length that the look goes by.
example : (List.range 256).filter (fun b => isSpace b.toUInt8) =
    [0x09, 0x0A, 0x0C, 0x0D, 0x20] := by decide +kernel

example : (decode (Bytes.ofText "\"\\\"\\\\\\/\\b\\f\\n\\r\\t\"")).1 =
    .ok (some (.unknown "\"\\/\x08\x0c\n\r\t")) := by decide +kernel

example : maxBytes = 1024 := rfl

end Command

end TopicQueue
