import TopicQueue.Frame
import TopicQueue.Proofs.Base64Form
import TopicQueue.Proofs.CommandStream
import TopicQueue.Proofs.EntryForm

namespace TopicQueue

/-- A text without controls is written without them. -/
theorem Bytes.ofText_printable {s : String} (h : ∀ c ∈ s.toList, 0x20 ≤ c.toNat) :
    ∀ b ∈ ofText s, 0x20 ≤ b.toNat := by
  intro b hb
  rw [ofText_eq, List.mem_flatMap] at hb
  obtain ⟨c, hc, hb⟩ := hb
  have hlow := h c hc
  rcases utf8EncodeChar_cases c with ⟨hascii, he⟩ | ⟨-, hhigh⟩
  · rw [he, List.mem_singleton] at hb
    rw [hb, UInt8.toNat_ofNat']
    omega
  · have := hhigh b hb
    omega

namespace Json

variable {s : String}

/-- An escaped control is its code unit in four digits. -/
theorem codeUnit?_control : ∀ n < 0x20,
    codeUnit? (['0', '0', hexLetter (n / 16), hexLetter (n % 16)].flatMap String.utf8EncodeChar) =
      some n := by
  decide

theorem hexLetter_printable : ∀ n < 0x10, 0x20 ≤ (hexLetter n).toNat := by decide

/-- A character stands in a literal as itself only where it may. -/
theorem spelling_escaped (c : Char) : Spelling ((escaped c).flatMap String.utf8EncodeChar) c := by
  unfold escaped
  split
  · subst c
    exact .escape (.short (b := quote) (o := quote) (by decide))
  split
  · subst c
    exact .escape (.short (b := backslash) (o := backslash) (by decide))
  split
  · subst c
    exact .escape (.short (b := 0x62) (o := 0x08) (by decide))
  split
  · subst c
    exact .escape (.short (b := 0x66) (o := 0x0C) (by decide))
  split
  · subst c
    exact .escape (.short (b := 0x6E) (o := 0x0A) (by decide))
  split
  · subst c
    exact .escape (.short (b := 0x72) (o := 0x0D) (by decide))
  split
  · subst c
    exact .escape (.short (b := 0x74) (o := 0x09) (by decide))
  split
  · rename_i hcontrol
    have hunit := Escape.unit (codeUnit?_control c.toNat hcontrol)
      (by simp [isHighSurrogate]; omega) (by simp [isLowSurrogate]; omega)
    rw [Char.ofNat_toNat] at hunit
    exact .escape hunit
  · rename_i hquote hbackslash _ _ _ _ _ hcontrol
    rw [List.flatMap_singleton]
    exact .plain (Nat.le_of_not_lt hcontrol) hquote hbackslash

theorem spelled_escaped (cs : List Char) :
    Spelled ((cs.flatMap escaped).flatMap String.utf8EncodeChar) cs := by
  induction cs with
  | nil => exact .nil
  | cons c cs ih =>
    rw [List.flatMap_cons, List.flatMap_append]
    exact .cons (spelling_escaped c) ih

/-- What is written for a text is a literal of that text. -/
theorem written_literal (s : String) : Written (Bytes.ofText (literal s)) s := by
  refine ⟨(s.toList.flatMap escaped).flatMap String.utf8EncodeChar, ?_, spelled_escaped s.toList⟩
  have hquote : Bytes.ofText "\"" = [quote] := by decide
  rw [literal, Bytes.ofText_append, Bytes.ofText_append, hquote, Bytes.ofText_eq (String.ofList _),
    String.toList_ofList, List.append_assoc]
  rfl

theorem printable_of_all {cs : List Char} (h : (cs.all fun c => 0x20 ≤ c.toNat) = true) :
    ∀ c ∈ cs, 0x20 ≤ c.toNat := by
  simpa using h

theorem escaped_printable (c : Char) : ∀ d ∈ escaped c, 0x20 ≤ d.toNat := by
  unfold escaped
  iterate 7
    split
    · exact printable_of_all (by decide)
  split
  · rename_i hcontrol
    have hhigh := hexLetter_printable (c.toNat / 16) (by omega)
    have hlow := hexLetter_printable (c.toNat % 16) (by omega)
    intro d hd
    simp only [List.mem_cons, List.not_mem_nil, or_false] at hd
    rcases hd with rfl | rfl | rfl | rfl | rfl | rfl
    · decide
    · decide
    · decide
    · decide
    · exact hhigh
    · exact hlow
  · rename_i hcontrol
    intro d hd
    rw [List.mem_singleton.mp hd]
    exact Nat.le_of_not_lt hcontrol

theorem literal_printable (s : String) : ∀ c ∈ (literal s).toList, 0x20 ≤ c.toNat := by
  intro c hc
  simp only [literal, String.toList_append, String.toList_ofList, List.mem_append,
    List.mem_flatMap] at hc
  rcases hc with (hc | ⟨d, -, hc⟩) | hc
  · exact printable_of_all (by decide) c hc
  · exact escaped_printable d c hc
  · exact printable_of_all (by decide) c hc

theorem skipBlank_cons {b : UInt8} (h : isBlank b = false) (rest : Bytes) :
    skipBlank (b :: rest) = b :: rest := by
  simp [skipBlank, h]

theorem string_written {v : Bytes} (h : Written v s) (after : Bytes) :
    string (v ++ after) = .ok (s, after) := by
  obtain ⟨tail, rfl, -⟩ := h.starts
  have hread := h.readText (rfl : quote :: tail ++ after = quote :: (tail ++ after))
  simp only [List.cons_append, string, skipBlank_cons (show isBlank quote = false by decide)]
  exact hread

theorem unwanted_written {v : Bytes} (h : Written v s) : unwanted v = .mistyped := by
  obtain ⟨tail, rfl, -⟩ := h.starts
  have hread := h.readText (List.append_nil _ : quote :: tail ++ [] = quote :: tail)
  simp [unwanted, hread, quote, minus, isDigit]

end Json

namespace ErrorBody

/-- An object with its one field. -/
theorem ofText_render (s : String) : Bytes.ofText (render ⟨s⟩) =
    0x7B :: Json.quote :: (Bytes.ofText "error" ++ Json.quote :: 0x3A ::
      (Bytes.ofText (Json.literal s) ++ [0x7D])) := by
  have hopen : Bytes.ofText "\x7b\"error\":" =
      0x7B :: Json.quote :: (Bytes.ofText "error" ++ [Json.quote, 0x3A]) := by decide
  have hclose : Bytes.ofText "\x7d" = [0x7D] := by decide
  rw [render, Bytes.ofText_append, Bytes.ofText_append, hopen, hclose]
  simp

theorem render_printable (b : ErrorBody) : ∀ c ∈ b.render.toList, 0x20 ≤ c.toNat := by
  intro c hc
  simp only [render, String.toList_append, List.mem_append] at hc
  rcases hc with (hc | hc) | hc
  · exact Json.printable_of_all (by decide) c hc
  · exact Json.literal_printable b.error c hc
  · exact Json.printable_of_all (by decide) c hc

/-- An error's object is read back as its text. -/
theorem parse_render (b : ErrorBody) : parse (Bytes.ofText b.render) = .ok b := by
  obtain ⟨s⟩ := b
  have hvalue := Json.string_written (Json.written_literal s) [0x7D]
  have hobject : ∀ turns, Json.Record.object fields (turns + 2) true none
      (Json.quote :: (Bytes.ofText "error" ++ Json.quote :: 0x3A ::
        (Bytes.ofText (Json.literal s) ++ [0x7D]))) = .ok (some s, [0x7D]) := by
    intro turns
    refine (StoredEntry.object_field (turns + 1) true (by decide) ⟨_, rfl, rfl, ?_⟩).trans
      (StoredEntry.object_end fields turns (some s) [])
    simp only [hvalue, Except.map]
  simp only [parse, Json.whole, reader, Json.record, ofText_render,
    Json.skipBlank_cons (show Json.isBlank 0x7B = false by decide), if_true]
  -- The turns are the octets of the object: one for the field, one for the end, and more.
  rw [List.length_cons, hobject]
  rfl

/-- An object is no text. -/
theorem string_render (b : ErrorBody) :
    Json.whole Json.string (Bytes.ofText b.render) = .error .mistyped := by
  have hkind : ∀ rest, Json.unwanted (0x7B :: rest) = .mistyped := by
    intro rest
    simp [Json.unwanted, Json.quote, Json.minus, Json.isDigit]
  rw [ofText_render, Json.whole, Json.string,
    Json.skipBlank_cons (show Json.isBlank 0x7B = false by decide)]
  dsimp only
  rw [if_neg (by decide), hkind]

/-- A literal is no object. -/
theorem parse_literal (s : String) : parse (Bytes.ofText (Json.literal s)) = .error .mistyped := by
  have hw := Json.written_literal s
  have hkind := Json.unwanted_written hw
  obtain ⟨tail, htail, -⟩ := hw.starts
  rw [htail] at hkind ⊢
  rw [parse, Json.whole, reader, Json.record,
    Json.skipBlank_cons (show Json.isBlank Json.quote = false by decide)]
  dsimp only
  rw [if_neg (by decide), if_neg (by decide), hkind]

end ErrorBody

namespace Frame

def lineFeed : UInt8 := 0x0A

/-- What goes out for frames, one after another. -/
def stream (frames : List Frame) : Bytes := frames.flatMap fun f => Bytes.ofText f.line

/-- The frame of a line: a text is base64 of a message, an object is an error. -/
def read? (line : Bytes) : Option Frame :=
  match Json.whole Json.string line with
  | .ok text => (Base64.decode? text.toList).map .message
  | .error _ =>
    match ErrorBody.parse line with
    | .ok body => some (.error body.error)
    | .error _ => none

/-- The frames of octets in which no line is left unended. -/
def readAll? (octets : Bytes) : Option (List Frame) :=
  let pieces := octets.splitOn lineFeed
  if pieces.getLast? = some [] then pieces.dropLast.mapM read? else none

/-- What JSON a line is, and what the frame is by it. -/
inductive Legible (line : Bytes) : Frame → Prop where
  | message {text payload} (hw : Json.Written line text)
      (hstring : Json.whole Json.string line = .ok text)
      (hobject : ErrorBody.parse line = .error .mistyped)
      (hpayload : Base64.decode? text.toList = some payload) : Legible line (.message payload)
  | error {text} (hbrace : line.head? = some 0x7B)
      (hstring : Json.whole Json.string line = .error .mistyped)
      (hobject : ErrorBody.parse line = .ok ⟨text⟩) : Legible line (.error text)

variable {frames : List Frame} {f : Frame}

theorem json_printable (f : Frame) : ∀ b ∈ Bytes.ofText f.json, 0x20 ≤ b.toNat := by
  cases f with
  | message payload => exact Bytes.ofText_printable (Json.literal_printable _)
  | error text => exact Bytes.ofText_printable (ErrorBody.render_printable ⟨text⟩)

theorem lineFeed_notMem_json (f : Frame) : lineFeed ∉ Bytes.ofText f.json := by
  intro h
  exact absurd (json_printable f lineFeed h) (by decide)

theorem ofText_line (f : Frame) : Bytes.ofText f.line = Bytes.ofText f.json ++ [lineFeed] := by
  have hend : Bytes.ofText "\n" = [lineFeed] := by decide
  rw [line, Bytes.ofText_append, hend]

theorem json_legible (f : Frame) : Legible (Bytes.ofText f.json) f := by
  cases f with
  | message payload =>
    have hw := Json.written_literal (Base64.encode payload)
    have hread := Json.string_written hw []
    rw [List.append_nil] at hread
    refine .message hw ?_ (ErrorBody.parse_literal _) (Base64.decode?_encode payload)
    simp [json, Json.whole, hread, Json.skipBlank]
  | error text =>
    refine .error ?_ (ErrorBody.string_render ⟨text⟩) (ErrorBody.parse_render ⟨text⟩)
    rw [json, ErrorBody.ofText_render]
    rfl

theorem Legible.read {line : Bytes} (h : Legible line f) : read? line = some f := by
  cases h with
  | message hw hstring hobject hpayload => simp [read?, hstring, hpayload]
  | error hbrace hstring hobject => simp [read?, hstring, hobject]

theorem stream_cons (f : Frame) (frames : List Frame) :
    stream (f :: frames) = Bytes.ofText f.json ++ lineFeed :: stream frames := by
  rw [stream, List.flatMap_cons, ofText_line, List.append_assoc]
  rfl

theorem count_stream (frames : List Frame) : (stream frames).count lineFeed = frames.length := by
  induction frames with
  | nil => rfl
  | cons f frames ih =>
    rw [stream_cons, List.count_append, List.count_eq_zero_of_not_mem (lineFeed_notMem_json f),
      List.count_cons_self, ih, List.length_cons, Nat.zero_add]

/-- Line feeds are the boundaries of the frames and no others. -/
theorem splitOn_stream (frames : List Frame) :
    (stream frames).splitOn lineFeed = (frames.map fun f => Bytes.ofText f.json) ++ [[]] := by
  induction frames with
  | nil => rfl
  | cons f frames ih =>
    rw [stream_cons, List.splitOn_append_cons_self_of_not_mem (lineFeed_notMem_json f), ih]
    rfl

theorem mapM_read (frames : List Frame) :
    (frames.map fun f => Bytes.ofText f.json).mapM read? = some frames := by
  induction frames with
  | nil => rfl
  | cons f frames ih =>
    rw [List.map_cons, List.mapM_cons, (json_legible f).read, ih]
    rfl

theorem readAll?_stream (frames : List Frame) : readAll? (stream frames) = some frames := by
  rw [readAll?, splitOn_stream, List.getLast?_concat, if_pos rfl, List.dropLast_concat, mapM_read]

/-- What a stream of frames is to those that read it line by line. -/
structure ReadBack (frames : List Frame) : Prop where
  /-- As many line feeds as frames, each at the end of one. -/
  count : (stream frames).count lineFeed = frames.length
  ended : ∀ f ∈ frames, Bytes.ofText f.line = Bytes.ofText f.json ++ [lineFeed] ∧
    lineFeed ∉ Bytes.ofText f.json
  /-- Between the line feeds the JSON of the frames, and nothing after the last. -/
  split : (stream frames).splitOn lineFeed = (frames.map fun f => Bytes.ofText f.json) ++ [[]]
  legible : ∀ f ∈ frames, Legible (Bytes.ofText f.json) f
  whole : readAll? (stream frames) = some frames
  /-- No other frames go out as the same octets. -/
  only : ∀ others, stream others = stream frames → others = frames

/-- Whatever is in the payloads and in the texts, the frames are read back from their octets. -/
theorem stream_read_back (frames : List Frame) : ReadBack frames where
  count := count_stream frames
  ended f _ := ⟨ofText_line f, lineFeed_notMem_json f⟩
  split := splitOn_stream frames
  legible f _ := json_legible f
  whole := readAll?_stream frames
  only := by
    intro others he
    have hread := readAll?_stream others
    rw [he, readAll?_stream] at hread
    exact (Option.some.inj hread).symm

end Frame

end TopicQueue
