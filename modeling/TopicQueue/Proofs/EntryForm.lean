import TopicQueue.Proofs.WrittenNumbers

namespace TopicQueue.StoredEntry
open Json

theorem not_blank_of_digit {b : UInt8} (h : isDigit b = true) : isBlank b = false := by
  cases hb : isBlank b with
  | false => rfl
  | true =>
    simp only [isBlank, Bool.or_eq_true, beq_iff_eq] at hb
    rcases hb with ((rfl | rfl) | rfl) | rfl <;> exact absurd h (by decide)

theorem digits_cons (n : Nat) : ∃ b ds, digits n = b :: ds ∧ isDigit b = true ∧ isBlank b = false := by
  cases hd : digits n with
  | nil => exact absurd hd (digits_ne_nil n)
  | cons b ds =>
    have hb := digits_all_digit n b (by simp [hd])
    exact ⟨b, ds, rfl, hb, not_blank_of_digit hb⟩

theorem number_digits {α : Type} {accept : Number → Option α} {n : Nat} {v : α}
    (h : n < Limit.bits64) (ha : accept (.natural n) = some v) {rest : Bytes}
    (hr : EndsNumber rest) : number accept (digits n ++ rest) = .ok (v, rest) := by
  have hread := readNumber_digits n h hr
  obtain ⟨b, ds, hd, hb, hblank⟩ := digits_cons n
  rw [hd, List.cons_append] at hread ⊢
  simp [number, skipBlank, hblank, hb, hread, ha]

theorem octet_digits (b : UInt8) {rest : Bytes} (hr : EndsNumber rest) :
    octet (digits b.toNat ++ rest) = .ok (b, rest) := by
  have hb := b.toNat_lt
  exact number_digits (by simp only [Limit.bits64]; omega) (by simp [hb]) hr

theorem signedWord_digits {i : Int} (hl : -(Limit.bits63 : Int) ≤ i) (hu : i < Limit.bits63)
    {rest : Bytes} (hr : EndsNumber rest) :
    signedWord (signedDigits i ++ rest) = .ok (i, rest) := by
  unfold signedDigits
  split
  · rename_i hn
    have hread := readNumber_minus_digits i.natAbs (by omega) (by omega) hr
    have hi : -(i.natAbs : Int) = i := by omega
    simp only [List.cons_append]
    change number _ (minus :: (digits i.natAbs ++ rest)) = _
    have hblank : isBlank minus = false := by decide
    have htext : skipBlank (minus :: (digits i.natAbs ++ rest)) =
        minus :: (digits i.natAbs ++ rest) := by simp [skipBlank, hblank]
    simp only [number, htext, hread, decide_true, Bool.true_or, if_true]
    rw [hi]
  · rename_i hn
    have hi : (i.natAbs : Int) = i := by omega
    refine number_digits ?_ ?_ hr
    · simp only [Limit.bits63, Limit.bits64] at hu ⊢
      omega
    · simp only [hi, Option.ite_none_right_eq_some, and_true]
      omega

/-- What separates the octets of a payload after the first. -/
def laterOctets (bs : Bytes) : Bytes := bs.flatMap fun b => 0x2C :: digits b.toNat

theorem payloadText_cons (b : UInt8) (bs : Bytes) :
    payloadText (b :: bs) = digits b.toNat ++ laterOctets bs := by
  induction bs generalizing b with
  | nil => simp [payloadText, laterOctets]
  | cons c bs ih =>
    have hc := ih c
    simp only [payloadText, laterOctets, List.map_cons, List.flatMap_cons] at hc ⊢
    rw [List.intercalate_cons_cons, hc]
    simp

theorem endsNumber_laterOctets (bs rest : Bytes) :
    EndsNumber (laterOctets bs ++ 0x5D :: rest) := by
  cases bs with
  | nil => exact endsNumber_cons (by decide)
  | cons b bs => exact endsNumber_cons (by decide)

theorem nextElement_first (n : Nat) (rest : Bytes) :
    nextElement true (digits n ++ rest) = .ok (some (digits n ++ rest), digits n ++ rest) := by
  obtain ⟨b, ds, hd, hb, hblank⟩ := digits_cons n
  have hne : b ≠ 0x5D := by rintro rfl; exact absurd hb (by decide)
  simp [hd, nextElement, skipBlank, hblank, hne]

theorem nextElement_later (n : Nat) (rest : Bytes) :
    nextElement false (0x2C :: (digits n ++ rest)) =
      .ok (some (digits n ++ rest), digits n ++ rest) := by
  obtain ⟨b, ds, hd, hb, hblank⟩ := digits_cons n
  have hne : b ≠ 0x5D := by rintro rfl; exact absurd hb (by decide)
  have hcomma : isBlank 0x2C = false := by decide
  simp [hd, nextElement, skipBlank, hcomma, hblank, hne]

theorem nextElement_end (first : Bool) (rest : Bytes) :
    nextElement first (0x5D :: rest) = .ok (none, 0x5D :: rest) := by
  simp [nextElement, skipBlank, isBlank]

theorem endArray_end (rest : Bytes) : endArray (0x5D :: rest) = .ok rest := by
  simp [endArray, skipBlank, isBlank]

/-- The elements after the first, up to the end of the array. -/
theorem elements_later (bs : Bytes) (turns : Nat) (done rest : Bytes) (h : bs.length < turns) :
    elements octet turns false done (laterOctets bs ++ 0x5D :: rest) =
      .ok (done.reverse ++ bs, rest) := by
  induction bs generalizing turns done with
  | nil =>
    obtain ⟨turns, rfl⟩ := Nat.exists_eq_succ_of_ne_zero (Nat.ne_of_gt h)
    have hend := nextElement_end false rest
    simp [elements, laterOctets, hend, endArray_end, Except.map]
  | cons b bs ih =>
    obtain ⟨turns, rfl⟩ := Nat.exists_eq_succ_of_ne_zero (by omega : turns ≠ 0)
    have hread := octet_digits b (endsNumber_laterOctets bs rest)
    have hsplit : laterOctets (b :: bs) ++ 0x5D :: rest =
        0x2C :: (digits b.toNat ++ (laterOctets bs ++ 0x5D :: rest)) := by
      simp [laterOctets]
    rw [hsplit, elements, nextElement_later]
    simp only [hread]
    rw [ih turns (b :: done) (by simpa using h)]
    simp

theorem length_laterOctets (bs : Bytes) : bs.length ≤ (laterOctets bs).length := by
  induction bs with
  | nil => simp [laterOctets]
  | cons b bs ih =>
    simp only [laterOctets, List.flatMap_cons, List.length_append, List.length_cons] at ih ⊢
    omega

theorem elements_payload (bs rest : Bytes) (turns : Nat)
    (h : (payloadText bs).length < turns) :
    elements octet turns true [] (payloadText bs ++ 0x5D :: rest) = .ok (bs, rest) := by
  obtain ⟨turns, rfl⟩ := Nat.exists_eq_succ_of_ne_zero (by omega : turns ≠ 0)
  cases bs with
  | nil =>
    have hend := nextElement_end true rest
    simp [elements, payloadText, hend, endArray_end, Except.map]
  | cons b bs =>
    have hread := octet_digits b (endsNumber_laterOctets bs rest)
    have hlength := length_laterOctets bs
    obtain ⟨c, ds, hd, -⟩ := digits_cons b.toNat
    rw [payloadText_cons, hd] at h
    simp only [List.length_append, List.length_cons] at h
    rw [payloadText_cons, List.append_assoc, elements, nextElement_first]
    simp only [hread]
    rw [elements_later bs turns [b] rest (by omega)]
    simp

theorem array_payload (bs rest : Bytes) :
    array octet (0x5B :: (payloadText bs ++ 0x5D :: rest)) = .ok (bs, rest) := by
  have hbracket : isBlank 0x5B = false := by decide
  simp only [array, skipBlank, List.dropWhile_cons, hbracket, Bool.false_eq_true, if_false, if_true]
  apply elements_payload
  simp only [List.length_append, List.length_cons]
  omega

/-- A name in which nothing needs escaping. -/
def isPlain (name : Bytes) : Bool := name.all fun b => b ≠ quote ∧ b ≠ backslash ∧ ¬ b < 0x20

theorem read_plain {name : Bytes} (h : isPlain name = true) (done rest : Bytes) :
    Literal.read true .plain done (name ++ quote :: rest) = .ok (done.reverse ++ name, rest) := by
  induction name generalizing done with
  | nil => simp [Literal.read, Literal.move]
  | cons b name ih =>
    simp only [isPlain, List.all_cons, Bool.and_eq_true, decide_eq_true_eq] at h
    obtain ⟨⟨hquote, hbackslash, hlow⟩, hname⟩ := h
    simp only [List.cons_append, Literal.read, Literal.move, hquote, hbackslash, hlow, if_false]
    rw [ih hname]
    simp

theorem readText_plain {name : String} (h : isPlain (Bytes.ofText name) = true) (rest : Bytes) :
    readText (Bytes.ofText name ++ quote :: rest) = .ok (name, rest) := by
  simp [readText, read_plain h, Bytes.text?_ofText]

/-- A field that has not been read yet, with its key and its value in front. -/
theorem object_field {σ : Type} {fields : List (RecordField σ)} {name : String} {s s' : σ}
    {value rest : Bytes} (turns : Nat) (first : Bool)
    (hplain : isPlain (Bytes.ofText name) = true)
    (hread : ∃ field, fields.find? (·.name == name) = some field ∧ field.present s = false ∧
      field.read s value = .ok (s', rest)) :
    Record.object fields (turns + 1) first s
      ((if first then [] else [0x2C]) ++ quote :: (Bytes.ofText name ++ quote :: 0x3A :: value)) =
      Record.object fields turns false s' rest := by
  have hkey : Record.nextKey first ((if first then [] else [0x2C]) ++
      quote :: (Bytes.ofText name ++ quote :: 0x3A :: value)) =
      .ok (some (Bytes.ofText name ++ quote :: 0x3A :: value),
        Bytes.ofText name ++ quote :: 0x3A :: value) := by
    cases first <;> simp [Record.nextKey, skipBlank, isBlank, quote]
  have hcolon : Record.colon (0x3A :: value) = .ok value := by
    simp [Record.colon, skipBlank, isBlank]
  obtain ⟨field, hfind, habsent, hvalue⟩ := hread
  simp [Record.object, hkey, readText_plain hplain, hfind, habsent, hcolon, hvalue]

theorem object_end {σ : Type} (fields : List (RecordField σ)) (turns : Nat) (s : σ)
    (rest : Bytes) :
    Record.object fields (turns + 1) false s (0x7D :: rest) = .ok (s, 0x7D :: rest) := by
  simp [Record.object, Record.nextKey, skipBlank, isBlank]

theorem encode_eq (e : StoredEntry) :
    encode e = 0x7B :: quote :: (Bytes.ofText "payload" ++ quote :: 0x3A :: 0x5B ::
      (payloadText e.payload ++ 0x5D :: 0x2C :: quote :: (Bytes.ofText "enqueued_at" ++
        quote :: 0x3A :: (signedDigits e.enqueuedAt ++ [0x7D])))) := by
  have hfront : Bytes.ofText "\x7b\"payload\":[" =
      0x7B :: quote :: (Bytes.ofText "payload" ++ [quote, 0x3A, 0x5B]) := by decide
  have hmiddle : Bytes.ofText "],\"enqueued_at\":" =
      0x5D :: 0x2C :: quote :: (Bytes.ofText "enqueued_at" ++ [quote, 0x3A]) := by decide
  simp only [encode, hfront, hmiddle, List.append_assoc, List.cons_append, List.nil_append]

/-- An entry whose time fits 64 bits is read back from its stored form. -/
theorem decode_encode {e : StoredEntry} (hl : -(Limit.bits63 : Int) ≤ e.enqueuedAt)
    (hu : e.enqueuedAt < Limit.bits63) : decode (encode e) = .ok e := by
  have htime := signedWord_digits hl hu (endsNumber_cons (by decide) : EndsNumber [0x7D])
  have hsecond : ∀ turns, Record.object fields (turns + 2) false ⟨some e.payload, none⟩
      (0x2C :: quote :: (Bytes.ofText "enqueued_at" ++ quote :: 0x3A ::
        (signedDigits e.enqueuedAt ++ [0x7D]))) =
      .ok (⟨some e.payload, some e.enqueuedAt⟩, [0x7D]) := by
    intro turns
    refine (object_field (turns + 1) false (by decide) ⟨_, rfl, rfl, ?_⟩).trans
      (object_end fields turns _ [])
    simp only [htime, Except.map]
  have hfirst : ∀ turns, Record.object fields (turns + 3) true ⟨none, none⟩
      (quote :: (Bytes.ofText "payload" ++ quote :: 0x3A :: 0x5B ::
        (payloadText e.payload ++ 0x5D :: 0x2C :: quote :: (Bytes.ofText "enqueued_at" ++
          quote :: 0x3A :: (signedDigits e.enqueuedAt ++ [0x7D]))))) =
      .ok (⟨some e.payload, some e.enqueuedAt⟩, [0x7D]) := by
    intro turns
    refine (object_field (turns + 2) true (by decide) ⟨_, rfl, rfl, ?_⟩).trans (hsecond turns)
    simp only [array_payload, Except.map]
  have hbrace : isBlank 0x7B = false := by decide
  simp only [decode, whole, reader, record, encode_eq, skipBlank, List.dropWhile_cons, hbrace,
    Bool.false_eq_true, if_false, if_true]
  -- The turns are the octets of the object: at least three, one for each field and the end.
  rw [List.length_cons, List.length_append, List.length_cons, List.length_cons, ← Nat.add_assoc,
    ← Nat.add_assoc, hfirst]
  simp [finish]

end TopicQueue.StoredEntry
