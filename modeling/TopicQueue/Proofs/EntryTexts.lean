import TopicQueue.Proofs.ClaimQueue

namespace TopicQueue

namespace Json

theorem Numeral.value?_negative {n : Numeral} {k : Nat} (h : n.value? = some (.negative k)) :
    0 < k ∧ k ≤ Limit.bits63 := by
  unfold value? at h
  dsimp only at h
  split at h
  · split at h
    · simp at h
    · split at h
      · simp at h
      · split at h
        · rename_i hk
          cases h
          exact hk
        · simp at h
  · simp at h
  · simp at h

theorem readNumber_value {bs rest : Bytes} {n : Number} (h : readNumber bs = .ok (n, rest)) :
    ∃ numeral : Numeral, numeral.value? = some n := by
  unfold readNumber at h
  cases hr : Numeral.read bs with
  | error e => simp [hr, bind, Except.bind] at h
  | ok r =>
    simp only [hr, bind, Except.bind] at h
    split at h
    · rename_i v hv
      cases h
      exact ⟨r.1, hv⟩
    · cases h

theorem number_ok {α : Type} {accept : Number → Option α} {bs rest : Bytes} {v : α}
    (h : number accept bs = .ok (v, rest)) :
    ∃ text n, readNumber text = .ok (n, rest) ∧ accept n = some v := by
  unfold number at h
  split at h
  · cases h
  · rename_i b tail _
    split at h
    · cases hn : readNumber (b :: tail) with
      | error e => simp [hn] at h
      | ok r =>
        obtain ⟨n, rest'⟩ := r
        simp only [hn] at h
        split at h
        · rename_i v' ha
          cases h
          exact ⟨b :: tail, n, hn, ha⟩
        · cases h
    · cases h

/-- A whole number that is read is one of 64 bits. -/
theorem signedWord_ok {bs rest : Bytes} {i : Int} (h : signedWord bs = .ok (i, rest)) :
    ∃ time : Int64, i = time.toInt := by
  obtain ⟨text, n, hn, ha⟩ := number_ok h
  have hrange : -(Limit.bits63 : Int) ≤ i ∧ i < Limit.bits63 := by
    cases n with
    | natural k =>
      obtain ⟨hk, rfl⟩ : k < Limit.bits63 ∧ (k : Int) = i := by simpa using ha
      omega
    | negative k =>
      obtain ⟨numeral, hv⟩ := readNumber_value hn
      have hk := Numeral.value?_negative hv
      obtain rfl : -(k : Int) = i := by simpa using ha
      omega
    | double d => cases ha
  exact ⟨Int64.ofInt i, (Int64.toInt_ofInt_of_le hrange.1 hrange.2).symm⟩

section Record

variable {σ α : Type} {fields : List (RecordField σ)} {p : σ → Prop}

/-- What every field keeps of a record under construction. -/
def Record.Keeps (fields : List (RecordField σ)) (p : σ → Prop) : Prop :=
  ∀ field ∈ fields, ∀ s bs s' rest, field.read s bs = .ok (s', rest) → p s → p s'

theorem Record.object_keeps (hf : Record.Keeps fields p) {turns : Nat} {first : Bool}
    {s s' : σ} {bs rest : Bytes} (h : Record.object fields turns first s bs = .ok (s', rest))
    (hs : p s) : p s' := by
  induction turns generalizing first s bs with
  | zero => cases h
  | succ turns ih =>
    simp only [Record.object] at h
    split at h
    · cases h
    · cases h
      exact hs
    · split at h
      · cases h
      · split at h
        · -- A field that is not known is passed over.
          split at h
          · cases h
          · split at h
            · cases h
            · exact ih h hs
        · rename_i field hfind
          split at h
          · cases h
          · split at h
            · cases h
            · split at h
              · cases h
              · rename_i hread
                exact ih h (hf field (List.mem_of_find?_eq_some hfind) _ _ _ _ hread hs)

theorem Record.inOrder_keeps (hf : Record.Keeps fields p) {first : Bool} {s s' : σ}
    {bs rest : Bytes} (h : Record.inOrder fields first s bs = .ok (s', rest)) (hs : p s) :
    p s' := by
  induction fields generalizing first s bs with
  | nil =>
    cases h
    exact hs
  | cons field fields ih =>
    simp only [Record.inOrder] at h
    split at h
    · cases h
    · cases h
    · split at h
      · cases h
      · rename_i hread
        have hothers : Record.Keeps fields p := fun other ho => hf other (List.mem_cons_of_mem _ ho)
        exact ih hothers h (hf field List.mem_cons_self _ _ _ _ hread hs)

/-- A record that is read has been built up by its fields. -/
theorem record_keeps (hf : Record.Keeps fields p) {start : σ} {finish : σ → Option α}
    {bs rest : Bytes} {v : α} (h : record fields start finish bs = .ok (v, rest)) (hs : p start) :
    ∃ s, p s ∧ finish s = some v := by
  unfold record at h
  split at h
  · cases h
  · split at h
    · split at h
      · cases h
      · rename_i s rest' hread
        split at h
        · cases h
        · rename_i v' hv
          cases h
          exact ⟨s, Record.object_keeps hf hread hs, hv⟩
    · split at h
      · split at h
        · cases h
        · rename_i s rest' hread
          split at h
          · cases h
          · rename_i v' hv
            cases he : endArray rest' with
            | error e => simp [he, Except.map] at h
            | ok rest'' =>
              simp only [he, Except.map] at h
              cases h
              exact ⟨s, Record.inOrder_keeps hf hread hs, hv⟩
      · cases h

theorem whole_ok {read : Reader α} {bs : Bytes} {v : α} (h : whole read bs = .ok v) :
    ∃ rest, read bs = .ok (v, rest) := by
  unfold whole at h
  split at h
  · cases h
  · rename_i v' rest hr
    split at h
    · cases h
      exact ⟨rest, hr⟩
    · cases h

end Record

end Json

namespace StoredEntry
open Json

/-- A time read so far has 64 bits. -/
def Partial.Timed (p : Partial) : Prop := ∀ i ∈ p.enqueuedAt, ∃ time : Int64, i = time.toInt

theorem fields_timed : Record.Keeps fields Partial.Timed := by
  intro field hfield s bs s' rest hread hs
  simp only [fields, List.mem_cons, List.not_mem_nil, or_false] at hfield
  rcases hfield with rfl | rfl
  · cases ha : array octet bs with
    | error e => simp [ha, Except.map] at hread
    | ok r =>
      simp only [ha, Except.map] at hread
      cases hread
      exact hs
  · cases hw : signedWord bs with
    | error e => simp [hw, Except.map] at hread
    | ok r =>
      obtain ⟨i, rest'⟩ := r
      simp only [hw, Except.map] at hread
      cases hread
      rintro j ⟨⟩
      exact signedWord_ok hw

/-- Whatever is read as an entry has a time of 64 bits. -/
theorem decode_timed {text : Bytes} {e : StoredEntry} (h : decode text = .ok e) :
    ∃ time : Int64, e.enqueuedAt = time.toInt := by
  obtain ⟨rest, hr⟩ := whole_ok h
  obtain ⟨s, hs, hfinish⟩ := record_keeps fields_timed hr (by rintro i ⟨⟩)
  cases hp : s.payload with
  | none => simp [finish, hp] at hfinish
  | some payload =>
    cases ht : s.enqueuedAt with
    | none => simp [finish, hp, ht] at hfinish
    | some i =>
      simp only [finish, hp, ht, Option.bind_eq_bind, Option.bind_some, Option.pure_def] at hfinish
      cases hfinish
      exact hs i (by simp [ht])

theorem decode_encode_timed (payload : Bytes) (time : Int64) :
    decode (encode ⟨payload, time.toInt⟩) = .ok ⟨payload, time.toInt⟩ :=
  decode_encode time.le_toInt time.toInt_lt

theorem decode_encode_of_decode {text : Bytes} {e : StoredEntry} (h : decode text = .ok e) :
    decode (encode e) = .ok e := by
  obtain ⟨payload, i⟩ := e
  obtain ⟨time, ht⟩ := decode_timed h
  obtain rfl : i = time.toInt := ht
  exact decode_encode_timed payload time

end StoredEntry

namespace Store
open StoredEntry

/-- Every entry can be made out, but for those that the files held from before. -/
def Stocked (raw : List (String × Bytes)) (s : Store) : Prop :=
  ∀ topic, ∀ e ∈ s.tree topic, (∃ entry, decode e.2 = .ok entry) ∨ (topic, e.2) ∈ raw

variable {s s' : Store} {raw : List (String × Bytes)} {topic : String}

theorem Stocked.append (h : Stocked raw s) (hs : s.Sound) {value : Bytes}
    (hv : (∃ entry, decode value = .ok entry) ∨ (topic, value) ∈ raw) :
    Stocked raw (s.append topic value) := by
  intro other e he
  rw [hs.append_tree] at he
  split at he
  · rename_i ho
    subst ho
    rcases List.mem_append.mp he with he | he
    · exact h other e he
    · rw [List.mem_singleton.mp he]
      exact hv
  · exact h other e he

theorem stocked_preload (hs : s.Sound) (more : List (String × Bytes)) (h : Stocked raw s)
    (hmore : ∀ r ∈ more, r ∈ raw) : Stocked raw (more.foldl (fun s r => s.append r.1 r.2) s) := by
  induction more generalizing s with
  | nil => exact h
  | cons r more ih =>
    have hr : (r.1, r.2) ∈ raw := hmore r List.mem_cons_self
    exact ih (hs.append r.1 r.2) (h.append hs (.inr hr))
      fun r' hr' => hmore r' (List.mem_cons_of_mem r hr')

theorem stocked_preloaded (flushOnInsert : Bool) (raw : List (String × Bytes)) :
    Stocked raw (preloaded flushOnInsert raw) :=
  stocked_preload (sound_empty flushOnInsert false) raw
    (fun topic e he => by simp [tree, Table.look] at he) fun _ hr => hr

/-- What a publication adds can be made out, and nothing else is ever added. -/
theorem Stocked.serve (h : Stocked raw s) (hs : s.Sound) (request : Request) :
    Stocked raw (s.serve request).2 := by
  cases request with
  | call topic call =>
    cases call with
    | insert payload now =>
      cases hi : s.insert topic payload now.toInt with
      | error e => simpa [Store.serve, settled, hi] using h
      | ok s' =>
        simp only [Store.serve, settled, hi, (insert_ok hi).2]
        exact h.append hs (.inl ⟨_, decode_encode_timed payload now⟩)
    | fetchNext =>
      cases hf : s.fetchNext topic with
      | error e => simpa [Store.serve, hf] using h
      | ok r =>
        obtain ⟨payload?, s'⟩ := r
        simp only [Store.serve, hf]
        cases payload? with
        | none => rwa [(fetchNext_none hf).1]
        | some payload =>
          obtain ⟨-, -, key, value, rest, -, -, rfl⟩ := fetchNext_some hf
          exact h
    | commit =>
      cases hc : s.commit topic with
      | error e => simpa [Store.serve, settled, hc] using h
      | ok s' =>
        obtain ⟨-, key, hk, rfl⟩ := commit_ok hc
        obtain ⟨value, rest, ht⟩ := hs.claimed_first topic key hk
        simp only [Store.serve, settled, hc]
        intro other e he
        rw [hs.dropClaimed_tree ht] at he
        split at he
        · rename_i ho
          subst ho
          exact h other e (ht ▸ List.mem_cons_of_mem _ he)
        · exact h other e he
    | requeue =>
      cases hr : s.requeue topic with
      | error e => simpa [Store.serve, settled, hr] using h
      | ok s' =>
        obtain ⟨-, key, -, rfl⟩ := requeue_ok hr
        simp only [Store.serve, settled, hr]
        exact h
    | size => exact h
  | close => exact h
  | reopen flushOnInsert => exact h

theorem Stocked.serveAll (h : Stocked raw s) (hs : s.Sound) (requests : List Request) :
    Stocked raw (TopicQueue.serveAll Store.serve s requests).2 := by
  induction requests generalizing s with
  | nil => exact h
  | cons request requests ih => exact ih (h.serve hs request) (hs.follows request).sound

/-- A topic is blocked by its first entry only. -/
theorem fetchNext_codec {flaw : Json.Flaw} (h : s.fetchNext topic = .error (.codec flaw)) :
    ∃ e ∈ s.tree topic, decode e.2 = .error flaw := by
  unfold fetchNext at h
  split at h
  · cases h
  split at h
  · cases h
  split at h
  · cases h
  rename_i key value hf
  split at h
  · rename_i flaw' hd
    cases h
    exact ⟨(key, value), List.mem_of_mem_head? hf, hd⟩
  · cases h

/-- Every entry is read back from its stored form, the times at both ends of 64 bits included. So is
every entry that was read from any text at all, and writing it once more changes nothing. Whatever
calls a store gets, a first entry that cannot be made out was in its files from before, and none
that was ever inserted blocks its topic. -/
theorem entries_read_back :
    (∀ (payload : Bytes) (time : Int64),
      decode (encode ⟨payload, time.toInt⟩) = .ok ⟨payload, time.toInt⟩) ∧
    (∀ text entry, decode text = .ok entry →
      decode (encode entry) = .ok entry ∧
      (decode (encode entry)).map encode = .ok (encode entry)) ∧
    (∀ flushOnInsert raw requests topic flaw,
      (serveAll serve (preloaded flushOnInsert raw) requests).2.fetchNext topic =
        .error (.codec flaw) →
      ∃ value, (topic, value) ∈ raw ∧ decode value = .error flaw) := by
  refine ⟨decode_encode_timed, ?_, ?_⟩
  · intro text entry h
    have hback := decode_encode_of_decode h
    exact ⟨hback, by rw [hback]; rfl⟩
  · intro flushOnInsert raw requests topic flaw h
    have hstocked := (stocked_preloaded flushOnInsert raw).serveAll
      (preloaded_sound flushOnInsert raw) requests
    obtain ⟨e, he, hd⟩ := fetchNext_codec h
    rcases hstocked topic e he with ⟨entry, hentry⟩ | hraw
    · rw [hd] at hentry
      cases hentry
    · exact ⟨e.2, hraw, hd⟩

/-- An entry with its fields the other way round, one beside them and blanks between. -/
def scattered : Bytes := Bytes.ofText
  " \x7b\"enqueued_at\": -9223372036854775808, \"by\": [1, \x7b\"n\": null\x7d], \"payload\": [0, 255]\x7d\n"

/-- The same as an array, behind an entry whose first octet is too large. -/
def stray : List (String × Bytes) :=
  [("t", Bytes.ofText "[[256], 0]"), ("t", Bytes.ofText "[[0, 255], -9223372036854775808]")]

theorem scattered_read_back :
    decode scattered = .ok ⟨[0, 255], -9223372036854775808⟩ ∧
    decode (encode ⟨[0, 255], -9223372036854775808⟩) = .ok ⟨[0, 255], -9223372036854775808⟩ ∧
    (serveAll serve (preloaded true stray) [.call "t" (.insert [7] 0)]).2.fetchNext "t" =
      .error (.codec .mistyped) ∧
    ∃ value, ("t", value) ∈ stray ∧ decode value = .error .mistyped := by
  have hread : decode scattered = .ok ⟨[0, 255], -9223372036854775808⟩ := by decide +kernel
  have hblocked : (serveAll serve (preloaded true stray) [.call "t" (.insert [7] 0)]).2.fetchNext
      "t" = .error (.codec .mistyped) := by rfl
  exact ⟨hread, (entries_read_back.2.1 _ _ hread).1, hblocked,
    entries_read_back.2.2 _ _ _ _ _ hblocked⟩

end Store

end TopicQueue
