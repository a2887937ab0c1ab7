import TopicQueue.Command.Inlet
import TopicQueue.Proofs.LiteralForm

namespace TopicQueue

namespace Json.Written

variable {v v' after after' rest : Bytes} {s s' : String}

/-- A literal is read off the octets that it starts. -/
theorem readText (h : Written v s) (hv : v ++ after = quote :: rest) :
    readText rest = .ok (s, after) := by
  obtain ⟨body, rfl, hs⟩ := h
  rw [List.cons_append, List.append_assoc] at hv
  obtain ⟨-, rfl⟩ := List.cons.inj hv
  exact readText_iff.mpr ⟨body, rfl, hs⟩

theorem of_readText (h : Json.readText rest = .ok (s, after)) :
    ∃ v, quote :: rest = v ++ after ∧ Written v s := by
  obtain ⟨body, rfl, hs⟩ := readText_iff.mp h
  exact ⟨quote :: (body ++ [quote]), by simp, body, rfl, hs⟩

theorem starts (h : Written v s) : ∃ tail, v = quote :: tail ∧ tail ≠ [] := by
  obtain ⟨body, rfl, -⟩ := h
  exact ⟨body ++ [quote], rfl, by simp⟩

/-- No two literals start the same octets. -/
theorem unique (h : Written v s) (h' : Written v' s') (he : v ++ after = v' ++ after') :
    v = v' ∧ s = s' ∧ after = after' := by
  obtain ⟨tail, rfl, -⟩ := h.starts
  have hread : Json.readText (tail ++ after) = .ok (s, after) := h.readText rfl
  have hread' : Json.readText (tail ++ after) = .ok (s', after') := h'.readText he.symm
  rw [hread] at hread'
  obtain ⟨rfl, rfl⟩ := Prod.mk.inj (Except.ok.inj hread')
  exact ⟨List.append_cancel_right he, rfl, rfl⟩

end Json.Written

namespace Command

/-- A literal of a command, and its text: one that is not too long. -/
def Written (v : Bytes) (s : String) : Prop := Json.Written v s ∧ v.length ≤ maxBytes

/-- Octets that do not begin with a blank. -/
def Bare (octets : Bytes) : Prop := ∀ b ∈ octets.head?, isSpace b = false

/-- No command starts these octets. -/
def Stuck (rest : Bytes) : Prop := ∀ v s after, rest = v ++ after → ¬ Written v s

/-- Octets read as blanks, a command, blanks, a command and so on, up to a rest. -/
inductive Reads : Bytes → List String → Bytes → Prop where
  | stop {blanks rest} (hb : ∀ b ∈ blanks, isSpace b = true) (hr : Bare rest) :
      Reads (blanks ++ rest) [] rest
  | next {blanks v s octets texts rest} (hb : ∀ b ∈ blanks, isSpace b = true) (hv : Written v s)
      (h : Reads octets texts rest) : Reads (blanks ++ (v ++ octets)) (s :: texts) rest

/-- What can come of one look at a buffer whose blanks are gone. -/
inductive Decoded (bs : Bytes) : Except ReadError (Option Command) × Bytes → Prop where
  | took {v s after} (he : bs = v ++ after) (hv : Written v s) :
      Decoded bs (.ok (some (.ofText s)), after)
  | waits (hs : Stuck bs) : Decoded bs (.ok none, bs)
  /-- A failure is for good. -/
  | failed {e} (he : (∃ flaw, e = .json flaw) ∨ e = .tooLong maxBytes) (hne : bs ≠ [])
      (hs : ∀ more, Stuck (bs ++ more)) : Decoded bs (.error e, bs)

variable {v v' blanks blanks' octets rest rest' after after' more : Bytes} {s s' : String}
  {texts texts' : List String}

theorem quote_not_space : isSpace Json.quote = false := by decide

theorem Written.bare (h : Written v s) (after : Bytes) : Bare (v ++ after) := by
  obtain ⟨tail, rfl, -⟩ := h.1.starts
  intro b hb
  cases hb
  exact quote_not_space

/-- Blanks end where something else begins. -/
theorem blanks_unique (hb : ∀ b ∈ blanks, isSpace b = true) (hb' : ∀ b ∈ blanks', isSpace b = true)
    (hr : Bare rest) (hr' : Bare rest') (he : blanks ++ rest = blanks' ++ rest') :
    blanks = blanks' ∧ rest = rest' := by
  have hdrop : ∀ {w r : Bytes}, (∀ b ∈ w, isSpace b = true) → Bare r →
      (w ++ r).dropWhile isSpace = r := by
    intro w r hw hr
    rw [List.dropWhile_append_of_pos hw]
    cases r with
    | nil => rfl
    | cons b r => exact List.dropWhile_cons_of_neg (by simp [hr b rfl])
  have hrest : rest = rest' := by
    rw [← hdrop hb hr, he, hdrop hb' hr']
  rw [hrest] at he
  exact ⟨List.append_cancel_right he, hrest⟩

theorem stuck_nil : Stuck [] := by
  rintro v s after he ⟨hv, -⟩
  obtain ⟨tail, rfl, -⟩ := hv.starts
  cases he

/-- A long buffer in which no literal ends does not start with a short one. -/
theorem stuck_of_unread (hread : ∀ s after, Json.readText rest ≠ .ok (s, after)) :
    Stuck (Json.quote :: rest) := by
  rintro v s after he ⟨hv, -⟩
  exact hread s after (hv.readText he.symm)

theorem stuck_of_long (hread : ∀ s after, Json.readText rest ≠ .ok (s, after))
    (hlong : maxBytes < (Json.quote :: rest).length) (more : Bytes) :
    Stuck (Json.quote :: rest ++ more) := by
  rintro v s after he ⟨hv, hlength⟩
  -- The literal would have to end inside the buffer.
  obtain ⟨inner, hinner⟩ : v <+: Json.quote :: rest :=
    List.prefix_of_prefix_length_le ⟨after, he.symm⟩ (List.prefix_append _ _) (by omega)
  exact hread s inner (hv.readText hinner)

theorem decode_decoded (buffer : Bytes) :
    Decoded (buffer.dropWhile isSpace) (decode buffer) := by
  unfold decode
  generalize buffer.dropWhile isSpace = bs
  cases bs with
  | nil => exact .waits stuck_nil
  | cons b rest =>
    dsimp only
    by_cases hq : b = Json.quote
    · rw [if_pos hq, hq]
      cases hread : Json.readText rest with
      | ok r =>
        obtain ⟨s, after⟩ := r
        obtain ⟨v, hv, hw⟩ := Json.Written.of_readText hread
        have hlength : (Json.quote :: rest).length - after.length = v.length := by
          rw [hv, List.length_append]
          omega
        dsimp only
        rw [hlength]
        split
        · rename_i hlong
          refine .failed (.inr rfl) (by simp) ?_
          rintro more v' s' after' he ⟨hw', hlength'⟩
          rw [hv, List.append_assoc] at he
          obtain ⟨rfl, -⟩ := hw.unique hw' he
          omega
        · rename_i hshort
          exact .took hv ⟨hw, by omega⟩
      | error e =>
        have hunread : ∀ s after, Json.readText rest ≠ .ok (s, after) := by simp [hread]
        cases e with
        | unfinished =>
          dsimp only
          split
          · rename_i hlong
            exact .failed (.inr rfl) (by simp) (stuck_of_long hunread hlong)
          · exact .waits (stuck_of_unread hunread)
        | malformed =>
          refine .failed (.inl ⟨_, rfl⟩) (by simp) fun more => stuck_of_unread ?_
          simp [Json.readText_append_error more hread (by decide)]
        | mistyped =>
          refine .failed (.inl ⟨_, rfl⟩) (by simp) fun more => stuck_of_unread ?_
          simp [Json.readText_append_error more hread (by decide)]
    · rw [if_neg hq]
      have hstuck : ∀ more, Stuck (b :: rest ++ more) := by
        rintro more v s after he ⟨hv, -⟩
        obtain ⟨tail, rfl, -⟩ := hv.starts
        exact hq (List.cons.inj he).1
      cases hu : Json.unwanted (b :: rest) with
      | unfinished =>
        dsimp only
        split
        · exact .failed (.inr rfl) (by simp) hstuck
        · exact .waits (by simpa using hstuck [])
      | malformed => exact .failed (.inl ⟨_, rfl⟩) (by simp) hstuck
      | mistyped => exact .failed (.inl ⟨_, rfl⟩) (by simp) hstuck

theorem dropWhile_bare (buffer : Bytes) : Bare (buffer.dropWhile isSpace) := by
  intro b hb
  have hhead := List.head?_dropWhile_not isSpace buffer
  cases hd : buffer.dropWhile isSpace with
  | nil =>
    rw [hd] at hb
    cases hb
  | cons c tail =>
    rw [hd] at hb hhead
    cases hb
    simpa using hhead

/-- A buffer is blanks and what begins with something else. -/
theorem blanks_split (buffer : Bytes) : ∃ blanks, (∀ b ∈ blanks, isSpace b = true) ∧
    buffer = blanks ++ buffer.dropWhile isSpace :=
  ⟨buffer.takeWhile isSpace, List.all_eq_true.mp List.all_takeWhile,
    List.takeWhile_append_dropWhile.symm⟩

/-- Why octets are no command. -/
def Undecodable (e : ReadError) : Prop :=
  (∃ flaw, e = .json flaw) ∨ e = .truncated ∨ e = .tooLong maxBytes

/-- Chunks that arrive. -/
def arriving (pieces : List Bytes) : List Chunk := pieces.map .data

/-- What the next reading of these octets is, and what it leaves of them. -/
inductive Found (octets : Bytes) : Reading × Inlet → Prop where
  | command {blanks v s buffer} (pieces) (hb : ∀ b ∈ blanks, isSpace b = true) (hv : Written v s)
      (he : octets = blanks ++ (v ++ (buffer ++ pieces.flatten))) :
      Found octets (.command (.ofText s), .chunks buffer (arriving pieces) true)
  | ended {inlet} (hb : ∀ b ∈ octets, isSpace b = true) : Found octets (.ended, inlet)
  | failed {blanks rest e inlet} (hb : ∀ b ∈ blanks, isSpace b = true)
      (he : octets = blanks ++ rest) (hr : Bare rest) (hne : rest ≠ []) (hs : Stuck rest)
      (hu : Undecodable e) : Found octets (.failed e, inlet)

/-- Blanks in front make no difference. -/
theorem Found.blank {octets : Bytes} {r : Reading × Inlet}
    (hb : ∀ b ∈ blanks, isSpace b = true) (h : Found octets r) : Found (blanks ++ octets) r := by
  have hboth : ∀ {more : Bytes}, (∀ b ∈ more, isSpace b = true) →
      ∀ b ∈ blanks ++ more, isSpace b = true := by
    intro more hm b hmem
    exact (List.mem_append.mp hmem).elim (hb b) (hm b)
  cases h with
  | command pieces hb' hv he => exact .command pieces (hboth hb') hv (by rw [he, List.append_assoc])
  | ended hb' => exact .ended (hboth hb')
  | failed hb' he hr hne hs hu =>
    exact .failed (hboth hb') (by rw [he, List.append_assoc]) hr hne hs hu

/-- At the end of the input, what is left has to be blank. -/
theorem found_last {buffer : Bytes} (hd : Decoded (buffer.dropWhile isSpace) (decode buffer)) :
    Found buffer (Inlet.readChunks true buffer []) := by
  obtain ⟨blanks, hb, hsplit⟩ := blanks_split buffer
  have hbare := dropWhile_bare buffer
  simp only [Inlet.readChunks, if_true, decodeLast]
  generalize hr : decode buffer = r at hd
  generalize buffer.dropWhile isSpace = bs at *
  cases hd with
  | @took v s after he hv =>
    refine .command [] hb hv ?_
    rw [hsplit, he, List.flatten_nil, List.append_nil]
  | waits hs =>
    rw [hsplit]
    by_cases hall : bs.all isSpace
    · simp only [hall, if_true]
      refine .blank hb (.ended ?_)
      simpa using hall
    · simp only [hall, Bool.false_eq_true, if_false]
      refine .failed hb rfl hbare ?_ hs (.inr (.inl rfl))
      rintro rfl
      exact hall rfl
  | failed he hne hs =>
    have hstuck := hs []
    rw [List.append_nil] at hstuck
    rw [hsplit]
    exact .failed hb rfl hbare hne hstuck (he.imp_right .inr)

/-- The next reading is a matter of the octets, wherever they are cut. -/
theorem readChunks_found (buffer : Bytes) (pieces : List Bytes) :
    Found (buffer ++ pieces.flatten) (Inlet.readChunks true buffer (arriving pieces)) := by
  induction pieces generalizing buffer with
  | nil =>
    rw [List.flatten_nil, List.append_nil]
    exact found_last (decode_decoded buffer)
  | cons piece pieces ih =>
    obtain ⟨blanks, hb, hsplit⟩ := blanks_split buffer
    have hbare := dropWhile_bare buffer
    have hd := decode_decoded buffer
    simp only [arriving, List.map_cons, Inlet.readChunks]
    generalize hr : decode buffer = r at hd
    generalize buffer.dropWhile isSpace = bs at *
    rw [hsplit, List.flatten_cons, List.append_assoc]
    cases hd with
    | @took v s after he hv =>
      refine .command (piece :: pieces) hb hv ?_
      rw [he, List.append_assoc, List.flatten_cons]
    | waits hs =>
      refine .blank hb ?_
      rw [← List.append_assoc]
      exact ih (bs ++ piece)
    | failed he hne hs =>
      refine .failed hb rfl ?_ (by simp [hne]) (hs _) (he.imp_right .inr)
      intro b hhead
      obtain ⟨c, tail, rfl⟩ := List.exists_cons_of_ne_nil hne
      exact hbare b hhead

/-- What the reader has to answer to octets that are these commands and this rest. -/
structure Answered (texts : List String) (rest : Bytes)
    (answers : List (Except ReadError Command)) : Prop where
  /-- Where nothing is left, the commands and no more. -/
  whole : rest = [] → answers = texts.map fun s => .ok (.ofText s)
  /-- Else one error after the commands. -/
  broken : rest ≠ [] → ∃ e, Undecodable e ∧
    answers = (texts.map fun s => .ok (.ofText s)) ++ [.error e]

theorem Answered.cons {answers : List (Except ReadError Command)}
    (h : Answered texts rest answers) (s : String) :
    Answered (s :: texts) rest (.ok (.ofText s) :: answers) := by
  refine ⟨fun hr => by simp [h.whole hr], fun hr => ?_⟩
  obtain ⟨e, hu, he⟩ := h.broken hr
  exact ⟨e, hu, by simp [he]⟩

/-- All readings, one after another. -/
theorem all_answered (turns : Nat) (buffer : Bytes) (pieces : List Bytes)
    (hturns : (buffer ++ pieces.flatten).length < turns) :
    ∃ texts rest, Reads (buffer ++ pieces.flatten) texts rest ∧ Stuck rest ∧
      Answered texts rest (Inlet.all turns (.chunks buffer (arriving pieces) true)) := by
  induction turns generalizing buffer pieces with
  | zero => exact absurd hturns (Nat.not_lt_zero _)
  | succ turns ih =>
    have hfound := readChunks_found buffer pieces
    simp only [Inlet.all, Inlet.next]
    generalize Inlet.readChunks true buffer (arriving pieces) = r at hfound
    generalize buffer ++ pieces.flatten = octets at *
    cases hfound with
    | @command blanks v s buffer' pieces' hb hv he =>
      obtain ⟨tail, hquote, -⟩ := hv.1.starts
      have hless : (buffer' ++ pieces'.flatten).length < turns := by
        rw [he, hquote] at hturns
        simp only [List.length_append, List.length_cons] at hturns ⊢
        omega
      obtain ⟨texts, rest, hreads, hs, ha⟩ := ih buffer' pieces' hless
      exact ⟨s :: texts, rest, he ▸ .next hb hv hreads, hs, ha.cons s⟩
    | ended hb =>
      have hreads : Reads (octets ++ []) [] [] := .stop hb (by rintro b ⟨⟩)
      rw [List.append_nil] at hreads
      exact ⟨[], [], hreads, stuck_nil, fun _ => rfl, fun h => absurd rfl h⟩
    | @failed blanks rest e inlet hb he hr hne hs hu =>
      exact ⟨[], rest, he ▸ .stop hb hr, hs, fun h => absurd h hne, fun _ => ⟨e, hu, rfl⟩⟩

/-- Blanks in front of what is read can be left out. -/
theorem Reads.bare (h : Reads (blanks ++ octets) texts rest)
    (hb : ∀ b ∈ blanks, isSpace b = true) (ho : Bare octets) : Reads octets texts rest := by
  have hnone : ∀ b ∈ ([] : Bytes), isSpace b = true := by simp
  generalize he : blanks ++ octets = whole at h
  cases h with
  | stop hb' hr =>
    obtain ⟨-, rfl⟩ := blanks_unique hb hb' ho hr he
    exact .stop hnone ho
  | next hb' hv h =>
    obtain ⟨-, rfl⟩ := blanks_unique hb hb' ho (hv.bare _) he
    exact .next hnone hv h

/-- Of two ways to read the same octets, one that has come to its end goes on from the other. -/
theorem Reads.goes_on (h : Reads octets texts rest) (h' : Reads octets texts' rest')
    (hs : Stuck rest) : ∃ more, texts = texts' ++ more ∧ Reads rest' more rest := by
  induction h' generalizing texts with
  | stop hb hr => exact ⟨texts, rfl, h.bare hb hr⟩
  | @next blanks' v' s' octets' texts' rest' hb' hv' h' ih =>
    generalize ho : blanks' ++ (v' ++ octets') = whole at h
    cases h with
    | stop hb hr =>
      obtain ⟨-, he⟩ := blanks_unique hb' hb (hv'.bare octets') hr ho
      exact absurd hv' (hs _ _ _ he.symm)
    | next hb hv h =>
      obtain ⟨-, he⟩ := blanks_unique hb' hb (hv'.bare octets') (hv.bare _) ho
      obtain ⟨-, rfl, rfl⟩ := hv'.1.unique hv.1 he
      obtain ⟨more, rfl, hmore⟩ := ih h
      exact ⟨more, rfl, hmore⟩

theorem Reads.rest_bare (h : Reads octets texts rest) : Bare rest := by
  induction h with
  | stop _ hr => exact hr
  | next _ _ _ ih => exact ih

/-- The way to read octets as commands, as far as commands go. -/
structure Parsed (octets : Bytes) (texts : List String) (rest : Bytes) : Prop where
  reads : Reads octets texts rest
  stuck : Stuck rest
  /-- No other way has more commands, or others. -/
  longest : ∀ texts' rest', Reads octets texts' rest' → texts' <+: texts
  /-- No other way goes as far. -/
  unique : ∀ texts' rest', Reads octets texts' rest' → Stuck rest' → texts' = texts ∧ rest' = rest

theorem Reads.parsed (h : Reads octets texts rest) (hs : Stuck rest) :
    Parsed octets texts rest := by
  refine ⟨h, hs, ?_, ?_⟩
  · intro texts' rest' h'
    obtain ⟨more, rfl, -⟩ := h.goes_on h' hs
    exact List.prefix_append texts' more
  · intro texts' rest' h' hs'
    have hnone : ∀ b ∈ ([] : Bytes), isSpace b = true := by simp
    obtain ⟨more, rfl, hmore⟩ := h.goes_on h' hs
    cases hmore with
    | stop hb hr =>
      obtain ⟨-, he⟩ := blanks_unique hnone hb h'.rest_bare hr rfl
      exact ⟨(List.append_nil texts').symm, he⟩
    | next hb hv =>
      obtain ⟨-, he⟩ := blanks_unique hnone hb h'.rest_bare (hv.bare _) rfl
      exact absurd hv (hs' _ _ _ he)

/-- The answers when the transport fails where the input would have ended: its failure takes the
place of the end, but not of a failure before. -/
def interrupted (reason : String) :
    List (Except ReadError Command) → List (Except ReadError Command)
  | [] | .error .truncated :: _ => [.error (.lost reason)]
  | .error e :: _ => [.error e]
  | .ok c :: answers => .ok c :: interrupted reason answers

/-- The next reading of chunks with a failure of the transport behind them, against the reading of
the chunks alone. -/
inductive Cut (reason : String) (later : List Chunk) (size : Nat) :
    Reading × Inlet → Reading × Inlet → Prop where
  | command {c buffer} (pieces) (hless : (buffer ++ pieces.flatten).length < size) :
      Cut reason later size (.command c, .chunks buffer (arriving pieces) true)
        (.command c, .chunks buffer (arriving pieces ++ .lost reason :: later) true)
  | failed {e i i'} (he : e ≠ .truncated) : Cut reason later size (.failed e, i) (.failed e, i')
  | ended {i i'} : Cut reason later size (.ended, i) (.failed (.lost reason), i')
  | truncated {i i'} :
      Cut reason later size (.failed .truncated, i) (.failed (.lost reason), i')

theorem Cut.mono {reason : String} {later : List Chunk} {size size' : Nat}
    {r r' : Reading × Inlet} (h : Cut reason later size r r') (hle : size ≤ size') :
    Cut reason later size' r r' := by
  cases h with
  | command pieces hless => exact .command pieces (Nat.lt_of_lt_of_le hless hle)
  | failed he => exact .failed he
  | ended => exact .ended
  | truncated => exact .truncated

/-- A command takes octets off the buffer. -/
theorem took_shorter {buffer : Bytes} (he : buffer.dropWhile isSpace = v ++ after)
    (hv : Written v s) : after.length < buffer.length := by
  obtain ⟨tail, rfl, -⟩ := hv.1.starts
  have hle := (List.dropWhile_sublist isSpace (l := buffer)).length_le
  rw [he, List.length_append, List.length_cons] at hle
  omega

theorem readChunks_cut (reason : String) (later : List Chunk) (buffer : Bytes)
    (pieces : List Bytes) :
    Cut reason later (buffer ++ pieces.flatten).length
      (Inlet.readChunks true buffer (arriving pieces))
      (Inlet.readChunks true buffer (arriving pieces ++ .lost reason :: later)) := by
  have hd := decode_decoded buffer
  have hle := (List.dropWhile_sublist isSpace (l := buffer)).length_le
  have htook : ∀ {v s after}, buffer.dropWhile isSpace = v ++ after → Written v s →
      after.length < buffer.length := took_shorter
  have hlast : ∀ {e : ReadError}, ((∃ flaw, e = .json flaw) ∨ e = .tooLong maxBytes) →
      e ≠ .truncated := by
    rintro _ (⟨flaw, rfl⟩ | rfl) <;> simp
  induction pieces generalizing buffer with
  | nil =>
    simp only [arriving, List.map_nil, List.nil_append, Inlet.readChunks, if_true, decodeLast]
    generalize decode buffer = r at hd
    generalize buffer.dropWhile isSpace = bs at *
    cases hd with
    | took he hv =>
      refine .command [] ?_
      simpa using htook he hv
    | waits hs =>
      by_cases hall : bs.all isSpace
      · simp only [hall, if_true]
        exact .ended
      · simp only [hall, Bool.false_eq_true, if_false]
        exact .truncated
    | failed he hne hs => exact .failed (hlast he)
  | cons piece pieces ih =>
    simp only [arriving, List.map_cons, List.cons_append, Inlet.readChunks]
    generalize decode buffer = r at hd
    generalize buffer.dropWhile isSpace = bs at *
    cases hd with
    | took he hv =>
      refine .command (piece :: pieces) ?_
      have hless := htook he hv
      simp only [List.length_append]
      omega
    | waits hs =>
      have hcut := ih (bs ++ piece) (decode_decoded _)
        (List.dropWhile_sublist isSpace).length_le took_shorter
      refine hcut.mono ?_
      simp only [List.length_append, List.flatten_cons]
      omega
    | failed he hne hs => exact .failed (hlast he)

theorem all_interrupted (reason : String) (later : List Chunk) (turns turns' : Nat)
    (buffer : Bytes) (pieces : List Bytes) (hturns : (buffer ++ pieces.flatten).length < turns)
    (hturns' : (buffer ++ pieces.flatten).length < turns') :
    Inlet.all turns' (.chunks buffer (arriving pieces ++ .lost reason :: later) true) =
      interrupted reason (Inlet.all turns (.chunks buffer (arriving pieces) true)) := by
  induction turns generalizing turns' buffer pieces with
  | zero => exact absurd hturns (Nat.not_lt_zero _)
  | succ turns ih =>
    obtain ⟨turns', rfl⟩ := Nat.exists_eq_add_one_of_ne_zero (Nat.ne_zero_of_lt hturns')
    have hcut := readChunks_cut reason later buffer pieces
    simp only [Inlet.all, Inlet.next]
    generalize Inlet.readChunks true buffer (arriving pieces) = r at hcut
    generalize Inlet.readChunks true buffer _ = r' at hcut
    generalize (buffer ++ pieces.flatten).length = size at *
    cases hcut with
    | @command c buffer' pieces' hless =>
      simp only [interrupted]
      rw [ih turns' buffer' pieces' (by omega) (by omega)]
    | @failed e i i' he =>
      cases e with
      | truncated => exact absurd rfl he
      | lost | json | tooLong | closed => rfl
    | ended => rfl
    | truncated => rfl

theorem tally_arriving (pieces : List Bytes) :
    tally Chunk.size (arriving pieces) = pieces.flatten.length := by
  induction pieces with
  | nil => rfl
  | cons piece pieces ih =>
    rw [arriving] at ih ⊢
    simp [Chunk.size, ih]

/-- Octets hold commands in one way only, and however they are cut into chunks, the reader answers
with just these commands, and with one error more, no disconnect, if something else is left. Where
the transport fails, the answers are those to the chunks before, but for the end of the input. -/
theorem ofChunks_parsed (octets : Bytes) : ∃ texts rest, Parsed octets texts rest ∧
    ∀ pieces : List Bytes, pieces.flatten = octets →
      Answered texts rest (ofChunks (pieces.map .data)) ∧
      ∀ reason later, ofChunks (pieces.map .data ++ .lost reason :: later) =
        interrupted reason (ofChunks (pieces.map .data)) := by
  obtain ⟨texts, rest, hreads, hs, -⟩ := all_answered (octets.length + 1) octets []
    (by simp)
  rw [List.flatten_nil, List.append_nil] at hreads
  have hparsed := hreads.parsed hs
  refine ⟨texts, rest, hparsed, ?_⟩
  rintro pieces rfl
  have hturns : ([] ++ pieces.flatten).length < tally Chunk.size (arriving pieces) + 1 := by
    rw [tally_arriving, List.nil_append]
    exact Nat.lt_succ_self _
  constructor
  · obtain ⟨texts', rest', hreads', hs', ha⟩ := all_answered _ [] pieces hturns
    obtain ⟨rfl, rfl⟩ := hparsed.unique texts' rest' hreads' hs'
    simpa [ofChunks, Inlet.unread, arriving] using ha
  · intro reason later
    have hall := all_interrupted reason later _
      (tally Chunk.size (arriving pieces ++ .lost reason :: later) + 1) [] pieces hturns ?_
    · simpa [ofChunks, Inlet.unread, arriving] using hall
    · rw [tally_append]
      omega

-- Every blank and every escape, cut in the middle.
example : ofChunks [.data [0x20, 0x09, 0x0A, 0x0C, 0x0D], .data (Bytes.ofText "\"\\\"\\\\\\/\\b"),
    .data (Bytes.ofText "\\f\\n\\r\\t\"\"ACK\"")] =
    [.ok (.unknown "\"\\/\x08\x0c\n\r\t"), .ok .ack] := by rfl

end Command

end TopicQueue
