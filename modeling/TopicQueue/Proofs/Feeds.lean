import Mathlib.Data.List.DropRight
import TopicQueue.Proofs.Drains

namespace TopicQueue

namespace Command

/-- The commands that octets hold and the rest that completes none, if that many looks are enough
and none of them fails. -/
def splitIn : Nat → Bytes → Option (List Command × Bytes)
  | 0, _ => none
  | looks + 1, octets =>
    match decode octets with
    | (.error _, _) => none
    | (.ok none, rest) => some ([], rest)
    | (.ok (some c), after) => (splitIn looks after).map fun (cs, rest) => (c :: cs, rest)

/-- The commands that octets hold, and the rest; nothing if they cannot be decoded. -/
def split (octets : Bytes) : Option (List Command × Bytes) := splitIn (octets.length + 1) octets

/-- Looking again and again yields these commands, and then waits with this rest. -/
inductive Yields : Bytes → List Command → Bytes → Prop where
  | stop {octets rest} (h : decode octets = (.ok none, rest)) : Yields octets [] rest
  | next {octets c after cs rest} (h : decode octets = (.ok (some c), after))
      (hy : Yields after cs rest) : Yields octets (c :: cs) rest

/-- The commands that a buffer and the chunks behind it yield, each chunk with what has been left
before it. -/
inductive Takes : Bytes → List Bytes → List Command → Bytes → Prop where
  | last {buffer cs rest} (h : Yields buffer cs rest) : Takes buffer [] cs rest
  | next {buffer piece pieces cs cs' left rest} (h : Yields buffer cs left)
      (ht : Takes (left ++ piece) pieces cs' rest) : Takes buffer (piece :: pieces) (cs ++ cs') rest

variable {octets buffer left rest rest' piece after : Bytes} {pieces : List Bytes}
  {cs cs' : List Command} {c : Command}

theorem yields_of_splitIn {looks : Nat} (h : splitIn looks octets = some (cs, rest)) :
    Yields octets cs rest := by
  induction looks generalizing octets cs with
  | zero => cases h
  | succ looks ih =>
    simp only [splitIn] at h
    split at h
    · cases h
    · rename_i left hd
      cases h
      exact .stop hd
    · rename_i c after hd
      obtain ⟨⟨cs', rest'⟩, hs, he⟩ := Option.map_eq_some_iff.mp h
      cases he
      exact .next hd (ih hs)

/-- More looks than octets are enough. -/
theorem Yields.splitIn_eq (h : Yields octets cs rest) {looks : Nat} (hl : octets.length < looks) :
    splitIn looks octets = some (cs, rest) := by
  induction h generalizing looks with
  | stop hd =>
    obtain ⟨looks, rfl⟩ := Nat.exists_eq_add_one_of_ne_zero (Nat.ne_zero_of_lt hl)
    simp only [splitIn, hd]
  | @next octets c after cs rest hd _ ih =>
    obtain ⟨looks, rfl⟩ := Nat.exists_eq_add_one_of_ne_zero (Nat.ne_zero_of_lt hl)
    have hless := (Inlet.decode_length octets).2 c (by rw [hd])
    rw [hd] at hless
    have hrest : splitIn looks after = some (cs, rest) := ih (by dsimp only at hless; omega)
    simp only [splitIn, hd, hrest, Option.map_some]

theorem split_iff : split octets = some (cs, rest) ↔ Yields octets cs rest :=
  ⟨yields_of_splitIn, fun h => h.splitIn_eq (Nat.lt_succ_self _)⟩

/-- One more chunk has arrived. -/
theorem Takes.push (h : Takes buffer pieces cs rest) (hy : Yields (rest ++ piece) cs' rest') :
    Takes buffer (pieces ++ [piece]) (cs ++ cs') rest' := by
  induction h with
  | last h => exact .next h (.last hy)
  | next h _ ih =>
    rw [List.append_assoc]
    exact .next h (ih hy)

end Command

namespace Inlet
open Command

/-- Chunks against commands. The rest is what decoding all that has arrived leaves; each of the two
inputs may have been hung up. Behind the failure of an input neither is looked at any more. -/
inductive Mirrors (rest : Bytes) (hungUp hungUp' : Bool) : Inlet → Inlet → Prop where
  | fed {buffer pieces cs} (hh : hungUp = false) (hh' : hungUp' = false)
      (h : Takes buffer pieces cs rest) :
      Mirrors rest hungUp hungUp' (.chunks buffer (arriving pieces) false)
        (.commands (cs.map .ok) false)
  | lost {buffer pieces cs left reason later later' closed closed'}
      (hh : hungUp' = true → hungUp = true) (h : Takes buffer pieces cs left) :
      Mirrors rest hungUp hungUp' (.chunks buffer (arriving pieces ++ .lost reason :: later) closed)
        (.commands (cs.map .ok ++ .error (.lost reason) :: later') closed')
  | ended {buffer pieces cs left} (hh : hungUp = true) (hh' : hungUp' = true)
      (h : Takes buffer pieces cs left) (hb : left.all isSpace = true) :
      Mirrors rest hungUp hungUp' (.chunks buffer (arriving pieces) true)
        (.commands (cs.map .ok) true)
  | cut {buffer pieces cs left later' closed'} (hh : hungUp = true)
      (h : Takes buffer pieces cs left) (hb : left.all isSpace = false) :
      Mirrors rest hungUp hungUp' (.chunks buffer (arriving pieces) true)
        (.commands (cs.map .ok ++ .error .truncated :: later') closed')

/-- What a reader finds in both. -/
inductive Finds (rest : Bytes) (hungUp hungUp' : Bool) : Reading × Inlet → Reading × Inlet → Prop
    where
  | command {c i i'} (hm : Mirrors rest hungUp hungUp' i i') :
      Finds rest hungUp hungUp' (.command c, i) (.command c, i')
  | pending {i} (hm : Mirrors rest hungUp hungUp' i (.commands [] false)) :
      Finds rest hungUp hungUp' (.pending, i) (.pending, .commands [] false)
  | ended {i i'} : Finds rest hungUp hungUp' (.ended, i) (.ended, i')
  | failed {e i i'} : Finds rest hungUp hungUp' (.failed e, i) (.failed e, i')

variable {buffer rest after : Bytes} {pieces : List Bytes} {cs : List Command} {c : Command}
  {hungUp hungUp' : Bool} {i i' : Inlet} {rest' octets : Bytes}

theorem readChunks_took (h : decode buffer = (.ok (some c), after)) (closed : Bool)
    (queue : List Chunk) :
    readChunks closed buffer queue = (.command c, .chunks after queue closed) := by
  cases queue with
  | nil => cases closed <;> simp [readChunks, decodeLast, h]
  | cons chunk queue => simp [readChunks, h]

/-- A look that waits has only taken blanks. -/
theorem decode_again (h : decode buffer = (.ok none, rest)) : decode rest = (.ok none, rest) := by
  have hd := decode_decoded buffer
  rw [h] at hd
  cases hd with
  | waits => rw [← h, decode, decode, List.dropWhile_idempotent]

/-- What the chunks of a queue hold is read before anything behind them. -/
theorem read_command (h : Takes buffer pieces (c :: cs) rest) (closed : Bool)
    (later : List Chunk) :
    ∃ buffer' pieces', readChunks closed buffer (arriving pieces ++ later) =
        (.command c, .chunks buffer' (arriving pieces' ++ later) closed) ∧
      Takes buffer' pieces' cs rest := by
  generalize hcs : c :: cs = all at h
  induction h with
  | last hy =>
    subst hcs
    cases hy with
    | next hd hy => exact ⟨_, [], readChunks_took hd closed _, .last hy⟩
  | @next buffer piece pieces cs₁ cs₂ left rest hy ht ih =>
    cases hy with
    | stop hd =>
      obtain ⟨buffer', pieces', hread, htakes⟩ := ih hcs
      refine ⟨buffer', pieces', ?_, htakes⟩
      rw [← hread]
      simp [arriving, readChunks, hd]
    | next hd hy =>
      obtain ⟨rfl, rfl⟩ := List.cons.inj hcs
      exact ⟨_, piece :: pieces, readChunks_took hd closed _, .next hy ht⟩

/-- Where they hold no command, what is behind them decides. -/
theorem read_behind (h : Takes buffer pieces [] rest) (closed : Bool) (later : List Chunk) :
    ∃ buffer', decode buffer' = (.ok none, rest) ∧
      readChunks closed buffer (arriving pieces ++ later) = readChunks closed buffer' later := by
  generalize hcs : ([] : List Command) = all at h
  induction h with
  | last hy =>
    subst hcs
    cases hy with
    | stop hd => exact ⟨_, hd, rfl⟩
  | next hy _ ih =>
    obtain ⟨rfl, rfl⟩ := List.append_eq_nil_iff.mp hcs.symm
    cases hy with
    | stop hd =>
      obtain ⟨buffer', hd', hread⟩ := ih rfl
      refine ⟨buffer', hd', ?_⟩
      rw [← hread]
      simp [arriving, readChunks, hd]

theorem Mirrors.next (h : Mirrors rest hungUp hungUp' i i') :
    Finds rest hungUp hungUp' i.next i'.next := by
  cases h with
  | @fed buffer pieces cs hh hh' h =>
    cases cs with
    | nil =>
      obtain ⟨buffer', hd, hread⟩ := read_behind h false []
      rw [List.append_nil] at hread
      simp only [Inlet.next, hread, readChunks, hd, List.map_nil]
      have htakes : Takes rest [] [] rest := .last (.stop (decode_again hd))
      exact .pending (.fed hh hh' htakes)
    | cons c cs =>
      obtain ⟨buffer', pieces', hread, htakes⟩ := read_command h false []
      simp only [List.append_nil] at hread
      simp only [Inlet.next, hread, List.map_cons]
      exact .command (.fed hh hh' htakes)
  | @lost buffer pieces cs left reason later later' closed closed' hh h =>
    cases cs with
    | nil =>
      obtain ⟨buffer', hd, hread⟩ := read_behind h closed (.lost reason :: later)
      simp only [Inlet.next, hread, readChunks, hd, List.map_nil, List.nil_append]
      exact .failed
    | cons c cs =>
      obtain ⟨buffer', pieces', hread, htakes⟩ := read_command h closed (.lost reason :: later)
      simp only [Inlet.next, hread, List.map_cons, List.cons_append]
      exact .command (.lost hh htakes)
  | @ended buffer pieces cs left hh hh' h hb =>
    cases cs with
    | nil =>
      obtain ⟨buffer', hd, hread⟩ := read_behind h true []
      rw [List.append_nil] at hread
      simp only [Inlet.next, hread, readChunks, decodeLast, hd, List.map_nil, if_true, hb]
      exact .ended
    | cons c cs =>
      obtain ⟨buffer', pieces', hread, htakes⟩ := read_command h true []
      simp only [List.append_nil] at hread
      simp only [Inlet.next, hread, List.map_cons]
      exact .command (.ended hh hh' htakes hb)
  | @cut buffer pieces cs left later' closed' hh h hb =>
    cases cs with
    | nil =>
      obtain ⟨buffer', hd, hread⟩ := read_behind h true []
      rw [List.append_nil] at hread
      simp only [Inlet.next, hread, readChunks, decodeLast, hd, List.map_nil, List.nil_append,
        if_true, hb, Bool.false_eq_true, if_false]
      exact .failed
    | cons c cs =>
      obtain ⟨buffer', pieces', hread, htakes⟩ := read_command h true []
      simp only [List.append_nil] at hread
      simp only [Inlet.next, hread, List.map_cons, List.cons_append]
      exact .command (.cut hh htakes hb)

/-- These commands have come. -/
def pushCommands (cs : List Command) (i : Inlet) : Inlet :=
  cs.foldl (fun i c => i.pushCommand (.ok c)) i

theorem pushCommands_commands (cs : List Command) (queue : List (Except ReadError Command))
    (closed : Bool) :
    pushCommands cs (.commands queue closed) = .commands (queue ++ cs.map .ok) closed := by
  unfold pushCommands
  induction cs generalizing queue with
  | nil => simp
  | cons c cs ih =>
    have hrest := ih (queue ++ [.ok c])
    rw [List.append_assoc] at hrest
    exact hrest

/-- A chunk comes, and the commands that it completes. -/
theorem Mirrors.fed_on (h : Mirrors rest false hungUp' i i') (hy : Yields (rest ++ octets) cs rest') :
    Mirrors rest' false hungUp' (i.pushChunk (.data octets)) (pushCommands cs i') := by
  cases h with
  | @fed buffer pieces cs' hh hh' h =>
    have hpush := Mirrors.fed hh hh' (h.push hy)
    rw [pushCommands_commands]
    simpa [pushChunk, arriving] using hpush
  | lost hh h =>
    rw [pushCommands_commands, List.append_assoc, List.cons_append]
    simp only [pushChunk, List.append_assoc, List.cons_append]
    exact .lost hh h
  | ended hh | cut hh => cases hh

/-- The transport fails. -/
theorem Mirrors.failed_on (h : Mirrors rest false hungUp' i i') (reason : String) :
    Mirrors rest false hungUp' (i.pushChunk (.lost reason))
      (i'.pushCommand (.error (.lost reason))) := by
  cases h with
  | fed hh hh' h => exact .lost (by simp [hh']) h
  | lost hh h =>
    simp only [pushChunk, pushCommand, List.append_assoc, List.cons_append]
    exact .lost hh h
  | ended hh | cut hh => cases hh

/-- The input is hung up between two commands. -/
theorem Mirrors.closed (h : Mirrors rest false hungUp' i i') (hb : rest.all isSpace = true) :
    Mirrors rest true true i.close i'.close := by
  cases h with
  | fed hh hh' h => exact .ended rfl rfl h hb
  | lost hh h => exact .lost (fun _ => rfl) h
  | ended hh | cut hh => cases hh

/-- The input is hung up inside a command. -/
theorem Mirrors.broken (h : Mirrors rest false hungUp' i i') (hb : rest.all isSpace = false) :
    Mirrors rest true hungUp' i.close (i'.pushCommand (.error .truncated)) := by
  cases h with
  | fed hh hh' h => exact .cut rfl h hb
  | lost hh h =>
    simp only [close, pushCommand, List.append_assoc, List.cons_append]
    exact .lost (fun _ => rfl) h
  | ended hh | cut hh => cases hh

theorem Mirrors.open (h : Mirrors rest false hungUp' i i') : hungUp' = false := by
  cases h with
  | fed hh hh' => exact hh'
  | lost hh => simpa using hh
  | ended hh | cut hh => cases hh

/-- If only the chunks have been hung up, there is a failure that hides what is to come. -/
theorem Mirrors.hides (h : Mirrors rest true false i i') :
    i' ≠ .commands [] false ∧ (∀ item, Mirrors rest true false i (i'.pushCommand item)) ∧
      Mirrors rest true true i i'.close := by
  cases h with
  | fed hh | ended hh hh' => contradiction
  | lost hh h =>
    refine ⟨by simp, fun item => ?_, .lost (fun _ => rfl) h⟩
    simp only [pushCommand, List.append_assoc, List.cons_append]
    exact .lost (fun _ => rfl) h
  | cut hh h hb =>
    refine ⟨by simp, fun item => ?_, .cut rfl h hb⟩
    simp only [pushCommand, List.append_assoc, List.cons_append]
    exact .cut rfl h hb

end Inlet

end TopicQueue
