import TopicQueue.Logging.Level

namespace TopicQueue

structure FilterRule where
  /-- How the parts that it is about begin; empty for all of them. -/
  target : String
  /-- The highest rank that is shown, zero for none. -/
  rank : Nat
  deriving DecidableEq, Repr

abbrev LogFilter := List FilterRule

namespace LogFilter

def upTo (level : Level) : LogFilter := [⟨"", level.rank⟩]

/-- A level by its name in any case or by its number. -/
def rank? (s : String) : Option Nat :=
  let s := s.map Char.toLower
  (["off", "error", "warn", "info", "debug", "trace"].findIdx? (· == s)) <|>
    (["0", "1", "2", "3", "4", "5"].findIdx? (· == s))

def isTargetChar (c : Char) : Bool := c.isAlphanum || c = ':' || c = '_' || c = '-'

/-- A rule is a level, a target, or both with an equals sign between them. A target alone shows
all. -/
def rule? (s : String) : Option FilterRule :=
  let s := s.trimAscii.toString
  match s.splitOn "=" with
  | [one] =>
    match rank? one with
    | some rank => some ⟨"", rank⟩
    | none =>
      if !one.isEmpty && one.toList.all isTargetChar then some ⟨one, Level.trace.rank⟩ else none
  | [target, level] =>
    if target.isEmpty || !target.toList.all isTargetChar then none
    else if level.isEmpty then some ⟨target, Level.error.rank⟩
    else (rank? level).map (⟨target, ·⟩)
  | _ => none

/-- Rules with commas between them. Without any, errors are shown. -/
def parse (s : String) : Option LogFilter :=
  match (s.splitOn ",").filter (· ≠ "") with
  | [] => some (upTo .error)
  | rules => rules.mapM rule?

/-- The better of two rules: the one with the longer target, the later one of equals. -/
def better (best : Option FilterRule) (r : FilterRule) : Option FilterRule :=
  match best with
  | none => some r
  | some b => if b.target.length ≤ r.target.length then some r else some b

def shows (f : LogFilter) (target : String) (level : Level) : Bool :=
  match (f.filter fun r => target.startsWith r.target).foldl better none with
  | none => false
  | some r => level.rank ≤ r.rank

end LogFilter

end TopicQueue
