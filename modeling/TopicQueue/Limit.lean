namespace TopicQueue

namespace Limit

def bits16 : Nat := 65536

/-- Numbers of 64 bits with a sign lie below it, and not below its opposite. -/
def bits63 : Nat := 9223372036854775808

def bits64 : Nat := 18446744073709551616

end Limit

/-- What a measure comes to over a list. -/
def tally {α : Type} (measure : α → Nat) : List α → Nat
  | [] => 0
  | a :: rest => measure a + tally measure rest

@[simp] theorem tally_nil {α : Type} (f : α → Nat) : tally f [] = 0 := rfl

@[simp] theorem tally_cons {α : Type} (f : α → Nat) (a : α) (l : List α) :
    tally f (a :: l) = f a + tally f l := rfl

theorem tally_append {α : Type} (f : α → Nat) (l m : List α) :
    tally f (l ++ m) = tally f l + tally f m := by
  induction l with
  | nil => simp
  | cons a l ih => simp [ih, Nat.add_assoc]

end TopicQueue
