/-!
# Powers and totals of whole numbers

The powers of the two bases that binary and decimal notation are made of, and the total of a list.
-/

namespace SecureReview.Number

/-- The power of two with an exponent. -/
def twoTo (k : Nat) : Nat := Nat.pow 2 k

/-- The power of ten with an exponent. -/
def tenTo (k : Nat) : Nat := Nat.pow 10 k

/-- The total of a list of numbers. -/
def total (ns : List Nat) : Nat := ns.foldr (fun n t => n + t) 0

@[simp] theorem total_nil : total [] = 0 := rfl

@[simp] theorem total_cons (n : Nat) (ns : List Nat) : total (n :: ns) = n + total ns := rfl

theorem total_append (ms ns : List Nat) : total (ms ++ ns) = total ms + total ns := by
  induction ms with
  | nil => simp
  | cons m ms ih => simp only [List.cons_append, total_cons, ih, Nat.add_assoc]

end SecureReview.Number
