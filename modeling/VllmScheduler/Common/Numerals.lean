import Mathlib.Data.Nat.Cast.Defs
/-!
# Numerals

A numeral of a field, beyond 0 and 1, carries a proof that it is at least two.
Where Mathlib's instance for `n + 2` finds it, the proof becomes an auxiliary
declaration of the definition that first writes the numeral, and which one that
is depends on what a module imports. For the numerals that several modules write,
an instance makes the proof one constant, so that they are the same term in each.
-/

namespace VllmScheduler

namespace Numerals

instance atLeastTwo_two : Nat.AtLeastTwo 2 := ⟨by decide⟩

instance atLeastTwo_three : Nat.AtLeastTwo 3 := ⟨by decide⟩

instance atLeastTwo_five : Nat.AtLeastTwo 5 := ⟨by decide⟩

instance atLeastTwo_eight : Nat.AtLeastTwo 8 := ⟨by decide⟩

instance atLeastTwo_ten : Nat.AtLeastTwo 10 := ⟨by decide⟩

instance atLeastTwo_fifty : Nat.AtLeastTwo 50 := ⟨by decide⟩

instance atLeastTwo_hundred : Nat.AtLeastTwo 100 := ⟨by decide⟩

instance atLeastTwo_fiveHundred : Nat.AtLeastTwo 500 := ⟨by decide⟩

instance atLeastTwo_thousand : Nat.AtLeastTwo 1000 := ⟨by decide⟩

instance atLeastTwo_million : Nat.AtLeastTwo 1000000 := ⟨by decide⟩

instance atLeastTwo_hundredMillion : Nat.AtLeastTwo 100000000 := ⟨by decide⟩

instance atLeastTwo_billion : Nat.AtLeastTwo 1000000000 := ⟨by decide⟩

end Numerals

end VllmScheduler
