namespace TenantQuery.Word

def count : Nat := 0x10000000000000000

/-- Half of the number of words: the first number that a word with a sign does not hold. -/
def half : Nat := 0x8000000000000000

abbrev Holds (n : Int) : Prop :=
  -(half : Int) ≤ n ∧ n < half

end TenantQuery.Word
