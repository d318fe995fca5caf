namespace Lox.Text

abbrev Ranges := List (Nat × Nat)

def Ranges.holds (table : Ranges) (c : Char) : Bool :=
  table.any fun range => decide (range.1 ≤ c.toNat) && decide (c.toNat ≤ range.2)

theorem Ranges.holds_iff {table : Ranges} {c : Char} :
    table.holds c = true ↔ ∃ range ∈ table, range.1 ≤ c.toNat ∧ c.toNat ≤ range.2 := by
  simp [Ranges.holds]

end Lox.Text
