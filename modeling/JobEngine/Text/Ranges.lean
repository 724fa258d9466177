namespace JobEngine.Text

abbrev Ranges := List (Nat × Nat)

def Ranges.contain (rs : Ranges) (c : Char) : Bool :=
  rs.any fun (first, last) ↦ first ≤ c.toNat && c.toNat ≤ last

end JobEngine.Text
