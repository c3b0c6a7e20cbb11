/-!
# Padding

Texts set into a column of a given width.  A text wider than its column is left whole.
-/

namespace SpendPlanner.Padding

/-- The text moved to the right end of a column, filled up on the left. -/
def alignRight (fill : Char) (width : Nat) (s : String) : String :=
  String.ofList (List.replicate (width - s.length) fill ++ s.toList)

/-- The text at the left end of a column, filled up on the right. -/
def alignLeft (fill : Char) (width : Nat) (s : String) : String :=
  String.ofList (s.toList ++ List.replicate (width - s.length) fill)

end SpendPlanner.Padding
