/-!
# Columns

A column of a table has a width in characters.  A shorter text is filled up with spaces, after it
(`alignLeft`) or before it (`alignRight`); a longer one keeps its length.
-/

set_option autoImplicit false

namespace PipeTrace.Text

def alignLeft (width : Nat) (s : String) : String :=
  String.ofList (s.toList.rightpad width ' ')

def alignRight (width : Nat) (s : String) : String :=
  String.ofList (s.toList.leftpad width ' ')

theorem length_alignLeft (width : Nat) (s : String) :
    (alignLeft width s).length = max width s.length := by
  rw [alignLeft, String.length_ofList, List.length_rightpad, String.length_toList]

theorem length_alignRight (width : Nat) (s : String) :
    (alignRight width s).length = max width s.length := by
  rw [alignRight, String.length_ofList, List.length_leftpad, String.length_toList]

end PipeTrace.Text
