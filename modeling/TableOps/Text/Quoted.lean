import TableOps.Text.Cut

/-!
# Quoted names

A name between quote marks, with every mark inside it written twice, so that the closing mark is
the only one that stands alone.
-/

namespace TableOps.Text

/-- The characters of a quoted name. -/
def quotedChars (mark : Char) (name : List Char) : List Char :=
  mark :: doubled mark name ++ [mark]

/-- A name between quote marks. -/
def quoted (mark : Char) (name : String) : String :=
  String.ofList (quotedChars mark name.toList)

end TableOps.Text
