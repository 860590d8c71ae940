import SoftConfirm.Text.Blank

/-!
Comma-separated settings: the trimmed pieces between commas, blank pieces left out.
-/

namespace SoftConfirm.Text

-- The pieces between commas, blank ones included. There is always at least one.
def pieces (cs : List Char) : List (List Char) := cs.splitOn ','

def commaList (s : String) : List String :=
  (((pieces s.toList).map trimChars).filter (!·.isEmpty)).map String.ofList

end SoftConfirm.Text
