/-!
# The written form of a record

A record is written as its name and its fields between braces, as in `Point { x: 1, y: 2 }`.
-/

namespace PacketRelay.Text

/-- Writes a record with the given name and fields. -/
def record (name : String) (fields : List (String × String)) : String :=
  let body := ", ".intercalate (fields.map fun f => f.1 ++ ": " ++ f.2)
  name ++ " \x7b " ++ body ++ " \x7d"

end PacketRelay.Text
