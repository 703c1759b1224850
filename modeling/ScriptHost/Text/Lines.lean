/-!
# Line ends

Text files may end their lines in any of three ways; a reader sees one.
-/
namespace ScriptHost.Text

/-- Writes every line end, be it a line feed, a carriage return or both, as a line feed. -/
def unifyLineEnds : List Char → List Char
  | [] => []
  | '\r' :: '\n' :: rest => '\n' :: unifyLineEnds rest
  | '\r' :: rest => '\n' :: unifyLineEnds rest
  | c :: rest => c :: unifyLineEnds rest

end ScriptHost.Text
