/-!
# Texts in order

Texts in the order of their characters, each of a list once.
-/
namespace ScriptHost.Text

/-- Texts in order. -/
def sorted (l : List String) : List String :=
  l.mergeSort fun a b => decide (a ≤ b)

/-- Texts in order, each once. -/
def sortedOnce (l : List String) : List String :=
  sorted l.eraseDups

end ScriptHost.Text
