/-!
# Names of functions and namespaces

A name is a non-empty run of ASCII letters, digits, `_`, `.` and `-`. The
grammar is what a constrained path parameter has to satisfy before its
handler sees it, so it excludes `/`, `%`, blanks and everything outside ASCII.
-/

namespace FunctionGateway

/-- One of the characters a name may hold. `Char.isAlphanum` knows ASCII letters
and digits only, which is the rule here. -/
def isNameChar (letter : Char) : Bool :=
  letter.isAlphanum || letter == '_' || letter == '.' || letter == '-'

/-- A valid name has at least one character and holds name characters only. -/
def isValidName (text : String) : Bool :=
  !text.toList.isEmpty && text.toList.all isNameChar

theorem isValidName_iff (text : String) :
    isValidName text = true ↔
      text.toList ≠ [] ∧ ∀ letter ∈ text.toList, isNameChar letter = true := by
  simp [isValidName]

end FunctionGateway
