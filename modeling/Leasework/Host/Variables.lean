import Leasework.Text.Utf8

/-!
# `Leasework.Host.Variables`: the variables a program is started with

A variable is a sequence of bytes. Where a text is wanted, a variable that is no text
counts as one that is not set.
-/

set_option autoImplicit false

namespace Leasework.Host

/-- The variables that are set, by name. -/
abbrev Variables : Type := List (String × List UInt8)

namespace Variables

/-- The bytes of a variable. -/
def bytes? (vars : Variables) (name : String) : Option (List UInt8) := List.lookup name vars

/-- The text of a variable. -/
def text? (vars : Variables) (name : String) : Option String :=
  (vars.bytes? name).bind Text.decode?

end Variables

end Leasework.Host
