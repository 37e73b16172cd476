/-!
# `Leasework.Shell.Word`: the words and marks of a script

A script is cut into words, marks such as `;` and `|`, and line ends. A word is made of
parts: text, parameters, the output of another script, and sums. Quotes say which parts
are split at blanks later on, so every part remembers whether it was quoted.

A script is read line by line. What is wrong with a later line does not keep an earlier
one from being run, so `tokens` ends in the fault instead of failing.
-/

set_option autoImplicit false

namespace Leasework.Shell

/-- What stands for a parameter. -/
inductive Use where
  /-- Its value. -/
  | value
  /-- The length of its value. -/
  | length
  /-- Its value, or a text if it is not set; an empty value may count as not set. -/
  | orElse (emptyToo : Bool) (text : String)
  /-- A text if it is set, or else nothing; an empty value may count as not set. -/
  | ifSet (emptyToo : Bool) (text : String)
deriving DecidableEq, Repr

/-- A part of a word. -/
inductive Part where
  /-- A text. -/
  | text (s : String) (quoted : Bool)
  /-- A parameter. -/
  | parameter (name : String) (use : Use) (quoted : Bool)
  /-- What a script writes. -/
  | output (script : String) (quoted : Bool)
  /-- The value of a sum. -/
  | sum (expression : String)
deriving DecidableEq, Repr

/-- A word. -/
abbrev Word : Type := List Part

/-- Why a script cannot be read. -/
inductive Fault where
  /-- A quotation does not end. -/
  | unterminated
  /-- A parameter in braces does not end. -/
  | unclosed
  /-- A parameter in braces cannot be read. -/
  | badSubstitution
  /-- Something stands where it cannot stand; perhaps something else has to stand there. -/
  | unexpected (found : String) (expected : Option String)
deriving DecidableEq, Repr

/-- The wording of a fault. -/
def Fault.message : Fault → String
  | .unterminated => "Syntax error: Unterminated quoted string"
  | .unclosed => "Syntax error: Missing '\x7d'"
  | .badSubstitution => "Syntax error: Bad substitution"
  | .unexpected found none => "Syntax error: " ++ found ++ " unexpected"
  | .unexpected found (some expected) =>
    "Syntax error: " ++ found ++ " unexpected (expecting \"" ++ expected ++ "\")"

/-- What a script is made of. -/
inductive Token where
  /-- A word. -/
  | word (w : Word)
  /-- A mark. -/
  | mark (s : String)
  /-- The number of a descriptor in front of a redirection. -/
  | descriptor (n : Nat)
  /-- The end of a line. -/
  | line
  /-- What follows cannot be read. -/
  | broken (f : Fault)
deriving DecidableEq, Repr

/-! ### Characters -/

/-- The apostrophe. -/
def apostrophe : Char := Char.ofNat 0x27

/-- The accent that surrounds a script whose output is wanted. -/
def accent : Char := Char.ofNat 0x60

/-- A space or a tab. -/
def isGap (c : Char) : Bool := c = ' ' || c = '\t'

/-- A character of a mark. -/
def isMark (c : Char) : Bool := ";&|()<>".toList.contains c

/-- A character that ends a bare word. -/
def endsWord (c : Char) : Bool := isGap c || c = '\n' || isMark c

/-- A character that a name begins with. -/
def beginsName (c : Char) : Bool := c.isAlpha || c = '_'

/-- A character of a name. -/
def isNamePart (c : Char) : Bool := c.isAlphanum || c = '_'

/-- The name of a parameter that is no variable. -/
def isSpecial (c : Char) : Bool := "@*#?$!-".toList.contains c

/-! ### What is enclosed -/

/-- What stands before the closing parenthesis. Those inside come in pairs, except in
quotations; `quote` is the quotation mark that is open. -/
def enclosed (depth : Nat) (quote : Option Char) (acc : List Char) :
    List Char → Option (List Char × List Char)
  | [] => none
  | '\\' :: c :: rest =>
    if quote = some apostrophe then enclosed depth quote ('\\' :: acc) (c :: rest)
    else enclosed depth quote (c :: '\\' :: acc) rest
  | c :: rest =>
    match quote with
    | some q => enclosed depth (if c = q then none else some q) (c :: acc) rest
    | none =>
      if c = '"' || c = apostrophe then enclosed depth (some c) (c :: acc) rest
      else if c = '(' then enclosed (depth + 1) none (c :: acc) rest
      else if c = ')' then
        match depth with
        | 0 => some (acc.reverse, rest)
        | depth + 1 => enclosed depth none (c :: acc) rest
      else enclosed depth none (c :: acc) rest

/-- What stands before the closing accent. -/
def accented (acc : List Char) : List Char → Option (List Char × List Char)
  | [] => none
  | '\\' :: c :: rest =>
    if c = accent || c = '\\' || c = '$' then accented (c :: acc) rest
    else accented (c :: '\\' :: acc) rest
  | c :: rest => if c = accent then some (acc.reverse, rest) else accented (c :: acc) rest

/-- The name of a parameter, and what follows. -/
def splitName : List Char → Option (String × List Char)
  | [] => none
  | c :: rest =>
    if beginsName c then
      some (String.ofList (c :: rest.takeWhile isNamePart), rest.dropWhile isNamePart)
    else if c.isDigit then
      some (String.ofList (c :: rest.takeWhile Char.isDigit), rest.dropWhile Char.isDigit)
    else if isSpecial c then some (String.singleton c, rest)
    else none

/-- The text behind the sign of a choice, without quotation marks. -/
def choiceText (cs : List Char) : String :=
  String.ofList (cs.filter fun c => c ≠ '"' && c ≠ apostrophe)

/-- A parameter in braces. -/
def braced? (inner : List Char) (quoted : Bool) : Option Part :=
  match inner with
  | ['#'] => some (.parameter "#" .value quoted)
  | '#' :: rest =>
    match splitName rest with
    | some (name, []) => some (.parameter name .length quoted)
    | _ => none
  | _ =>
    match splitName inner with
    | some (name, []) => some (.parameter name .value quoted)
    | some (name, ':' :: '-' :: rest) =>
      some (.parameter name (.orElse true (choiceText rest)) quoted)
    | some (name, '-' :: rest) => some (.parameter name (.orElse false (choiceText rest)) quoted)
    | some (name, ':' :: '+' :: rest) =>
      some (.parameter name (.ifSet true (choiceText rest)) quoted)
    | some (name, '+' :: rest) => some (.parameter name (.ifSet false (choiceText rest)) quoted)
    | _ => none

/-- What a dollar sign begins. A sign that begins nothing stands for itself. -/
def dollar (quoted : Bool) (cs : List Char) : Except Fault (Part × List Char) :=
  match cs with
  | '(' :: '(' :: rest =>
    match enclosed 0 none [] rest with
    | some (inner, ')' :: rest) => .ok (.sum (String.ofList inner), rest)
    | _ => .error (.unexpected "end of file" (some "))"))
  | '(' :: rest =>
    match enclosed 0 none [] rest with
    | some (inner, rest) => .ok (.output (String.ofList inner) quoted, rest)
    | none => .error (.unexpected "end of file" (some ")"))
  | '\x7b' :: rest =>
    match rest.dropWhile (· ≠ '\x7d') with
    | _ :: after =>
      match braced? (rest.takeWhile (· ≠ '\x7d')) quoted with
      | some part => .ok (part, after)
      | none => .error .badSubstitution
    | [] => .error .unclosed
  | _ =>
    match cs with
    | c :: rest =>
      if c.isDigit then .ok (.parameter (String.singleton c) .value quoted, rest)
      else
        match splitName cs with
        | some (name, rest) => .ok (.parameter name .value quoted, rest)
        | none => .ok (.text "$" quoted, cs)
    | [] => .ok (.text "$" quoted, [])

/-! ### Words -/

/-- Puts the plain text read so far, the last character first, behind the parts. -/
def putText (parts : Word) (plain : List Char) : Word :=
  if plain.isEmpty then parts else parts ++ [.text (String.ofList plain.reverse) false]

/-- Puts a quoted text behind the parts, also an empty one. -/
def putQuoted (parts : Word) (plain : List Char) : Word :=
  parts ++ [.text (String.ofList plain.reverse) true]

/-- Reads the rest of a word. The flag says whether a quotation is open; the plain text
that has been read is held last character first. -/
def word? (fuel : Nat) (quoted : Bool) (parts : Word) (plain : List Char) (cs : List Char) :
    Except Fault (Word × List Char) :=
  match fuel with
  | 0 => .error .unterminated
  | fuel + 1 =>
    let put := if quoted then putQuoted else putText
    match cs with
    | [] => if quoted then .error .unterminated else .ok (putText parts plain, [])
    | '\\' :: '\n' :: rest => word? fuel quoted parts plain rest
    | '\\' :: c :: rest =>
      if quoted then
        if c = '$' || c = accent || c = '"' || c = '\\' then
          word? fuel quoted parts (c :: plain) rest
        else word? fuel quoted parts (c :: '\\' :: plain) rest
      else word? fuel quoted (putQuoted (putText parts plain) [c]) [] rest
    | '"' :: rest =>
      if quoted then word? fuel false (putQuoted parts plain) [] rest
      else word? fuel true (putText parts plain) [] rest
    | '$' :: rest =>
      match dollar quoted rest with
      | .ok (part, rest) => word? fuel quoted (put parts plain ++ [part]) [] rest
      | .error f => .error f
    | c :: rest =>
      if c = accent then
        match accented [] rest with
        | some (inner, rest) =>
          word? fuel quoted (put parts plain ++ [.output (String.ofList inner) quoted]) [] rest
        | none => .error .unterminated
      else if quoted then word? fuel quoted parts (c :: plain) rest
      else if c = apostrophe then
        match rest.dropWhile (· ≠ apostrophe) with
        | _ :: after =>
          let inner := (rest.takeWhile (· ≠ apostrophe)).reverse
          word? fuel false (putQuoted (putText parts plain) inner) [] after
        | [] => .error .unterminated
      else if endsWord c then .ok (putText parts plain, c :: rest)
      else word? fuel false parts (c :: plain) rest

/-! ### Tokens -/

/-- The marks of two characters. -/
def longMarks : List String := ["&&", "||", ";;", ">>", ">&", "<&", "<<"]

/-- Reads a mark. -/
def splitMark : List Char → Option (String × List Char)
  | c :: d :: rest =>
    let two := String.ofList [c, d]
    if longMarks.contains two then some (two, rest)
    else if isMark c then some (String.singleton c, d :: rest)
    else none
  | [c] => if isMark c then some (String.singleton c, []) else none
  | [] => none

/-- A number that stands directly in front of a redirection. -/
def descriptor? (w : Word) (rest : List Char) : Option Nat :=
  match w, rest with
  | [.text s false], c :: _ => if c = '<' || c = '>' then s.toNat? else none
  | _, _ => none

/-- Cuts a script into tokens. -/
def tokensFrom (fuel : Nat) (cs : List Char) : List Token :=
  match fuel with
  | 0 => []
  | fuel + 1 =>
    match cs with
    | [] => []
    | '\n' :: rest => .line :: tokensFrom fuel rest
    | '\\' :: '\n' :: rest => tokensFrom fuel rest
    | '#' :: rest => tokensFrom fuel (rest.dropWhile (· ≠ '\n'))
    | c :: rest =>
      if isGap c then tokensFrom fuel rest
      else
        match splitMark cs with
        | some (mark, rest) => .mark mark :: tokensFrom fuel rest
        | none =>
          match word? (cs.length + 1) false [] [] cs with
          | .error f => [.broken f]
          | .ok (w, rest) =>
            match descriptor? w rest with
            | some n => .descriptor n :: tokensFrom fuel rest
            | none => .word w :: tokensFrom fuel rest

/-- The tokens of a script. -/
def tokens (script : String) : List Token :=
  let cs := script.toList
  tokensFrom (cs.length + 1) cs

end Leasework.Shell
