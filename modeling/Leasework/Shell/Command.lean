import Leasework.Shell.Word

/-!
# `Leasework.Shell.Command`: the commands of a script

Commands are read from tokens by descent: a list of commands, two commands joined by
`&&` or `||`, a pipeline, and a single command, which may hold a list again. A script is
a sequence of complete lines, of which the first wrong one ends the reading.
-/

set_option autoImplicit false

namespace Leasework.Shell

/-- Where a descriptor leads. -/
inductive Target where
  /-- To where another descriptor leads. -/
  | same (descriptor : Nat)
  /-- Nowhere: it is closed. -/
  | closed
  /-- To a file. -/
  | file (path : Word)
deriving DecidableEq, Repr

/-- A change of where a descriptor leads while a command runs. -/
structure Redirection where
  /-- The descriptor. -/
  descriptor : Nat
  /-- Where it leads. -/
  target : Target
deriving DecidableEq, Repr

/-- A command. -/
inductive Command where
  /-- Does nothing. -/
  | nothing
  /-- Assigns variables, or runs a program or a command of the shell. -/
  | simple (line : Nat) (assignments : List (String × Word)) (words : List Word)
      (redirections : List Redirection)
  /-- One after the other. -/
  | sequence (a b : Command)
  /-- The second only if the first succeeds. -/
  | both (a b : Command)
  /-- The second only if the first fails. -/
  | either (a b : Command)
  /-- Succeeds if the command fails. -/
  | negation (a : Command)
  /-- The output of the first is the input of the second. -/
  | pipe (a b : Command)
  /-- A list of commands, perhaps in a shell of its own. -/
  | block (ownShell : Bool) (body : Command) (redirections : List Redirection)
  /-- One of two, as a test says. -/
  | choice (test yes no : Command)
  /-- A body as long as a test succeeds, or as long as it fails. -/
  | loop (whileFails : Bool) (test body : Command)
  /-- A body for every word; all arguments if there are no words given. -/
  | each (name : String) (words : Option (List Word)) (body : Command)
deriving Repr

/-! ### Reading -/

/-- What is left to read. -/
abbrev Tokens : Type := List Token

/-- The word that stands bare in a token. -/
def bare? : Token → Option String
  | .word [.text s false] => some s
  | _ => none

/-- How a token is named in a fault. -/
def Token.title (reserved : List String) (t : Token) : String :=
  match t with
  | .mark s => "\"" ++ s ++ "\""
  | .line => "newline"
  | .descriptor _ => "redirection"
  | .broken _ => "end of file"
  | .word _ =>
    match bare? t with
    | some s => if reserved.contains s then "\"" ++ s ++ "\"" else "word"
    | none => "word"

/-- Words that have a meaning of their own where a command may begin. -/
def reserved : List String :=
  ["if", "then", "else", "elif", "fi", "for", "while", "until", "do", "done", "\x7b", "\x7d",
    "!", "case", "esac", "in"]

/-- Words that end a list of commands. -/
def closing : List String := ["then", "else", "elif", "fi", "do", "done", "\x7d", "esac"]

/-- Something else should stand here. -/
def unexpected {α : Type} (expected : Option String) : Tokens → Except Fault α
  | [] => .error (.unexpected "end of file" expected)
  | .broken f :: _ => .error f
  | t :: _ => .error (.unexpected (t.title reserved) expected)

/-- Skips line ends. -/
def skipLines : Tokens → Tokens
  | .line :: rest => skipLines rest
  | ts => ts

/-- Takes a word that has to stand here. -/
def expectWord (s : String) (ts : Tokens) : Except Fault Tokens :=
  match ts with
  | t :: rest => if bare? t = some s then .ok rest else unexpected (some s) ts
  | [] => unexpected (some s) []

/-- Whether a list of commands ends here. -/
def endsList : Tokens → Bool
  | [] => true
  | .broken _ :: _ => true
  | .mark s :: _ => s = ")" || s = ";;"
  | t :: _ => (bare? t).any closing.contains

/-- A redirection by its descriptor, its mark and the word behind it. -/
def redirection? (descriptor : Option Nat) (mark : String) (w : Word) : Option Redirection :=
  let target : Option Target :=
    if mark = ">&" || mark = "<&" then
      match w with
      | [.text s false] => if s = "-" then some .closed else s.toNat?.map .same
      | _ => none
    else some (.file w)
  let usual := if mark = "<" || mark = "<&" then 0 else 1
  target.map fun t => ⟨descriptor.getD usual, t⟩

/-- A mark that begins a redirection. -/
def isRedirection (mark : String) : Bool := ["<", ">", ">>", ">&", "<&"].contains mark

/-- Reads redirections one after the other. -/
def redirections (acc : List Redirection) : Tokens → List Redirection × Tokens
  | .descriptor n :: .mark m :: .word w :: rest =>
    match if isRedirection m then redirection? (some n) m w else none with
    | some r => redirections (acc ++ [r]) rest
    | none => (acc, .descriptor n :: .mark m :: .word w :: rest)
  | .mark m :: .word w :: rest =>
    match if isRedirection m then redirection? none m w else none with
    | some r => redirections (acc ++ [r]) rest
    | none => (acc, .mark m :: .word w :: rest)
  | ts => (acc, ts)

/-- A word that assigns a variable. -/
def assignment? (w : Word) : Option (String × Word) :=
  match w with
  | .text s false :: rest =>
    match splitName s.toList with
    | some (name, '=' :: value) =>
      if name.toList.all isNamePart && !(name.toList.all Char.isDigit) then
        some (name, if value.isEmpty then rest else .text (String.ofList value) false :: rest)
      else none
    | _ => none
  | _ => none

/-- Reads the words and redirections of a simple command. -/
def simpleFrom (line : Nat) (assignments : List (String × Word)) (words : List Word)
    (targets : List Redirection) (fuel : Nat) (ts : Tokens) : Except Fault (Command × Tokens) :=
  match fuel with
  | 0 => unexpected none ts
  | fuel + 1 =>
    match redirections [] ts with
    | (r :: rs, rest) => simpleFrom line assignments words (targets ++ r :: rs) fuel rest
    | ([], ts) =>
      match ts with
      | .word w :: rest =>
        match if words.isEmpty then assignment? w else none with
        | some a => simpleFrom line (assignments ++ [a]) words targets fuel rest
        | none => simpleFrom line assignments (words ++ [w]) targets fuel rest
      | .broken f :: _ => .error f
      | .descriptor _ :: _ => unexpected none ts
      | .mark m :: rest =>
        if isRedirection m then unexpected none rest
        else if assignments.isEmpty && words.isEmpty && targets.isEmpty then unexpected none ts
        else if m = "(" then unexpected none ts
        else .ok (.simple line assignments words targets, ts)
      | _ =>
        if assignments.isEmpty && words.isEmpty && targets.isEmpty then unexpected none ts
        else .ok (.simple line assignments words targets, ts)

/-- Reads the words behind `in`. -/
def wordsOfEach (acc : List Word) : Tokens → List Word × Tokens
  | .word w :: rest => wordsOfEach (acc ++ [w]) rest
  | ts => (acc, ts)

/-- The line that a token stands in, if so many line ends are in the script. -/
def lineOf (total : Nat) (ts : Tokens) : Nat := total + 1 - ts.count .line

mutual

/-- Reads commands up to a word or a mark that ends the list. -/
def listFrom (total fuel : Nat) (ts : Tokens) : Except Fault (Command × Tokens) :=
  match fuel with
  | 0 => unexpected none ts
  | fuel + 1 => do
    let (first, rest) ← joinedFrom total fuel (skipLines ts)
    let after :=
      match rest with
      | .mark ";" :: more => some (skipLines more)
      | .mark "&" :: more => some (skipLines more)
      | .line :: more => some (skipLines more)
      | _ => none
    match after with
    | none => .ok (first, rest)
    | some more =>
      if endsList more then .ok (first, more)
      else do
        let (others, rest) ← listFrom total fuel more
        .ok (.sequence first others, rest)

/-- Reads pipelines joined by `&&` and `||`, which hold from left to right. -/
def joinedFrom (total fuel : Nat) (ts : Tokens) : Except Fault (Command × Tokens) :=
  match fuel with
  | 0 => unexpected none ts
  | fuel + 1 => do
    let (first, rest) ← pipelineFrom total fuel ts
    joinOnto total fuel first rest

/-- Reads what is joined to a command. -/
def joinOnto (total fuel : Nat) (first : Command) (ts : Tokens) :
    Except Fault (Command × Tokens) :=
  match fuel with
  | 0 => unexpected none ts
  | fuel + 1 =>
    match ts with
    | .mark "&&" :: rest => do
      let (second, rest) ← pipelineFrom total fuel (skipLines rest)
      joinOnto total fuel (.both first second) rest
    | .mark "||" :: rest => do
      let (second, rest) ← pipelineFrom total fuel (skipLines rest)
      joinOnto total fuel (.either first second) rest
    | _ => .ok (first, ts)

/-- Reads a pipeline. -/
def pipelineFrom (total fuel : Nat) (ts : Tokens) : Except Fault (Command × Tokens) :=
  match fuel with
  | 0 => unexpected none ts
  | fuel + 1 =>
    match ts with
    | .word [.text "!" false] :: rest => do
      let (body, rest) ← pipelineFrom total fuel rest
      .ok (.negation body, rest)
    | _ => do
      let (first, rest) ← commandFrom total fuel ts
      match rest with
      | .mark "|" :: more => do
        let (others, rest) ← pipelineFrom total fuel (skipLines more)
        .ok (.pipe first others, rest)
      | _ => .ok (first, rest)

/-- Reads a single command. -/
def commandFrom (total fuel : Nat) (ts : Tokens) : Except Fault (Command × Tokens) :=
  match fuel with
  | 0 => unexpected none ts
  | fuel + 1 =>
    match ts with
    | .mark "(" :: rest => do
      let (body, rest) ← listFrom total fuel rest
      match rest with
      | .mark ")" :: rest =>
        let (targets, rest) := redirections [] rest
        .ok (.block true body targets, rest)
      | _ => unexpected (some ")") rest
    | .word [.text "\x7b" false] :: rest => do
      let (body, rest) ← listFrom total fuel rest
      let rest ← expectWord "\x7d" rest
      let (targets, rest) := redirections [] rest
      .ok (.block false body targets, rest)
    | .word [.text "if" false] :: rest => choiceFrom total fuel rest
    | .word [.text "while" false] :: rest => do
      let (test, rest) ← listFrom total fuel rest
      let (body, rest) ← bodyFrom total fuel rest
      .ok (.loop false test body, rest)
    | .word [.text "until" false] :: rest => do
      let (test, rest) ← listFrom total fuel rest
      let (body, rest) ← bodyFrom total fuel rest
      .ok (.loop true test body, rest)
    | .word [.text "for" false] :: .word [.text name false] :: rest =>
      let (words, rest) :=
        match skipLines rest with
        | .word [.text "in" false] :: rest =>
          let (words, rest) := wordsOfEach [] rest
          (some words, rest)
        | rest => (none, rest)
      do
        let rest ←
          match rest with
          | .mark ";" :: rest => .ok rest
          | .line :: rest => .ok rest
          | _ => if words.isSome then unexpected none rest else .ok rest
        let (body, rest) ← bodyFrom total fuel (skipLines rest)
        .ok (.each name words body, rest)
    | t :: _ =>
      if (bare? t).any closing.contains then unexpected none ts
      else simpleFrom (lineOf total ts) [] [] [] fuel ts
    | [] => unexpected none ts

/-- Reads a body between `do` and `done`. -/
def bodyFrom (total fuel : Nat) (ts : Tokens) : Except Fault (Command × Tokens) :=
  match fuel with
  | 0 => unexpected none ts
  | fuel + 1 => do
    let rest ← expectWord "do" ts
    let (body, rest) ← listFrom total fuel rest
    let rest ← expectWord "done" rest
    .ok (body, rest)

/-- Reads a choice behind its first word. -/
def choiceFrom (total fuel : Nat) (ts : Tokens) : Except Fault (Command × Tokens) :=
  match fuel with
  | 0 => unexpected none ts
  | fuel + 1 => do
    let (test, rest) ← listFrom total fuel ts
    let rest ← expectWord "then" rest
    let (yes, rest) ← listFrom total fuel rest
    match rest with
    | .word [.text "elif" false] :: more => do
      let (no, rest) ← choiceFrom total fuel more
      .ok (.choice test yes no, rest)
    | .word [.text "else" false] :: more => do
      let (no, rest) ← listFrom total fuel more
      let rest ← expectWord "fi" rest
      .ok (.choice test yes no, rest)
    | _ => do
      let rest ← expectWord "fi" rest
      .ok (.choice test yes .nothing, rest)

end

/-- Reads the commands of one line, which may go on over further lines. -/
def lineFrom (total fuel : Nat) (ts : Tokens) : Except Fault (Command × Tokens) :=
  match fuel with
  | 0 => unexpected none ts
  | fuel + 1 => do
    let (first, rest) ← joinedFrom total fuel ts
    match rest with
    | [] => .ok (first, [])
    | .line :: more => .ok (first, more)
    | .mark m :: more =>
      if m = ";" || m = "&" then
        match more with
        | [] => .ok (first, [])
        | .line :: more => .ok (first, more)
        | _ => do
          let (others, rest) ← lineFrom total fuel more
          .ok (.sequence first others, rest)
      else unexpected none rest
    | _ => unexpected none rest

/-- Reads lines up to the first wrong one, whose fault is given with the line it is in. -/
def linesFrom (total fuel : Nat) (acc : List Command) (ts : Tokens) :
    List Command × Option (Nat × Fault) :=
  match fuel with
  | 0 => (acc.reverse, none)
  | fuel + 1 =>
    match skipLines ts with
    | [] => (acc.reverse, none)
    | ts =>
      match lineFrom total (8 * ts.length + 8) ts with
      | .ok (c, rest) => linesFrom total fuel (c :: acc) rest
      | .error f => (acc.reverse, some (lineOf total ts, f))

/-- The commands of a script, line by line, and what is wrong behind them. -/
def commands (script : String) : List Command × Option (Nat × Fault) :=
  let ts := tokens script
  linesFrom (ts.count .line) (ts.length + 1) [] ts

end Leasework.Shell
