/-!
# `Leasework.CommandLine.Options`: options with a value on a command line

Every option has a long name and one value, which follows the name as the next argument
or after an equals sign. An option may be given once. There are no other arguments; only
`-h` and `--help` ask for help.

An option whose value is still to come stays *pending* until the next option or the end,
and only then its value is looked at. So an unknown argument is reported before a bad
value in front of it, and a bad value before a help option behind it.
-/

set_option autoImplicit false

namespace Leasework.CommandLine

/-- An option: its name, and which values it takes. -/
structure Spec where
  /-- The name without its hyphens. -/
  name : String
  /-- Whether a text is a value of the option. -/
  accepts : String → Bool

/-- What is wrong with a command line, or what it asks for instead. -/
inductive Fault where
  /-- An option that is needed has not been given. -/
  | missing
  /-- An argument is no option. -/
  | unknown
  /-- An option has no value. -/
  | noValue
  /-- A value is not taken by its option. -/
  | badValue
  /-- An option has been given twice. -/
  | conflict
  /-- A value is attached to an option that takes none. -/
  | tooManyValues
  /-- A value is no text. -/
  | notText
  /-- Help is asked for. -/
  | help
deriving DecidableEq, Repr

/-- The options that have been read. -/
structure Reading where
  /-- The options with a value that has been looked at. -/
  given : List (String × String)
  /-- The option whose value is still to come, or still to be looked at. -/
  pending : Option (Spec × Option String)

namespace Reading

/-- Nothing has been read. -/
def start : Reading := ⟨[], none⟩

/-- Takes the value of an option. -/
def put (r : Reading) (spec : Spec) (value : String) : Except Fault Reading :=
  if (r.given.lookup spec.name).isSome then .error .conflict
  else if spec.accepts value then .ok { r with given := r.given ++ [(spec.name, value)] }
  else .error .badValue

/-- Looks at the option that is pending. -/
def resolve (r : Reading) : Except Fault Reading :=
  match r.pending with
  | none => .ok r
  | some (_, none) => .error .noValue
  | some (spec, some value) => { r with pending := none }.put spec value

/-- Whether a value is still to come. -/
def wantsValue (r : Reading) : Option Spec :=
  match r.pending with
  | some (spec, none) => some spec
  | _ => none

end Reading

/-- The name and the attached value of an argument that begins with two hyphens. -/
def splitLong (cs : List Char) : String × Option String :=
  let name := cs.takeWhile (· ≠ '=')
  match cs.dropWhile (· ≠ '=') with
  | _ :: value => (String.ofList name, some (String.ofList value))
  | [] => (String.ofList name, none)

/-- Reads an argument that begins with two hyphens. -/
def readLong (specs : List Spec) (r : Reading) (cs : List Char) : Except Fault Reading :=
  let (name, value) := splitLong cs
  match specs.find? fun spec => spec.name = name with
  | some spec => do
    let r ← r.resolve
    match value with
    | some value => r.put spec value
    | none => .ok { r with pending := some (spec, none) }
  | none =>
    if name = "help" then
      match value with
      | some _ => .error .tooManyValues
      | none => do
        let _ ← r.resolve
        .error .help
    else .error .unknown

/-- Reads an argument that begins with one hyphen. -/
def readShort (r : Reading) (cs : List Char) : Except Fault Reading :=
  match cs with
  | 'h' :: _ => do
    let _ ← r.resolve
    .error .help
  | _ => .error .unknown

/-- Reads arguments from the left to the right. -/
def readFrom (specs : List Spec) (r : Reading) : List String → Except Fault Reading
  | [] => r.resolve
  | a :: rest =>
    match a.toList with
    | ['-', '-'] => if rest.isEmpty then r.resolve else .error .unknown
    | '-' :: '-' :: cs => do
      let r ← readLong specs r cs
      readFrom specs r rest
    | '-' :: c :: cs => do
      let r ← readShort r (c :: cs)
      readFrom specs r rest
    | _ =>
      match r.wantsValue with
      | some spec => readFrom specs { r with pending := some (spec, some a) } rest
      | none => .error .unknown

/-- Reads the options of a command line. -/
def read (specs : List Spec) (args : List String) : Except Fault (List (String × String)) :=
  (readFrom specs .start args).map Reading.given

end Leasework.CommandLine
