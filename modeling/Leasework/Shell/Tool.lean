import Leasework.Shell.Format

/-!
# `Leasework.Shell.Tool`: programs that a script can run

A tool is a function of its arguments and its input. It says what it writes, what it
leaves of the input, its exit status, and how long it takes. Nothing else of the world
matters to these tools: they know no files but the empty one and the one of zeros.
-/

set_option autoImplicit false

namespace Leasework.Shell

/-- What comes of running a tool. -/
structure Effect where
  /-- What it writes. -/
  output : Bytes
  /-- What it writes as diagnostics. -/
  diagnostics : Bytes
  /-- What it leaves of its input. -/
  rest : Bytes
  /-- Its exit status. -/
  status : Nat
  /-- How long it takes in milliseconds, if it ends at all. -/
  millis : Option Nat
deriving DecidableEq, Repr

/-- A tool: what comes of its arguments and its input. -/
abbrev Tool : Type := List String → Bytes → Effect

namespace Tool

/-- A tool that is done at once. -/
def done (output : Bytes) (rest : Bytes) : Effect := ⟨output, [], rest, 0, some 0⟩

/-- A tool that ends with a status and diagnostics in one line. -/
def complain (status : Nat) (text : String) (rest : Bytes) : Effect :=
  ⟨[], Text.encode (text ++ "\n"), rest, status, some 0⟩

/-- A tool that cannot make sense of its arguments. -/
def misused (name text : String) (rest : Bytes) : Effect :=
  complain 1 (name ++ ": " ++ text ++ "\nTry '" ++ name ++ " --help' for more information.") rest

/-! ### Nothing much -/

/-- Succeeds. -/
def succeed : Tool := fun _ input => done [] input

/-- Fails. -/
def fail : Tool := fun _ input => ⟨[], [], input, 1, some 0⟩

/-- The milliseconds that a duration with an optional unit stands for. -/
def duration? (s : String) : Option Nat :=
  let whole := s.toList.takeWhile Char.isDigit
  let rest := s.toList.drop whole.length
  let (fraction, suffix) :=
    match rest with
    | '.' :: more =>
      let digits := more.takeWhile Char.isDigit
      (digits, more.drop digits.length)
    | _ => ([], rest)
  let unit : Option Nat :=
    match suffix with
    | [] | ['s'] => some 1
    | ['m'] => some 60
    | ['h'] => some 3600
    | ['d'] => some 86400
    | _ => none
  if whole.isEmpty && fraction.isEmpty then none
  else unit.map fun u =>
    (valueIn 10 (whole ++ fraction) * 1000 * u) / Nat.pow 10 fraction.length

/-- Waits. -/
def sleep : Tool := fun arguments input =>
  if arguments.isEmpty then misused "sleep" "missing operand" input
  else if arguments.contains "infinity" then ⟨[], [], input, 0, none⟩
  else
    match arguments.find? fun a => (duration? a).isNone with
    | some a =>
      match a.toList with
      | '-' :: c :: _ => misused "sleep" ("invalid option -- '" ++ String.singleton c ++ "'") input
      | _ => misused "sleep" ("invalid time interval '" ++ a ++ "'") input
    | none => ⟨[], [], input, 0, some ((arguments.filterMap duration?).foldl (· + ·) 0)⟩

/-! ### Writing -/

/-- Whether a word is a group of letters behind a dash, all of them known. -/
def isOption (letters : List Char) (s : String) : Bool :=
  match s.toList with
  | '-' :: c :: cs => (c :: cs).all letters.contains
  | _ => false

/-- Writes its arguments. Options decide about the line end and the escapes. -/
def echo : Tool := fun arguments input =>
  let options := arguments.takeWhile (isOption ['n', 'e', 'E'])
  let words := arguments.drop options.length
  let letters := (options.map String.toList).flatten
  let expands := ((letters.filter (· ≠ 'n')).getLast?.getD 'E') = 'e'
  let (bytes, stopped) :=
    if expands then expand (" ".intercalate words) richEscape
    else (Text.encode (" ".intercalate words), false)
  done (if letters.contains 'n' || stopped then bytes else bytes ++ bytesOf '\n') input

/-- Writes values after a pattern. -/
def printf (name : String) : Tool := fun arguments input =>
  match arguments with
  | [] => complain 2 (name ++ "printf: usage: printf format [arg ...]") input
  | format :: values =>
    let w := pattern format values
    let lines := w.complaints.map fun c => name ++ "printf: " ++ c ++ "\n"
    ⟨w.bytes, Text.encode ("".intercalate lines), input, status w, some 0⟩
where
  /-- The status after writing. -/
  status (w : Written) : Nat := if w.wrong then 2 else if w.complaints.isEmpty then 0 else 1

/-- Counts from one number to another. -/
def seq : Tool := fun arguments input =>
  let lines (first last : Int) : Bytes :=
    Text.encode <| "".intercalate <|
      (List.range (last + 1 - first).toNat).map fun (i : Nat) => toString (first + i) ++ "\n"
  match arguments.map String.toInt? with
  | [some last] => done (lines 1 last) input
  | [some first, some last] => done (lines first last) input
  | _ => misused "seq" "missing operand" input

/-! ### Copying -/

/-- A file that can be read: the input, the empty file, or the file of zeros. -/
inductive Source where
  /-- The input. -/
  | input
  /-- Nothing. -/
  | empty
  /-- Zeros without end. -/
  | zeros
  /-- A directory. -/
  | directory
  /-- There is no such file. -/
  | missing

/-- Directories that are always there. -/
def directories : List String :=
  ["/", ".", "..", "/bin", "/dev", "/etc", "/home", "/proc", "/root", "/sys", "/tmp", "/usr",
    "/usr/bin", "/usr/lib", "/usr/local", "/var"]

/-- Files that are always there and are no programs. -/
def plainFiles : List String :=
  ["/etc/passwd", "/etc/group", "/etc/hosts", "/etc/hostname", "/etc/resolv.conf", "/dev/null",
    "/dev/zero"]

/-- The file of a name. -/
def source (path : String) : Source :=
  if path = "-" || path = "/dev/stdin" then .input
  else if path = "/dev/null" then .empty
  else if path = "/dev/zero" then .zeros
  else if directories.contains path then .directory
  else .missing

/-- Copies one file after the other. -/
def concatenate (e : Effect) : List String → Effect
  | [] => e
  | path :: rest =>
    let failed (why : String) : Effect :=
      { e with
        diagnostics := e.diagnostics ++ Text.encode ("cat: " ++ path ++ ": " ++ why ++ "\n")
        status := 1 }
    match source path with
    | .input => concatenate { e with output := e.output ++ e.rest, rest := [] } rest
    | .empty => concatenate e rest
    | .zeros => concatenate { e with millis := none } rest
    | .directory => concatenate (failed "Is a directory") rest
    | .missing => concatenate (failed "No such file or directory") rest

/-- Numbers the lines of a text. -/
def numbered (line : Nat) (fresh : Bool) (acc : Bytes) : Bytes → Bytes
  | [] => acc.reverse
  | b :: rest =>
    let label :=
      if fresh then
        let digits := toString line
        Text.encode (String.ofList (List.replicate (6 - digits.length) ' ') ++ digits ++ "\t")
      else []
    let acc := b :: (label.reverse ++ acc)
    if b = 0x0A then numbered (line + 1) true acc rest
    else numbered line false acc rest

/-- Copies its input, or the files that are named. -/
def cat : Tool := fun arguments input =>
  let options := arguments.filter (isOption ['u', 'n'])
  let paths := arguments.filter fun a => !isOption ['u', 'n'] a && a ≠ "--"
  match paths.find? fun a => a.startsWith "-" && a ≠ "-" with
  | some a =>
    if a.startsWith "--" then misused "cat" ("unrecognized option '" ++ a ++ "'") input
    else
      let letter := (a.toList.drop 1).take 1
      misused "cat" ("invalid option -- '" ++ String.ofList letter ++ "'") input
  | none =>
    let e := concatenate (done [] input) (if paths.isEmpty then ["-"] else paths)
    if options.any fun o => o.toList.contains 'n' then
      { e with output := numbered 1 true [] e.output }
    else e

/-! ### Parts of the input -/

/-- Splits bytes behind so many line ends. -/
def splitLines (count : Nat) (acc : Bytes) : Bytes → Bytes × Bytes
  | [] => (acc.reverse, [])
  | b :: rest =>
    if count = 0 then (acc.reverse, b :: rest)
    else splitLines (if b = 0x0A then count - 1 else count) (b :: acc) rest

/-- The number and the unit that options ask for: `-c` for bytes, `-n` for lines. -/
def portion? : List String → Option (Bool × Nat × List String)
  | [] => some (false, 10, [])
  | a :: rest =>
    match a.toList with
    | '-' :: 'c' :: [] =>
      match rest with
      | n :: rest => n.toNat?.map fun n => (true, n, rest)
      | [] => none
    | '-' :: 'n' :: [] =>
      match rest with
      | n :: rest => n.toNat?.map fun n => (false, n, rest)
      | [] => none
    | '-' :: 'c' :: digits => (String.ofList digits).toNat?.map fun n => (true, n, rest)
    | '-' :: 'n' :: digits => (String.ofList digits).toNat?.map fun n => (false, n, rest)
    | '-' :: d :: digits => (String.ofList (d :: digits)).toNat?.map fun n => (false, n, rest)
    | _ => some (false, 10, a :: rest)

/-- The first bytes or lines. -/
def head : Tool := fun arguments input =>
  match portion? arguments with
  | none => misused "head" "invalid number of lines" input
  | some (bytes, n, paths) =>
    let take (b : Bytes) : Bytes := if bytes then b.take n else (splitLines n [] b).1
    match paths.map source with
    | [] | [.input] => done (take input) []
    | [.empty] => done [] input
    | [.zeros] => if bytes then done (List.replicate n 0) input else ⟨[], [], input, 0, none⟩
    | _ =>
      complain 1 ("head: cannot open '" ++ paths.headD "" ++
        "' for reading: No such file or directory") input

/-- The last bytes or lines. -/
def tail : Tool := fun arguments input =>
  match portion? arguments with
  | none => misused "tail" "invalid number of lines" input
  | some (bytes, n, _) =>
    if bytes then done (input.drop (input.length - n)) []
    else
      let ends := input.countP (· = 0x0A)
      let partialLine := if (input.getLast?.getD 0x0A) = 0x0A then 0 else 1
      done (splitLines (ends + partialLine - n) [] input).2 []

/-- What is counted: line ends, words, and bytes. -/
structure Tally where
  /-- The line ends. -/
  lines : Nat
  /-- The words. -/
  words : Nat
  /-- The bytes. -/
  bytes : Nat
  /-- Whether the last byte belongs to a word. -/
  inWord : Bool

/-- Whether a byte stands between words. -/
def isBetween (b : UInt8) : Bool := b = 0x20 || (0x09 ≤ b && b ≤ 0x0D)

/-- Counts one more byte. -/
def Tally.count (t : Tally) (b : UInt8) : Tally :=
  ⟨if b = 0x0A then t.lines + 1 else t.lines,
    if !isBetween b && !t.inWord then t.words + 1 else t.words, t.bytes + 1, !isBetween b⟩

/-- The number of characters of a text. -/
def characters (input : Bytes) : Nat := input.countP fun b => b < 0x80 || 0xC0 ≤ b

/-- Counts its input. A single number stands alone, several have columns. -/
def wc : Tool := fun arguments input =>
  let letters := (arguments.map fun a => a.toList.drop 1).flatten
  let t := input.foldl Tally.count ⟨0, 0, 0, false⟩
  let wanted (c : Char) : Bool := letters.contains c || (letters.isEmpty && c ≠ 'm')
  let numbers :=
    (if wanted 'l' then [t.lines] else []) ++ (if wanted 'w' then [t.words] else [])
      ++ (if wanted 'm' then [characters input] else []) ++ (if wanted 'c' then [t.bytes] else [])
  let column (n : Nat) : String :=
    let digits := toString n
    if numbers.length = 1 then digits
    else String.ofList (List.replicate (7 - digits.length) ' ') ++ digits
  done (Text.encode (" ".intercalate (numbers.map column) ++ "\n")) []

/-! ### Replacing bytes -/

/-- The bytes of a class of characters. -/
def byteClass? (name : String) : Option Bytes :=
  let all := (List.range 128).map Char.ofNat
  let bytes (p : Char → Bool) : Option Bytes :=
    some ((all.filter p).map fun c => UInt8.ofNat c.toNat)
  match name with
  | "upper" => bytes Char.isUpper
  | "lower" => bytes Char.isLower
  | "alpha" => bytes Char.isAlpha
  | "digit" => bytes Char.isDigit
  | "alnum" => bytes Char.isAlphanum
  | "space" => bytes fun c => isBetween (UInt8.ofNat c.toNat)
  | "blank" => bytes fun c => c = ' ' || c = '\t'
  | "punct" => bytes fun c => 0x21 ≤ c.toNat && c.toNat ≤ 0x7E && !c.isAlphanum
  | "cntrl" => bytes fun c => c.toNat < 0x20 || c.toNat = 0x7F
  | "print" => bytes fun c => 0x20 ≤ c.toNat && c.toNat ≤ 0x7E
  | "graph" => bytes fun c => 0x21 ≤ c.toNat && c.toNat ≤ 0x7E
  | "xdigit" => bytes fun c => (hexadecimal? c).isSome
  | _ => none

/-- The bytes that a set names: bytes, ranges, classes and escapes. -/
def byteSet (fuel : Nat) (acc : Bytes) (cs : List Char) : Bytes :=
  match fuel with
  | 0 => acc
  | fuel + 1 =>
    match cs with
    | [] => acc
    | '[' :: ':' :: rest =>
      let name := rest.takeWhile (· ≠ ':')
      match byteClass? (String.ofList name), rest.drop name.length with
      | some bytes, ':' :: ']' :: rest => byteSet fuel (acc ++ bytes) rest
      | _, _ => byteSet fuel (acc ++ bytesOf '[') (':' :: rest)
    | '\\' :: rest =>
      let (bytes, rest) := escape rest
      byteSet fuel (acc ++ bytes) rest
    | a :: '-' :: b :: rest =>
      if a.toNat < 128 && b.toNat < 128 && a ≤ b then
        let range := (List.range (b.toNat + 1 - a.toNat)).map fun i => UInt8.ofNat (a.toNat + i)
        byteSet fuel (acc ++ range) rest
      else byteSet fuel (acc ++ bytesOf a) ('-' :: b :: rest)
    | c :: rest => byteSet fuel (acc ++ bytesOf c) rest

/-- The bytes that an argument names. -/
def setOf (s : String) : Bytes :=
  let cs := s.toList
  byteSet (cs.length + 1) [] cs

/-- Keeps one of equal neighbours that are in a set. -/
def squeeze (set : Bytes) (bytes : Bytes) : Bytes :=
  (bytes.foldl (fun acc b => if set.contains b && acc.head? = some b then acc else b :: acc)
    []).reverse

/-- Replaces, deletes or squeezes bytes. -/
def tr : Tool := fun arguments input =>
  let options := arguments.takeWhile (isOption ['d', 's', 'c', 'C'])
  let letters := (options.map String.toList).flatten
  let sets := (arguments.drop options.length).map setOf
  let first := sets.headD []
  let first :=
    if letters.contains 'c' || letters.contains 'C' then
      ((List.range 256).map UInt8.ofNat).filter fun b => !first.contains b
    else first
  match sets with
  | [] => misused "tr" "missing operand" input
  | _ :: others =>
    let second := others.headD []
    if letters.contains 'd' then
      let kept := input.filter fun b => !first.contains b
      done (if letters.contains 's' then squeeze second kept else kept) []
    else if others.isEmpty then
      if letters.contains 's' then done (squeeze first input) []
      else
        let last := arguments.getLast?.getD ""
        misused "tr" ("missing operand after '" ++ last ++
          "'\nTwo strings must be given when translating.") input
    else
      let last := second.getLast?.getD 0
      let pairs := first.zipIdx.map fun (b, i) => (b, second.getD i last)
      let replaced := input.map fun b => ((pairs.reverse.lookup b).getD b)
      done (if letters.contains 's' then squeeze second replaced else replaced) []

/-! ### Which tools there are -/

/-- The tool of a name. -/
def named? : String → Option Tool
  | "true" => some succeed
  | "false" => some fail
  | "sleep" => some sleep
  | "echo" => some echo
  | "printf" => some (printf "")
  | "seq" => some seq
  | "cat" => some cat
  | "head" => some head
  | "tail" => some tail
  | "wc" => some wc
  | "tr" => some tr
  | _ => none

end Tool

end Leasework.Shell
