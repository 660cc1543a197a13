import ApiShorthand.FileSystem
import ApiShorthand.Text.Identifier
import ApiShorthand.Text.Octets

/-!
# Utilities

The programs that scripts use: they print, test, copy, move and remove files. A utility turns a
process, with its file system and what it has printed so far, into one with a status. What goes to
the error output is not kept.
-/

namespace ApiShorthand

namespace Script

/-- What a program works on and what it has done so far. -/
structure Process where
  /-- The files. -/
  system : FileSystem
  /-- What can be read from the input. -/
  input : List UInt8
  /-- What was printed. -/
  printed : List UInt8
  /-- The status of the last program. -/
  status : Nat

/-- A program, from its arguments. -/
abbrev Utility := List String → Process → Process

namespace Process

/-- The process with the status of a program that has ended. -/
def withStatus (process : Process) (status : Nat) : Process :=
  { process with status }

/-- The process with more output. -/
def print (process : Process) (octets : List UInt8) : Process :=
  { process with printed := process.printed ++ octets, status := 0 }

/-- The process with other files, or with the status of a failure. -/
def withSystem (process : Process) (result : Except OsError FileSystem) : Process :=
  match result with
  | .ok system => { process with system }
  | .error _ => process.withStatus 1

/-- Does something for each operand in turn. One failure makes the whole fail. -/
def forEach (process : Process) (operands : List String)
    (f : FileSystem → String → Except OsError FileSystem) : Process :=
  operands.foldl (fun process operand => process.withSystem (f process.system operand))
    (process.withStatus 0)

end Process

/-! ### Arguments -/

/-- The letters of options and the operands among arguments, if all options are allowed. Nothing
behind two dashes is an option. -/
def splitArguments (allowed : List Char) : List String → Option (List Char × List String)
  | [] => some ([], [])
  | argument :: rest =>
    match argument.toList with
    | ['-', '-'] => some ([], rest)
    | '-' :: letter :: letters =>
      if (letter :: letters).all allowed.contains then
        (splitArguments allowed rest).map fun (options, operands) =>
          (letter :: letters ++ options, operands)
      else none
    | _ =>
      (splitArguments allowed rest).map fun (options, operands) => (options, argument :: operands)

/-- A utility with options and at least one operand. -/
def withOptions (allowed : String) (body : List Char → Utility) : Utility :=
  fun arguments process =>
    match splitArguments allowed.toList arguments with
    | none | some (_, []) => process.withStatus 1
    | some (options, operands) => body options operands process

/-! ### Output -/

/-- How far the reading of a backslash has come. -/
inductive Escaping where
  /-- No backslash was read. -/
  | none
  /-- A backslash was read. -/
  | backslash
  /-- A backslash and a zero were read. -/
  | zero
  /-- A backslash and octal digits were read: their value, and how many more there may be. -/
  | octal (value left : Nat)
deriving DecidableEq, Repr

/-- The octet of a letter behind a backslash. -/
def escapeOctet? : Char → Option UInt8
  | 'a' => some 7
  | 'b' => some 8
  | 't' => some 9
  | 'n' => some 10
  | 'v' => some 11
  | 'f' => some 12
  | 'r' => some 13
  | '\\' => some 92
  | _ => none

/-- Whether a character is an octal digit. -/
def isOctalDigit (c : Char) : Bool :=
  Text.isDigit c && c.toNat < 56

/-- The octets that a text with backslashes stands for, and whether it ends all output. -/
def unescape : Escaping → List Char → List UInt8 × Bool
  | .none, [] => ([], false)
  | .backslash, [] => ([92], false)
  | .zero, [] => ([0], false)
  | .octal value _, [] => ([UInt8.ofNat value], false)
  | escaping, c :: rest =>
    let after (octets : List UInt8) (result : List UInt8 × Bool) : List UInt8 × Bool :=
      (octets ++ result.1, result.2)
    let plain : List UInt8 × Bool :=
      if c == '\\' then unescape .backslash rest
      else after (Text.octetsOf [c]) (unescape .none rest)
    match escaping with
    | .none => plain
    | .backslash =>
      if c == 'c' then ([], true)
      else if c == '0' then unescape .zero rest
      else if isOctalDigit c then unescape (.octal (c.toNat - 48) 2) rest
      else
        match escapeOctet? c with
        | some octet => after [octet] (unescape .none rest)
        | none => after [92] plain
    | .zero =>
      if isOctalDigit c then unescape (.octal (c.toNat - 48) 2) rest else after [0] plain
    | .octal value left =>
      if left > 0 && isOctalDigit c then
        unescape (.octal (8 * value + (c.toNat - 48)) (left - 1)) rest
      else after [UInt8.ofNat value] plain

/-- The octets of words with spaces between them. -/
def spaced (words : List String) : List UInt8 :=
  Text.octetsOf (" ".intercalate words).toList

/-- Prints its arguments. A first argument may keep the line open. -/
def echoPlain : Utility := fun arguments process =>
  match arguments with
  | "-n" :: words => process.print (spaced words)
  | words => process.print (spaced words ++ [10])

/-- Prints its arguments, in which backslashes have a meaning. -/
def echoEscaped : Utility := fun arguments process =>
  let (words, isOpen) :=
    match arguments with
    | "-n" :: words => (words, true)
    | words => (words, false)
  let (octets, isCut) := unescape .none (" ".intercalate words).toList
  process.print (if isCut || isOpen then octets else octets ++ [10])

/-- A piece of a format. -/
inductive FormatPiece where
  /-- Octets as they are. -/
  | octets (octets : List UInt8)
  /-- The place of an argument. -/
  | argument
  /-- The place of an argument in which backslashes have a meaning. -/
  | escaped
  /-- The place of a whole number. -/
  | number
  /-- The end of all output. -/
  | stop

/-- The pieces of a format, if it can be read. -/
def formatPieces : List Char → Option (List FormatPiece)
  | [] => some []
  | '%' :: '%' :: rest => (formatPieces rest).map (.octets [37] :: ·)
  | '%' :: 's' :: rest => (formatPieces rest).map (.argument :: ·)
  | '%' :: 'b' :: rest => (formatPieces rest).map (.escaped :: ·)
  | '%' :: 'd' :: rest => (formatPieces rest).map (.number :: ·)
  | '%' :: _ => none
  | '\\' :: 'c' :: _ => some [.stop]
  | '\\' :: a :: b :: c :: rest =>
    if isOctalDigit a && isOctalDigit b && isOctalDigit c then
      (formatPieces rest).map (.octets (unescape .none ['\\', a, b, c]).1 :: ·)
    else (formatPieces (b :: c :: rest)).map (.octets (unescape .none ['\\', a]).1 :: ·)
  | '\\' :: c :: rest =>
    (formatPieces rest).map (.octets (unescape .none ['\\', c]).1 :: ·)
  | c :: rest => (formatPieces rest).map (.octets (Text.octetsOf [c]) :: ·)

/-- The octets of a format that is gone through once, the arguments that are left, and whether all
output ends there. -/
def formatOnce : List FormatPiece → List String → List UInt8 × List String × Bool
  | [], arguments => ([], arguments, false)
  | .stop :: _, _ => ([], [], true)
  | piece :: pieces, arguments =>
    let argument := arguments.head?.getD ""
    let (octets, left) :=
      match piece with
      | .octets octets => (octets, arguments)
      | .escaped => ((unescape .none argument.toList).1, arguments.drop 1)
      | .number =>
        (Text.octetsOf (toString (argument.toInt?.getD 0)).toList, arguments.drop 1)
      | _ => (Text.octetsOf argument.toList, arguments.drop 1)
    let (later, left, stopped) := formatOnce pieces left
    (octets ++ later, left, stopped)

/-- The octets of a format that is gone through as long as it uses arguments up, with a unit of fuel
for each time. -/
def formatAll (pieces : List FormatPiece) : Nat → List String → List UInt8
  | 0, _ => []
  | fuel + 1, arguments =>
    let (octets, left, stopped) := formatOnce pieces arguments
    if stopped || left.isEmpty || left.length = arguments.length then octets
    else octets ++ formatAll pieces fuel left

/-- Prints its arguments in a format. -/
def printf : Utility := fun arguments process =>
  match arguments with
  | [] => process.withStatus 2
  | format :: arguments =>
    match formatPieces format.toList with
    | some pieces => process.print (formatAll pieces (arguments.length + 1) arguments)
    | none => process.withStatus 2

/-- Prints files one after the other, or the input. Those that cannot be read are left out. Options
on how lines are shown have no effect. -/
def cat : Utility := fun arguments process =>
  let step (process : Process) (path : String) : Process :=
    if path = "-" then
      { process with printed := process.printed ++ process.input, input := [] }
    else
      match process.system.readAt path with
      | .ok content => { process with printed := process.printed ++ content }
      | .error _ => process.withStatus 1
  match splitArguments "AbeEnstTuv".toList arguments with
  | none => process.withStatus 1
  | some (_, paths) =>
    (if paths.isEmpty then ["-"] else paths).foldl step (process.withStatus 0)

/-- Prints the names of files and of what directories hold, apart from those that start with a
dot. -/
def ls : Utility := fun arguments process =>
  match splitArguments ['1'] arguments with
  | none => process.withStatus 2
  | some (_, operands) =>
    let paths := (if operands.isEmpty then ["."] else operands).mergeSort FileTree.nameLE
    let lines (names : List String) : String := String.join (names.map (· ++ "\n"))
    let listing? (path : String) : Option String :=
      match process.system.entryAt .follow path with
      | .ok (.directory entries) =>
        let shown := (Table.keys entries).filter fun name => !name.startsWith "."
        some (lines (shown.mergeSort FileTree.nameLE))
      | _ => none
    let isThere (path : String) : Bool :=
      match process.system.entryAt .keep path with
      | .ok _ => true
      | .error _ => false
    let files := paths.filter fun path => isThere path && (listing? path).isNone
    let listings := paths.filterMap fun path =>
      (listing? path).map fun listing =>
        if paths.length ≤ 1 then listing else path ++ ":\n" ++ listing
    let blocks := (if files.isEmpty then [] else [lines files]) ++ listings
    let printed := process.print (Text.octetsOf ("\n".intercalate blocks).toList)
    if paths.all isThere then printed else printed.withStatus 2

/-! ### Copying and moving -/

/-- The last name of a path that is not empty. -/
def baseName (path : String) : String :=
  ((FileSystem.components path).filter fun name => !name.isEmpty).getLastD ""

/-- Whether a path leads to a directory. -/
def isDirectoryAt (system : FileSystem) (path : String) : Bool :=
  match system.entryAt .follow path with
  | .ok (.directory _) => true
  | _ => false

/-- The paths that sources go to: a single one to the target, unless that is a directory, and all
others into it under their own names. -/
def targetsOf (system : FileSystem) (operands : List String) : Option (List (String × String)) :=
  let sources := operands.dropLast
  let target := operands.getLastD ""
  if isDirectoryAt system target then
    some (sources.map fun source => (source, FileSystem.joinPath target (baseName source)))
  else
    match sources with
    | [source] => some [(source, target)]
    | _ => none

/-- Whether names lie below others or are the same. -/
def isWithin (outer inner : List String) : Bool :=
  inner.take outer.length == outer

/-- Copies a file to a path, or a directory with `recursive`. Nothing is written through a link that
leads nowhere. -/
def copyTo (recursive : Bool) (system : FileSystem) (source target : String) :
    Except OsError FileSystem := do
  match ← system.locate .follow source with
  | .free _ _ => throw .notFound
  | .entry names (.file content isProgram) =>
    match ← system.locate .follow target with
    | .entry other (.file _ wasProgram) =>
      if other = names then throw .denied
      return system.put other (.file content wasProgram)
    | .entry _ _ => throw .isDirectory
    | .free above name =>
      if (FileSystem.components target).getLast? = some "" then throw .notDirectory
      if (system.entryAt .keep target).isOk then throw .denied
      return system.put (above ++ [name]) (.file content isProgram)
  | .entry names tree =>
    if !recursive then throw .isDirectory
    match ← system.locate .follow target with
    | .free above name =>
      if isWithin names (above ++ [name]) then throw .denied
      return system.put (above ++ [name]) tree
    | .entry _ _ => throw .denied

/-- Moves what is at a path to another one, where a file may be replaced. -/
def moveTo (system : FileSystem) (source target : String) : Except OsError FileSystem := do
  match ← system.locate .keep source with
  | .free _ _ => throw .notFound
  | .entry names tree =>
    let isDirectory := match tree with
      | .directory _ => true
      | _ => false
    let destination ← match ← system.locate .keep target with
      | .free above name =>
        if !isDirectory && (FileSystem.components target).getLast? = some "" then
          throw .notDirectory
        pure (above ++ [name])
      | .entry _ (.directory _) => throw .isDirectory
      | .entry other _ => if isDirectory then throw .notDirectory else pure other
    if isWithin names destination then throw .denied
    return { system with root := (system.root.erase names).put destination tree }

/-- Does something with each source and its target in turn. -/
def transfer (f : FileSystem → String → String → Except OsError FileSystem) : Utility :=
  fun operands process =>
    if operands.length < 2 then process.withStatus 1
    else
      match targetsOf process.system operands with
      | none => process.withStatus 1
      | some pairs =>
        pairs.foldl (fun process (source, target) =>
          process.withSystem (f process.system source target)) (process.withStatus 0)

/-- Copies files. -/
def cp : Utility :=
  withOptions "fprRa" fun options =>
    transfer (copyTo (options.any fun option => option == 'r' || option == 'R' || option == 'a'))

/-- Moves files. -/
def mv : Utility :=
  withOptions "f" fun _ => transfer moveTo

/-! ### Making and removing -/

/-- Removes what is at a path: a directory only with all that is in it, if `recursive`, or if
`emptyToo` and nothing is in it. -/
def removeEntry (recursive emptyToo : Bool) (system : FileSystem) (path : String) :
    Except OsError FileSystem := do
  match ← system.locate .keep path with
  | .free _ _ => throw .notFound
  | .entry names (.directory entries) =>
    let last := baseName path
    if (recursive || (emptyToo && entries.isEmpty)) && last != "." && last != ".." then
      return { system with root := system.root.erase names }
    throw .isDirectory
  | .entry names _ => return { system with root := system.root.erase names }

/-- Removes files. With the option `f` those that are missing do not matter. -/
def rm : Utility := fun arguments process =>
  match splitArguments "frRd".toList arguments with
  | none => process.withStatus 1
  | some (options, paths) =>
    let force := options.contains 'f'
    let recursive := options.contains 'r' || options.contains 'R'
    let remove (system : FileSystem) (path : String) : Except OsError FileSystem :=
      match removeEntry recursive (options.contains 'd') system path with
      | .ok system => .ok system
      | .error cause =>
        if force && (cause == .notFound || cause == .notDirectory) then .ok system
        else .error cause
    if paths.isEmpty then process.withStatus (if force then 0 else 1)
    else process.forEach paths remove

/-- Removes empty directories. -/
def rmdir : Utility :=
  withOptions "" fun _ operands process =>
    process.forEach operands fun system path =>
      if isDirectoryAt system path then removeEntry false true system path
      else .error .notDirectory

/-- Makes a directory at a path. -/
def makeDirectory (system : FileSystem) (path : String) : Except OsError FileSystem := do
  match ← system.locate .keep path with
  | .entry _ _ => throw .denied
  | .free above name => return system.put (above ++ [name]) .empty

/-- Makes a directory at a path and those above it, as far as they are missing. -/
def makeDirectories (system : FileSystem) (path : String) : Except OsError FileSystem := do
  let step (state : String × FileSystem) (name : String) :
      Except OsError (String × FileSystem) := do
    let (above, system) := state
    let here := above ++ name
    if here.isEmpty || isDirectoryAt system here then return (here ++ "/", system)
    return (here ++ "/", ← makeDirectory system here)
  if path.isEmpty then throw .notFound
  return (← (FileSystem.components path).foldlM step ("", system)).2

/-- Makes directories. -/
def mkdir : Utility :=
  withOptions "p" fun options operands process =>
    process.forEach operands (if options.contains 'p' then makeDirectories else makeDirectory)

/-- Makes files that are missing. -/
def touch : Utility :=
  withOptions "" fun _ operands process =>
    process.forEach operands fun system path =>
      if system.hasEntryAt path then .ok system else system.writeAt path []

/-! ### Tests -/

/-- The answer to a test of one operand, if there is such a test. -/
def testOne? (system : FileSystem) (operator operand : String) : Option Bool :=
  let found? (ending : FileSystem.Ending) : Option FileTree :=
    (system.entryAt ending operand).toOption
  match operator with
  | "!" => some operand.isEmpty
  | "-n" => some (!operand.isEmpty)
  | "-z" => some operand.isEmpty
  | "-e" => some (found? .follow).isSome
  | "-f" => some (match found? .follow with
    | some (.file _ _) => true
    | _ => false)
  | "-d" => some (isDirectoryAt system operand)
  | "-s" => some (match found? .follow with
    | some (.file content _) => !content.isEmpty
    | some (.directory _) => true
    | _ => false)
  | "-x" => some (match found? .follow with
    | some (.file _ isProgram) => isProgram
    | some (.directory _) => true
    | _ => false)
  | "-r" | "-w" => some (found? .follow).isSome
  | "-L" | "-h" => some (match found? .keep with
    | some (.link _) => true
    | _ => false)
  | _ => none

/-- The answer to a test of two operands, if there is such a test. -/
def testTwo? (left operator right : String) : Option Bool :=
  let compare (f : Int → Int → Bool) : Option Bool := do
    some (f (← left.toInt?) (← right.toInt?))
  match operator with
  | "=" => some (left == right)
  | "!=" => some (left != right)
  | "-eq" => compare (· == ·)
  | "-ne" => compare (· != ·)
  | "-lt" => compare (· < ·)
  | "-le" => compare (· ≤ ·)
  | "-gt" => compare (· > ·)
  | "-ge" => compare (· ≥ ·)
  | _ => none

/-- The answer to a test. -/
def test? (system : FileSystem) : List String → Option Bool
  | [] => some false
  | [operand] => some (!operand.isEmpty)
  | [operator, operand] => testOne? system operator operand
  | [left, operator, right] =>
    match testTwo? left operator right with
    | some answer => some answer
    | none => if left = "!" then (testOne? system operator right).map (!·) else none
  | "!" :: rest => (test? system rest).map (!·)
  | _ => none

/-- Answers a test with its status. -/
def test : Utility := fun arguments process =>
  process.withStatus (match test? process.system arguments with
    | some true => 0
    | some false => 1
    | none => 2)

/-- Answers a test in brackets. -/
def bracket : Utility := fun arguments process =>
  if arguments.getLast? = some "]" then test arguments.dropLast process
  else process.withStatus 2

/-! ### All of them -/

/-- The programs under their names. -/
def utilities : List (String × Utility) :=
  [("true", fun _ process => process.withStatus 0),
    ("false", fun _ process => process.withStatus 1), ("echo", echoPlain), ("printf", printf),
    ("cat", cat), ("ls", ls), ("cp", cp), ("mv", mv), ("rm", rm), ("rmdir", rmdir),
    ("mkdir", mkdir), ("touch", touch), ("test", test), ("[", bracket)]

end Script

end ApiShorthand
