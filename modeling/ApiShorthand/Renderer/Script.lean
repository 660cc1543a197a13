import ApiShorthand.Renderer
import ApiShorthand.Renderer.Script.Syntax
import ApiShorthand.Renderer.Script.Utility

/-!
# Renderers that are shell scripts

`Script.launch` is a renderer: it starts the programs of a small system, and the scripts among the
files with the program that their first line names. A script is run by a shell, whose commands are
those of `Script.utilities` and a few of its own.

All of this stands for the system around the program. The program takes any renderer, and neither it
nor its theory uses a script: the outer layer does, so that a run has something to launch.
-/

namespace ApiShorthand

namespace Script

/-! ### The shell -/

/-- The state of a shell. -/
structure Shell extends Process where
  /-- Whether backslashes have a meaning in what is printed. -/
  escapes : Bool
  /-- Whether a failure ends the script. -/
  stopsOnFailure : Bool
  /-- The name of the script. -/
  name : String
  /-- The arguments of the script. -/
  arguments : List String
  /-- The values of variables. -/
  values : List (List Char × String)
  /-- How the script ended, if it did. -/
  ended : Option BadExit

namespace Shell

/-- The shell after a utility. -/
def apply (shell : Shell) (utility : Utility) (arguments : List String) : Shell :=
  { shell with toProcess := utility arguments shell.toProcess }

/-- The shell with the status of a command that has ended. -/
def withStatus (shell : Shell) (status : Nat) : Shell :=
  { shell with status }

/-- The shell at the end of the script. -/
def exit (shell : Shell) (status : Nat) : Shell :=
  { shell with status, ended := some (.status status) }

/-- The shell with a variable set. -/
def assign (shell : Shell) (name : List Char) (value : String) : Shell :=
  { shell with values := (name, value) :: shell.values }

end Shell

/-! ### Words -/

/-- The number of the process that runs a script. -/
def processNumber : String := "1000"

/-- The words that are complete, the last one first, and the one that is open. -/
structure Fields where
  /-- The complete words, the last one first. -/
  complete : List String
  /-- The open word. -/
  current : Option String
deriving DecidableEq, Repr

namespace Fields

/-- Adds to the open word. -/
def add (fields : Fields) (text : String) : Fields :=
  { fields with current := some (fields.current.getD "" ++ text) }

/-- Completes the open word, if there is one. -/
def finish (fields : Fields) : Fields :=
  match fields.current with
  | some word => ⟨word :: fields.complete, none⟩
  | none => fields

/-- Adds a text that is split at its blanks. -/
def addSplit (fields : Fields) (text : String) : Fields :=
  text.toList.foldl (fun fields c =>
    if c == ' ' || c == '\t' || c == '\n' then fields.finish
    else fields.add (String.singleton c)) fields

/-- Adds texts, each of which completes the word before it. -/
def addEach (add : Fields → String → Fields) (fields : Fields) : List String → Fields
  | [] => fields
  | [text] => add fields text
  | text :: texts => addEach add (add fields text).finish texts

end Fields

/-- The text of a parameter. -/
def parameterText (shell : Shell) : Parameter → String
  | .argument 0 => shell.name
  | .argument number => shell.arguments[number - 1]?.getD ""
  | .arguments | .joined => " ".intercalate shell.arguments
  | .count => toString shell.arguments.length
  | .process => processNumber
  | .status => toString shell.status
  | .value name => (shell.values.lookup name).getD ""

/-- Adds what a piece stands for. -/
def addPiece (shell : Shell) (fields : Fields) : Piece → Fields
  | .char c => fields.add (String.singleton c)
  | .quotes => fields.add ""
  | .parameter .arguments true => fields.addEach Fields.add shell.arguments
  | .parameter .arguments false | .parameter .joined false =>
    fields.addEach Fields.addSplit shell.arguments
  | .parameter parameter true => fields.add (parameterText shell parameter)
  | .parameter parameter false => fields.addSplit (parameterText shell parameter)

/-- The words that a word stands for. The arguments in quotes are no word if there are none. -/
def expand (shell : Shell) (word : Word) : List String :=
  if word = [.quotes, .parameter .arguments true] && shell.arguments.isEmpty then []
  else (word.foldl (addPiece shell) ⟨[], none⟩).finish.complete.reverse

/-- The text that a word stands for where it is not split. -/
def expandText (shell : Shell) (word : Word) : String :=
  String.join (word.map fun
    | .char c => String.singleton c
    | .quotes => ""
    | .parameter parameter _ => parameterText shell parameter)

/-! ### Redirections -/

/-- Where output goes. -/
inductive Output where
  /-- Where it went before. -/
  | same
  /-- Where it is not kept. -/
  | nowhere
  /-- To a file, behind a content. -/
  | file (path : String) (content : List UInt8)
deriving Repr

/-- Opens the file of a redirection. -/
def openTarget (shell : Shell) (output : Output) (redirect : Redirect) :
    Except OsError (Shell × Output) := do
  let path := expandText shell redirect.target
  let isOutput := redirect.descriptor == 1
  match redirect.direction with
  | .read => return ({ shell with input := ← shell.system.readAt path }, output)
  | .write =>
    let system ← shell.system.writeAt path []
    return ({ shell with system }, if isOutput then .file path [] else output)
  | .append =>
    let content :=
      match shell.system.readAt path with
      | .ok content => content
      | .error _ => []
    let system ← shell.system.writeAt path content
    return ({ shell with system }, if isOutput then .file path content else output)
  | .duplicate =>
    if path = "1" then return (shell, output)
    else if path = "2" then return (shell, if isOutput then .nowhere else output)
    else throw .denied

/-- Opens the files of redirections in turn, up to one that cannot be opened. -/
def openTargets (shell : Shell) (output : Output) : List Redirect → Shell × Option Output
  | [] => (shell, some output)
  | redirect :: redirects =>
    match openTarget shell output redirect with
    | .ok (shell, output) => openTargets shell output redirects
    | .error _ => (shell, none)

/-- Runs with redirections. If a file cannot be opened, nothing is run. -/
def redirected (shell : Shell) (redirects : List Redirect) (body : Shell → Shell) : Shell :=
  match openTargets shell .same redirects with
  | (start, none) => { shell with system := start.system, status := 2 }
  | (start, some output) =>
    let after := body { start with printed := [] }
    let restored := { after with printed := shell.printed, input := shell.input }
    match output with
    | .same => { restored with printed := shell.printed ++ after.printed }
    | .nowhere => restored
    | .file path content =>
      match after.system.writeAt path (content ++ after.printed) with
      | .ok system => { restored with system }
      | .error _ => restored

/-! ### Commands of the shell -/

/-- A number in decimal digits that is not too great. -/
def smallNumber? (text : String) : Option Nat := do
  if text.isEmpty || !text.toList.all Text.isDigit then none
  let number ← text.toNat?
  if number < 2147483648 then some number else none

/-- Ends the script, with the status of the last command if none is given. -/
def runExit (shell : Shell) : List String → Shell
  | [] => shell.exit shell.status
  | code :: _ =>
    match smallNumber? code with
    | some code => shell.exit (code % 256)
    | none => shell.exit 2

/-- The number of a signal that is given by its number or by its name. -/
def signalNumber? (text : String) : Option Nat :=
  match smallNumber? text with
  | some number => if number ≤ 64 then some number else none
  | none =>
    let name := "SIG" ++ text.toUpper
    (List.range 32).find? fun number => BadExit.signalName? number == some name

/-- Whether a signal ends a process that does not wait for it. -/
def isDeadly (number : Nat) : Bool :=
  !(number == 0 || (17 ≤ number && number ≤ 23) || number == 28)

/-- Sends a signal, which reaches no process but that of the script. -/
def sendSignal (shell : Shell) (number : Nat) : List String → Shell
  | [] => shell.withStatus 2
  | target :: targets =>
    if target = processNumber then
      if isDeadly number then { shell with ended := some (.signal number) }
      else if targets.isEmpty then shell.withStatus 0
      else sendSignal shell number targets
    else shell.withStatus (if (smallNumber? target).isSome then 1 else 2)

/-- Reads the signal to send, which ends the process if none is given. -/
def runKill (shell : Shell) : List String → Shell
  | "-s" :: signal :: targets =>
    match signalNumber? signal with
    | some number => sendSignal shell number targets
    | none => shell.withStatus 2
  | argument :: targets =>
    match argument.toList with
    | '-' :: signal =>
      match signalNumber? (String.ofList signal) with
      | some number => sendSignal shell number targets
      | none => shell.withStatus 2
    | _ => sendSignal shell 15 (argument :: targets)
  | [] => shell.withStatus 2

/-- Drops arguments of the script. -/
def runShift (shell : Shell) (arguments : List String) : Shell :=
  match smallNumber? (arguments.head?.getD "1") with
  | none => shell.exit 2
  | some count =>
    if count ≤ shell.arguments.length then
      { shell with arguments := shell.arguments.drop count, status := 0 }
    else shell.exit 2

/-- Sets options and arguments of the script. -/
def runSet (shell : Shell) : List String → Shell
  | [] => shell.withStatus 0
  | "--" :: arguments => { shell with arguments, status := 0 }
  | argument :: arguments =>
    let stops := shell.stopsOnFailure
    match argument.toList with
    | '-' :: letters =>
      runSet { shell with stopsOnFailure := stops || letters.contains 'e' } arguments
    | '+' :: letters =>
      runSet { shell with stopsOnFailure := stops && !letters.contains 'e' } arguments
    | _ => { shell with arguments := argument :: arguments, status := 0 }

/-- Changes the working directory. -/
def runChange (shell : Shell) (arguments : List String) : Shell :=
  match shell.system.locate .follow (arguments.head?.getD "/") with
  | .ok (.entry names (.directory _)) =>
    { shell with system := { shell.system with here := names }, status := 0 }
  | _ => shell.withStatus 2

/-- The status that stands for the end of a program. -/
def statusOf : Option BadExit → Nat
  | none => 0
  | some (.status code) => code
  | some (.signal number) => 128 + number

/-- The state after a program was launched, and how that ended. -/
def afterLaunch (shell : Shell) (launch : Launch) : Shell × Option BadExit :=
  match launch with
  | .refused cause =>
    let status := if cause = .denied then 126 else 127
    (shell.withStatus status, some (.status status))
  | .ran system printed badExit =>
    ({ shell with
        system := { system with here := shell.system.here }
        printed := shell.printed ++ printed
        status := statusOf badExit },
      badExit)

/-- Runs a program by its name or its path. What is no program is read as a script. -/
def runProgram (programs : Renderer) (shell : Shell) (name : String) (arguments : List String) :
    Shell × Option BadExit :=
  match programs name arguments shell.system, name.contains '/' with
  | .refused .notProgram, true =>
    afterLaunch shell (programs "sh" (name :: arguments) shell.system)
  | .refused .denied, false => afterLaunch shell (.refused .notFound)
  | launch, _ => afterLaunch shell launch

/-- Runs a command from its words. -/
def runWords (programs : Renderer) (shell : Shell) : List String → Shell
  | [] => shell.withStatus 0
  | name :: arguments =>
    match name with
    | ":" => shell.withStatus 0
    | "exit" | "return" => runExit shell arguments
    | "kill" => runKill shell arguments
    | "shift" => runShift shell arguments
    | "set" => runSet shell arguments
    | "cd" => runChange shell arguments
    | "exec" =>
      match arguments with
      | [] => shell.withStatus 0
      | name :: arguments =>
        let (after, badExit) := runProgram programs shell name arguments
        { after with ended := some (badExit.getD (.status 0)) }
    | _ =>
      match utilities.lookup name with
      | some utility =>
        shell.apply (if name = "echo" && shell.escapes then echoEscaped else utility) arguments
      | none => (runProgram programs shell name arguments).1

/-! ### Running -/

/-- The shell at the end of the script if a failure ends it. -/
def checkFailure (isTested : Bool) (shell : Shell) : Shell :=
  if shell.stopsOnFailure && !isTested && shell.status ≠ 0 && shell.ended.isNone then
    shell.exit shell.status
  else shell

mutual

/-- Runs a statement, unless the script has ended. A failure that is tested does not end it. -/
def runStatement (programs : Renderer) (isTested : Bool) (shell : Shell) : Statement → Shell
  | .run assignments words redirects =>
    if shell.ended.isSome then shell
    else
      checkFailure isTested <| redirected shell redirects fun shell =>
        let words := words.flatMap (expand shell)
        let values := assignments.map fun (name, value) => (name, expandText shell value)
        if words.isEmpty then
          (values.foldl (fun shell (name, value) => shell.assign name value) shell).withStatus 0
        else runWords programs shell words
  | .each name items body redirects =>
    if shell.ended.isSome then shell
    else
      redirected shell redirects fun shell =>
        (items.flatMap (expand shell)).foldl (fun shell item =>
          if shell.ended.isSome then shell
          else runStatements programs isTested (shell.assign name item) body) (shell.withStatus 0)
  | .choose condition body otherwise redirects =>
    if shell.ended.isSome then shell
    else
      redirected shell redirects fun shell =>
        let tested := runStatements programs true shell condition
        if tested.ended.isSome then tested
        else if tested.status = 0 then runStatements programs isTested tested body
        else runStatements programs isTested (tested.withStatus 0) otherwise
  | .group body redirects =>
    if shell.ended.isSome then shell
    else redirected shell redirects fun shell => runStatements programs isTested shell body
  | .chain first onSuccess second =>
    let shell := runStatement programs true shell first
    if (shell.status == 0) == onSuccess then runStatement programs isTested shell second else shell
  | .negate statement =>
    let shell := runStatement programs true shell statement
    if shell.ended.isSome then shell else shell.withStatus (if shell.status = 0 then 1 else 0)

/-- Runs statements in order. -/
def runStatements (programs : Renderer) (isTested : Bool) (shell : Shell) :
    List Statement → Shell
  | [] => shell
  | statement :: statements =>
    runStatements programs isTested (runStatement programs isTested shell statement) statements

end

/-! ### Launching -/

/-- What comes of a process that has ended with a status. -/
def Process.launched (process : Process) : Launch :=
  .ran process.system process.printed
    (if process.status = 0 then none else some (.status process.status))

/-- What comes of a script that has run to its end. -/
def Shell.launched (shell : Shell) : Launch :=
  match shell.ended with
  | some (.signal number) => .ran shell.system shell.printed (some (.signal number))
  | _ => shell.toProcess.launched

/-- A process before anything was done. -/
def Process.start (system : FileSystem) : Process where
  system := system
  input := []
  printed := []
  status := 0

/-- Runs the text of a script. If it cannot be read to its end, that is status 2. -/
def runText (programs : Renderer) (shell : Shell) (text : String) : Launch :=
  let source := Source.ofText text.toList
  let after := runStatements programs false shell source.statements
  (if source.isComplete || after.ended.isSome then after else after.withStatus 2).launched

/-- Runs the script of a shell, which is a file behind options, or is given in their place. -/
def runShell (programs : Renderer) (shell : Shell) : List String → Launch
  | [] => shell.launched
  | argument :: rest =>
    match argument.toList with
    | ['-', 'c'] =>
      match rest with
      | [] => (shell.withStatus 2).launched
      | text :: rest =>
        runText programs
          { shell with name := rest.head?.getD shell.name, arguments := rest.drop 1 } text
    | '-' :: letters =>
      if letters.all "efmnuvx".toList.contains then
        runShell programs
          { shell with stopsOnFailure := shell.stopsOnFailure || letters.contains 'e' } rest
      else (shell.withStatus 2).launched
    | _ =>
      match shell.system.readAt argument with
      | .error .isDirectory => shell.launched
      | .error _ => (shell.withStatus (if shell.escapes then 2 else 127)).launched
      | .ok content =>
        runText programs { shell with name := argument, arguments := rest }
          (Text.ofOctetsReplacing content)

/-- The shell that is started under a name, if there is one. -/
def shellNamed? (name : String) (system : FileSystem) : Option Shell :=
  let shell (escapes : Bool) : Shell :=
    { Process.start system with
      escapes
      stopsOnFailure := false
      name
      arguments := []
      values := []
      ended := none }
  match name with
  | "sh" | "dash" => some (shell true)
  | "bash" => some (shell false)
  | _ => none

/-- The names of the programs of the system. -/
def programNames : List String :=
  ["sh", "dash", "bash", "env"] ++ utilities.map Prod.fst

/-- Starts a program of the system. -/
def runInstalled (programs : Renderer) (name : String) (arguments : List String)
    (system : FileSystem) : Launch :=
  match shellNamed? name system, utilities.lookup name with
  | some shell, _ => runShell programs shell arguments
  | none, some utility => (utility arguments (Process.start system)).launched
  | none, none =>
    -- the program that starts another one
    match arguments with
    | [] => .ran system [] none
    | name :: arguments =>
      match programs name arguments system with
      | .refused cause => .ran system [] (some (.status (if cause = .denied then 126 else 127)))
      | launch => launch

/-- The directories of programs, where names without a slash are looked up. -/
def searchPath : List String :=
  ["/usr/local/bin", "/usr/bin", "/bin"]

/-- The files around the working directory: programs, and directories that files can go to. -/
def surroundings : FileTree :=
  let program : FileTree := .file [0x7F, 0x45, 0x4C, 0x46] true
  .directory [("bin", .link "usr/bin"), ("dev", .directory [("null", .file [] false)]),
    ("etc", .directory [("passwd", .file [] false)]), ("root", .empty), ("tmp", .empty),
    ("usr", .directory [("bin", .directory (programNames.map fun name => (name, program))),
      ("local", .directory [("bin", .empty)])])]

/-- The program of the system that an entry is. -/
def installedAt? : List String → Option String
  | ["usr", "bin", name] => if programNames.contains name then some name else none
  | _ => none

/-- Whether an octet is a space or a tab. -/
def isBlankOctet (octet : UInt8) : Bool :=
  octet == 32 || octet == 9

/-- The number of octets in which the first line of a script has to name its program. -/
def lineLimit : Nat := 256

/-- The program that the first line of a script names, and its argument. -/
def interpreter? (content : List UInt8) : Except OsError (String × List String) := do
  let 35 :: 33 :: rest := content | throw .notProgram
  let shown := rest.take (lineLimit - 2)
  let isWhole := shown.contains 10 || shown.length < lineLimit - 2
  let line := (shown.takeWhile (· ≠ 10)).dropWhile isBlankOctet
  let name := line.takeWhile fun octet => !isBlankOctet octet && octet ≠ 0
  let behind := line.drop name.length
  if name.isEmpty && shown.contains 10 then throw .notProgram
  if !isWhole && (name.isEmpty || behind.isEmpty) then throw .notProgram
  let argument := ((behind.dropWhile isBlankOctet).takeWhile (· ≠ 0)).reverse
  let argument := (argument.dropWhile isBlankOctet).reverse
  return (Text.ofOctetsReplacing name,
    if argument.isEmpty then [] else [Text.ofOctetsReplacing argument])

/-- The greatest number of scripts that name each other as their programs. -/
def maxInterpreters : Nat := 5

/-- Starts the program at a path. That of a script gets the path of the script as an argument. A
script that names nothing names the working directory. -/
def startAt (programs : Renderer) : (hops : Nat) → (path : String) → List String → FileSystem →
    Launch
  | hops, path, arguments, system =>
    match system.locate .follow (if path.isEmpty then "." else path) with
    | .error cause => .refused cause
    | .ok (.free _ _) => .refused .notFound
    | .ok (.entry names (.file content true)) =>
      match installedAt? names with
      | some name => runInstalled programs name arguments system
      | none =>
        match interpreter? content, hops with
        | .error cause, _ => .refused cause
        | .ok _, 0 => .refused .tooManyLinks
        | .ok (interpreter, argument), hops + 1 =>
          startAt programs hops interpreter (argument ++ path :: arguments) system
    | .ok (.entry _ _) => .refused .denied

/-- The path of a program that is looked up by its name. -/
def search (system : FileSystem) (name : String) : Except OsError String :=
  if name.isEmpty then .error .notFound
  else if name.utf8ByteSize > FileSystem.maxNameSize then .error .nameTooLong
  else
    let paths := searchPath.map fun directory => FileSystem.joinPath directory name
    let isProgram (path : String) : Bool :=
      match system.entryAt .follow path with
      | .ok (.file _ isProgram) => isProgram
      | _ => false
    match paths.find? isProgram with
    | some path => .ok path
    | none => .error (if paths.any system.hasEntryAt then .denied else .notFound)

/-- Starts a program by its name or its path. -/
def start (programs : Renderer) : Renderer := fun name arguments system =>
  if (name :: arguments).any fun text => text.contains '\x00' then .refused .nulInPath
  else if name.contains '/' then startAt programs maxInterpreters name arguments system
  else
    match search system name with
    | .ok path => startAt programs maxInterpreters path arguments system
    | .error cause => .refused cause

/-- Starts a program that starts others, up to a depth. -/
def launchWithin : (depth : Nat) → Renderer
  | 0 => fun _ _ _ => .refused .tooManyLinks
  | depth + 1 => start (launchWithin depth)

/-- The renderer that starts programs and the scripts among the files. The working directory stays
as it is. -/
def launch : Renderer := fun name arguments system =>
  match launchWithin 16 name arguments system with
  | .ran after printed badExit => .ran { after with here := system.here } printed badExit
  | launch => launch

end Script

end ApiShorthand
