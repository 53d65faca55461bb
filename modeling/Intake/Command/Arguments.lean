import Intake.Settings

/-!
The command line. Options stand before and behind the name of the command that
they belong to; each takes one value, joined to it or as the next argument, and may
be given once. The address of the database may also come from the environment.
-/
namespace Intake.Command

inductive Opt where
  | databaseUrl
  | file
  | importId
  | bufferSize
  | maxWaitMillis
deriving DecidableEq, Repr

/-- Why arguments are not carried out. -/
inductive Usage where
  | invalidValue
  | unknownArgument
  | invalidSubcommand
  | valueValidation
  | argumentConflict
  | missingRequiredArgument
  | missingSubcommand
  | tooManyValues
  | invalidUtf8
  | displayHelp
  | displayHelpOnMissingArgumentOrSubcommand
  | displayVersion
deriving DecidableEq, Repr

/-- To ask for help or the version is no mistake. -/
def Usage.exitCode : Usage → Nat
  | .displayHelp => 0
  | .displayVersion => 0
  | _ => 2

structure Arguments where
  databaseUrl : String
  file? : Option String
  importId : String
  bufferSize? : Option Nat
  maxWaitMillis? : Option Nat
deriving DecidableEq, Repr

/-! ## Options and their values -/

/-- What a name on the command line stands for. -/
inductive Name where
  | option (o : Opt)
  | help
  | version

/-- The names that a level of the command line knows. -/
structure Level where
  long : List (String × Name)
  short : List (Char × Name)
  /-- Commands may follow. -/
  isTop : Bool

def topLevel : Level where
  long := [("database-url",.option .databaseUrl),("help",.help),("version",.version)]
  short := [('h',.help),('V',.version)]
  isTop := true

def importLevel : Level where
  long := [("file",.option .file),("import-id",.option .importId),("buffer-size",.option .bufferSize),
    ("max-wait-ms",.option .maxWaitMillis),("help",.help)]
  short := [('f',.option .file),('h',.help)]
  isTop := false

/-- The values that are given so far. -/
structure Given where
  databaseUrl? : Option String := none
  file? : Option String := none
  importId? : Option String := none
  bufferSize? : Option Nat := none
  maxWaitMillis? : Option Nat := none

/-- A number from one up to the greatest of 64 bits. -/
def positive (value : String) : Except Usage Nat :=
  match Decimal.read? 0xffffffffffffffff value.toList with
  | some 0 => .error .valueValidation
  | some n => .ok n
  | none => .error .valueValidation

/-- Fails if there is a value already. -/
def once {α : Type} : Option α → Except Usage Unit
  | some _ => .error .argumentConflict
  | none => .ok ()

/-- Gives an option its value. -/
def Given.put (g : Given) (o : Opt) (value : String) : Except Usage Given := do
  match o with
  | .databaseUrl => once g.databaseUrl?; return { g with databaseUrl? := some value }
  | .importId => once g.importId?; return { g with importId? := some value }
  | .file =>
    once g.file?
    if value.isEmpty then throw .invalidValue
    return { g with file? := some value }
  | .bufferSize => once g.bufferSize?; return { g with bufferSize? := some (← positive value) }
  | .maxWaitMillis => once g.maxWaitMillis?; return { g with maxWaitMillis? := some (← positive value) }

/-! ## From left to right -/

structure Scan where
  given : Given := {}
  /-- The last option, with its value if that has come. -/
  pending? : Option (Opt × Option String) := none
  /-- Two dashes have ended the options. -/
  trailing : Bool := false

namespace Scan

/-- An option waits for its value. -/
def awaits (s : Scan) : Bool :=
  match s.pending? with
  | some (_,none) => true
  | _ => false

/-- Gives the last option its value. -/
def settle (s : Scan) : Except Usage Scan :=
  match s.pending? with
  | none => .ok s
  | some (_,none) => .error .invalidValue
  | some (o,some value) => do return { s with given := ← s.given.put o value, pending? := none }

/-- Takes an option, with the value that is joined to it if there is one. -/
def option (s : Scan) (o : Opt) (joined? : Option String) : Except Usage Scan := do
  let s ← s.settle
  match joined? with
  | some value => return { s with given := ← s.given.put o value }
  | none => return { s with pending? := some (o,none) }

/-- Takes the name behind two dashes. -/
def long (s : Scan) (l : Level) (arg : List Char) : Except Usage Scan :=
  let name := String.ofList (arg.takeWhile (· ≠ '='))
  let joined? := match arg.dropWhile (· ≠ '=') with
    | _ :: value => some (String.ofList value)
    | [] => none
  match l.long.lookup name with
  | none => .error .unknownArgument
  | some (.option o) => s.option o joined?
  | some flag =>
    if joined?.isSome then .error .tooManyValues
    else do
      let _ ← s.settle
      throw (if flag matches .help then .displayHelp else .displayVersion)

/-- Takes the letters behind one dash. -/
def short (s : Scan) (l : Level) (letter : Char) (rest : List Char) : Except Usage Scan :=
  match l.short.lookup letter with
  | none => .error .unknownArgument
  | some (.option o) =>
    match rest with
    | [] => s.option o none
    | '=' :: value => s.option o (some (String.ofList value))
    | value => s.option o (some (String.ofList value))
  | some flag => do
    let _ ← s.settle
    throw (if flag matches .help then .displayHelp else .displayVersion)

/-- What is wrong with an argument that belongs to no option. -/
def stray (s : Scan) (l : Level) (arg : String) : Usage :=
  if !l.isTop then .unknownArgument
  else if s.trailing && (arg = "import" || arg = "help") then .unknownArgument
  else .invalidSubcommand

end Scan

/-- What `help` is asked about. -/
def help : List String → Usage
  | [] => .displayHelp
  | ["import"] => .displayHelp
  | ["help"] => .displayHelp
  | _ => .invalidSubcommand

/-- Reads arguments up to the name of a command, and answers with the arguments behind it. -/
def scan (l : Level) (s : Scan) : List String → Except Usage (Scan × Option (List String))
  | [] => .ok (s,none)
  | arg :: rest =>
    if s.trailing then .error (s.stray l arg)
    else if l.isTop && !s.awaits && arg = "import" then .ok (s,some rest)
    else if l.isTop && !s.awaits && arg = "help" then .error (help rest)
    else match arg.toList with
      | ['-','-'] => scan l { s with trailing := true } rest
      | '-' :: '-' :: name => do scan l (← s.long l name) rest
      | '-' :: letter :: letters => do scan l (← s.short l letter letters) rest
      | _ => match s.pending? with
        | some (o,none) => scan l { s with pending? := some (o,some arg) } rest
        | _ => .error (s.stray l arg)

/-- The arguments behind the name of the command, with the values given before it. -/
def ofImport (g : Given) (args : List String) : Except Usage (Given × String) := do
  let (s,_) ← scan importLevel { given := g } args
  let s ← s.settle
  match s.given.importId? with
  | some id => return (s.given,id)
  | none => throw .missingRequiredArgument

/-- Reads arguments, without the name of the program. -/
def Arguments.read (args : List String) (databaseUrl? : Option Variable) : Except Usage Arguments := do
  let (top,behind?) ← scan topLevel {} args
  let below? ← behind?.mapM (ofImport {})
  let top ← top.settle
  let url? ← match top.given.databaseUrl?, databaseUrl? with
    | some url, _ => pure (some url)
    | none, some (.text url) => pure (some url)
    | none, some .bytes => throw .invalidUtf8
    | none, none => pure none
  match below?, url? with
  | some (g,importId), some databaseUrl =>
    return { databaseUrl, importId, file? := g.file?, bufferSize? := g.bufferSize?, maxWaitMillis? := g.maxWaitMillis? }
  | some _, none => throw .missingRequiredArgument
  | none, some _ => throw .missingSubcommand
  | none, none => throw .displayHelpOnMissingArgumentOrSubcommand

end Intake.Command
