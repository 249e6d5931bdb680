import Pinout.Session.Listing

/-! # Arguments of the command line

Options may stand in front of the command and behind it; where one is given at both places, the one
behind counts. An option that takes a value has it behind an equals sign, directly behind its short
name, or as the next argument, which must not look like an option. Options that are no lists are
given once at most at each place. Behind `--` there are no options.
-/

namespace Pinout.CommandLine

inductive Flag where
  | noBuiltin
  | sort
  | collapseColumns
  | excludeUnusedPins
  | spacesAroundEquals
deriving Repr, DecidableEq

inductive Setting where
  | boardFile
  | wingFile
  | sourceBoard
  | destinationBoard
  | move
  | placeWing
  | output
  | profile
  | format
deriving Repr, DecidableEq

namespace Setting

def isList : Setting → Bool
  | boardFile | wingFile | move | placeWing => true
  | _ => false

def isPath : Setting → Bool
  | boardFile | wingFile | output | profile => true
  | _ => false

end Setting

inductive CommandName where
  | transform
  | validate
  | generate
  | list
  | exportBoards
deriving Repr, DecidableEq

def CommandName.ofString? : String → Option CommandName
  | "transform" => some transform
  | "validate" => some validate
  | "generate" => some generate
  | "list" => some list
  | "export" => some exportBoards
  | _ => none

/-- A use of the command line that it does not have. -/
inductive UsageError where
  | unknownOption (argument : String)
  | unexpectedValue (argument : String)
  | missingValue (argument : String)
  | emptyPath
  | repeatedOption
  | unknownCommand (name : String)
  | missingCommand
  | missingInput
  | unexpectedArgument (argument : String)
deriving Repr, DecidableEq

def UsageError.message : UsageError → String
  | unknownOption argument => "Unknown option " ++ argument
  | unexpectedValue argument => "Unexpected value in " ++ argument
  | missingValue argument => "Missing value behind " ++ argument
  | emptyPath => "A path must not be empty"
  | repeatedOption => "An option is given more than once"
  | unknownCommand name => "Unknown command " ++ name
  | missingCommand => "Missing command: transform, validate, generate, list or export"
  | missingInput => "Missing input file"
  | unexpectedArgument argument => "Unexpected argument " ++ argument

/-! ## Words -/

inductive Word where
  /-- The end of the options. -/
  | separator
  | long (name : String) (value : Option String)
  | short (letter : Char) (value : Option String)
  | positional (text : String)
deriving Repr, DecidableEq

def attachedValue : List Char → Option String
  | [] => none
  | '=' :: cs => some (.ofList cs)
  | cs => some (.ofList cs)

def Word.of (argument : String) : Word :=
  match argument.toList with
  | ['-', '-'] => .separator
  | '-' :: '-' :: cs =>
    match cs.dropWhile (· != '=') with
    | '=' :: value => .long (.ofList (cs.takeWhile (· != '='))) (some (.ofList value))
    | _ => .long (.ofList cs) none
  | '-' :: letter :: cs => .short letter (attachedValue cs)
  | _ => .positional argument

def flag? : String → Option Flag
  | "no-builtin" => some .noBuiltin
  | "sort" => some .sort
  | "collapse-columns" => some .collapseColumns
  | "exclude-unused-pins" => some .excludeUnusedPins
  | "spaces-around-equals" => some .spacesAroundEquals
  | _ => none

def setting? : String → Option Setting
  | "board-file" => some .boardFile
  | "wing-file" => some .wingFile
  | "source-board" => some .sourceBoard
  | "destination-board" => some .destinationBoard
  | "move" => some .move
  | "place-wing" => some .placeWing
  | "output" => some .output
  | "profile" => some .profile
  | "format" => some .format
  | _ => none

def shortSetting? : Char → Option Setting
  | 's' => some .sourceBoard
  | 'd' => some .destinationBoard
  | 'o' => some .output
  | _ => none

/-! ## Options -/

/-- The options given at one place, in order, and the other arguments there. -/
structure Given where
  flags : List Flag := []
  settings : List (Setting × String) := []
  positionals : List String := []
deriving Repr, DecidableEq

namespace Given

def withFlag (given : Given) (flag : Flag) : Except UsageError Given :=
  if given.flags.contains flag then .error .repeatedOption
  else .ok { given with flags := given.flags ++ [flag] }

def withSetting (given : Given) (setting : Setting) (value : String) : Except UsageError Given :=
  if setting.isPath && value.isEmpty then .error .emptyPath
  else if !setting.isList && given.settings.any (·.1 = setting) then .error .repeatedOption
  else .ok { given with settings := given.settings ++ [(setting, value)] }

def values (given : Given) (setting : Setting) : List String :=
  (given.settings.filter (·.1 = setting)).map (·.2)

end Given

inductive Meaning where
  | flag (flag : Flag)
  | complete (setting : Setting) (value : String)
  | open (setting : Setting)
deriving Repr, DecidableEq

/-- The meaning of an option. The format is an option of the command that exports. -/
def meaning (hasFormat : Bool) (argument : String) : Word → Except UsageError Meaning
  | .long name value =>
    match flag? name, value, setting? name with
    | some flag, none, _ => .ok (.flag flag)
    | some _, some _, _ => .error (.unexpectedValue argument)
    | none, _, none => .error (.unknownOption argument)
    | none, value, some setting =>
      if setting = .format && !hasFormat then .error (.unknownOption argument)
      else .ok (value.elim (.open setting) (.complete setting))
  | .short letter value =>
    match shortSetting? letter with
    | some setting => .ok (value.elim (.open setting) (.complete setting))
    | none => .error (.unknownOption argument)
  | _ => .error (.unexpectedArgument argument)

/-- Reads arguments. Where a command is awaited, the first argument that is no option ends the
reading, and is given back with those behind it. -/
def readArguments (awaitsCommand hasFormat : Bool) (given : Given) :
    List String → Except UsageError (Given × List String)
  | [] => .ok (given, [])
  | argument :: rest =>
    match Word.of argument with
    | .positional text =>
      if awaitsCommand then
        .ok (given, argument :: rest)
      else
        readArguments awaitsCommand hasFormat
          { given with positionals := given.positionals ++ [text] } rest
    | .separator =>
      if awaitsCommand then .error .missingCommand
      else .ok ({ given with positionals := given.positionals ++ rest }, [])
    | word =>
      match meaning hasFormat argument word with
      | .error error => .error error
      | .ok (.flag flag) => do readArguments awaitsCommand hasFormat (← given.withFlag flag) rest
      | .ok (.complete setting value) => do
        readArguments awaitsCommand hasFormat (← given.withSetting setting value) rest
      | .ok (.open setting) =>
        match rest with
        | [] => .error (.missingValue argument)
        | value :: rest =>
          match Word.of value with
          | .positional value => do
            readArguments awaitsCommand hasFormat (← given.withSetting setting value) rest
          | _ => .error (.missingValue argument)

/-! ## Commands -/

inductive Command where
  | transform (input : String)
  | validate (input : String)
  | generate (filter : String)
  | list (scope : String)
  | exportBoards (names : List String) (format : String)
deriving Repr, DecidableEq

structure Arguments where
  flags : List Flag
  settings : Setting → List String
  command : Command

namespace Arguments

def has (arguments : Arguments) (flag : Flag) : Bool :=
  arguments.flags.contains flag

def value? (arguments : Arguments) (setting : Setting) : Option String :=
  (arguments.settings setting).head?

end Arguments

def inputOf : List String → Except UsageError String
  | [] => .error .missingInput
  | [input] => if input.isEmpty then .error .emptyPath else .ok input
  | _ :: extra :: _ => .error (.unexpectedArgument extra)

def argumentOr (default : String) : List String → Except UsageError String
  | [] => .ok default
  | [argument] => .ok argument
  | _ :: extra :: _ => .error (.unexpectedArgument extra)

def commandOf (given : Given) : CommandName → Except UsageError Command
  | .transform => return .transform (← inputOf given.positionals)
  | .validate => return .validate (← inputOf given.positionals)
  | .generate => return .generate (← argumentOr "all" given.positionals)
  | .list => return .list (← argumentOr "" given.positionals)
  | .exportBoards =>
    let names := if given.positionals.isEmpty then [":all"] else given.positionals
    return .exportBoards names ((given.values .format).headD "json")

def parse (arguments : List String) : Except UsageError Arguments := do
  let (before, rest) ← readArguments true false {} arguments
  match rest with
  | [] => throw .missingCommand
  | name :: rest =>
    let some command := CommandName.ofString? name | throw (.unknownCommand name)
    let (behind, _) ← readArguments false (command = .exportBoards) {} rest
    return {
      flags := before.flags ++ behind.flags
      settings := fun setting =>
        if (behind.values setting).isEmpty then before.values setting else behind.values setting
      command := ← commandOf behind command }

end Pinout.CommandLine
