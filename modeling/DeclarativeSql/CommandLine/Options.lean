/-!
# Options

Arguments are read from left to right: switches, options with a value, and at last the name of a
subcommand. The first fault and the first request for help decide; an option in front of a
subcommand is settled after what follows the subcommand is read.
-/
namespace DeclarativeSql

structure OptionSpec where
  long : String
  short : Option Char
  takesValue : Bool
  /-- The value may be the empty text. -/
  allowsEmpty : Bool

inductive ArgumentFault
  | unknownOption (name : String)
  | repeatedOption (name : String)
  | missingValue (name : String)
  | unexpectedValue (name : String)
  | unexpectedArgument (text : String)
  | missingOption (name : String)
  | missingSubcommand
  | unknownSubcommand (name : String)
  deriving DecidableEq

def ArgumentFault.message : ArgumentFault → String
  | unknownOption name => "unexpected option " ++ name
  | repeatedOption name => "option --" ++ name ++ " is given twice"
  | missingValue name => "option --" ++ name ++ " needs a value"
  | unexpectedValue name => "option --" ++ name ++ " takes no value"
  | unexpectedArgument text => "unexpected argument " ++ text
  | missingOption name => "option --" ++ name ++ " is required"
  | missingSubcommand => "a subcommand is required"
  | unknownSubcommand name => "unknown subcommand " ++ name

/-- Why the arguments are not read to their end. -/
inductive Interruption
  | help
  | version
  | fault (cause : ArgumentFault)
  deriving DecidableEq

/-- The options given so far, by their long names. -/
abbrev Settings := List (String × String)

/-- What a command understands. -/
structure CommandSpec where
  options : List OptionSpec
  hasVersion : Bool
  subcommands : List String

namespace OptionSpec

def switch (long : String) (short : Option Char) : OptionSpec := ⟨long, short, false, true⟩

def text (long : String) (short : Char) : OptionSpec := ⟨long, some short, true, true⟩

/-- A path is not empty. -/
def path (long : String) (short : Char) : OptionSpec := ⟨long, some short, true, false⟩

/-- An option is given once. -/
def set (o : OptionSpec) (value : String) (settings : Settings) :
    Except Interruption Settings :=
  if (settings.lookup o.long).isSome then .error (.fault (.repeatedOption o.long))
  else if value.isEmpty && !o.allowsEmpty then .error (.fault (.missingValue o.long))
  else .ok ((o.long, value) :: settings)

end OptionSpec

namespace CommandSpec

/-- A text that begins an option and so is no value. A single minus is one. -/
def isOption (arg : String) : Bool :=
  match arg.toList with
  | '-' :: _ :: _ => true
  | _ => false

def long? (c : CommandSpec) (name : String) : Option OptionSpec :=
  c.options.find? (·.long == name)

def short? (c : CommandSpec) (letter : Char) : Option OptionSpec :=
  c.options.find? (·.short == some letter)

/-- Where the reading of one argument leaves off. -/
inductive Progress
  | read (settings : Settings)
  /-- The next argument is the value of this option. -/
  | awaiting (option : OptionSpec) (settings : Settings)

def interruption? (c : CommandSpec) (name : String) : Option Interruption :=
  if name = "help" then some .help
  else if name = "version" && c.hasVersion then some .version
  else none

/-- An option by its long name, with a value behind an equals sign if there is one. -/
def readLong (c : CommandSpec) (settings : Settings) (name : String) (value : Option String) :
    Except Interruption Progress :=
  match c.interruption? name, c.long? name, value with
  | some i, _, none => .error i
  | some _, _, some _ => .error (.fault (.unexpectedValue name))
  | none, none, _ => .error (.fault (.unknownOption name))
  | none, some o, some v =>
    if o.takesValue then (o.set v settings).map .read
    else .error (.fault (.unexpectedValue name))
  | none, some o, none =>
    if o.takesValue then .ok (.awaiting o settings) else (o.set "" settings).map .read

/-- Options by their letters. The first one that takes a value takes what follows. -/
def readShort (c : CommandSpec) (settings : Settings) : List Char → Except Interruption Progress
  | [] => .ok (.read settings)
  | letter :: rest =>
    if letter = 'h' then .error .help
    else if letter = 'V' && c.hasVersion then .error .version
    else
      match c.short? letter with
      | none => .error (.fault (.unknownOption (String.singleton letter)))
      | some o =>
        if o.takesValue then
          match rest with
          | [] => .ok (.awaiting o settings)
          | '=' :: value => (o.set (String.ofList value) settings).map .read
          | value => (o.set (String.ofList value) settings).map .read
        else
          match o.set "" settings with
          | .error i => .error i
          | .ok settings => c.readShort settings rest

/-- Splits at the first equals sign. -/
def splitValue (s : List Char) : String × Option String :=
  match s.span (· ≠ '=') with
  | (name, []) => (String.ofList name, none)
  | (name, _ :: value) => (String.ofList name, some (String.ofList value))

def readOption (c : CommandSpec) (settings : Settings) (arg : String) :
    Except Interruption Progress :=
  match arg.toList with
  | '-' :: '-' :: rest =>
    let (name, value) := splitValue rest
    c.readLong settings name value
  | _ :: rest => c.readShort settings rest
  | [] => .ok (.read settings)

/-- An option whose value stood in the next argument. It is settled by the next option or by the end
of the arguments. -/
abbrev Pending := Option (OptionSpec × String)

def settle (settings : Settings) : Pending → Except Interruption Settings
  | none => .ok settings
  | some (o, value) => o.set value settings

/-- Where the reading of a command's own arguments ends. -/
structure Reading where
  settings : Settings
  pending : Pending
  /-- The subcommand that is reached, and its arguments. -/
  subcommand : Option (String × List String)

/-- Reads up to a subcommand. Behind `--` there are no options and no subcommands. -/
def read (c : CommandSpec) (settings : Settings) (pending : Pending) :
    List String → Except Interruption Reading
  | [] => .ok ⟨settings, pending, none⟩
  | arg :: rest =>
    if arg = "--" then
      match rest with
      | [] => .ok ⟨settings, pending, none⟩
      | extra :: _ => .error (.fault (.unexpectedArgument extra))
    else if isOption arg then
      match settle settings pending with
      | .error i => .error i
      | .ok settings =>
        match c.readOption settings arg with
        | .error i => .error i
        | .ok (.read settings) => c.read settings none rest
        | .ok (.awaiting o settings) =>
          match rest with
          | [] => .error (.fault (.missingValue o.long))
          | value :: rest =>
            if isOption value then .error (.fault (.missingValue o.long))
            else c.read settings (some (o, value)) rest
    else if arg ∈ c.subcommands then .ok ⟨settings, pending, some (arg, rest)⟩
    else .error (.fault (.unexpectedArgument arg))

end CommandSpec

namespace Settings

def isGiven (s : Settings) (long : String) : Bool := (s.lookup long).isSome

def required (s : Settings) (long : String) : Except Interruption String :=
  match s.lookup long with
  | some value => .ok value
  | none => .error (.fault (.missingOption long))

end Settings

end DeclarativeSql
