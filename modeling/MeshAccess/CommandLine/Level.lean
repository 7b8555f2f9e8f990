import MeshAccess.Text.Positional
import MeshAccess.Text.Split

/-!
# One level of a command line

A command line is a row of levels: the program, and the commands below it. Each level has options,
which take one value each, and perhaps commands of its own or one operand. `Level.scan` reads the
arguments of one level up to the name of a command below it.

An option takes its value from the same argument behind `=`, or from the next one. In the second
case the value is looked at when the next option or operand comes, or at the end; an argument that
is not known at all is reported before it. Options that are not given take their value from the
environment.
-/

namespace MeshAccess.CommandLine

open MeshAccess.Text

/-- Why a command line is not carried out, or what is shown instead. -/
inductive UsageFault where
  | showHelp
  | showVersion
  /-- Nothing was given where a command is due. -/
  | showHelpForMissing
  | missingCommand
  | unknownCommand
  | unknownArgument
  | missingArgument
  /-- An option without its value, or with one that it does not know. -/
  | invalidValue
  /-- A value that is no number in range. -/
  | refusedValue
  /-- A value for what takes none. -/
  | surplusValue
  /-- An option that is given twice. -/
  | repeatedOption
  deriving DecidableEq, Repr

/-- What an option takes as its value. -/
inductive ValueKind where
  | text
  /-- A path, which cannot be empty. -/
  | path
  /-- A number of 16 bits. -/
  | port
  /-- One of some words. -/
  | oneOf (words : List String)
  deriving DecidableEq, Repr

/-- The port that a decimal numeral with an optional sign denotes. -/
def readPort? (s : String) : Option UInt16 :=
  let (bound, digits) : Nat × List Char :=
    match s.toList with
    | '-' :: cs => (1, cs)
    | '+' :: cs => (65536, cs)
    | cs => (65536, cs)
  (Positional.readBelow? 10 bound digits).map UInt16.ofNat

/-- Accepts the values that an option of this kind takes. -/
def ValueKind.check (kind : ValueKind) (value : String) : Except UsageFault Unit :=
  match kind with
  | .text => .ok ()
  | .path => if value = "" then .error .invalidValue else .ok ()
  | .port => if (readPort? value).isSome then .ok () else .error .refusedValue
  | .oneOf words => if words.contains value then .ok () else .error .invalidValue

/-- An option, or an operand. -/
structure Parameter where
  name : String
  short : Option Char := none
  kind : ValueKind
  /-- The environment variable that stands in for the parameter. -/
  envName : Option String := none
  required : Bool := false

/-- A level of a command line. -/
structure Level where
  options : List Parameter
  operand : Option Parameter := none
  /-- The names of the commands below; there are none if there is an operand. -/
  commands : List String := []
  /-- Whether the version can be asked for. -/
  hasVersion : Bool := false

/-- The values given so far. -/
structure Progress where
  given : List (String × String) := []
  /-- A parameter whose value has not been looked at, if it has come at all. -/
  pending : Option (Parameter × Option String) := none
  /-- Whether the operand has been given. -/
  hasOperand : Bool := false

namespace Progress

/-- Takes a value for a parameter that has none yet. -/
def accept (p : Progress) (par : Parameter) (value : String) : Except UsageFault Progress :=
  if (p.given.lookup par.name).isSome then .error .repeatedOption
  else
    match par.kind.check value with
    | .error f => .error f
    | .ok () => .ok { p with given := p.given ++ [(par.name, value)] }

/-- Looks at the value of the pending parameter. -/
def settle (p : Progress) : Except UsageFault Progress :=
  match p.pending with
  | none => .ok p
  | some (_, none) => .error .invalidValue
  | some (par, some value) => { p with pending := none }.accept par value

/-- Whether the next argument may be the value of the pending parameter. -/
def isWaiting (p : Progress) : Bool :=
  match p.pending with
  | some (_, none) => true
  | _ => false

/-- Settles and then shows something instead of going on. -/
def thenShow (p : Progress) (f : UsageFault) : Except UsageFault Progress :=
  match p.settle with
  | .error f => .error f
  | .ok _ => .error f

/-- An option with the value in its own argument, or waiting for the next one. -/
def option (p : Progress) (par : Parameter) (value : Option String) :
    Except UsageFault Progress :=
  match p.settle with
  | .error f => .error f
  | .ok p =>
    match value with
    | some v => p.accept par v
    | none => .ok { p with pending := some (par, none) }

end Progress

/-- An argument by its form. -/
inductive Argument where
  /-- `--`, behind which no argument is an option. -/
  | escape
  /-- `--name` or `--name=value`. -/
  | long (name : String) (value : Option String)
  /-- `-c` or `-cvalue` or `-c=value`. -/
  | short (letter : Char) (value : Option String)
  | word (text : String)
  deriving DecidableEq, Repr

/-- The value behind the letter of a short option. -/
def attachedValue : List Char → Option String
  | [] => none
  | '=' :: cs => some (String.ofList cs)
  | cs => some (String.ofList cs)

/-- The form of an argument. -/
def Argument.classify (s : String) : Argument :=
  match s.toList with
  | ['-', '-'] => .escape
  | '-' :: '-' :: cs =>
    match splitFirst? ['='] cs with
    | some (name, value) => .long (String.ofList name) (some (String.ofList value))
    | none => .long (String.ofList cs) none
  | '-' :: c :: cs => .short c (attachedValue cs)
  | _ => .word s

namespace Level

/-- The progress behind a long option. -/
def takeLong (l : Level) (p : Progress) (name : String) (value : Option String) :
    Except UsageFault Progress :=
  match l.options.find? fun par => par.name == name with
  | some par => p.option par value
  | none =>
    if name = "help" ∨ (name = "version" ∧ l.hasVersion) then
      if value.isSome then .error .surplusValue
      else p.thenShow (if name = "help" then .showHelp else .showVersion)
    else .error .unknownArgument

/-- The progress behind a short option. -/
def takeShort (l : Level) (p : Progress) (letter : Char) (value : Option String) :
    Except UsageFault Progress :=
  match l.options.find? fun par => par.short == some letter with
  | some par => p.option par value
  | none =>
    if letter = 'h' then p.thenShow .showHelp
    else if letter = 'V' ∧ l.hasVersion then p.thenShow .showVersion
    else .error .unknownArgument

/-- Whether a word names a command below, or asks for help on one. -/
def isCommand (l : Level) (word : String) : Bool :=
  l.commands.contains word || (!l.commands.isEmpty && word == "help")

/-- The progress behind a word that is neither a command nor the value of an option. -/
def takeWord (l : Level) (p : Progress) (escaped : Bool) (word : String) :
    Except UsageFault Progress :=
  match l.operand, p.hasOperand with
  | some par, false =>
    match p.settle with
    | .error f => .error f
    | .ok p => .ok { p with pending := some (par, some word), hasOperand := true }
  | _, _ =>
    if l.commands.isEmpty || (escaped && l.isCommand word) then .error .unknownArgument
    else .error .unknownCommand

/-- Reads the arguments of a level, up to the end or to the name of a command, which comes with the
arguments behind it. -/
def scan (l : Level) (p : Progress) (escaped : Bool) :
    List String → Except UsageFault (Progress × Option (String × List String))
  | [] => .ok (p, none)
  | a :: args =>
    if escaped then
      match l.takeWord p true a with
      | .error f => .error f
      | .ok p => scan l p true args
    else if !p.isWaiting && l.isCommand a then .ok (p, some (a, args))
    else
      match Argument.classify a, p.pending with
      | .escape, _ => scan l p true args
      | .long name value, _ =>
        match l.takeLong p name value with
        | .error f => .error f
        | .ok p => scan l p false args
      | .short letter value, _ =>
        match l.takeShort p letter value with
        | .error f => .error f
        | .ok p => scan l p false args
      | .word _, some (par, none) => scan l { p with pending := some (par, some a) } false args
      | .word _, _ =>
        match l.takeWord p false a with
        | .error f => .error f
        | .ok p => scan l p false args

/-- The values from the environment for the options that are not given. -/
def fromEnvironment (env : String → Option String) (given : List (String × String)) :
    List Parameter → Except UsageFault (List (String × String))
  | [] => .ok []
  | par :: pars =>
    match given.lookup par.name, par.envName.bind env with
    | none, some value =>
      match par.kind.check value with
      | .error f => .error f
      | .ok () => (fromEnvironment env given pars).map ((par.name, value) :: ·)
    | _, _ => fromEnvironment env given pars

/-- The values of a level. -/
structure Values where
  given : List (String × String)
  environment : List (String × String)

namespace Values

/-- The value of a parameter; one given on the command line comes first. -/
def get? (v : Values) (name : String) : Option String :=
  v.given.lookup name <|> v.environment.lookup name

end Values

/-- The values at the end of a level, on which every required one has to be there. -/
def finish (l : Level) (env : String → Option String) (p : Progress) (hasCommand : Bool) :
    Except UsageFault Values :=
  match p.settle with
  | .error f => .error f
  | .ok p =>
    match fromEnvironment env p.given l.options with
    | .error f => .error f
    | .ok environment =>
      let values : Values := ⟨p.given, environment⟩
      let parameters := l.options ++ l.operand.toList
      if !hasCommand && !l.commands.isEmpty then
        if p.given.isEmpty && environment.isEmpty then .error .showHelpForMissing
        else .error .missingCommand
      else if parameters.any fun par => par.required && (values.get? par.name).isNone then
        .error .missingArgument
      else .ok values

end Level

end MeshAccess.CommandLine
