import RegexTypeset.CommandLine.Config

/-! # Arguments

Options and patterns may be mixed. An option is written in long form, or some in short
form with one hyphen and a letter; a value is attached to its option or is the next
argument. After two hyphens every argument is a pattern, and so is a lone hyphen.

The value of an option is looked at when the next argument is handled, unless it is
attached. An argument that is no option, and a value on a switch, are errors at once,
even while a value is still to be looked at.
-/
namespace RegexTypeset

inductive Setting where
  | target
  | flag
  | color
  | logLevel
deriving DecidableEq, Repr

def Setting.name : Setting → String
  | target => "target"
  | flag => "flag"
  | color => "color"
  | logLevel => "log-level"

inductive Switch where
  | showFlags
  | strict
  | help
  | version
deriving DecidableEq, Repr

def Switch.name : Switch → String
  | showFlags => "show-flags"
  | strict => "strict"
  | help => "help"
  | version => "version"

inductive ArgumentError where
  | unknownOption (written : String)
  /-- A value is missing or not one of those allowed. -/
  | invalidValue (setting : Setting)
  | unknownFlag (name : String)
  | unexpectedValue (switch : Switch)
  | givenTwice (name : String)
  | helpRequested
  | versionRequested
deriving DecidableEq, Repr

def ArgumentError.message : ArgumentError → String
  | unknownOption written => "unexpected argument " ++ Quoted.string written
  | invalidValue setting => "invalid or missing value for --" ++ setting.name
  | unknownFlag name => "unknown flag " ++ Quoted.string name
  | unexpectedValue switch => "unexpected value for --" ++ switch.name
  | givenTwice name => "--" ++ name ++ " cannot be used multiple times"
  | helpRequested => "help requested"
  | versionRequested => "version requested"

inductive Argument where
  | separator
  | long (name : String) (value : Option String)
  | short (letter : Char) (attached : List Char)
  | plain (text : String)
deriving DecidableEq, Repr

namespace Argument

def ofLong (text : List Char) : Argument :=
  let name := String.ofList (text.takeWhile (· ≠ '='))
  match text.dropWhile (· ≠ '=') with
  | [] => long name none
  | _ :: value => long name (some (String.ofList value))

def ofString (text : String) : Argument :=
  match text.toList with
  | ['-', '-'] => separator
  | '-' :: '-' :: rest => ofLong rest
  | '-' :: letter :: rest => short letter rest
  | _ => plain text

def attachedValue : List Char → Option String
  | [] => none
  | '=' :: value => some (String.ofList value)
  | value => some (String.ofList value)

end Argument

inductive NamedOption where
  | setting (setting : Setting)
  | switch (switch : Switch)
deriving DecidableEq, Repr

namespace NamedOption

def ofName? : String → Option NamedOption
  | "target" => some (.setting .target)
  | "flag" => some (.setting .flag)
  | "color" => some (.setting .color)
  | "log-level" => some (.setting .logLevel)
  | "show-flags" => some (.switch .showFlags)
  | "strict" => some (.switch .strict)
  | "help" => some (.switch .help)
  | "version" => some (.switch .version)
  | _ => none

def ofLetter? : Char → Option NamedOption
  | 't' => some (.setting .target)
  | 'f' => some (.setting .flag)
  | 'h' => some (.switch .help)
  | 'V' => some (.switch .version)
  | _ => none

end NamedOption

/-- What the arguments gave so far; the patterns have the latest first. -/
structure Given where
  patterns : List String
  target : Option Target
  flags : Flags
  color : Option ColorWhen
  logFilter : Option LogFilter
  showFlags : Bool
  strict : Bool
deriving Repr

namespace Given

def nothing : Given := ⟨[], none, ∅, none, none, false, false⟩

def choice? {α : Type} (name : α → String) (choices : List α) (value : String) : Option α :=
  choices.find? fun choice => name choice == value

def put {α : Type} (setting : Setting) (old : Option α) (value : Option α)
    (given : α → Given) : Except ArgumentError Given :=
  match old, value with
  | some _, _ => .error (.givenTwice setting.name)
  | none, some value => .ok (given value)
  | none, none => .error (.invalidValue setting)

def set (g : Given) (value : String) : Setting → Except ArgumentError Given
  | .target =>
    put .target g.target (choice? Target.name [.plain, .html, .latex, .terminal] value)
      fun target => { g with target := some target }
  | .flag =>
    match Flags.ofName? value with
    | some flag => .ok { g with flags := g.flags ∪ flag }
    | none => .error (.unknownFlag value)
  | .color =>
    put .color g.color (choice? ColorWhen.name [.always, .never, .auto] value)
      fun color => { g with color := some color }
  | .logLevel =>
    put .logLevel g.logFilter
      (choice? LogFilter.name [.off, .error, .warn, .info, .debug, .trace] value)
      fun filter => { g with logFilter := some filter }

def turnOn (g : Given) : Switch → Except ArgumentError Given
  | .showFlags =>
    if g.showFlags then .error (.givenTwice Switch.showFlags.name)
    else .ok { g with showFlags := true }
  | .strict =>
    if g.strict then .error (.givenTwice Switch.strict.name) else .ok { g with strict := true }
  | .help => .error .helpRequested
  | .version => .error .versionRequested

def addPattern (g : Given) (pattern : String) : Given :=
  { g with patterns := pattern :: g.patterns }

def config (g : Given) : Config :=
  { patterns := g.patterns.reverse
    target := g.target.getD .terminal
    flags := g.flags
    showFlags := g.showFlags
    strict := g.strict
    color := g.color.getD .auto
    logFilter := g.logFilter }

end Given

/-- The state between two arguments: what was given, a setting whose value is still to come or
to be looked at, and whether only patterns may follow. -/
structure Arguments where
  given : Given
  pending : Option (Setting × Option String)
  patternsOnly : Bool
deriving Repr

namespace Arguments

def start : Arguments := ⟨.nothing, none, false⟩

def settle (a : Arguments) : Except ArgumentError Given :=
  match a.pending with
  | none => .ok a.given
  | some (setting, none) => .error (.invalidValue setting)
  | some (setting, some value) => a.given.set value setting

def thenGive (a : Arguments) (next : Given → Except ArgumentError Given) :
    Except ArgumentError Arguments := do
  let given ← a.settle
  let given ← next given
  return { a with given := given, pending := none }

def addPattern (a : Arguments) (pattern : String) : Except ArgumentError Arguments :=
  a.thenGive fun given => .ok (given.addPattern pattern)

def addSetting (a : Arguments) (setting : Setting) :
    Option String → Except ArgumentError Arguments
  | some value => a.thenGive fun given => given.set value setting
  | none => do
    let given ← a.settle
    return { a with given := given, pending := some (setting, none) }

def addSwitch (a : Arguments) (switch : Switch) : Except ArgumentError Arguments :=
  a.thenGive fun given => given.turnOn switch

def add (a : Arguments) (text : String) : Except ArgumentError Arguments :=
  if a.patternsOnly then a.addPattern text
  else
    match Argument.ofString text with
    | .separator => .ok { a with patternsOnly := true }
    | .long name value =>
      match NamedOption.ofName? name, value with
      | some (.setting setting), value => a.addSetting setting value
      | some (.switch switch), none => a.addSwitch switch
      | some (.switch switch), some _ => .error (.unexpectedValue switch)
      | none, _ => .error (.unknownOption text)
    | .short letter attached =>
      match NamedOption.ofLetter? letter with
      | some (.setting setting) => a.addSetting setting (Argument.attachedValue attached)
      | some (.switch switch) => a.addSwitch switch
      | none => .error (.unknownOption text)
    | .plain text =>
      match a.pending with
      | some (setting, none) => .ok { a with pending := some (setting, some text) }
      | _ => a.addPattern text

def parse (arguments : List String) : Except ArgumentError Config := do
  let a ← arguments.foldlM add start
  let given ← a.settle
  return given.config

end Arguments

end RegexTypeset
