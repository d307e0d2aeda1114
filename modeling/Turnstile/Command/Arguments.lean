-- The command line: a command, its options in any order, and for `run` one stretch of
-- events. Long options may be cut short as long as they stay unambiguous.

namespace Turnstile

inductive Command where
  | check (config : Option String) (strict : Bool)
  | visualize (config : Option String) (format : String)
  | run (config : Option String) (name : String) (payload : Option String)
    (events : List String)
  deriving DecidableEq, Repr, Inhabited

/-- What a command line comes to when it names nothing to do. -/
inductive UsageFault where
  | help
  | wrong
  deriving DecidableEq, Repr, Inhabited

/-- An option of a command, with or without a value. -/
structure OptionSpec where
  name : String
  hasValue : Bool
  deriving DecidableEq, Repr

/-- What an argument is read as. -/
inductive Argument where
  | plain
  | help
  | option (spec : OptionSpec) (value : Option String)
  | unknown
  deriving DecidableEq, Repr, Inhabited

namespace Argument

/-- Whether an argument is a negative number, which is no option. -/
def isNegativeNumber : List Char → Bool
  | '-' :: rest =>
    let whole := rest.takeWhile Char.isDigit
    match rest.dropWhile Char.isDigit with
    | [] => !whole.isEmpty
    | '.' :: places => !places.isEmpty && places.all Char.isDigit
    | _ => false
  | _ => false

/-- The text in front of the first `=`, and the text behind it if there is one. -/
def splitAssignment (s : String) : String × Option String :=
  let cs := s.toList
  let name := String.ofList (cs.takeWhile (· ≠ '='))
  match cs.dropWhile (· ≠ '=') with
  | [] => (name, none)
  | _ :: value => (name, some (String.ofList value))

/-- The options that a text may stand for: the one of that name, or else all whose names
begin with it. -/
def candidates (options : List OptionSpec) (name : String) : List OptionSpec :=
  match options.find? (·.name = name) with
  | some spec => [spec]
  | none => options.filter fun spec => name.toList.isPrefixOf spec.name.toList

def helpOption : OptionSpec := ⟨"--help", false⟩

/-- Reads an argument. What begins with a dash is an option, unless it is a number or has a
blank in it. -/
def read (options : List OptionSpec) (s : String) : Argument :=
  match s.toList with
  | '-' :: second :: _ =>
    if s = "-h" then .help
    else
      let (name, value) := splitAssignment s
      let found := if second = '-' then candidates (helpOption :: options) name else []
      match found with
      | [spec] =>
        if spec = helpOption then (if value.isNone then .help else .unknown)
        else .option spec value
      | _ :: _ => .unknown
      | [] =>
        if isNegativeNumber s.toList || (' ' ∈ s.toList && second ≠ 'h') then .plain
        else .unknown
  | _ => .plain

end Argument

/-- Where the reading of the events stands: they lie ahead, are being read, or are behind. -/
inductive Stretch where
  | ahead
  | here
  | closed
  deriving DecidableEq, Repr, Inhabited

/-- The options that were given, the last ones first, and the events. -/
structure Arguments where
  values : List (String × String) := []
  events : List String := []
  stretch : Stretch := .ahead
  deriving Repr, Inhabited

namespace Arguments

def get? (a : Arguments) (name : String) : Option String := a.values.lookup name

/-- Notes an option. It ends the stretch of events, if there is one. -/
def set (a : Arguments) (name value : String) : Arguments :=
  { a with
    values := (name, value) :: a.values
    stretch := if a.stretch = .here then .closed else a.stretch }

/-- Notes some events, unless their stretch is behind. -/
def addEvents (a : Arguments) (events : List String) : Except UsageFault Arguments :=
  if a.stretch = .closed then .error .wrong
  else .ok { a with events := a.events ++ events, stretch := .here }

/-- Reads the arguments of a command, of which an option may wait for its value. All that
follows two dashes is plain, and so are the events, which have to stand together. -/
def read (options : List OptionSpec) (takesEvents : Bool) (a : Arguments) :
    Option String → List String → Except UsageFault Arguments
  | none, [] => .ok a
  | some _, [] => .error .wrong
  | some option, s :: rest =>
    if s ≠ "--" ∧ Argument.read options s = .plain then
      read options takesEvents (a.set option s) none rest
    else .error .wrong
  | none, s :: rest =>
    if s = "--" then (if takesEvents then a.addEvents rest else .error .wrong)
    else match Argument.read options s with
    | .help => .error .help
    | .unknown => .error .wrong
    | .option spec (some value) =>
      if spec.hasValue then read options takesEvents (a.set spec.name value) none rest
      else .error .wrong
    | .option spec none =>
      if spec.hasValue then read options takesEvents a (some spec.name) rest
      else read options takesEvents (a.set spec.name "") none rest
    | .plain =>
      if !takesEvents then .error .wrong
      else match a.addEvents [s] with
      | .ok a => read options takesEvents a none rest
      | .error fault => .error fault

end Arguments

namespace Command

def configOption : OptionSpec := ⟨"--config", true⟩

/-- Reads a command line. -/
def read : List String → Except UsageFault Command
  | [] => .error .wrong
  | "check" :: rest => do
    let a ← Arguments.read [configOption, ⟨"--strict", false⟩] false {} none rest
    return .check (a.get? "--config") (a.get? "--strict").isSome
  | "visualize" :: rest => do
    let a ← Arguments.read [configOption, ⟨"--format", true⟩] false {} none rest
    let format := (a.get? "--format").getD "mermaid"
    if format = "mermaid" ∨ format = "plantuml" then
      return .visualize (a.get? "--config") format
    throw .wrong
  | "run" :: rest => do
    let options := [configOption, ⟨"--name", true⟩, ⟨"--payload", true⟩]
    let a ← Arguments.read options true {} none rest
    return .run (a.get? "--config") ((a.get? "--name").getD "cli") (a.get? "--payload") a.events
  | s :: _ => .error (if Argument.read [] s = .help then .help else .wrong)

/-- The path that a command line gives for the configuration file. -/
def config? : Command → Option String
  | .check config _ | .visualize config _ | .run config _ _ _ => config

end Command
end Turnstile
