-- Records of the log: each is written with the name of the instance that it is about.
import Turnstile.Fault.Basic

namespace Turnstile.Log

/-- The name that stands in records of no instance. -/
def noInstance : String := "-"

/-- The name under which the records of an instance go. -/
def instanceName : Value → String
  | .null => noInstance
  | v => v.plain

/-- The named levels, from the highest down. -/
def levels : List (Int × String) := [
  (50, "CRITICAL"), (40, "ERROR"), (30, "WARNING"), (20, "INFO"), (10, "DEBUG"), (0, "NOTSET")]

/-- The level of records that are of use to anyone. -/
def defaultLevel : Value := .int 20

/-- The name of a level. -/
def levelName (level : Int) : String := (levels.lookup level).getD ("Level " ++ toString level)

/-- The level of a name; two levels have a second one. -/
def levelOfName? (name : String) : Option Int :=
  match name with
  | "FATAL" => some 50
  | "WARN" => some 30
  | name => (levels.find? fun (_, n) => n = name).map (·.1)

/-- The level that a value stands for: a whole number, or the name of a level. -/
def levelOf (v : Value) : Except Fault Number :=
  match v with
  | .number (.flag b) => .ok (.flag b)
  | .number (.whole n) => .ok (.whole n)
  | .text name =>
    match levelOfName? name with
    | some n => .ok (.whole n)
    | none => .error (.plain .value ("Unknown level: " ++ Text.quoted name))
  | v => .error (.plain .type ("Level not an integer or a valid string: " ++ v.literal))

/-- The level of a logger that is asked for by name. -/
def loggerLevel (name level : Value) : Except Fault Number :=
  match name with
  | .text _ => levelOf level
  | v => if v.isTrue then .error (.plain .type "A logger name must be a string") else levelOf level

/-- What divides the parts of a record. -/
def divider : String := " - "

/-- The text of a record without its time. -/
def text (logger : String) (level : Int) (name message : String) : String :=
  divider.intercalate [logger, levelName level, "fsm=" ++ name, message]

/-- The text of a record, if its level is not below that of the logger. -/
def text? (logger : String) (loggerLevel level : Int) (name message : String) :
    Option String :=
  if level < loggerLevel then none else some (text logger level name message)

/-- A text with a time in front. -/
def stamped (time text : String) : String := time ++ divider ++ text

/-- What follows the first divider of a line; nothing if there is none. -/
def withoutTime (line : List Char) : List Char :=
  match line with
  | ' ' :: '-' :: ' ' :: rest => rest
  | _ :: rest => withoutTime rest
  | [] => []

end Turnstile.Log
