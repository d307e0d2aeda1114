-- The part of a configuration file that says how instances are supervised. It is stricter
-- than the settings themselves: truth values count as no numbers.
import Turnstile.Supervisor.Settings

namespace Turnstile.Config

/-- The report of a configuration file as a fault. -/
def refuse (f : ConfigFault) : Fault := .reported f.report

/-- How many digits a whole number may have to be written in decimal form. -/
def digitLimit : Nat := 4300

mutual

/-- Whether a value has a literal form: all the whole numbers in it are short enough. -/
def isWritable : Value → Bool
  | .number (.whole n) => n.natAbs < Nat.pow 10 digitLimit
  | .list items => areWritable items
  | .record fields => fieldsAreWritable fields
  | _ => true

def areWritable : List Value → Bool
  | [] => true
  | v :: rest => isWritable v && areWritable rest

def fieldsAreWritable : List (String × Value) → Bool
  | [] => true
  | (_, v) :: rest => isWritable v && fieldsAreWritable rest

end

/-- The fault of writing a value that has no literal form. -/
def unwritable : Fault :=
  .plain .value (s!"Exceeds the limit ({digitLimit} digits) for integer string conversion; " ++
    "use sys.set_int_max_str_digits() to increase the limit")

/-- The report on a value that shows the value itself, and so needs its literal form. -/
def refuseShown (v : Value) (f : ConfigFault) : Fault :=
  if isWritable v then refuse f else unwritable

/-- A number above zero. -/
def positive (path setting : String) (v : Value) : Except Fault Number :=
  let fault :=
    refuseShown v (.wrongType ("runtime." ++ setting) "positive number" v.literal (some path))
  match v with
  | .number (.flag _) => .error fault
  | .number n => if n.leRat 0 then .error fault else .ok n
  | _ => .error fault

/-- A whole number not below zero. -/
def count (path setting : String) (v : Value) : Except Fault Number :=
  let fault :=
    refuseShown v
      (.wrongType ("runtime." ++ setting) "non-negative integer" v.literal (some path))
  match v with
  | .number (.whole n) => if n < 0 then .error fault else .ok (.whole n)
  | _ => .error fault

def policy (path : String) (v : Value) : Except Fault RestartPolicy :=
  match RestartPolicy.ofValue? v with
  | some p => .ok p
  | none => .error (refuseShown v (.unknownPolicy path v))

/-- A span of time in binary64, which is too narrow for some whole numbers. -/
def seconds (n : Number) : Except Fault Number :=
  match n.toBinary64? with
  | some x => .ok (.real x)
  | none => .error (.plain .overflow "int too large to convert to float")

/-- The settings of a `runtime` field, checked in the order of the settings; null means the
defaults. -/
def runtime (path : String) (v : Value) : Except Fault Settings :=
  match v with
  | .null => .ok {}
  | .record fields => do
    let get (key : String) (default : Value) := (fields.lookup key).getD default
    let defaults : Settings := {}
    let timeout ← positive path "shutdown_timeout"
      (get "shutdown_timeout" (.number defaults.shutdownTimeout))
    let restart ← policy path (get "restart" (.text defaults.restart.text))
    let restarts ← count path "max_restarts" (get "max_restarts" (.number defaults.maxRestarts))
    let window ← positive path "max_seconds" (get "max_seconds" (.number defaults.maxSeconds))
    return ⟨← seconds timeout, restart, restarts, ← seconds window⟩
  | v => .error (refuse (.wrongType "runtime" "mapping" v.typeName (some path)))

end Turnstile.Config
