-- The program: it reads its command line and the two files that it may need, and writes what
-- the command leaves behind.
import Turnstile.Command.Basic
import Turnstile.Jobs.Hooks

namespace Turnstile

def usage : String := "\n".intercalate [
  "usage: fsmflow check [--config CONFIG] [--strict]",
  "       fsmflow visualize [--config CONFIG] [--format mermaid|plantuml]",
  "       fsmflow run [--config CONFIG] [--name NAME] [--payload PAYLOAD] [event[=payload] ...]"]

/-- The fault of a file that could not be read. -/
def fileFault (p : Path) (e : IO.Error) : Fault :=
  match e with
  | .noFileOrDirectory .. => FileFault.missing.fault p
  | .inappropriateType _ code _ | .invalidArgument _ code _ | .resourceExhausted _ code _ =>
    if code = 20 then FileFault.notDirectory.fault p
    else if code = 36 then FileFault.nameTooLong.fault p
    else FileFault.isDirectory.fault p
  | e => .plain .system (toString e)

/-- Reads a text file. -/
def fetch (p : Path) : IO (Except Fault String) := do
  try
    return FileTree.decode (← IO.FS.readBinFile p.text)
  catch e =>
    return .error (fileFault p e)

/-- A reader of the configuration file and of the diagram that it refers to. -/
def readerFor (p : Path) : IO Config.Reader := do
  let config ← fetch p
  let missing (q : Path) : Except Fault String := .error (FileFault.missing.fault q)
  let readConfig : Config.Reader := fun q => if q = p then config else missing q
  match Config.diagramFile? readConfig p with
  | none => return readConfig
  | some d =>
    let diagram ← fetch d
    return fun q => if q = d then diagram else readConfig q

/-- Runs a command; gives the exit code. -/
def runCommand (c : Command) : IO UInt32 := do
  let path := c.configPath? (← IO.getEnv "FSMFLOW_CONFIG")
  let read ← match path with
    | some p => readerFor p
    | none => pure fun q => .error (FileFault.missing.fault q)
  let report := c.execute read [("hooks", .ok (Jobs.hookModule "hooks"))] path
  IO.print report.output
  for line in report.logLines do
    IO.eprintln line
  match report.ending with
  | .code n complaint =>
    IO.eprint complaint
    return UInt32.ofNat n
  | .raised fault =>
    IO.eprintln (fault.label ++ ": " ++ fault.message)
    return 1

end Turnstile

def main (args : List String) : IO UInt32 := do
  match Turnstile.Command.read args with
  | .ok c => Turnstile.runCommand c
  | .error .help =>
    IO.println Turnstile.usage
    return 0
  | .error .wrong =>
    IO.eprintln Turnstile.usage
    return 2
