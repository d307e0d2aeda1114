-- Hooks named by dotted paths: a catalogue of modules that load or fail to load, and the
-- symbols in them.
import Turnstile.Hooks.Basic
import Turnstile.Text.Blank

namespace Turnstile

/-- An object that may carry hooks. -/
structure HookOwner where
  typeName : String
  literal : String
  hooks : Hooks := {}

/-- What a path may lead to. A blueprint makes its object when hooks are taken from it. -/
inductive HookSymbol where
  | blueprint (module name : String) (build : Except Fault HookOwner)
  | function (module name : String)
  | module (name : String) (hooks : Hooks)
  | object (owner : HookOwner)
  | value (v : Value)

/-- A module that loaded. Only a package has modules below it. -/
structure HookModule where
  isPackage : Bool := false
  symbols : List (String × HookSymbol) := []
  hooks : Hooks := {}

/-- The modules that a path may name, each loaded or failing. -/
abbrev Catalogue := List (String × Except Fault HookModule)

namespace HookSymbol

/-- The object that hooks are taken from. -/
def owner (symbol : HookSymbol) (source : Option String) : Except Fault HookOwner :=
  match symbol with
  | .blueprint _ name build =>
    match build with
    | .ok owner => .ok owner
    | .error fault =>
      if fault.isCancellation then .error fault
      else
        let shown := match source with
          | none | some "" => name
          | some s => s
        .error (.reported (ConfigFault.brokenHooks shown fault.message).report)
  | .function _ name => .ok { typeName := "function", literal := "<function " ++ name ++ ">" }
  | .module name hooks =>
    .ok { typeName := "module", literal := "<module " ++ Text.quoted name ++ ">", hooks }
  | .object owner => .ok owner
  | .value v => .ok { typeName := v.typeName, literal := v.literal }

/-- The hooks of a symbol. The source says where it came from, for messages only. -/
def takeHooks (symbol : HookSymbol) (source : Option String) : Except Fault Hooks := do
  let owner ← symbol.owner source
  if owner.hooks.isEmpty then
    let shown := match source with
      | none | some "" => owner.literal
      | some s => s
    throw (.reported (SymbolFault.noHooks shown owner.typeName).report)
  return owner.hooks

end HookSymbol

namespace Catalogue

/-- The fault of a module that is not there. -/
def noModule (path : String) : Fault :=
  .plain .importing ("No module named " ++ Text.quoted path)

/-- Loads the modules of a dotted path from the outermost one in. -/
def loadParts (c : Catalogue) (path : String) (parent : HookModule) :
    List String → Except Fault HookModule
  | [] => .ok parent
  | part :: parts =>
    if !parent.isPackage then .error (noModule path)
    else
      let path := path ++ "." ++ part
      match c.lookup path with
      | none => .error (noModule path)
      | some (.error fault) => .error fault
      | some (.ok m) => c.loadParts path m parts

/-- Loads the module of a dotted path. -/
def load (c : Catalogue) (path : String) : Except Fault HookModule :=
  match path.splitOn "." with
  | [] | "" :: _ =>
    .error (.plain .type "the 'package' argument is required to perform a relative import")
  | part :: parts =>
    match c.lookup part with
    | none => .error (noModule part)
    | some (.error fault) => .error fault
    | some (.ok m) => c.loadParts part m parts

/-- Splits a path at its first colon, with the blanks around both parts left out. -/
def splitPath? (path : String) : Option (String × String) :=
  let cs := path.toList
  match cs.dropWhile (· ≠ ':') with
  | [] => none
  | _ :: rest =>
    let module := Text.trim (cs.takeWhile (· ≠ ':'))
    let symbol := Text.trim rest
    if module.isEmpty || symbol.isEmpty then none
    else some (String.ofList module, String.ofList symbol)

/-- Finds the symbol of a path `module:Symbol`: a symbol of the module, or else the module
below it of that name. -/
def find (c : Catalogue) (path : String) : Except Fault HookSymbol :=
  match splitPath? path with
  | none => .error (.reported (SymbolFault.malformedPath path).report)
  | some (module, symbol) =>
    match c.load module with
    | .error fault =>
      if fault.isCancellation then .error fault
      else .error (.reported (SymbolFault.noModule module path).report)
    | .ok m =>
      match m.symbols.lookup symbol with
      | some s => .ok s
      | none =>
        let below := module ++ "." ++ symbol
        match c.load below with
        | .ok sub => .ok (.module below sub.hooks)
        | .error fault =>
          if fault.isImporting then
            .error (.reported (SymbolFault.noSymbol module symbol path).report)
          else .error fault

/-- The hooks that a path names. -/
def hooksAt (c : Catalogue) (path : String) : Except Fault Hooks := do
  (← c.find path).takeHooks (some path)

end Catalogue
end Turnstile
