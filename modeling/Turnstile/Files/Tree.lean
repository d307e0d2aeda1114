-- A tree of files, and what reading a path in it gives. Double dots lead up from where the
-- path has arrived, so a path cannot pass through what is not there.
import Turnstile.Fault.Basic
import Turnstile.Files.Path
import Turnstile.Text.Lines

namespace Turnstile

inductive FileNode where
  | file (content : ByteArray)
  | directory (entries : List (String × FileNode))
  deriving Inhabited

/-- Why a file cannot be opened. -/
inductive FileFault where
  | missing
  | isDirectory
  | notDirectory
  | nameTooLong
  deriving DecidableEq, Repr

namespace FileFault

/-- The number and the words of a reason. -/
def reason : FileFault → String
  | .missing => "[Errno 2] No such file or directory"
  | .isDirectory => "[Errno 21] Is a directory"
  | .notDirectory => "[Errno 20] Not a directory"
  | .nameTooLong => "[Errno 36] File name too long"

def kind : FileFault → FaultKind
  | .missing => .missingFile
  | .isDirectory => .isDirectory
  | .notDirectory => .notDirectory
  | .nameTooLong => .system

/-- The fault of opening a path. -/
def fault (f : FileFault) (p : Path) : Fault :=
  .plain f.kind (f.reason ++ ": " ++ Text.quoted p.text)

end FileFault

namespace FileNode

/-- The node of some parts, with the nodes passed on the way to go back to. -/
def walk (node : FileNode) (passed : List FileNode) : List String → Except FileFault FileNode
  | [] => .ok node
  | part :: parts =>
    match node with
    | .file _ => .error .notDirectory
    | .directory entries =>
      if part.utf8ByteSize > 255 then .error .nameTooLong
      else if part = ".." then
        match passed with
        | [] => walk (.directory []) [] parts
        | above :: passed => walk above passed parts
      else
        match entries.lookup part with
        | none => .error .missing
        | some child => walk child (node :: passed) parts

/-- A node with another one set at some names below it. A directory that is set where one
is already stays as it was. -/
def put (node : FileNode) (base : FileNode) : List String → FileNode
  | [] =>
    match node, base with
    | .directory [], .directory entries => .directory entries
    | _, _ => node
  | name :: rest =>
    let entries := match base with
      | .directory entries => entries
      | .file _ => []
    let child := (entries.lookup name).getD (.directory [])
    .directory (Value.setField entries name (put node child rest))

/-- A node with another one set at the parts of a path, of which some were passed already;
each directory that the path passes is made. -/
def putAlong (node : FileNode) (root : FileNode) (passed : List String) :
    List String → FileNode
  | [] => put node root passed
  | part :: rest =>
    if part = ".." then putAlong node root passed.dropLast rest
    else
      let passed := passed ++ [part]
      if rest.isEmpty then put node root passed
      else putAlong node (put (.directory []) root passed) passed rest

end FileNode

/-- A working directory. Nothing is known of what lies outside of it. -/
structure FileTree where
  here : FileNode := .directory []
  deriving Inhabited

namespace FileTree

/-- A tree with a node at a path below the working directory. -/
def insert (t : FileTree) (p : Path) (node : FileNode) : FileTree :=
  ⟨node.putAlong t.here [] p.parts⟩

/-- The bytes of a file. -/
def bytes (t : FileTree) (p : Path) : Except Fault ByteArray :=
  if '\x00' ∈ p.text.toList then .error (.plain .value "embedded null byte")
  else
    let start := if p.isAbsolute then .directory [] else t.here
    match start.walk [] p.parts with
    | .error f => .error (f.fault p)
    | .ok (.directory _) => .error (FileFault.isDirectory.fault p)
    | .ok (.file content) => .ok content

/-- The text of some bytes, with its line ends made one. -/
def decode (content : ByteArray) : Except Fault String :=
  match String.fromUTF8? content with
  | none => .error (.raised .undecodable [])
  | some s => .ok (String.ofList (Text.unifyLineEnds s.toList))

/-- The text of a file. -/
def read (t : FileTree) (p : Path) : Except Fault String := do
  decode (← t.bytes p)

end FileTree
end Turnstile
