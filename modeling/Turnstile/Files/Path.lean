-- Paths of files: a root and the parts below it. Empty parts and single dots never show;
-- double dots stay, since only the file system knows where they lead.

namespace Turnstile

/-- Where a path starts. Two leading slashes are kept apart from one; three count as one. -/
inductive PathRoot where
  | here
  | slash
  | slashes
  deriving DecidableEq, Repr, Inhabited

def PathRoot.text : PathRoot → String
  | .here => ""
  | .slash => "/"
  | .slashes => "//"

structure Path where
  root : PathRoot
  parts : List String
  deriving DecidableEq, Repr, Inhabited

namespace Path

/-- The root of a path's text. -/
def rootOf : List Char → PathRoot
  | '/' :: '/' :: '/' :: _ => .slash
  | '/' :: '/' :: _ => .slashes
  | '/' :: _ => .slash
  | _ => .here

/-- Whether a part of a path's text shows. -/
def isPart (part : String) : Bool := part ≠ "" && part ≠ "."

def ofText (s : String) : Path := ⟨rootOf s.toList, (s.splitOn "/").filter isPart⟩

/-- The text of a path; a path without root and parts is a single dot. -/
def text (p : Path) : String :=
  if p.root = .here ∧ p.parts = [] then "." else p.root.text ++ "/".intercalate p.parts

def isAbsolute (p : Path) : Bool := p.root ≠ .here

/-- A path without its last part. -/
def parent (p : Path) : Path := ⟨p.root, p.parts.dropLast⟩

/-- The path that leads on from another one, unless it has a root of its own. -/
def under (p base : Path) : Path :=
  if p.isAbsolute then p else ⟨base.root, base.parts ++ p.parts⟩

end Path
end Turnstile
