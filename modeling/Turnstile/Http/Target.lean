-- The path of a request: what its text says once dots are resolved and escapes are undone.
import Turnstile.Text.Utf8

namespace Turnstile.Http

/-- The path of a request's target, without query and fragment. -/
def pathOf (target : List Char) : List Char :=
  target.takeWhile fun c => c ≠ '?' && c ≠ '#'

/-- The parts of a path with single dots left out, and with double dots leading up. The parts
kept so far stand in reverse; the first of them is the empty one in front of the path. -/
def resolveDots (kept : List String) : List String → List String
  | [] => kept.reverse
  | "." :: rest => resolveDots kept rest
  | ".." :: rest => resolveDots (if kept = [""] then kept else kept.drop 1) rest
  | part :: rest => resolveDots (part :: kept) rest

def isHexDigit (c : Char) : Bool :=
  c.isDigit || ('a' ≤ c && c ≤ 'f') || ('A' ≤ c && c ≤ 'F')

def hexValue (c : Char) : Nat :=
  if c.isDigit then c.toNat - 48 else c.toLower.toNat - 87

/-- The bytes of a path; a percent sign counts as an escape only with two digits behind it. -/
def bytesOf : List Char → List UInt8
  | '%' :: a :: b :: rest =>
    if isHexDigit a && isHexDigit b then
      UInt8.ofNat (16 * hexValue a + hexValue b) :: bytesOf rest
    else '%'.toNat.toUInt8 :: bytesOf (a :: b :: rest)
  | c :: rest => (String.singleton c).toUTF8.toList ++ bytesOf rest
  | [] => []

/-- The path that the target of a request means. -/
def decodeTarget (target : String) : String :=
  let parts := (String.ofList (pathOf target.toList)).splitOn "/"
  let path := "/".intercalate (resolveDots [] parts)
  String.ofList (Text.decodeLossy (bytesOf (if path.isEmpty then ['/'] else path.toList)))

end Turnstile.Http
