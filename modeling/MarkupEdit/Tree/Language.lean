/-!
# Languages

A file holds scripts with markup or TypeScript without it; which, its name tells. Markup is the
default, since only a few endings promise that a file has none.
-/

namespace MarkupEdit.Tree

/-- A dialect that a file can be written in. -/
inductive Language where
  /-- Scripts with embedded markup. -/
  | tsx
  /-- TypeScript without markup. -/
  | typescript
  deriving DecidableEq, Repr

namespace Language

def name : Language → String
  | tsx => "tsx"
  | typescript => "typescript"

/-- The text with the letters `A` to `Z` made small. -/
private def lowered (s : String) : String := String.ofList (s.toList.map Char.toLower)

/-- The language that a file extension promises, in whatever case it is written. -/
def ofExtension? (extension : String) : Option Language :=
  let e := lowered extension
  if ["tsx", "jsx", "js", "mjs", "cjs"].contains e then some tsx
  else if ["ts", "mts", "cts"].contains e then some typescript
  else none

/-- The components of a path: the pieces between slashes that are neither empty nor `.`. A `.`
that opens the path stays, and so does `..`. -/
private def components (file : String) : List String :=
  let pieces := (file.splitOn "/")
  let rest := (pieces.drop 1).filter (fun piece => piece != "" && piece != ".")
  match pieces with
  | [] => []
  | first :: _ => if first == "" then rest else first :: rest

/-- What follows the last dot of a file name, if anything stands before that dot. -/
private def extension? (name : List Char) : Option String :=
  let tail := name.reverse.takeWhile (· != '.')
  if name.length ≤ tail.length + 1 then none
  else some (String.ofList tail.reverse)

/-- The language of a file, told by the extension of the last component of its name. -/
def ofFile (file : String) : Language :=
  match (components file).getLast? with
  | none => tsx
  | some last =>
    if last == ".." || last == "." then tsx
    else ((extension? last.toList).bind ofExtension?).getD tsx

end Language

end MarkupEdit.Tree
