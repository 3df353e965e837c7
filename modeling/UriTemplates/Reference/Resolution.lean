import UriTemplates.Expansion
import UriTemplates.Reference.Basic
import UriTemplates.Text.Lowercase

/-!
# Resolution against a base

A reference is resolved against a base address (`Reference.resolve`), and an address is
expressed relative to the directory of a base (`Reference.relativeTo`). Both work on the
segments of a path: `Reference.withoutDots` takes the segments `.` and `..` out.
-/

namespace UriTemplates.Reference

/-- Whether a URI has a scheme. -/
def isAbsolute (uri : Text) : Except Error Bool := do
  let reference ← parse uri
  return !reference.scheme.isEmpty

/-- The segments of a path, without empty ones but for the first and the last. -/
def withoutInnerEmpty : List Text → List Text
  | [] => []
  | first :: rest =>
    match rest.getLast? with
    | none => [first]
    | some last => first :: rest.dropLast.filter (!·.isEmpty) ++ [last]

/-- Take the segments `.` and `..` out of a path: the first stands for no segment, and the
second drops the one before it, if there is one. The segments kept so far are given from
their end. -/
def withoutDots (kept : List Text) : List Text → List Text
  | [] => kept.reverse
  | segment :: rest =>
    if segment = ['.', '.'] then withoutDots (kept.drop 1) rest
    else if segment = ['.'] then withoutDots kept rest
    else withoutDots (segment :: kept) rest

/-- Whether a segment stands for a directory. -/
def isDots (segment : Text) : Bool :=
  segment = ['.'] || segment = ['.', '.']

/-- The directory of a path, as segments. -/
def directory (path : Text) : List Text :=
  let segments := Text.fields '/' path
  if segments.getLast? = some [] then segments else segments.dropLast

/-- The segments of a path that is resolved against a base path. -/
def mergedSegments (base path : Text) : List Text :=
  match path with
  | '/' :: _ => Text.fields '/' path
  | _ => withoutInnerEmpty (directory base ++ Text.fields '/' path)

/-- A path resolved against a base path. -/
def resolvedPath (base path : Text) : Text :=
  let segments := mergedSegments base path
  let kept := withoutDots [] segments
  let ended := if segments.getLast?.any isDots then kept ++ [[]] else kept
  let joined := Text.joined '/' ended
  if joined.isEmpty then ['/'] else joined

/-- A reference with neither scheme nor authority of its own, resolved against a base. -/
def resolvedWithin (base reference : Reference) (authority : Text) : Reference :=
  if reference.path.isEmpty && reference.parameters.isEmpty then
    { reference with
      authority := authority
      path := base.path
      parameters := base.parameters
      query := if reference.query.isEmpty then base.query else reference.query }
  else
    { reference with authority := authority, path := resolvedPath base.path reference.path }

/-- Join a reference to a base; a reference with a scheme of its own stays as it is
written. -/
def join (base uri : Text) : Except Error Text :=
  if base.isEmpty then .ok uri
  else if uri.isEmpty then .ok base
  else do
    let base ← parse base
    let reference ← parseWithin base.scheme uri
    if reference.scheme ≠ base.scheme || !hierarchicalSchemes.contains reference.scheme then
      return uri
    else if authoritySchemes.contains reference.scheme then
      if reference.authority.isEmpty then
        return (resolvedWithin base reference base.authority).text
      else
        return reference.text
    else
      return (resolvedWithin base reference reference.authority).text

/-- Resolve a reference against a base, which must be absolute. -/
def resolve (base uri : Text) : Except Error Text := do
  if ← isAbsolute base then
    join base uri
  else
    .error (.relativeBase base)

/-- The number of segments that a path shares with a directory; its own last segment is
never shared. -/
def sharedSegments : List Text → List Text → Nat
  | segment :: rest, other :: next :: more =>
    if segment = other then sharedSegments rest (next :: more) + 1 else 0
  | _, _ => 0

/-- A path relative to the directory of a base path. -/
def relativePath (base path : Text) : Text :=
  let segments := (Text.fields '/' base).dropLast
  let directory := if segments.isEmpty then [[]] else segments
  let target := Text.fields '/' (if path.isEmpty then ['/'] else path)
  let shared := sharedSegments directory target
  (List.replicate (directory.length - shared) ['.', '.', '/']).flatten ++
    Text.joined '/' (target.drop shared)

/-- Express a URI relative to the directory of a base. Only a URI with the scheme and the
authority of the base can be made relative; any other stays as it is written. -/
def relativeTo (base uri : Text) : Except Error Text := do
  let base ← parse base
  let target ← parse uri
  if base.scheme.isEmpty || Text.lowercase base.scheme ≠ Text.lowercase target.scheme ||
      Text.lowercase base.authority ≠ Text.lowercase target.authority then
    return uri
  else
    return relativePath base.path target.path ++ introduced ';' target.parameters ++
      introduced '?' target.query ++ introduced '#' target.fragment

end UriTemplates.Reference

namespace UriTemplates

/-- Expand a template and resolve the expansion against a base. -/
def Template.expandAgainst (template : Template) (base : Text) (pairs : List (Datum × Datum)) :
    Except Error Text := do
  let expansion ← template.expandData pairs
  Reference.resolve base expansion

end UriTemplates
