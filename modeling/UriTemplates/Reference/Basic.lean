import UriTemplates.Reference.Address

/-!
# URI references

A URI reference as its six components: scheme, authority, path, the parameters of the last
path segment, query and fragment. A component that is missing is empty, so reading a
reference (`Reference.parse`) and writing it (`Reference.text`) loses an empty query or
fragment. Which schemes have an authority, are hierarchical, or have parameters is a list
for each.
-/

namespace UriTemplates

/-- A URI reference. -/
structure Reference where
  /-- The scheme, in lowercase. -/
  scheme : Text
  /-- The authority. -/
  authority : Text
  /-- The path. -/
  path : Text
  /-- The parameters of the last segment of the path. -/
  parameters : Text
  /-- The query. -/
  query : Text
  /-- The fragment. -/
  fragment : Text
  deriving DecidableEq

namespace Reference

/-- The schemes within which references can be relative. -/
def hierarchicalSchemes : List Text :=
  ["".toList, "ftp".toList, "http".toList, "gopher".toList, "nntp".toList, "imap".toList,
    "wais".toList, "file".toList, "https".toList, "shttp".toList, "mms".toList,
    "prospero".toList, "rtsp".toList, "rtspu".toList, "sftp".toList, "svn".toList,
    "svn+ssh".toList, "ws".toList, "wss".toList]

/-- The schemes with an authority. -/
def authoritySchemes : List Text :=
  ["".toList, "ftp".toList, "http".toList, "gopher".toList, "nntp".toList, "telnet".toList,
    "imap".toList, "wais".toList, "file".toList, "mms".toList, "https".toList,
    "shttp".toList, "snews".toList, "prospero".toList, "rtsp".toList, "rtspu".toList,
    "rsync".toList, "svn".toList, "svn+ssh".toList, "sftp".toList, "nfs".toList,
    "git".toList, "git+ssh".toList, "ws".toList, "wss".toList]

/-- The schemes whose last path segment can have parameters. -/
def parameterSchemes : List Text :=
  ["".toList, "ftp".toList, "hdl".toList, "prospero".toList, "http".toList, "imap".toList,
    "https".toList, "shttp".toList, "rtsp".toList, "rtspu".toList, "sip".toList,
    "sips".toList, "mms".toList, "sftp".toList, "tel".toList]

/-- A text without control characters and spaces at its start, and without tabs and line
ends anywhere. -/
def cleaned (text : Text) : Text :=
  (text.dropWhile (· ≤ ' ')).filter fun c => c != '\t' && c != '\r' && c != '\n'

/-- Whether a character can stand in a scheme. -/
def isSchemeChar (c : Char) : Bool :=
  c.isAlphanum || ['+', '-', '.'].contains c

/-- The scheme in lowercase, or the given one if the text has none, and what follows
it. -/
def splitScheme (default text : Text) : Text × Text :=
  match Text.cut ':' text with
  | (c :: scheme, some rest) =>
    if c.isAlpha && scheme.all isSchemeChar then
      ((c :: scheme).map Char.toLower, rest)
    else
      (default, text)
  | _ => (default, text)

/-- Whether a character ends an authority. -/
def endsAuthority (c : Char) : Bool :=
  ['/', '?', '#'].contains c

/-- Check the brackets of an authority: they enclose the whole host, and between them is
an address. -/
def checkBrackets (authority : Text) : Except Error Unit :=
  match authority.contains '[', authority.contains ']' with
  | false, false => .ok ()
  | true, true =>
    let hostAndPort := (Text.cutLast '@' authority).2
    match Text.cut '[' hostAndPort with
    | (_, none) => Address.check (Text.cut ':' hostAndPort).1
    | (before, some rest) =>
      let (host, after) := Text.cut ']' rest
      match before, after.getD [] with
      | [], [] => Address.check host
      | [], ':' :: _ => Address.check host
      | _, _ => .error (.invalidAuthority .brackets)
  | _, _ => .error (.invalidAuthority .brackets)

/-- The code points whose compatibility form (NFKC) holds one of `/`, `?`, `#`, `@` and
`:`, other than these characters themselves: a fraction such as U+2100, double marks, and
the variants of the delimiters in other widths and for vertical text. -/
def hiddenDelimiters : List Nat :=
  [0x2047, 0x2048, 0x2049, 0x2100, 0x2101, 0x2105, 0x2106, 0x2a74, 0xfe13, 0xfe16, 0xfe55,
    0xfe56, 0xfe5f, 0xfe6b, 0xff03, 0xff0f, 0xff1a, 0xff1f, 0xff20]

/-- Check an authority: its brackets, and that normalizing it brings no delimiter out. -/
def checkAuthority (authority : Text) : Except Error Unit := do
  checkBrackets authority
  if authority.any fun c => hiddenDelimiters.contains c.toNat then
    throw (.invalidAuthority (.hiddenDelimiter authority))

/-- The authority, which two slashes introduce, and what follows it. -/
def splitAuthority : Text → Except Error (Text × Text)
  | '/' :: '/' :: text => do
    let authority := text.takeWhile (!endsAuthority ·)
    checkAuthority authority
    return (authority, text.dropWhile (!endsAuthority ·))
  | text => .ok ([], text)

/-- A path without the parameters of its last segment, and those. -/
def splitParameters (path : Text) : Text × Text :=
  match Text.cutLast '/' path with
  | (none, segment) =>
    let (plain, parameters) := Text.cut ';' segment
    (plain, parameters.getD [])
  | (some directory, segment) =>
    let (plain, parameters) := Text.cut ';' segment
    (directory ++ '/' :: plain, parameters.getD [])

/-- Read a reference, whose scheme is the given one if it has none. -/
def parseWithin (default text : Text) : Except Error Reference := do
  let (scheme, rest) := splitScheme default (cleaned text)
  let (authority, rest) ← splitAuthority rest
  let (rest, fragment) := Text.cut '#' rest
  let (path, query) := Text.cut '?' rest
  let (path, parameters) :=
    if parameterSchemes.contains scheme then splitParameters path else (path, [])
  return { scheme, authority, path, parameters,
           query := query.getD [], fragment := fragment.getD [] }

/-- Read a reference. -/
def parse (text : Text) : Except Error Reference :=
  parseWithin [] text

/-- A component with the character that introduces it; an empty one is left out. -/
def introduced (mark : Char) (component : Text) : Text :=
  if component.isEmpty then [] else mark :: component

/-- Whether a path is written after an authority, if only an empty one. -/
def writesAuthority (scheme authority path : Text) : Bool :=
  !authority.isEmpty ||
    (!scheme.isEmpty && authoritySchemes.contains scheme && path.take 2 != ['/', '/'])

/-- A path after its authority, from which a slash separates it. -/
def withAuthority (authority path : Text) : Text :=
  '/' :: '/' :: authority ++
    (match path with
      | [] => []
      | '/' :: _ => path
      | _ => '/' :: path)

/-- A reference as it is written. -/
def text (reference : Reference) : Text :=
  let path := reference.path ++ introduced ';' reference.parameters
  let path :=
    if writesAuthority reference.scheme reference.authority path then
      withAuthority reference.authority path
    else
      path
  (if reference.scheme.isEmpty then [] else reference.scheme ++ [':']) ++ path ++
    introduced '?' reference.query ++ introduced '#' reference.fragment

end Reference

end UriTemplates
