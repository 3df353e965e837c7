import UriTemplates.Text.Character
import UriTemplates.Error

/-!
# Addresses in brackets

What may stand between the brackets of an authority: an IPv6 address, or an address of a
future format that says so with a leading `v`. IPv4 addresses are recognised to be refused
by a message of their own.
-/

namespace UriTemplates.Address

/-- Whether a text is a number of an IPv4 address: at most three digits, no leading zero,
and at most 255. -/
def isOctet (text : Text) : Bool :=
  !text.isEmpty && text.all Char.isDigit && text.length ≤ 3 &&
    (text = ['0'] || text.head? != some '0') &&
    Text.digitsNumber text ≤ 255

/-- Whether a text is an IPv4 address. -/
def isVersion4 (text : Text) : Bool :=
  let octets := Text.fields '.' text
  octets.length = 4 && octets.all isOctet

/-- Whether a text is a group of an IPv6 address. -/
def isGroup (text : Text) : Bool :=
  !text.isEmpty && text.all Text.isHexDigit && text.length ≤ 4

/-- The groups of an IPv6 address, with an IPv4 address at the end counted as two. -/
def groups? (text : Text) : Option (List Text) :=
  let groups := Text.fields ':' text
  match groups.getLast? with
  | none => none
  | some last =>
    if groups.length < 3 then none
    else if last.contains '.' then
      if isVersion4 last then some (groups.dropLast ++ [['0'], ['0']]) else none
    else some groups

/-- Whether the groups before or after a gap are groups; an empty end next to the gap
stands for no group. -/
def isSide (groups : List Text) : Bool :=
  groups = [[]] || groups.all isGroup

/-- The number of groups before or after a gap. -/
def sideSize (groups : List Text) : Nat :=
  if groups = [[]] then 0 else groups.length

/-- Whether groups with a gap at an inner position are an address: no second gap, and at
least one group left out. -/
def isGapped (groups : List Text) (gap : Nat) : Bool :=
  let before := groups.take gap
  let after := groups.drop (gap + 1)
  isSide before && isSide after && sideSize before + sideSize after < 8

/-- Whether groups are an IPv6 address: eight of them, or fewer with a gap. -/
def areVersion6 (groups : List Text) : Bool :=
  match (groups.drop 1).dropLast.findIdx? List.isEmpty with
  | none => groups.length = 8 && groups.all isGroup
  | some inner => groups.length ≤ 9 && isGapped groups (inner + 1)

/-- Whether a text is an IPv6 address, which may be followed by a zone. -/
def isVersion6 (text : Text) : Bool :=
  match Text.cut '%' text with
  | (address, zone) =>
    !text.contains '/' &&
      (match zone with
        | none => true
        | some zone => !zone.isEmpty && !zone.contains '%') &&
      (match groups? address with
        | none => false
        | some groups => areVersion6 groups)

/-- Whether a text that starts with a `v` is an address of a future format. -/
def isFuture (text : Text) : Bool :=
  match Text.cut '.' (text.drop 1) with
  | (version, some address) =>
    !version.isEmpty && version.all Text.isHexDigit && !address.isEmpty &&
      !address.contains '\n'
  | (_, none) => false

/-- Check what stands between brackets. -/
def check (host : Text) : Except Error Unit :=
  if host.head? = some 'v' then
    if isFuture host then .ok () else .error (.invalidAuthority .futureAddress)
  else if isVersion4 host then
    .error (.invalidAuthority .bracketedVersion4)
  else if isVersion6 host then
    .ok ()
  else
    .error (.invalidAuthority (.noAddress host))

end UriTemplates.Address
