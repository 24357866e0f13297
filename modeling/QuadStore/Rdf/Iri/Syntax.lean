import QuadStore.Text.Digits
import QuadStore.Text.Split
import QuadStore.Rdf.Name

/-!
# The grammar of absolute IRIs

RFC 3987, rule `IRI`: a scheme, a colon, then an authority and a path or a path alone, and
optionally a query and a fragment. Bracketed hosts are IPv6 addresses or addresses of a future
version (RFC 3986). The rules are recognisers on lists of characters.
-/

namespace QuadStore
namespace IriSyntax

/-- The ranges of `ucschar`. -/
def ucsRanges : List (Nat × Nat) :=
  [(0xA0, 0xD7FF), (0xF900, 0xFDCF), (0xFDF0, 0xFFEF), (0x10000, 0x1FFFD), (0x20000, 0x2FFFD),
   (0x30000, 0x3FFFD), (0x40000, 0x4FFFD), (0x50000, 0x5FFFD), (0x60000, 0x6FFFD),
   (0x70000, 0x7FFFD), (0x80000, 0x8FFFD), (0x90000, 0x9FFFD), (0xA0000, 0xAFFFD),
   (0xB0000, 0xBFFFD), (0xC0000, 0xCFFFD), (0xD0000, 0xDFFFD), (0xE1000, 0xEFFFD)]

/-- The ranges of `iprivate`. -/
def privateRanges : List (Nat × Nat) :=
  [(0xE000, 0xF8FF), (0xF0000, 0xFFFFD), (0x100000, 0x10FFFD)]

/-- An ASCII letter. -/
def isLetter (c : Char) : Bool := ('a' ≤ c && c ≤ 'z') || ('A' ≤ c && c ≤ 'Z')

/-- A hexadecimal digit. -/
def isHexDigit (c : Char) : Bool := (Text.hexValue? c).isSome

/-- `unreserved / sub-delims`. -/
def isPlain (c : Char) : Bool :=
  isLetter c || Name.isDigit c || "-._~!$&'()*+,;=".toList.contains c

/-- `iunreserved / sub-delims`. -/
def isHostChar (c : Char) : Bool := isPlain c || Name.inRanges ucsRanges c

/-- The characters of a user name. -/
def isUserChar (c : Char) : Bool := isHostChar c || c == ':'

/-- `ipchar`, and the slash between the segments. -/
def isPathChar (c : Char) : Bool := isHostChar c || c == ':' || c == '@' || c == '/'

/-- The characters of a fragment. -/
def isFragmentChar (c : Char) : Bool := isPathChar c || c == '?'

/-- The characters of a query. -/
def isQueryChar (c : Char) : Bool := isFragmentChar c || Name.inRanges privateRanges c

/-- Every character is allowed or part of an escape `%XX`. -/
def isEncoded (allowed : Char → Bool) : List Char → Bool
  | [] => true
  | '%' :: high :: low :: rest => isHexDigit high && isHexDigit low && isEncoded allowed rest
  | c :: rest => c != '%' && allowed c && isEncoded allowed rest

/-- A number from 0 to 255 without leading zeros. -/
def isOctet (cs : List Char) : Bool :=
  !cs.isEmpty && cs.length ≤ 3 && cs.all Name.isDigit &&
    (cs.length == 1 || cs.head? != some '0') &&
    cs.foldl (fun n c => 10 * n + (c.toNat - '0'.toNat)) 0 ≤ 255

/-- Four octets separated by dots. -/
def isIpv4 (cs : List Char) : Bool :=
  let octets := Text.splitAll '.' cs
  octets.length == 4 && octets.all isOctet

/-- One to four hexadecimal digits. -/
def isGroup (cs : List Char) : Bool := !cs.isEmpty && cs.length ≤ 4 && cs.all isHexDigit

/-- The number of 16 bit groups that some pieces of an address hold; an IPv4 address stands for two
and comes last. -/
def groupCount? (mayEndIpv4 : Bool) : List (List Char) → Option Nat
  | [] => some 0
  | [piece] =>
    if isGroup piece then some 1 else if mayEndIpv4 && isIpv4 piece then some 2 else none
  | piece :: rest => if isGroup piece then (groupCount? mayEndIpv4 rest).map (· + 1) else none

/-- The groups of one side of a double colon, which may be empty. -/
def sideGroupCount? (mayEndIpv4 : Bool) (cs : List Char) : Option Nat :=
  if cs.isEmpty then some 0 else groupCount? mayEndIpv4 (Text.splitAll ':' cs)

/-- Eight groups, or fewer around one double colon. -/
def isIpv6 (cs : List Char) : Bool :=
  match Text.cutFirst? [':', ':'] cs with
  | none => sideGroupCount? true cs == some 8
  | some (front, back) =>
    match sideGroupCount? false front, sideGroupCount? true back with
    | some m, some n => m + n ≤ 7
    | _, _ => false

/-- `IPvFuture`: a `v`, a hexadecimal version, a dot and at least one character. -/
def isFutureIp : List Char → Bool
  | v :: rest =>
    (v == 'v' || v == 'V') &&
      match Text.cutFirst? ['.'] rest with
      | none => false
      | some (version, address) =>
        !version.isEmpty && version.all isHexDigit &&
          !address.isEmpty && address.all fun c => isPlain c || c == ':'
  | [] => false

/-- The digits after the colon of a host, of which there may be none. -/
def isPortNumber (cs : List Char) : Bool := cs.all Name.isDigit

/-- A host, on which a colon and digits may follow. -/
def isNumberedHost : List Char → Bool
  | '[' :: rest =>
    match Text.cutFirst? [']'] rest with
    | none => false
    | some (address, after) =>
      (if address.head? == some 'v' || address.head? == some 'V' then isFutureIp address
        else isIpv6 address) &&
        match after with
        | [] => true
        | ':' :: digits => isPortNumber digits
        | _ :: _ => false
  | cs =>
    match Text.cutFirst? [':'] cs with
    | none => isEncoded isHostChar cs
    | some (host, digits) => isEncoded isHostChar host && isPortNumber digits

/-- An authority: optionally a user, then a host. -/
def isAuthority (cs : List Char) : Bool :=
  match Text.cutFirst? ['@'] cs with
  | none => isNumberedHost cs
  | some (user, host) => isEncoded isUserChar user && isNumberedHost host

/-- A scheme starts with a letter. -/
def isScheme : List Char → Bool
  | [] => false
  | first :: rest =>
    isLetter first &&
      rest.all fun c => isLetter c || Name.isDigit c || c == '+' || c == '-' || c == '.'

/-- What stands between the scheme and the query. -/
def isHierarchy : List Char → Bool
  | '/' :: '/' :: rest =>
    isAuthority (rest.takeWhile (· != '/')) && isEncoded isPathChar (rest.dropWhile (· != '/'))
  | path => isEncoded isPathChar path

/-- The part of an IRI before its fragment, after the scheme. -/
def isHierarchyAndQuery (cs : List Char) : Bool :=
  match Text.cutFirst? ['?'] cs with
  | none => isHierarchy cs
  | some (hierarchy, query) => isHierarchy hierarchy && isEncoded isQueryChar query

/-- The grammar of absolute IRIs. -/
def isAbsolute (cs : List Char) : Bool :=
  match Text.cutFirst? [':'] cs with
  | none => false
  | some (scheme, rest) =>
    isScheme scheme &&
      match Text.cutFirst? ['#'] rest with
      | none => isHierarchyAndQuery rest
      | some (front, fragment) => isHierarchyAndQuery front && isEncoded isFragmentChar fragment

end IriSyntax
end QuadStore
