import Fusen.Lib.Text

/-!
# URI references (`wire/problem.rs`)

The grammar a problem type outside the reserved prefix has to match.  `isIpv6Addr` is
the address parser of the standard library.
-/

namespace Fusen.Wire

open Lib

/-- Splits at the last separator. -/
def rsplitOnce (c : Char) (s : Text) : Option (Text × Text) :=
  (splitOnce c s.reverse).map fun x => (x.2.reverse, x.1.reverse)

def stripPrefix (start s : Text) : Option Text :=
  if start.isPrefixOf s then some (s.drop start.length) else none

/-! ## Characters -/

def isHexDigit (c : Char) : Bool :=
  c.isDigit || ('a' ≤ c && c ≤ 'f') || ('A' ≤ c && c ≤ 'F')

def isUnreserved (c : Char) : Bool := c.isAlphanum || "-._~".toList.contains c

def isSubDelim (c : Char) : Bool := "!$&'()*+,;=".toList.contains c

def isPchar (c : Char) : Bool := isUnreserved c || isSubDelim c || c == ':' || c == '@'

def isRegNameChar (c : Char) : Bool := isUnreserved c || isSubDelim c

def isUserinfoChar (c : Char) : Bool := isUnreserved c || isSubDelim c || c == ':'

def isQueryChar (c : Char) : Bool := isPchar c || c == '/' || c == '?'

def validUriComponent (allowed : Char → Bool) : Text → Bool
  | [] => true
  | '%' :: a :: b :: s => isHexDigit a && isHexDigit b && validUriComponent allowed s
  | '%' :: _ => false
  | c :: s => allowed c && validUriComponent allowed s

/-! ## Paths -/

def isValidAbemptyPath (value : Text) : Bool :=
  (value.isEmpty || value.head? == some '/') &&
    ((value.tail).splitOn '/').all (validUriComponent isPchar)

def isValidAbsolutePath (value : Text) : Bool :=
  match value with
  | '/' :: path =>
    path.isEmpty ||
      match path.splitOn '/' with
      | first :: segments =>
        !first.isEmpty && validUriComponent isPchar first &&
          segments.all (validUriComponent isPchar)
      | [] => false
  | _ => false

def isValidRootlessPath (value : Text) (firstSegmentAllowsColon : Bool) : Bool :=
  match value.splitOn '/' with
  | first :: segments =>
    !first.isEmpty &&
      validUriComponent (fun c => isPchar c && (firstSegmentAllowsColon || c != ':')) first &&
      segments.all (validUriComponent isPchar)
  | [] => false

/-! ## Authorities -/

def isValidIpvFuture (value : Text) : Bool :=
  match value with
  | 'v' :: rest | 'V' :: rest =>
    match splitOnce '.' rest with
    | some (version, address) =>
      !version.isEmpty && version.all isHexDigit && !address.isEmpty &&
        address.all fun c => isUnreserved c || isSubDelim c || c == ':'
    | none => false
  | _ => false

def isPort (port : Text) : Bool := port.all Char.isDigit

section

variable (isIpv6Addr : Text → Bool)

def isValidIpLiteral (value : Text) : Bool := isIpv6Addr value || isValidIpvFuture value

def isValidHostAndPort (hostAndPort : Text) : Bool :=
  match hostAndPort with
  | '[' :: ipLiteral =>
    match splitOnce ']' ipLiteral with
    | some (host, suffix) =>
      isValidIpLiteral isIpv6Addr host &&
        match suffix with
        | [] => true
        | ':' :: port => isPort port
        | _ => false
    | none => false
  | _ =>
    if hostAndPort.contains '[' || hostAndPort.contains ']' then false
    else
      match rsplitOnce ':' hostAndPort with
      | some (host, port) =>
        !host.contains ':' && validUriComponent isRegNameChar host && isPort port
      | none => validUriComponent isRegNameChar hostAndPort

def isValidAuthority (value : Text) : Bool :=
  match rsplitOnce '@' value with
  | some (userinfo, hostAndPort) =>
    !userinfo.contains '@' && validUriComponent isUserinfoChar userinfo &&
      isValidHostAndPort isIpv6Addr hostAndPort
  | none => isValidHostAndPort isIpv6Addr value

def isValidAuthorityAndPath (value : Text) : Bool :=
  isValidAuthority isIpv6Addr (value.takeWhile (· ≠ '/')) &&
    isValidAbemptyPath (value.dropWhile (· ≠ '/'))

/-! ## References -/

/-- `is_valid_hier_part` and `is_valid_relative_part`, which differ in the colon. -/
def isValidPart (value : Text) (firstSegmentAllowsColon : Bool) : Bool :=
  match value with
  | '/' :: '/' :: authorityAndPath => isValidAuthorityAndPath isIpv6Addr authorityAndPath
  | '/' :: _ => isValidAbsolutePath value
  | _ => value.isEmpty || isValidRootlessPath value firstSegmentAllowsColon

def isValidHierPart (value : Text) : Bool := isValidPart isIpv6Addr value true

def isValidRelativePart (value : Text) : Bool := isValidPart isIpv6Addr value false

def isValidScheme (value : Text) : Bool :=
  match value with
  | c :: s => c.isAlpha && s.all fun c => c.isAlphanum || "+-.".toList.contains c
  | [] => false

/-- A colon before the first slash ends a scheme, if what is before it is one. -/
def isValidMain (main : Text) : Bool :=
  match splitOnce ':' main with
  | some (scheme, hier) =>
    if !scheme.contains '/' && isValidScheme scheme then isValidHierPart isIpv6Addr hier
    else isValidRelativePart isIpv6Addr main
  | none => isValidRelativePart isIpv6Addr main

def isValidWithoutFragment (withoutFragment : Text) : Bool :=
  match splitOnce '?' withoutFragment with
  | some (main, query) => validUriComponent isQueryChar query && isValidMain isIpv6Addr main
  | none => isValidMain isIpv6Addr withoutFragment

def isValidUriReference (value : Text) : Bool :=
  match splitOnce '#' value with
  | some (head, fragment) =>
    !fragment.contains '#' && validUriComponent isQueryChar fragment &&
      isValidWithoutFragment isIpv6Addr head
  | none => isValidWithoutFragment isIpv6Addr value

end

example : ["about:blank", "//errors.example.test/out", "../problems/out?source=up#v-1", "#out",
    "foo://[v1.a]/problem"].all (fun s => isValidUriReference (fun _ => false) s.toList) = true := by
  decide +kernel

example : ["relative path", "/problems/%GG", "http://[::1", "a#one#two", ":relative", "?q=[]"].any
    (fun s => isValidUriReference (fun _ => false) s.toList) = false := by
  decide +kernel

end Fusen.Wire
