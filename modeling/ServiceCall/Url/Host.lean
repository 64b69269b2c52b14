import ServiceCall.Text.Cut
import ServiceCall.Text.Digits
import ServiceCall.Url.Domain
import ServiceCall.Url.Percent

/-!
# Hosts

A host is a domain, or an address of four bytes or of eight pieces of sixteen bits. Addresses may be
written in several ways and are kept as numbers. Schemes that are not special have hosts of any
text.
-/

namespace ServiceCall

/-- Why a text is no URL. -/
inductive Url.Error where
  | relative
  | emptyHost
  | invalidDomain
  | invalidHostCharacter
  | invalidPort
  | invalidIpv4
  | invalidIpv6
deriving DecidableEq, Repr

/-- The text of an error. -/
def Url.Error.message : Url.Error → String
  | .relative => "relative URL without a base"
  | .emptyHost => "empty host"
  | .invalidDomain => "invalid international domain name"
  | .invalidHostCharacter => "invalid domain character"
  | .invalidPort => "invalid port number"
  | .invalidIpv4 => "invalid IPv4 address"
  | .invalidIpv6 => "invalid IPv6 address"

/-- Where a URL points. -/
inductive Host where
  | name (chars : List Char)
  | ipv4 (address : Nat)
  | ipv6 (pieces : List Nat)
deriving DecidableEq, Repr

namespace Host

/-- The decimal digits of a number. -/
def decimal (n : Nat) : List Char := Nat.toDigits 10 n

/-- Four bytes with points between them. -/
def ipv4Text (address : Nat) : List Char :=
  decimal (address / 2 ^ 24 % 256) ++ '.' :: decimal (address / 2 ^ 16 % 256)
    ++ '.' :: decimal (address / 2 ^ 8 % 256) ++ '.' :: decimal (address % 256)

/-- The longest run of zeros in a list of pieces, as start and length; of equal runs the first. -/
def longestRun : List Nat → Nat → Nat × Nat → Nat → Nat × Nat
  | [], place, best, open' => if best.2 < open' then (place - open', open') else best
  | p :: rest, place, best, open' =>
    if p = 0 then longestRun rest (place + 1) best (open' + 1)
    else longestRun rest (place + 1) (if best.2 < open' then (place - open', open') else best) 0

/-- Pieces in hexadecimal with colons between them. -/
def piecesText (pieces : List Nat) : List Char :=
  List.intercalate [':'] (pieces.map fun p => Nat.toDigits 16 p)

/-- Eight pieces; the longest run of two zeros or more is left out. -/
def ipv6Text (pieces : List Nat) : List Char :=
  let (start, length) := longestRun pieces 0 (0, 0) 0
  if length < 2 then piecesText pieces
  else piecesText (pieces.take start) ++ ':' :: ':' :: piecesText (pieces.drop (start + length))

/-- The text of a host. -/
def chars : Host → List Char
  | .name cs => cs
  | .ipv4 address => ipv4Text address
  | .ipv6 pieces => '[' :: ipv6Text pieces ++ [']']

/-- The value of digits in a base. -/
def valueIn (base : Nat) (cs : List Char) : Nat :=
  cs.foldl (fun n c => base * n + (Percent.hexValue? c).getD 0) 0

/-- A part of a four-byte address: decimal, hexadecimal behind `0x`, octal behind `0`. -/
def ipv4Number? (cs : List Char) : Option Nat :=
  let (base, digits) := match cs with
    | '0' :: 'x' :: rest => (16, rest)
    | '0' :: 'X' :: rest => (16, rest)
    | '0' :: d :: rest => (8, d :: rest)
    | _ => (10, cs)
  let sound := digits.all fun c =>
    match Percent.hexValue? c with
    | some d => d < base
    | none => false
  if cs.isEmpty || !sound then none else some (valueIn base digits)

/-- The parts of a domain, without an empty last one. -/
def ipv4Parts (domain : List Char) : List (List Char) :=
  let parts := domain.splitOn '.'
  if 1 < parts.length ∧ parts.getLast? = some [] then parts.dropLast else parts

/-- The domain ends in a number, so it must be an address. -/
def endsInNumber (domain : List Char) : Bool :=
  match (ipv4Parts domain).getLast? with
  | some last => !last.isEmpty && (last.all Char.isDigit || (ipv4Number? last).isSome)
  | none => false

/-- The address of up to four numbers, the last of which fills the bytes that are left. -/
def ipv4Address? (numbers : List Nat) : Option Nat :=
  match numbers.reverse with
  | [] => none
  | last :: leading =>
    let leading := leading.reverse
    if 4 < numbers.length ∨ 256 ^ (4 - leading.length) ≤ last ∨ leading.any (255 < ·) then none
    else some (leading.zipIdx.foldl (fun sum (n, i) => sum + n * 256 ^ (3 - i)) last)

/-- A piece of one to four hexadecimal digits. -/
def piece? (cs : List Char) : Option Nat :=
  if cs.isEmpty || 4 < cs.length || !cs.all (fun c => (Percent.hexValue? c).isSome) then none
  else some (valueIn 16 cs)

/-- A byte in decimal without leading zeros. -/
def decimalByte? (cs : List Char) : Option Nat :=
  if cs.isEmpty || !cs.all Char.isDigit || (1 < cs.length && cs.head? == some '0') then none
  else (some (valueIn 10 cs)).filter (· < 256)

/-- The last pieces of an address, which may be written as four bytes. -/
def lastPieces? (cs : List Char) : Option (List Nat) :=
  if cs.contains '.' then
    match (cs.splitOn '.').mapM decimalByte? with
    | some [a, b, c, d] => some [a * 256 + b, c * 256 + d]
    | _ => none
  else (piece? cs).map ([·])

/-- Pieces with colons between them, of which the last may be written as four bytes if `final`. -/
def pieces? (final : Bool) (cs : List Char) : Option (List Nat) :=
  if cs.isEmpty then some []
  else
    let groups := cs.splitOn ':'
    match groups.reverse with
    | [] => some []
    | last :: leading => do
      let front ← leading.reverse.mapM piece?
      let back ← if final then lastPieces? last else (piece? last).map ([·])
      return front ++ back

/-- The parts of a text around its first two colons in a row. -/
def aroundGap? : List Char → Option (List Char × List Char)
  | ':' :: ':' :: rest => some ([], rest)
  | c :: rest => (aroundGap? rest).map fun (before, behind) => (c :: before, behind)
  | [] => none

/-- Eight pieces, of which a gap may stand for one zero or more. -/
def ipv6Pieces? (cs : List Char) : Option (List Nat) :=
  match aroundGap? cs with
  | none => (pieces? true cs).filter (·.length = 8)
  | some (before, behind) => do
    let front ← pieces? false before
    let back ← pieces? true behind
    if 7 < front.length + back.length then none
    else some (front ++ List.replicate (8 - front.length - back.length) 0 ++ back)

/-- An address in brackets. -/
def bracketed (cs : List Char) : Except Url.Error Host :=
  if cs.getLast? = some ']' then
    match ipv6Pieces? cs.dropLast with
    | some pieces => .ok (.ipv6 pieces)
    | none => .error .invalidIpv6
  else .error .invalidIpv6

/-- A domain, or the address that it stands for. -/
def ofDomain (domain : List Char) : Except Url.Error Host :=
  if domain.isEmpty then .error .emptyHost
  else if endsInNumber domain then
    match ((ipv4Parts domain).mapM ipv4Number?).bind ipv4Address? with
    | some address => .ok (.ipv4 address)
    | none => .error .invalidIpv4
  else .ok (.name domain)

/-- The host of a special scheme. -/
def parse [Idna] (cs : List Char) : Except Url.Error Host :=
  match cs with
  | '[' :: rest => bracketed rest
  | _ =>
    match ((Utf8.decode? (Percent.decode cs)).bind fun s => Domain.parse? s.toList) with
    | some domain => ofDomain domain
    | none => .error .invalidDomain

/-- Characters that a host of any text may not hold. -/
def isForbidden (c : Char) : Bool :=
  c == '\x00' || c == '\t' || c == '\n' || c == '\r' || " #/:<>?@[\\]^|".toList.contains c

/-- The host of a scheme that is not special. -/
def parseAny (cs : List Char) : Except Url.Error Host :=
  match cs with
  | '[' :: rest => bracketed rest
  | _ =>
    if cs.any isForbidden then .error .invalidHostCharacter
    else .ok (.name (Percent.encode Percent.isControl cs))

end Host

end ServiceCall
