import Telemetry.Text.Utf8

/-!
Targets of requests: a path with an optional query, alone or behind a scheme and an authority, an
authority alone, or an asterisk. A fragment is cut off. A target is taken or refused as it stands;
nothing in it is decoded here.
-/

namespace Telemetry

namespace Http

structure Target where
  path : String
  query : String
deriving DecidableEq

namespace Target

def inRange (low high : Nat) (b : UInt8) : Bool := low ≤ b.toNat && b.toNat ≤ high

/-- Bytes of a path: those that need no escape, quotes and braces, and any above ASCII. -/
def isPathByte (b : UInt8) : Bool :=
  [(0x21, 0x22), (0x24, 0x3b), (0x3d, 0x3d), (0x40, 0x5f), (0x61, 0x7e), (0x80, 0xff)].any
    fun (low, high) => inRange low high b

def isQueryByte (b : UInt8) : Bool :=
  [(0x21, 0x21), (0x24, 0x3b), (0x3d, 0x3d), (0x3f, 0x7e), (0x80, 0xff)].any fun (low, high) =>
    inRange low high b

/-- Bytes of an authority, the percent sign apart. -/
def isAuthorityByte (b : UInt8) : Bool :=
  [(0x21, 0x21), (0x24, 0x24), (0x26, 0x2e), (0x30, 0x3b), (0x3d, 0x3d), (0x40, 0x5b), (0x5d, 0x5d),
    (0x5f, 0x5f), (0x61, 0x7a), (0x7e, 0x7e)].any fun (low, high) => inRange low high b

def isSchemeByte (b : UInt8) : Bool :=
  [(0x2b, 0x2b), (0x2d, 0x2e), (0x30, 0x39), (0x41, 0x5a), (0x61, 0x7a), (0x7e, 0x7e)].any
    fun (low, high) => inRange low high b

def byte (c : Char) : UInt8 := UInt8.ofNat c.toNat

def text (bytes : List UInt8) : String := Utf8.repair bytes

def ofPathAndQuery? (bytes : List UInt8) : Option Target :=
  let bytes := bytes.takeWhile (· ≠ byte '#')
  let path := bytes.takeWhile (· ≠ byte '?')
  let query := (bytes.dropWhile (· ≠ byte '?')).drop 1
  if path.all isPathByte && query.all isQueryByte then some ⟨text path, text query⟩ else none

def greatestColonCount : Nat := 8

structure Authority where
  colons : Nat
  opened : Bool
  closed : Bool
  percent : Bool
  atSign : Bool

def Authority.push? (a : Authority) (b : UInt8) : Option Authority :=
  let a := { a with atSign := false }
  if b = byte ':' then some { a with colons := a.colons + 1 }
  else if b = byte '[' then
    if a.percent || a.opened then none else some { a with opened := true }
  else if b = byte ']' then
    if !a.opened || a.closed then none
    else some { a with closed := true, colons := 0, percent := false }
  else if b = byte '@' then some { a with atSign := true, colons := 0, percent := false }
  else if b = byte '%' then some { a with percent := true }
  else if isAuthorityByte b then some a
  else none

def Authority.isComplete (a : Authority) : Bool :=
  a.opened == a.closed && a.colons ≤ 1 && !a.atSign && !a.percent

def endsAuthority (b : UInt8) : Bool := b == byte '/' || b == byte '?' || b == byte '#'

def skipAuthority? (a : Authority) : List UInt8 → Option (List UInt8)
  | [] => if a.isComplete then some [] else none
  | b :: rest =>
    if endsAuthority b then if a.isComplete then some (b :: rest) else none
    else if b = byte ':' && greatestColonCount ≤ a.colons then none
    else (a.push? b).bind fun a => skipAuthority? a rest

def authority? (bytes : List UInt8) : Option (List UInt8) :=
  skipAuthority? ⟨0, false, false, false, false⟩ bytes

def greatestSchemeLength : Nat := 64

def ofAbsolute? (bytes : List UInt8) : Option Target := do
  let rest ← authority? bytes
  if rest.length = bytes.length then none
  else
    let target ← ofPathAndQuery? rest
    some (if target.path.isEmpty then { target with path := "/" } else target)

def ofOther? (bytes : List UInt8) : Option Target :=
  let scheme := bytes.takeWhile isSchemeByte
  match bytes.dropWhile isSchemeByte with
  | a :: b :: c :: rest =>
    if [a, b, c] = [byte ':', byte '/', byte '/'] && 3 < bytes.length then
      if greatestSchemeLength < scheme.length then none else ofAbsolute? rest
    else alone bytes
  | _ => alone bytes
where
  alone (bytes : List UInt8) : Option Target :=
    match authority? bytes with
    | some [] => some ⟨"", ""⟩
    | _ => none

def greatestLength : Nat := 65534

def ofText? (target : String) : Option Target :=
  match Utf8.encode target with
  | [] => none
  | b :: rest =>
    if greatestLength < rest.length + 1 then none
    else if b = byte '/' then ofPathAndQuery? (b :: rest)
    else if b = byte '*' && rest.isEmpty then some ⟨"*", ""⟩
    else ofOther? (b :: rest)

end Target

end Http

end Telemetry
