import KeyedState.Binary.Codec
import KeyedState.Hex
import KeyedState.Json.Basic

/-!
# Reading JSON

A strict reader of one JSON value from UTF-8 bytes. Blanks are the space, the tab,
the line feed and the carriage return. A number has no superfluous leading zero, a
string has no bare control character, and nothing but blanks follows the value.

String literals are read in two passes: `lexString` splits the literal into bytes
and 16-bit escapes, `decodePieces` joins surrogate pairs and checks that the result
is text.
-/

namespace KeyedState.Json

open Binary (Codec)

/-- Space, tab, line feed and carriage return. -/
def isBlank (b : UInt8) : Bool := b == 0x20 || b == 0x09 || b == 0x0A || b == 0x0D

/-- What follows the blanks in front. -/
def skipBlanks (b : Bytes) : Bytes := b.dropWhile isBlank

/-- A decimal digit. -/
def isDigit (b : UInt8) : Bool := 0x30 ≤ b && b ≤ 0x39

/-- The digits in front, and what follows them. -/
def takeDigits (b : Bytes) : List Char × Bytes :=
  ((b.takeWhile isDigit).map fun d => Char.ofNat d.toNat, b.dropWhile isDigit)

/-- What follows `word`, if it stands in front. -/
def afterWord : Bytes → Bytes → Option Bytes
  | [], b => some b
  | _ :: _, [] => none
  | w :: word, x :: b => if w = x then afterWord word b else none

/-- The value of a hexadecimal digit of either case. -/
def hexValue? (b : UInt8) : Option Nat := Hex.value? (Char.ofNat b.toNat)

/-- A part of a string literal: a byte that stands for itself or was escaped by a letter, or a
16-bit unit that was escaped by four hexadecimal digits. -/
inductive Piece where
  | byte (b : UInt8)
  | unit (u : Nat)
  deriving DecidableEq, Repr

/-- The byte that a letter after a reverse solidus stands for. -/
def simpleEscape? (b : UInt8) : Option UInt8 :=
  if b = 0x22 ∨ b = 0x5C ∨ b = 0x2F then some b
  else if b = 0x62 then some 0x08
  else if b = 0x66 then some 0x0C
  else if b = 0x6E then some 0x0A
  else if b = 0x72 then some 0x0D
  else if b = 0x74 then some 0x09
  else none

/-- The pieces of a string literal up to its closing quote, and what follows it. The pieces read
so far are kept last first. -/
def lexString (done : List Piece) : Bytes → Option (List Piece × Bytes)
  | [] => none
  | b :: rest =>
    if b = 0x22 then some (done.reverse, rest)
    else if b = 0x5C then
      match rest with
      | [] => none
      | e :: rest =>
        if e = 0x75 then
          match rest with
          | h₃ :: h₂ :: h₁ :: h₀ :: rest =>
            match hexValue? h₃, hexValue? h₂, hexValue? h₁, hexValue? h₀ with
            | some d₃, some d₂, some d₁, some d₀ =>
              lexString (.unit (4096 * d₃ + 256 * d₂ + 16 * d₁ + d₀) :: done) rest
            | _, _, _, _ => none
          | _ => none
        else
          match simpleEscape? e with
          | some c => lexString (.byte c :: done) rest
          | none => none
    else if b < 0x20 then none
    else lexString (.byte b :: done) rest

/-- The first unit of a surrogate pair. -/
def isLeadSurrogate (u : Nat) : Bool := 0xD800 ≤ u && u < 0xDC00

/-- The second unit of a surrogate pair. -/
def isTrailSurrogate (u : Nat) : Bool := 0xDC00 ≤ u && u < 0xE000

/-- The bytes of the pieces, surrogate pairs joined; the bytes so far are kept last first. -/
def decodePieces (done : Bytes) : List Piece → Option Bytes
  | [] => some done.reverse
  | .byte b :: rest => decodePieces (b :: done) rest
  | .unit u :: rest =>
    if isLeadSurrogate u then
      match rest with
      | .unit v :: rest =>
        if isTrailSurrogate v then
          let c := Char.ofNat (0x10000 + 1024 * (u - 0xD800) + (v - 0xDC00))
          decodePieces ((String.utf8EncodeChar c).reverse ++ done) rest
        else none
      | _ => none
    else if isTrailSurrogate u then none
    else decodePieces ((String.utf8EncodeChar (Char.ofNat u)).reverse ++ done) rest

/-- The text of a string literal after its opening quote; `none` inside if it is not text. -/
def readString (b : Bytes) : Option (Option String × Bytes) :=
  (lexString [] b).map fun (pieces, rest) =>
    ((decodePieces [] pieces).bind Codec.ofUtf8, rest)

/-- The fraction of a number: a point and at least one digit, or nothing. -/
def readFraction (b : Bytes) : Option (List Char × Bytes) :=
  match b with
  | 0x2E :: rest =>
    let (digits, rest) := takeDigits rest
    if digits.isEmpty then none else some (digits, rest)
  | _ => some ([], b)

/-- The exponent of a number: a letter, perhaps a sign, and at least one digit, or nothing. -/
def readExponent (b : Bytes) : Option (Option Int × Bytes) :=
  match b with
  | e :: rest =>
    if e = 0x65 ∨ e = 0x45 then
      let (negative, rest) : Bool × Bytes :=
        match rest with
        | 0x2D :: rest => (true, rest)
        | 0x2B :: rest => (false, rest)
        | _ => (false, rest)
      let (digits, rest) := takeDigits rest
      let value : Int := Number.digitsValue digits
      if digits.isEmpty then none else some (some (if negative then -value else value), rest)
    else some (none, b)
  | [] => some (none, [])

/-- A number literal and what follows it. -/
def readNumber (b : Bytes) : Option (Number × Bytes) := do
  let (negative, rest) : Bool × Bytes :=
    match b with
    | 0x2D :: rest => (true, rest)
    | _ => (false, b)
  let (integer, rest) := takeDigits rest
  if integer.isEmpty || (integer.head? == some '0' && 1 < integer.length) then none
  else
    let (fraction, rest) ← readFraction rest
    let (exponent, rest) ← readExponent rest
    return (⟨negative, integer, fraction, exponent⟩, rest)

mutual

/-- One value and what follows it; each call may make calls of one unit of fuel less. -/
def readValue : Nat → Bytes → Option (Json × Bytes)
  | 0, _ => none
  | fuel + 1, b =>
    match skipBlanks b with
    | [] => none
    | c :: rest =>
      if c = 0x6E then (afterWord (Codec.utf8 "ull") rest).map ((.null, ·))
      else if c = 0x74 then (afterWord (Codec.utf8 "rue") rest).map ((.bool true, ·))
      else if c = 0x66 then (afterWord (Codec.utf8 "alse") rest).map ((.bool false, ·))
      else if c = 0x22 then (readString rest).map fun (s, rest) => (.string s, rest)
      else if c = 0x5B then
        match skipBlanks rest with
        | 0x5D :: rest => some (.array [], rest)
        | rest => (readItems fuel [] rest).map fun (items, rest) => (.array items, rest)
      else if c = 0x7B then
        match skipBlanks rest with
        | 0x7D :: rest => some (.object [], rest)
        | rest => (readMembers fuel [] rest).map fun (members, rest) => (.object members, rest)
      else (readNumber (c :: rest)).map fun (n, rest) => (.number n, rest)

/-- The items of an array after the opening bracket, up to the closing one. -/
def readItems : Nat → List Json → Bytes → Option (List Json × Bytes)
  | 0, _, _ => none
  | fuel + 1, done, b =>
    match readValue fuel b with
    | none => none
    | some (item, rest) =>
      match skipBlanks rest with
      | 0x2C :: rest => readItems fuel (item :: done) rest
      | 0x5D :: rest => some ((item :: done).reverse, rest)
      | _ => none

/-- The members of an object after the opening brace, up to the closing one. -/
def readMembers : Nat → List (Option String × Json) → Bytes →
    Option (List (Option String × Json) × Bytes)
  | 0, _, _ => none
  | fuel + 1, done, b =>
    match skipBlanks b with
    | 0x22 :: rest =>
      match readString rest with
      | none => none
      | some (name, rest) =>
        match skipBlanks rest with
        | 0x3A :: rest =>
          match readValue fuel rest with
          | none => none
          | some (value, rest) =>
            match skipBlanks rest with
            | 0x2C :: rest => readMembers fuel ((name, value) :: done) rest
            | 0x7D :: rest => some (((name, value) :: done).reverse, rest)
            | _ => none
        | _ => none
    | _ => none

end

/-- The value that a byte string spells. A value of `n` bytes nests at most `n` calls of each
kind, so the fuel never runs out. -/
def parse (b : Bytes) : Option Json :=
  match readValue (2 * b.length + 2) b with
  | some (value, rest) => if (skipBlanks rest).isEmpty then some value else none
  | none => none

end KeyedState.Json
