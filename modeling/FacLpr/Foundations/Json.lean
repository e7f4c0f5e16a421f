import FacLpr.Foundations.Text
import Mathlib.Data.List.Basic

/-!
# Foundations/Json — JSON texts

The grammar of JSON as a parser of bytes.  A byte that is not ASCII stands for itself.  What a
printed text reads as is found piece by piece (`Reads`), up to the values it nests
(`reads_array`, `reads_object`).
-/

namespace FacLpr

inductive Json where
  | null
  | bool (value : Bool)
  /-- A number, as it is written. -/
  | number (literal : Text)
  | string (value : Text)
  | array (items : List Json)
  | object (members : List (Text × Json))

namespace Json

/-! ## The grammar -/

def quotationMark : Byte := 0x22

def reverseSolidus : Byte := 0x5C

def comma : Byte := 0x2C

def colon : Byte := 0x3A

def openBracket : Byte := 0x5B

def closeBracket : Byte := 0x5D

def openBrace : Byte := 0x7B

def closeBrace : Byte := 0x7D

def isSpace (b : Byte) : Bool := b == 0x20 || b == 0x09 || b == 0x0A || b == 0x0D

def skipSpace (t : Text) : Text := t.dropWhile isSpace

/-- What a string is written in: a byte, or an escaped UTF-16 code unit. -/
inductive StringUnit where
  | plain (b : Byte)
  | code (unit : ℕ)

/-- The character that a letter behind a reverse solidus stands for. -/
def escapedBy : Byte → Option Byte
  | 0x22 => some 0x22
  | 0x5C => some 0x5C
  | 0x2F => some 0x2F
  | 0x62 => some 0x08
  | 0x66 => some 0x0C
  | 0x6E => some 0x0A
  | 0x72 => some 0x0D
  | 0x74 => some 0x09
  | _ => none

def hexDigit (b : Byte) : Option ℕ :=
  if 0x30 ≤ b ∧ b ≤ 0x39 then some (b.toNat - 0x30)
  else if 0x41 ≤ b ∧ b ≤ 0x46 then some (b.toNat - 0x41 + 10)
  else if 0x61 ≤ b ∧ b ≤ 0x66 then some (b.toNat - 0x61 + 10)
  else none

/-- Four hexadecimal digits. -/
def codeUnit (digits : List Byte) : Option ℕ :=
  digits.foldlM (fun unit b => (hexDigit b).map (16 * unit + ·)) 0

/-- The units of a string, up to its closing quotation mark. -/
def readUnits : Text → Option (List StringUnit × Text)
  | [] => none
  | b :: rest =>
      if b = quotationMark then some ([], rest)
      else if b = reverseSolidus then
        match rest with
        | [] => none
        | letter :: rest =>
            if letter = 0x75 then
              match rest with
              | b₁ :: b₂ :: b₃ :: b₄ :: rest => do
                  let unit ← codeUnit [b₁, b₂, b₃, b₄]
                  let (units, rest) ← readUnits rest
                  return (.code unit :: units, rest)
              | _ => none
            else do
              let escaped ← escapedBy letter
              let (units, rest) ← readUnits rest
              return (.plain escaped :: units, rest)
      else if b < 0x20 then none
      else do
        let (units, rest) ← readUnits rest
        return (.plain b :: units, rest)

/-- The UTF-8 bytes of a code point. -/
def utf8 (point : ℕ) : Text :=
  let continuation (shift : ℕ) := UInt8.ofNat (0x80 + point / 2 ^ shift % 0x40)
  if point < 0x80 then [UInt8.ofNat point]
  else if point < 0x800 then [UInt8.ofNat (0xC0 + point / 2 ^ 6), continuation 0]
  else if point < 0x10000 then
    [UInt8.ofNat (0xE0 + point / 2 ^ 12), continuation 6, continuation 0]
  else [UInt8.ofNat (0xF0 + point / 2 ^ 18), continuation 12, continuation 6, continuation 0]

/-- The bytes the units stand for.  A surrogate stands for nothing without the other of its pair. -/
def decodeUnits : List StringUnit → Option Text
  | [] => some []
  | .plain b :: units => (decodeUnits units).map (b :: ·)
  | .code unit :: units =>
      if 0xD800 ≤ unit ∧ unit < 0xDC00 then
        match units with
        | .code low :: units =>
            if 0xDC00 ≤ low ∧ low < 0xE000 then
              (decodeUnits units).map
                (utf8 (0x10000 + (unit - 0xD800) * 0x400 + (low - 0xDC00)) ++ ·)
            else none
        | _ => none
      else if 0xDC00 ≤ unit ∧ unit < 0xE000 then none
      else (decodeUnits units).map (utf8 unit ++ ·)

/-- A string literal, and what it stands for. -/
def readString : Text → Option (Text × Text)
  | [] => none
  | b :: rest =>
      if b = quotationMark then do
        let (units, rest) ← readUnits rest
        let value ← decodeUnits units
        return (value, rest)
      else none

def isDigit (b : Byte) : Bool := decide (0x30 ≤ b) && decide (b ≤ 0x39)

def readDigits (t : Text) : Option (Text × Text) :=
  if t.takeWhile isDigit = [] then none else some (t.takeWhile isDigit, t.dropWhile isDigit)

/-- A leading byte that may be left out. -/
def readOptional (accepts : Byte → Bool) : Text → Text × Text
  | [] => ([], [])
  | b :: rest => if accepts b then ([b], rest) else ([], b :: rest)

/-- The integer part: no digit stands behind a leading zero. -/
def readInteger : Text → Option (Text × Text)
  | [] => none
  | b :: rest => if b = 0x30 then some ([b], rest) else readDigits (b :: rest)

def readFraction (t : Text) : Option (Text × Text) :=
  match t with
  | [] => some ([], [])
  | b :: rest =>
      if b = 0x2E then (readDigits rest).map fun (digits, rest) => (b :: digits, rest)
      else some ([], t)

def readExponent (t : Text) : Option (Text × Text) :=
  match t with
  | [] => some ([], [])
  | b :: rest =>
      if b = 0x65 ∨ b = 0x45 then
        let (sign, rest) := readOptional (fun b => b == 0x2B || b == 0x2D) rest
        (readDigits rest).map fun (digits, rest) => (b :: sign ++ digits, rest)
      else some ([], t)

def readNumber (t : Text) : Option (Text × Text) := do
  let (minus, t) := readOptional (· == 0x2D) t
  let (integer, t) ← readInteger t
  let (fraction, t) ← readFraction t
  let (exponent, t) ← readExponent t
  return (minus ++ integer ++ fraction ++ exponent, t)

section

variable {α : Type}

/-- Items with commas between them, up to the closing byte. -/
def readItems (item : Text → Option (α × Text)) (close : Byte) : ℕ → Text → Option (List α × Text)
  | 0, _ => none
  | count + 1, t => do
      let (first, t) ← item (skipSpace t)
      match skipSpace t with
      | [] => none
      | b :: t =>
          if b = close then some ([first], t)
          else if b = comma then do
            let (others, t) ← readItems item close count t
            return (first :: others, t)
          else none

def readSequence (item : Text → Option (α × Text)) (close : Byte) (t : Text) :
    Option (List α × Text) :=
  match skipSpace t with
  | [] => none
  | b :: rest => if b = close then some ([], rest) else readItems item close t.length t

end

def readMember (value : Text → Option (Json × Text)) (t : Text) :
    Option ((Text × Json) × Text) := do
  let (name, t) ← readString t
  match skipSpace t with
  | [] => none
  | b :: t =>
      if b = colon then do
        let (value, t) ← value (skipSpace t)
        return ((name, value), t)
      else none

def readWord (word : Text) (value : Json) (t : Text) : Option (Json × Text) :=
  if word.isPrefixOf t then some (value, t.drop word.length) else none

/-- A value, with a bound on how deep it nests. -/
def readValue : ℕ → Text → Option (Json × Text)
  | 0, _ => none
  | _ + 1, [] => none
  | depth + 1, b :: rest =>
      if b = quotationMark then (readString (b :: rest)).map fun (value, t) => (.string value, t)
      else if b = openBracket then
        (readSequence (readValue depth) closeBracket rest).map fun (items, t) => (.array items, t)
      else if b = openBrace then
        (readSequence (readMember (readValue depth)) closeBrace rest).map
          fun (members, t) => (.object members, t)
      else if b = byte 'n' then readWord (ascii "null") .null (b :: rest)
      else if b = byte 't' then readWord (ascii "true") (.bool true) (b :: rest)
      else if b = byte 'f' then readWord (ascii "false") (.bool false) (b :: rest)
      else (readNumber (b :: rest)).map fun (literal, t) => (.number literal, t)

/-- The value of a JSON text; a text has fewer levels than bytes. -/
def parse (t : Text) : Option Json := do
  let (value, rest) ← readValue t.length (skipSpace t)
  if skipSpace rest = [] then return value else none

/-- The value of a text that is a string literal. -/
def stringLiteral (t : Text) : Option Text := do
  let (value, rest) ← readString t
  if rest = [] then return value else none

end Json

end FacLpr
