import MarkupEdit.Text.Ascii
import MarkupEdit.Text.Digits

/-!
# JSON values

Values of JSON as they are read from a text and written to one. A number keeps its exact decimal
value and whether it was written as an integer.

* `Json.read`: the value that a text holds.
* `Json.write`: a text for a value.
-/

namespace MarkupEdit.Wire

open MarkupEdit.Text

/-- The number `±digits · 10^exponent`. -/
structure Decimal where
  negative : Bool
  digits : Nat
  exponent : Int
  /-- Written without point and exponent. -/
  isInteger : Bool
  deriving DecidableEq, Repr

def Decimal.ofNat (n : Nat) : Decimal := ⟨false, n, 0, true⟩

inductive Json where
  | null
  | bool (value : Bool)
  | number (value : Decimal)
  | string (value : String)
  | array (items : List Json)
  | object (members : List (String × Json))
  deriving Repr, Inhabited

namespace Json

def ofNat (n : Nat) : Json := number (.ofNat n)

/-- The member of an object under a key; the last one if there are several. -/
def member? (j : Json) (key : String) : Option Json :=
  match j with
  | object members => (members.reverse.find? (·.1 == key)).map (·.2)
  | _ => none

def string? : Json → Option String
  | string s => some s
  | _ => none

def bool? : Json → Option Bool
  | bool b => some b
  | _ => none

/-- A number that is written as an integer and not negative. -/
def nat? : Json → Option Nat
  | number ⟨false, n, 0, true⟩ => some n
  | _ => none

def array? : Json → Option (List Json)
  | array items => some items
  | _ => none

/-! ## Writing -/

def hexDigit (n : Nat) : Char := if n < 10 then Char.ofNat (48 + n) else Char.ofNat (87 + n)

def hex4 (n : Nat) : List Char :=
  [hexDigit (n / 4096 % 16), hexDigit (n / 256 % 16), hexDigit (n / 16 % 16), hexDigit (n % 16)]

/-- A character as it stands in a quoted text. -/
def writeChar (c : Char) : List Char :=
  if c == '"' then ['\\', '"']
  else if c == '\\' then ['\\', '\\']
  else if c == '\n' then ['\\', 'n']
  else if c.toNat < 32 || c.toNat == 0x85 || c.toNat == 0x2028 || c.toNat == 0x2029 then
    '\\' :: 'u' :: hex4 c.toNat
  else [c]

def writeString (s : String) : String :=
  "\"" ++ String.ofList (s.toList.flatMap writeChar) ++ "\""

/-- A number; only one that is written as an integer has no exponent. -/
def writeDecimal (d : Decimal) : String :=
  (if d.negative then "-" else "") ++ toString d.digits ++
    (if d.isInteger then "" else "e" ++ toString d.exponent)

mutual

/-- A text for a value, without any blanks. -/
def write : Json → String
  | null => "null"
  | bool b => if b then "true" else "false"
  | number d => writeDecimal d
  | string s => writeString s
  | array items => "[" ++ writeItems items ++ "]"
  | object members => "\x7b" ++ writeMembers members ++ "\x7d"

def writeItems : List Json → String
  | [] => ""
  | [j] => write j
  | j :: k :: rest => write j ++ "," ++ writeItems (k :: rest)

def writeMembers : List (String × Json) → String
  | [] => ""
  | [(key, j)] => writeString key ++ ":" ++ write j
  | (key, j) :: m :: rest => writeString key ++ ":" ++ write j ++ "," ++ writeMembers (m :: rest)

end

/-! ## Reading -/

def isSpace (c : Char) : Bool := c == ' ' || c == '\n' || c == '\t' || c == '\r'

def skipSpace (s : List Char) : List Char := s.dropWhile isSpace

def hexUnit? : List Char → Option (Nat × List Char)
  | a :: b :: c :: d :: s =>
    match baseDigit? 16 a, baseDigit? 16 b, baseDigit? 16 c, baseDigit? 16 d with
    | some a, some b, some c, some d => some (((a * 16 + b) * 16 + c) * 16 + d, s)
    | _, _, _, _ => none
  | _ => none

/-- What an escape stands for, read behind its backslash. A code point beyond the basic plane takes
two units, and half of one is no character. -/
def escape? : List Char → Option (Char × List Char)
  | '"' :: s => some ('"', s)
  | '\\' :: s => some ('\\', s)
  | '/' :: s => some ('/', s)
  | 'b' :: s => some ('\x08', s)
  | 'f' :: s => some ('\x0c', s)
  | 'n' :: s => some ('\n', s)
  | 'r' :: s => some ('\r', s)
  | 't' :: s => some ('\t', s)
  | 'u' :: s =>
    match hexUnit? s with
    | none => none
    | some (high, s) =>
      if 0xd800 ≤ high && high < 0xdc00 then
        match s with
        | '\\' :: 'u' :: t =>
          match hexUnit? t with
          | some (low, t) =>
            if 0xdc00 ≤ low && low < 0xe000 then
              some (Char.ofNat (0x10000 + (high - 0xd800) * 1024 + (low - 0xdc00)), t)
            else none
          | none => none
        | _ => none
      else if 0xdc00 ≤ high && high < 0xe000 then none
      else some (Char.ofNat high, s)
  | _ => none

/-- The rest of a quoted text, read behind its first quote; what was read so far is in `seen`, last
character first. -/
def readString (fuel : Nat) (seen : List Char) (s : List Char) : Option (String × List Char) :=
  match fuel with
  | 0 => none
  | fuel + 1 =>
    match s with
    | [] => none
    | '"' :: s => some (String.ofList seen.reverse, s)
    | '\\' :: s =>
      match escape? s with
      | some (c, s) => readString fuel (c :: seen) s
      | none => none
    | c :: s => if c.toNat < 32 then none else readString fuel (c :: seen) s

def digitsValue (s : List Char) : Nat := s.foldl (fun n c => n * 10 + (c.toNat - 48)) 0

/-- A number: no leading zeros, digits on both sides of the point, digits behind the exponent mark.
-/
def readNumber (s : List Char) : Option (Decimal × List Char) :=
  let (negative, s) := match s with
    | '-' :: t => (true, t)
    | _ => (false, s)
  let whole := s.takeWhile isAsciiDigit
  let s := s.dropWhile isAsciiDigit
  if whole.isEmpty || (whole.length > 1 && whole.head? == some '0') then none
  else
    let (fraction, s) := match s with
      | '.' :: t => (some (t.takeWhile isAsciiDigit), t.dropWhile isAsciiDigit)
      | _ => (none, s)
    if fraction == some [] then none
    else
      let places := fraction.getD []
      let digits := digitsValue (whole ++ places)
      let scale := -(places.length : Int)
      match s with
      | c :: t =>
        if c == 'e' || c == 'E' then
          let (minus, t) := match t with
            | '-' :: u => (true, u)
            | '+' :: u => (false, u)
            | _ => (false, t)
          let power := t.takeWhile isAsciiDigit
          if power.isEmpty then none
          else
            let n : Int := digitsValue power
            some (⟨negative, digits, scale + (if minus then -n else n), false⟩,
              t.dropWhile isAsciiDigit)
        else some (⟨negative, digits, scale, fraction.isNone⟩, s)
      | [] => some (⟨negative, digits, scale, fraction.isNone⟩, s)

/-- What the reader is about to read. -/
inductive Expect where
  | value
  /-- The next item of an array; what was read is in `items`, last first. -/
  | items (items : List Json)
  | members (members : List (String × Json))

/-- Reads what is expected. Arrays and objects may be nested as deep as `depth`. -/
def readExpected (fuel depth : Nat) (expect : Expect) (s : List Char) :
    Option (Json × List Char) :=
  match fuel with
  | 0 => none
  | fuel + 1 =>
    match expect with
    | .value =>
      match skipSpace s with
      | 'n' :: 'u' :: 'l' :: 'l' :: s => some (null, s)
      | 't' :: 'r' :: 'u' :: 'e' :: s => some (bool true, s)
      | 'f' :: 'a' :: 'l' :: 's' :: 'e' :: s => some (bool false, s)
      | '"' :: s => (readString (s.length + 1) [] s).map (fun (t, s) => (string t, s))
      | '[' :: s =>
        match depth with
        | 0 => none
        | depth + 1 =>
          match skipSpace s with
          | ']' :: s => some (array [], s)
          | s => readExpected fuel depth (.items []) s
      | '\x7b' :: s =>
        match depth with
        | 0 => none
        | depth + 1 =>
          match skipSpace s with
          | '\x7d' :: s => some (object [], s)
          | s => readExpected fuel depth (.members []) s
      | s => (readNumber s).map (fun (d, s) => (number d, s))
    | .items items =>
      match readExpected fuel depth .value s with
      | none => none
      | some (j, s) =>
        match skipSpace s with
        | ',' :: s => readExpected fuel depth (.items (j :: items)) s
        | ']' :: s => some (array (j :: items).reverse, s)
        | _ => none
    | .members members =>
      match skipSpace s with
      | '"' :: s =>
        match readString (s.length + 1) [] s with
        | none => none
        | some (key, s) =>
          match skipSpace s with
          | ':' :: s =>
            match readExpected fuel depth .value s with
            | none => none
            | some (j, s) =>
              match skipSpace s with
              | ',' :: s => readExpected fuel depth (.members ((key, j) :: members)) s
              | '\x7d' :: s => some (object ((key, j) :: members).reverse, s)
              | _ => none
          | _ => none
      | _ => none

/-- The value that a text holds, with nothing but blanks around it. -/
def read (depth : Nat) (text : String) : Option Json :=
  let s := text.toList
  match readExpected (2 * s.length + 2) depth .value s with
  | some (j, rest) => if (skipSpace rest).isEmpty then some j else none
  | none => none

end Json

end MarkupEdit.Wire
