import ActiveGraphSurreal.Library.Json

/-!
# Compact JSON text and its reader

`render` writes compact text: no whitespace, control characters escaped, other
characters as they are. `parse` reads JSON text with whitespace, every escape, numbers
with fractions and exponents, and the constants `NaN`, `Infinity` and `-Infinity`. An
object with a repeated key keeps the last value, as a dictionary does. The scalars of a
text are its numbers with a fraction or an exponent and the three constants.
-/

namespace Library

namespace Json

/-! ### Literals -/

/-- A nonempty run of decimal digits. -/
def IsDigits (cs : List Char) : Prop := cs ≠ [] ∧ ∀ c ∈ cs, c.isDigit

/-- The integer part of a number: `0`, or digits that do not start with `0`. -/
def IsWhole (cs : List Char) : Prop := IsDigits cs ∧ (cs.head? = some '0' → cs = ['0'])

def IsFraction (cs : List Char) : Prop := ∃ ds, IsDigits ds ∧ cs = '.' :: ds

def IsExponent (cs : List Char) : Prop :=
  ∃ m sign ds, (m = 'e' ∨ m = 'E') ∧ (sign = [] ∨ sign = ['+'] ∨ sign = ['-']) ∧
    IsDigits ds ∧ cs = m :: (sign ++ ds)

abbrev nullText : List Char := ['n', 'u', 'l', 'l']

abbrev trueText : List Char := ['t', 'r', 'u', 'e']

abbrev falseText : List Char := ['f', 'a', 'l', 's', 'e']

abbrev nanText : List Char := ['N', 'a', 'N']

abbrev infinityText : List Char := ['I', 'n', 'f', 'i', 'n', 'i', 't', 'y']

/-- The texts that are read as further scalars rather than as integers. -/
def IsScalarText (cs : List Char) : Prop :=
  cs = nanText ∨ cs = infinityText ∨ cs = '-' :: infinityText ∨
    ∃ sign whole fraction exponent, (sign = [] ∨ sign = ['-']) ∧ IsWhole whole ∧
      (fraction = [] ∨ IsFraction fraction) ∧ (exponent = [] ∨ IsExponent exponent) ∧
      (fraction ≠ [] ∨ exponent ≠ []) ∧ cs = sign ++ (whole ++ (fraction ++ exponent))

/-- How the further scalars are written and read back. -/
class ScalarText (S : Type) where
  text : S → List Char
  ofText : List Char → S
  ofText_text : ∀ x, ofText (text x) = x
  isScalarText : ∀ x, IsScalarText (text x)

variable {S : Type} [ScalarText S]

/-! ### Writing -/

def intText : Int → List Char
  | .ofNat n => Nat.toDigits 10 n
  | .negSucc n => '-' :: Nat.toDigits 10 (n + 1)

def hexDigit (n : Nat) : Char := Nat.digitChar n

/-- The escapes of `json.dumps` with `ensure_ascii=False`. -/
def escapeChar (c : Char) : List Char :=
  if c = '"' then ['\\', '"']
  else if c = '\\' then ['\\', '\\']
  else if c = '\n' then ['\\', 'n']
  else if c = '\r' then ['\\', 'r']
  else if c = '\t' then ['\\', 't']
  else if c = '\x0c' then ['\\', 'f']
  else if c = '\x08' then ['\\', 'b']
  else if c.toNat < 32 then
    ['\\', 'u', '0', '0', hexDigit (c.toNat / 16), hexDigit (c.toNat % 16)]
  else [c]

def stringText (s : String) : List Char := '"' :: (s.toList.flatMap escapeChar ++ ['"'])

mutual
/-- Compact text: separators `,` and `:`. -/
def render : Json S → List Char
  | .null => nullText
  | .bool true => trueText
  | .bool false => falseText
  | .int n => intText n
  | .str s => stringText s
  | .scalar x => ScalarText.text x
  | .arr [] => ['[', ']']
  | .arr (x :: xs) => '[' :: (render x ++ renderItems xs)
  | .obj [] => ['{', '}']
  | .obj ((k, v) :: ms) => '{' :: (stringText k ++ ':' :: (render v ++ renderMembers ms))
def renderItems : List (Json S) → List Char
  | [] => [']']
  | x :: xs => ',' :: (render x ++ renderItems xs)
def renderMembers : List (String × Json S) → List Char
  | [] => ['}']
  | (k, v) :: ms => ',' :: (stringText k ++ ':' :: (render v ++ renderMembers ms))
end

/-! ### Reading -/

def skipSpace (cs : List Char) : List Char :=
  cs.dropWhile fun c => c = ' ' || c = '\t' || c = '\n' || c = '\r'

def hexValue (c : Char) : Option Nat :=
  if '0' ≤ c ∧ c ≤ '9' then some (c.toNat - '0'.toNat)
  else if 'a' ≤ c ∧ c ≤ 'f' then some (c.toNat - 'a'.toNat + 10)
  else if 'A' ≤ c ∧ c ≤ 'F' then some (c.toNat - 'A'.toNat + 10)
  else none

def hexUnit (a b c d : Char) : Option Nat := do
  return (((← hexValue a) * 16 + (← hexValue b)) * 16 + (← hexValue c)) * 16 + (← hexValue d)

def simpleEscape (c : Char) : Option Char :=
  if c = '"' then some '"'
  else if c = '\\' then some '\\'
  else if c = '/' then some '/'
  else if c = 'n' then some '\n'
  else if c = 'r' then some '\r'
  else if c = 't' then some '\t'
  else if c = 'f' then some '\x0c'
  else if c = 'b' then some '\x08'
  else none

/-- One scalar value from a `\u` escape. A lone surrogate is no scalar value. -/
def unitChar (n : Nat) : Option Char := if h : n.isValidChar then some (Char.ofNatAux n h) else none

/-- The code point of a surrogate pair. -/
def pairChar (high low : Nat) : Option Char :=
  if 0xd800 ≤ high ∧ high < 0xdc00 ∧ 0xdc00 ≤ low ∧ low < 0xe000 then
    unitChar (0x10000 + (high - 0xd800) * 0x400 + (low - 0xdc00))
  else none

/-- The characters of a string up to the closing quote, and the text after it. -/
def scanString : List Char → Option (List Char × List Char)
  | [] => none
  | c :: cs =>
    if c = '"' then some ([], cs)
    else if c = '\\' then
      match cs with
      | [] => none
      | e :: cs =>
        if e = 'u' then
          match cs with
          | a :: b :: c :: d :: cs => do
            let unit ← hexUnit a b c d
            match unitChar unit with
            | some ch => (scanString cs).map fun p => (ch :: p.1, p.2)
            | none =>
              match cs with
              | '\\' :: 'u' :: a :: b :: c :: d :: cs => do
                let ch ← pairChar unit (← hexUnit a b c d)
                (scanString cs).map fun p => (ch :: p.1, p.2)
              | _ => none
          | _ => none
        else do
          let ch ← simpleEscape e
          (scanString cs).map fun p => (ch :: p.1, p.2)
    else if c.toNat < 32 then none
    else (scanString cs).map fun p => (c :: p.1, p.2)

def scanDigits (cs : List Char) : List Char × List Char :=
  (cs.takeWhile Char.isDigit, cs.dropWhile Char.isDigit)

def scanWhole : List Char → Option (List Char × List Char)
  | [] => none
  | c :: cs =>
    if c = '0' then some (['0'], cs)
    else if c.isDigit then some (scanDigits (c :: cs))
    else none

def scanFraction : List Char → List Char × List Char
  | '.' :: cs => match scanDigits cs with
    | ([], _) => ([], '.' :: cs)
    | (ds, rest) => ('.' :: ds, rest)
  | cs => ([], cs)

def scanSign : List Char → List Char × List Char
  | '+' :: cs => (['+'], cs)
  | '-' :: cs => (['-'], cs)
  | cs => ([], cs)

def scanExponent : List Char → List Char × List Char
  | [] => ([], [])
  | m :: cs =>
    if m = 'e' ∨ m = 'E' then
      match scanDigits (scanSign cs).2 with
      | ([], _) => ([], m :: cs)
      | (ds, rest) => (m :: ((scanSign cs).1 ++ ds), rest)
    else ([], m :: cs)

def natOfDigits (ds : List Char) : Nat := Nat.ofDigitChars 10 ds 0

/-- A number without sign: `sign` is put before its text, `negative` negates an integer. -/
def scanNumber (sign : List Char) (negative : Bool) (cs : List Char) :
    Option (Json S × List Char) := do
  let (whole, cs) ← scanWhole cs
  let (fraction, cs) := scanFraction cs
  let (exponent, cs) := scanExponent cs
  if fraction = [] ∧ exponent = [] then
    return (.int (if negative then -(natOfDigits whole : Int) else natOfDigits whole), cs)
  return (.scalar (ScalarText.ofText (sign ++ (whole ++ (fraction ++ exponent)))), cs)

def scanSigned : List Char → Option (Json S × List Char)
  | [] => none
  | c :: cs => if c = '-' then scanNumber ['-'] true cs else scanNumber [] false (c :: cs)

/-- `expect word value cs` reads the constant `word`. -/
def expect (word : List Char) (value : Json S) (cs : List Char) : Option (Json S × List Char) :=
  if word <+: cs then some (value, cs.drop word.length) else none

/-- Everything that is neither a string nor an array nor an object. -/
def scanAtom (cs : List Char) : Option (Json S × List Char) :=
  expect nullText .null cs <|> expect trueText (.bool true) cs <|>
  expect falseText (.bool false) cs <|> scanSigned cs <|>
  expect nanText (.scalar (ScalarText.ofText nanText)) cs <|>
  expect infinityText (.scalar (ScalarText.ofText infinityText)) cs <|>
  expect ('-' :: infinityText) (.scalar (ScalarText.ofText ('-' :: infinityText))) cs

/-- `dct[key] = value`: a present key keeps its place. -/
def insertMember (members : List (String × Json S)) (m : String × Json S) :
    List (String × Json S) :=
  if members.any (fun n => n.1 = m.1) then
    members.map fun n => if n.1 = m.1 then m else n
  else members ++ [m]

/-- `dict(pairs)`. -/
def dictOf (pairs : List (String × Json S)) : List (String × Json S) :=
  pairs.foldl insertMember []

mutual
/-- One value at the head of the text. The fuel bounds the nesting and the lengths. -/
def parseValue : Nat → List Char → Option (Json S × List Char)
  | 0, _ => none
  | fuel + 1, cs =>
    match cs with
    | [] => none
    | c :: rest =>
      if c = '"' then (scanString rest).map fun p => (.str (String.ofList p.1), p.2)
      else if c = '{' then
        match skipSpace rest with
        | [] => none
        | d :: rest =>
          if d = '}' then some (.obj [], rest)
          else (parseMembers fuel (d :: rest)).map fun p => (.obj (dictOf p.1), p.2)
      else if c = '[' then
        match skipSpace rest with
        | [] => none
        | d :: rest =>
          if d = ']' then some (.arr [], rest)
          else (parseItems fuel (d :: rest)).map fun p => (.arr p.1, p.2)
      else scanAtom (c :: rest)
/-- The items of an array, from the first one to the closing bracket. -/
def parseItems : Nat → List Char → Option (List (Json S) × List Char)
  | 0, _ => none
  | fuel + 1, cs =>
    match parseValue fuel cs with
    | none => none
    | some (x, cs) =>
      match skipSpace cs with
      | [] => none
      | c :: cs =>
        if c = ']' then some ([x], cs)
        else if c = ',' then (parseItems fuel (skipSpace cs)).map fun p => (x :: p.1, p.2)
        else none
/-- The members of an object, from the first key to the closing brace. -/
def parseMembers : Nat → List Char → Option (List (String × Json S) × List Char)
  | 0, _ => none
  | _ + 1, [] => none
  | fuel + 1, q :: cs =>
    if q = '"' then
      match scanString cs with
      | none => none
      | some (k, cs) =>
        match skipSpace cs with
        | [] => none
        | c :: cs =>
          if c = ':' then
            match parseValue fuel (skipSpace cs) with
            | none => none
            | some (v, cs) =>
              match skipSpace cs with
              | [] => none
              | c :: cs =>
                if c = '}' then some ([(String.ofList k, v)], cs)
                else if c = ',' then
                  (parseMembers fuel (skipSpace cs)).map fun p =>
                    ((String.ofList k, v) :: p.1, p.2)
                else none
          else none
    else none
end

/-- A whole text: one value with whitespace around it. -/
def parse (cs : List Char) : Option (Json S) :=
  match parseValue (cs.length + 1) (skipSpace cs) with
  | some (j, rest) => if skipSpace rest = [] then some j else none
  | none => none

end Json

end Library
