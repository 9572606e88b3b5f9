import Mathlib.Data.List.Basic

/-!
# The JSON of a provider

`json.loads` of a text that nobody has checked: blanks, escapes with surrogates, numbers of any
length and nesting of any depth. What is kept of a value is what a reader without expectations
can tell apart.
-/

namespace Corvus.Mvp.ProviderJson

/-- A value of `json.loads`. A text with a lone surrogate is none of the known ones and cannot be
encoded, and of a number with a fraction only its being zero is kept. A name with a lone surrogate
is `none`. -/
inductive Value where
  | null
  | bool (value : Bool)
  | int (value : Int)
  | float (isZero : Bool)
  | str (text : String)
  | surrogate
  | arr (items : List Value)
  | obj (members : List (Option String × Value))

/-- `json.JSONDecodeError` or the `ValueError` of a number with too many digits, and
`RecursionError`. -/
inductive LoadsError where
  | decode | recursion

/-! ## Texts -/

def skipBlanks (t : List Char) : List Char :=
  t.dropWhile fun c => c = ' ' ∨ c = '\t' ∨ c = '\n' ∨ c = '\r'

def hexDigit (c : Char) : Option Nat :=
  if '0' ≤ c ∧ c ≤ '9' then some (c.toNat - 48)
  else if 'a' ≤ c ∧ c ≤ 'f' then some (c.toNat - 87)
  else if 'A' ≤ c ∧ c ≤ 'F' then some (c.toNat - 55)
  else none

def codeUnit (a b c d : Char) : Except LoadsError Nat :=
  match hexDigit a, hexDigit b, hexDigit c, hexDigit d with
  | some a, some b, some c, some d => .ok (((a * 16 + b) * 16 + c) * 16 + d)
  | _, _, _, _ => .error .decode

/-- What a character stands for after a backslash. -/
def escaped : Char → Option Char
  | '"' => some '"'
  | '\\' => some '\\'
  | '/' => some '/'
  | 'b' => some '\x08'
  | 'f' => some '\x0c'
  | 'n' => some '\n'
  | 'r' => some '\r'
  | 't' => some '\t'
  | _ => none

/-- A character before the rest of a text that may hold a lone surrogate. -/
def push (c : Option Char) (r : Option (List Char) × List Char) :
    Option (List Char) × List Char :=
  (c.bind fun c => r.1.map (c :: ·), r.2)

/-- The characters up to the closing quotation mark, with what comes after it. -/
def readText : Nat → List Char → Except LoadsError (Option (List Char) × List Char)
  | 0, _ => .error .decode
  | _ + 1, [] => .error .decode
  | n + 1, c :: t =>
      if c = '"' then .ok (some [], t)
      else if c.toNat < 32 then .error .decode
      else if c ≠ '\\' then push (some c) <$> readText n t
      else
        match t with
        | 'u' :: a :: b :: c :: d :: t => do
            let unit ← codeUnit a b c d
            if 0xD800 ≤ unit ∧ unit < 0xDC00 then
              match t with
              | '\\' :: 'u' :: a :: b :: c :: d :: after => do
                  let low ← codeUnit a b c d
                  if 0xDC00 ≤ low ∧ low < 0xE000 then
                    let point := 0x10000 + (unit - 0xD800) * 0x400 + (low - 0xDC00)
                    push (some (Char.ofNat point)) <$> readText n after
                  else push none <$> readText n t
              | _ => push none <$> readText n t
            else if 0xDC00 ≤ unit ∧ unit < 0xE000 then push none <$> readText n t
            else push (some (Char.ofNat unit)) <$> readText n t
        | c :: t =>
            match escaped c with
            | some c => push (some c) <$> readText n t
            | none => .error .decode
        | [] => .error .decode

/-- A text whose quotation mark has been read. -/
def readQuoted (t : List Char) : Except LoadsError (Option String × List Char) := do
  let (text, t) ← readText (t.length + 1) t
  return (text.map String.ofList, t)

/-! ## Numbers -/

def naturalOf (digits : List Char) : Nat :=
  digits.foldl (fun n c => n * 10 + (c.toNat - 48)) 0

/-- `sys.get_int_max_str_digits()`. -/
def MAX_STR_DIGITS : Nat := 4300

def readExponent (t : List Char) : Option Int × List Char :=
  match t with
  | c :: rest =>
      if c = 'e' ∨ c = 'E' then
        let (negative, digits) := match rest with
          | '-' :: rest => (true, rest)
          | '+' :: rest => (false, rest)
          | _ => (false, rest)
        match digits.span Char.isDigit with
        | ([], _) => (none, t)
        | (digits, after) =>
            (some (if negative then -(naturalOf digits : Int) else naturalOf digits), after)
      else (none, t)
  | [] => (none, t)

def readFraction (t : List Char) : Option (List Char) × List Char :=
  match t with
  | '.' :: rest =>
      match rest.span Char.isDigit with
      | ([], _) => (none, t)
      | (digits, after) => (some digits, after)
  | _ => (none, t)

/-- A decimal of this mantissa is the float zero: it is nearer to it than to the least other. -/
def underflows (mantissa : Nat) (exponent : Int) : Bool :=
  mantissa = 0 ∨ exponent < 0 ∧ mantissa * Nat.pow 2 1075 ≤ Nat.pow 10 exponent.natAbs

def readNumber (t : List Char) : Except LoadsError (Value × List Char) :=
  let (negative, t) := match t with
    | '-' :: rest => (true, rest)
    | _ => (false, t)
  let (whole, t) := match t with
    | '0' :: rest => (['0'], rest)
    | _ => t.span Char.isDigit
  if whole = [] then .error .decode
  else
    let (fraction, t) := readFraction t
    let (exponent, t) := readExponent t
    if fraction = none ∧ exponent = none then
      if MAX_STR_DIGITS < whole.length then .error .decode
      else .ok (.int (if negative then -(naturalOf whole : Int) else naturalOf whole), t)
    else
      let fraction := fraction.getD []
      .ok (.float (underflows (naturalOf (whole ++ fraction))
        (exponent.getD 0 - fraction.length)), t)

/-! ## Values -/

def words : List (String × Value) :=
  [("null", .null), ("true", .bool true), ("false", .bool false), ("NaN", .float false),
    ("Infinity", .float false), ("-Infinity", .float false)]

def readWord (t : List Char) : Option (Value × List Char) :=
  words.findSome? fun word =>
    if word.1.toList <+: t then some (word.2, t.drop word.1.length) else none

section

variable {α : Type} (read : List Char → Except LoadsError (α × List Char)) (bracket : Char)

/-- The items of an array or of an object after the first blank. -/
def readItems : Nat → List Char → Except LoadsError (List α × List Char)
  | 0, _ => .error .decode
  | n + 1, t => do
      let (item, t) ← read t
      match skipBlanks t with
      | [] => .error .decode
      | c :: t =>
          if c = bracket then .ok ([item], t)
          else if c = ',' then
            let (items, t) ← readItems n (skipBlanks t)
            .ok (item :: items, t)
          else .error .decode

/-- What follows an opening bracket. -/
def readSequence (t : List Char) : Except LoadsError (List α × List Char) :=
  match skipBlanks t with
  | [] => .error .decode
  | c :: rest =>
      if c = bracket then .ok ([], rest)
      else readItems read bracket (rest.length + 1) (c :: rest)

end

def readMember (read : List Char → Except LoadsError (Value × List Char)) :
    List Char → Except LoadsError ((Option String × Value) × List Char)
  | '"' :: t => do
      let (name, t) ← readQuoted t
      match skipBlanks t with
      | ':' :: t => do
          let (value, t) ← read (skipBlanks t)
          return ((name, value), t)
      | _ => .error .decode
  | _ => .error .decode

/-- A value whose arrays and objects are nested at most so deep. -/
def readValue : Nat → List Char → Except LoadsError (Value × List Char)
  | depth, t =>
      match t with
      | [] => .error .decode
      | c :: rest =>
          if c = '"' then do
            let (text, t) ← readQuoted rest
            return (text.elim .surrogate .str, t)
          else if c = '[' then
            match depth with
            | 0 => .error .recursion
            | depth + 1 => do
                let (items, t) ← readSequence (readValue depth) ']' rest
                return (.arr items, t)
          else if c = '{' then
            match depth with
            | 0 => .error .recursion
            | depth + 1 => do
                let (members, t) ← readSequence (readMember (readValue depth)) '}' rest
                return (.obj members, t)
          else
            match readWord t with
            | some r => .ok r
            | none => readNumber t

/-- `json.loads`, with the nesting that the interpreter allows. -/
def loads (recursionLimit : Nat) (text : String) : Except LoadsError Value := do
  let (value, rest) ← readValue recursionLimit (skipBlanks text.toList)
  if skipBlanks rest = [] then return value else .error .decode

/-! ## What is read of a value -/

namespace Value

def truthy : Value → Bool
  | null => false
  | bool value => value
  | int value => value ≠ 0
  | float isZero => !isZero
  | str text => text ≠ ""
  | surrogate => true
  | arr items => !items.isEmpty
  | obj members => !members.isEmpty

def members? : Value → Option (List (Option String × Value))
  | obj members => some members
  | _ => none

/-- The first item of a list, if it is a dictionary. -/
def first? : Value → Option (List (Option String × Value))
  | arr (obj members :: _) => some members
  | _ => none

/-- It equals the text. -/
def isText (v : Value) (text : String) : Bool :=
  match v with
  | str s => s = text
  | _ => false

/-- It is a `str`. -/
def isStr : Value → Bool
  | str _ | surrogate => true
  | _ => false

/-- A value that a set cannot look for. -/
def unhashable : Value → Bool
  | arr _ | obj _ => true
  | _ => false

/-- `isinstance(value, int) and not isinstance(value, bool) and value >= 0`. -/
def count? : Value → Option Int
  | int value => if 0 ≤ value then some value else none
  | _ => none

end Value

/-- `dict.get`, of a dictionary in which a later member replaces an earlier one. -/
def get (members : List (Option String × Value)) (key : String) : Value :=
  (members.reverse.lookup (some key)).getD .null

end Corvus.Mvp.ProviderJson
