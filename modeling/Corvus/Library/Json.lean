import Mathlib.Data.List.Sort
import Mathlib.Data.String.Basic

/-!
# JSON values and their compact text

`dumps` writes a value without blanks, with the members of every object in the
order of their names and without escaping non-ASCII characters. A finite float is
carried by the text of its shortest representation, which is what is written.
-/

namespace Corvus

inductive Json where
  | null
  | bool (value : Bool)
  | int (value : Int)
  | float (repr : String)
  | str (value : String)
  | arr (items : List Json)
  | obj (members : List (String × Json))
deriving Repr

namespace Json

/-! ## Equality -/

mutual

def decEq : (a b : Json) → Decidable (a = b)
  | null, null => isTrue rfl
  | bool a, bool b => decidable_of_iff (a = b) (by simp)
  | int a, int b => decidable_of_iff (a = b) (by simp)
  | float a, float b => decidable_of_iff (a = b) (by simp)
  | str a, str b => decidable_of_iff (a = b) (by simp)
  | arr a, arr b => @decidable_of_iff _ (a = b) (by simp) (decEqItems a b)
  | obj a, obj b => @decidable_of_iff _ (a = b) (by simp) (decEqMembers a b)
  | null, bool _ | null, int _ | null, float _ | null, str _ | null, arr _ | null, obj _
  | bool _, null | bool _, int _ | bool _, float _ | bool _, str _ | bool _, arr _
  | bool _, obj _ | int _, null | int _, bool _ | int _, float _ | int _, str _ | int _, arr _
  | int _, obj _ | float _, null | float _, bool _ | float _, int _ | float _, str _
  | float _, arr _ | float _, obj _ | str _, null | str _, bool _ | str _, int _
  | str _, float _ | str _, arr _ | str _, obj _ | arr _, null | arr _, bool _ | arr _, int _
  | arr _, float _ | arr _, str _ | arr _, obj _ | obj _, null | obj _, bool _ | obj _, int _
  | obj _, float _ | obj _, str _ | obj _, arr _ => isFalse (by simp)

def decEqItems : (a b : List Json) → Decidable (a = b)
  | [], [] => isTrue rfl
  | [], _ :: _ | _ :: _, [] => isFalse (by simp)
  | x :: xs, y :: ys =>
      @decidable_of_iff _ (x = y ∧ xs = ys) (by simp)
        (@instDecidableAnd _ _ (decEq x y) (decEqItems xs ys))

def decEqMembers : (a b : List (String × Json)) → Decidable (a = b)
  | [], [] => isTrue rfl
  | [], _ :: _ | _ :: _, [] => isFalse (by simp)
  | (k, x) :: xs, (l, y) :: ys =>
      @decidable_of_iff _ (k = l ∧ x = y ∧ xs = ys) (by simp [and_assoc])
        (@instDecidableAnd _ _ (inferInstanceAs (Decidable (k = l)))
          (@instDecidableAnd _ _ (decEq x y) (decEqMembers xs ys)))

end

instance : DecidableEq Json := decEq

/-! ## Compact text -/

def hexDigit (n : Nat) : Char := if n < 10 then Char.ofNat (48 + n) else Char.ofNat (87 + n)

/-- The escapes of a JSON string literal; every other character stands for itself. -/
def escapeChar (c : Char) : List Char :=
  if c = '"' then ['\\', '"']
  else if c = '\\' then ['\\', '\\']
  else if c = '\n' then ['\\', 'n']
  else if c = '\r' then ['\\', 'r']
  else if c = '\t' then ['\\', 't']
  else if c.toNat = 12 then ['\\', 'f']
  else if c.toNat = 8 then ['\\', 'b']
  else if c.toNat < 32 then
    ['\\', 'u', '0', '0', hexDigit (c.toNat / 16), hexDigit (c.toNat % 16)]
  else [c]

def quote (s : String) : List Char := '"' :: s.toList.flatMap escapeChar ++ ['"']

/-- The members of an object in the order of their names. -/
def sortMembers {α : Type} (members : List (String × α)) : List (String × α) :=
  members.insertionSort fun a b => a.1 ≤ b.1

mutual

def encode : Json → List Char
  | null => "null".toList
  | bool true => "true".toList
  | bool false => "false".toList
  | int n => (toString n).toList
  | float repr => repr.toList
  | str s => quote s
  | arr items => '[' :: [','].intercalate (encodeItems items) ++ [']']
  | obj members => '{' :: [','].intercalate ((sortMembers (encodeMembers members)).map
      fun m => quote m.1 ++ ':' :: m.2) ++ ['}']

def encodeItems : List Json → List (List Char)
  | [] => []
  | x :: xs => encode x :: encodeItems xs

def encodeMembers : List (String × Json) → List (String × List Char)
  | [] => []
  | (k, x) :: xs => (k, encode x) :: encodeMembers xs

end

theorem encode_arr (items : List Json) :
    encode (arr items) = '[' :: [','].intercalate (encodeItems items) ++ [']'] := rfl

theorem encode_obj (members : List (String × Json)) :
    encode (obj members) = '{' :: [','].intercalate ((sortMembers (encodeMembers members)).map
      fun m => quote m.1 ++ ':' :: m.2) ++ ['}'] := rfl

/-- `json.dumps` with sorted keys, compact separators and no ASCII escaping. -/
def dumps (v : Json) : String := String.ofList v.encode

def unicodeEscape (n : Nat) : List Char :=
  ['\\', 'u', hexDigit (n / 4096), hexDigit (n / 256 % 16), hexDigit (n / 16 % 16),
    hexDigit (n % 16)]

/-- The escapes of `ensure_ascii`, in pairs of surrogates beyond the basic plane. -/
def asciiChar (c : Char) : List Char :=
  if c.toNat < 127 then [c]
  else if c.toNat < 65536 then unicodeEscape c.toNat
  else unicodeEscape (55296 + (c.toNat - 65536) / 1024) ++
    unicodeEscape (56320 + (c.toNat - 65536) % 1024)

/-- `json.dumps` with sorted keys, compact separators and the escaping that is its default. -/
def dumpsAscii (v : Json) : String := String.ofList (v.encode.flatMap asciiChar)

end Json

end Corvus
