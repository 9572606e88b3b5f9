import Corvus.Library.Text

/-!
# What a snapshot leaves out

The rules of `snapshot.py` on relative paths: what is never taken, and what a policy includes
and ignores.
-/

namespace Corvus.Snapshot

/-! ## Paths -/

/-- `Path(relative).parts` of a relative path. -/
def pathParts (relative : String) : List String :=
  ((relative.toList.splitOn '/').map String.ofList).filter fun part => part ≠ "" ∧ part ≠ "."

/-- `Path(relative).is_absolute()`. -/
def isAbsolute (relative : String) : Bool := relative.toList.head? = some '/'

def asPosix (parts : List String) : String := "/".intercalate parts

/-- `str.casefold` of one character. Of the characters beyond ASCII those are listed whose fold has
ASCII letters in it; the others stand for themselves here. -/
def casefoldChar (c : Char) : List Char :=
  if c.toNat = 0xDF ∨ c.toNat = 0x1E9E then ['s', 's']
  else if c.toNat = 0x17F then ['s']
  else if c.toNat = 0x212A then ['k']
  else if c.toNat = 0x130 then ['i', Char.ofNat 0x307]
  else if c.toNat = 0x149 then [Char.ofNat 0x2BC, 'n']
  else if c.toNat = 0x1F0 then ['j', Char.ofNat 0x30C]
  else if c.toNat = 0x1E96 then ['h', Char.ofNat 0x331]
  else if c.toNat = 0x1E97 then ['t', Char.ofNat 0x308]
  else if c.toNat = 0x1E98 then ['w', Char.ofNat 0x30A]
  else if c.toNat = 0x1E99 then ['y', Char.ofNat 0x30A]
  else if c.toNat = 0x1E9A then ['a', Char.ofNat 0x2BE]
  else if c.toNat = 0xFB00 then ['f', 'f']
  else if c.toNat = 0xFB01 then ['f', 'i']
  else if c.toNat = 0xFB02 then ['f', 'l']
  else if c.toNat = 0xFB03 then ['f', 'f', 'i']
  else if c.toNat = 0xFB04 then ['f', 'f', 'l']
  else if c.toNat = 0xFB05 ∨ c.toNat = 0xFB06 then ['s', 't']
  else [Text.lowerAscii c]

def casefold (s : String) : String := String.ofList (s.toList.flatMap casefoldChar)

/-! ## Patterns -/

/-- A part of a pattern of `fnmatch`. -/
inductive Glob where
  | many
  | one (p : Char → Bool)

/-- What a class of characters has between its brackets: characters and ranges. -/
def classOf : List Char → Char → Bool
  | a :: '-' :: b :: s, c => (a ≤ c && c ≤ b) || classOf s c
  | a :: s, c => a = c || classOf s c
  | [], _ => false

/-- The text up to the bracket that closes a class, whose first character is never that
bracket, and what follows it. -/
def closeClass : List Char → Option (List Char × List Char)
  | '!' :: c :: s => ((s.span (· ≠ ']')).2.tail?).map fun rest =>
      ('!' :: c :: (s.span (· ≠ ']')).1, rest)
  | c :: s => ((s.span (· ≠ ']')).2.tail?).map fun rest => (c :: (s.span (· ≠ ']')).1, rest)
  | [] => none

/-- `fnmatch.translate`, with at most as many parts as there are characters. -/
def translate : Nat → List Char → List Glob
  | 0, _ | _, [] => []
  | n + 1, '*' :: s => .many :: translate n s
  | n + 1, '?' :: s => .one (fun _ => true) :: translate n s
  | n + 1, '[' :: s =>
      match closeClass s with
      | some ('!' :: inner, rest) => .one (fun c => ! classOf inner c) :: translate n rest
      | some (inner, rest) => .one (classOf inner) :: translate n rest
      | none => .one (· = '[') :: translate n s
  | n + 1, a :: s => .one (· = a) :: translate n s

def Glob.matches : List Glob → List Char → Bool
  | [], s => s.isEmpty
  | .many :: globs, s => s.tails.any (Glob.matches globs)
  | .one p :: globs, c :: s => p c && Glob.matches globs s
  | .one _ :: _, [] => false

/-- `fnmatch.fnmatchcase`. -/
def fnmatchcase (name pattern : String) : Bool :=
  Glob.matches (translate pattern.length pattern.toList) name.toList

/-! ## Rules -/

def PERMANENT_DIRECTORY_NAMES : List String :=
  [".git", ".corvus", ".venv", "venv", "node_modules", "__pycache__", ".cache", "cache",
    ".pytest_cache", ".mypy_cache", ".ruff_cache", ".tox", ".nox", "build", "dist", "work",
    "outputs"]

def PERMANENT_FILE_PATTERNS : List String :=
  [".env", ".env.*", ".netrc", ".npmrc", ".pypirc", "*credential*", "*credentials*", "*secret*",
    "*.key", "*.pem", "*.p12", "*.pfx", "*.jks", "*.keystore", "id_rsa*", "id_dsa*", "id_ecdsa*",
    "id_ed25519*"]

/-- `_is_permanently_excluded`. -/
def isPermanentlyExcluded (parts : List String) (isDirectory : Bool) : Bool :=
  parts.any (fun part => casefold part ∈ PERMANENT_DIRECTORY_NAMES) ||
    !isDirectory && PERMANENT_FILE_PATTERNS.any (fnmatchcase (casefold (parts.getLastD "")) ·)

/-- `is_snapshot_path_permanently_excluded`. -/
def isSnapshotPathPermanentlyExcluded (relative : String) : Bool :=
  isPermanentlyExcluded (pathParts relative) false

end Corvus.Snapshot
