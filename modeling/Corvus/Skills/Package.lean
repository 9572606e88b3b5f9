import Mathlib
import Corvus.Library.Except
import Corvus.Library.Separated
import Corvus.Library.Text
import Corvus.Library.Uuid

/-!
# Skill packages

How `mvp/skill_imports.py` reads the files of a package and computes their digest. A package
is what a folder holds at the moment at which it is read.
-/

namespace Corvus.Skills

open Corvus.Text

def MAX_FILE_BYTES : Nat := 2 * 1024 * 1024

def MAX_PACKAGE_BYTES : Nat := 20 * 1024 * 1024

def MAX_FILES : Nat := 500

def ALLOWED_SUFFIXES : List String :=
  [".md", ".txt", ".json", ".yaml", ".yml", ".toml", ".py", ".js", ".ts", ".swift", ".sh", ".ps1",
    ".svg"]

def EXECUTABLE_SUFFIXES : List String := [".py", ".js", ".ts", ".swift", ".sh", ".ps1"]

def IGNORED_ASSET_SUFFIXES : List String := [".gif", ".ico", ".jpeg", ".jpg", ".png", ".webp"]

/-- The file names of a POSIX file system. -/
def FileName (name : String) : Prop :=
  name ∉ ["", ".", ".."] ∧ '/' ∉ name.toList ∧ Char.ofNat 0 ∉ name.toList

instance (name : String) : Decidable (FileName name) := inferInstanceAs (Decidable (_ ∧ _))

inductive Node where
  | directory
  | file (raw : ByteArray)
  /-- A link, or what is neither a file nor a directory. -/
  | irregular
deriving DecidableEq

/-- What lies below a folder, by the parts of the relative paths and in their order. -/
structure Package where
  entries : List (List String × Node)
  sorted : entries.Pairwise fun a b => a.1 < b.1
  named : ∀ e ∈ entries, ∀ part ∈ e.1, FileName part
  nested : ∀ e ∈ entries, e.1 ≠ [] ∧
    ∀ part ∈ e.1.inits.tail.dropLast, (part, Node.directory) ∈ entries

/-- The files that were read, by their relative paths. -/
abbrev Files := List (String × String)

/-- `Path.as_posix`. -/
def asPosix (parts : List String) : String :=
  String.ofList (['/'].intercalate (parts.map String.toList))

/-- `PurePath.suffix`. -/
def suffix (parts : List String) : String :=
  let name := (parts.getLastD "").toList
  let ext := (name.reverse.takeWhile (· ≠ '.')).reverse
  if '.' ∈ name ∧ ext ≠ [] ∧ ext.length + 1 < name.length then String.ofList ('.' :: ext) else ""

/-- The line ends of every system as line feeds. -/
def newlines : List Char → List Char
  | '\r' :: '\n' :: s => '\n' :: newlines s
  | '\r' :: s => '\n' :: newlines s
  | c :: s => c :: newlines s
  | [] => []

/-- `_read_file`. -/
def readFile (raw : ByteArray) : Except String String := do
  refuse (MAX_FILE_BYTES < raw.size) "skill_package_file_too_large"
  let text ← present (String.fromUTF8? raw) "skill_package_text_invalid"
  return String.ofList (newlines text.toList)

/-- One file of the loop of `_read_package_snapshot`, which has seen `count` files with
`total` bytes: its text, or `none` for an asset that is left out. -/
def admitFile (total count : Nat) (parts : List String) (raw : ByteArray) :
    Except String (Option String) := do
  refuse (".." ∈ parts) "skill_package_path_escape"
  refuse (MAX_FILE_BYTES < raw.size) "skill_package_file_too_large"
  refuse (MAX_PACKAGE_BYTES < total + raw.size ∨ MAX_FILES < count + 1) "skill_package_too_large"
  let suffix := String.ofList (lower (suffix parts).toList)
  if suffix ∈ IGNORED_ASSET_SUFFIXES then return none
  refuse (suffix ∉ ALLOWED_SUFFIXES) "skill_package_file_type_unsupported"
  some <$> readFile raw

/-- The loop of `_read_package_snapshot`, with the texts and the assets that it collects. -/
def scan : Nat → Nat → List (List String × Node) → Except String (Files × List String)
  | _, _, [] => return ([], [])
  | total, count, (_, .directory) :: entries => scan total count entries
  | _, _, (_, .irregular) :: _ => throw "skill_package_link_forbidden"
  | total, count, (parts, .file raw) :: entries => do
      let text ← admitFile total count parts raw
      let (values, ignored) ← scan (total + raw.size) (count + 1) entries
      match text with
      | some text => return ((asPosix parts, text) :: values, ignored)
      | none => return (values, asPosix parts :: ignored)

/-- `_read_package_snapshot`. -/
def readPackageSnapshot (root : Package) : Except String (Files × List String) :=
  scan 0 0 root.entries

/-- `_read_package`. -/
def readPackage (root : Package) : Except String Files := Prod.fst <$> readPackageSnapshot root

/-- What the digest of a package hashes. -/
def digestText : Files → List Char
  | [] => []
  | (relative, content) :: files =>
      relative.toList ++ Char.ofNat 0 :: (content.toList ++ Char.ofNat 0 :: digestText files)

/-- `_files_digest`. The bytes are those of the text. -/
def filesDigest (D : Digests) (files : Files) : String := D.sha256 (String.ofList (digestText files))

/-- The lists that can be read from a package. -/
def Readable (files : Files) : Prop := ∃ root, readPackage root = .ok files

/-! ## Groupings -/

def records (files : Files) : List (List Char × List Char) :=
  files.map fun f => (f.1.toList, f.2.toList)

def ofRecords (records : List (List Char × List Char)) : Files :=
  records.map fun f => (String.ofList f.1, String.ofList f.2)

/-- The paths and the pieces into which the NUL characters cut the contents. -/
def segments (files : Files) : List (List Char) := Separated.segments (Char.ofNat 0) (records files)

/-- The lists of files with the paths and the pieces of a list, in one order but grouped in
any way. -/
def regroupings (files : Files) : List Files :=
  (Separated.groupings (Char.ofNat 0) (segments files)).map ofRecords

variable {D : Digests} {files files' : Files} {root : Package} {total count : Nat}
  {entries : List (List String × Node)} {assets : List String} {parts : List String}
  {raw : ByteArray}

theorem digestText_eq : digestText files = Separated.joined (Char.ofNat 0) (records files) := by
  induction files with
  | nil => rfl
  | cons f files ih =>
    obtain ⟨relative, content⟩ := f
    show _ = Separated.joined (Char.ofNat 0) ((relative.toList, content.toList) :: records files)
    rw [digestText, ih, Separated.joined_cons]

@[simp] theorem ofRecords_records : ofRecords (records files) = files := by
  simp [ofRecords, records, Function.comp_def]

@[simp] theorem records_ofRecords {l : List (List Char × List Char)} :
    records (ofRecords l) = l := by
  simp [ofRecords, records, Function.comp_def]

/-- A relative path has no NUL in it. -/
theorem asPosix_clean (named : ∀ part ∈ parts, FileName part) :
    Char.ofNat 0 ∉ (asPosix parts).toList := by
  rw [asPosix, String.toList_ofList]
  induction parts with
  | nil => exact List.not_mem_nil
  | cons part parts ih =>
    obtain ⟨first, later⟩ := List.forall_mem_cons.mp named
    cases parts with
    | nil =>
      rw [List.map_singleton, List.intercalate_singleton]
      exact first.2.2
    | cons part' parts =>
      rw [List.map_cons, List.map_cons, List.intercalate_cons_cons, ← List.map_cons]
      intro mem
      obtain mem | mem := List.mem_append.mp mem
      · obtain mem | mem := List.mem_append.mp mem
        · exact first.2.2 mem
        · exact absurd (List.mem_singleton.mp mem) (by decide)
      · exact ih later mem

theorem scan_clean (named : ∀ e ∈ entries, ∀ part ∈ e.1, FileName part)
    (scanned : scan total count entries = .ok (files, assets)) :
    ∀ f ∈ files, Char.ofNat 0 ∉ f.1.toList := by
  induction entries generalizing total count files assets with
  | nil =>
    obtain ⟨rfl, rfl⟩ := Prod.mk.inj (Except.ok.inj scanned)
    exact fun _ mem => nomatch mem
  | cons e entries ih =>
    obtain ⟨first, later⟩ := List.forall_mem_cons.mp named
    obtain ⟨parts, node⟩ := e
    cases node with
    | directory => exact ih later scanned
    | irregular => nomatch scanned
    | file raw =>
      obtain ⟨text, admitted, rest⟩ := bind_eq_ok.mp scanned
      obtain ⟨⟨values, ignored⟩, tail, done⟩ := bind_eq_ok.mp rest
      cases text with
      | none =>
        obtain ⟨rfl, rfl⟩ := Prod.mk.inj (Except.ok.inj done)
        exact ih later tail
      | some text =>
        obtain ⟨rfl, rfl⟩ := Prod.mk.inj (Except.ok.inj done)
        exact List.forall_mem_cons.mpr ⟨asPosix_clean first, ih later tail⟩

theorem Readable.clean (readable : Readable files) :
    ∀ f ∈ records files, Char.ofNat 0 ∉ f.1 := by
  obtain ⟨root, read⟩ := readable
  obtain ⟨⟨values, assets⟩, scanned, rfl⟩ := map_ok read
  intro f mem
  obtain ⟨g, read, rfl⟩ := List.mem_map.mp mem
  exact scan_clean root.named scanned g read

/-- The lists with the pieces of a list are its regroupings. -/
theorem mem_regroupings (clean : ∀ f ∈ records files, Char.ofNat 0 ∉ f.1) :
    files' ∈ regroupings files ↔ segments files' = segments files := by
  have groups := @Separated.mem_groupings Char _ (Char.ofNat 0) (records files') (segments files)
    (Separated.segments_clean clean)
  rw [regroupings, List.mem_map]
  constructor
  · rintro ⟨l, mem, rfl⟩
    rw [segments, records_ofRecords]
    exact (Separated.mem_groupings (Separated.segments_clean clean)).mp mem
  · intro same
    exact ⟨records files', groups.mpr same, ofRecords_records⟩

/-- Two lists without NUL in their paths have one digest exactly when one is a regrouping of
the other. -/
theorem filesDigest_eq_iff_of_clean (injective : Function.Injective D.sha256)
    (clean : ∀ f ∈ records files, Char.ofNat 0 ∉ f.1)
    (clean' : ∀ f ∈ records files', Char.ofNat 0 ∉ f.1) :
    filesDigest D files' = filesDigest D files ↔ files' ∈ regroupings files := by
  rw [mem_regroupings clean, filesDigest, filesDigest, injective.eq_iff, String.ofList_inj,
    digestText_eq, digestText_eq, Separated.joined_eq_joined_iff clean' clean]
  rfl

end Corvus.Skills
