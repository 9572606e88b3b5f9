import Corvus.Skills.Binding
import Mathlib.Data.List.Lex
import Mathlib.Data.List.Sort

/-!
# Imports that round-trip

`_copy_reviewed` writes the texts that a review has read, and `instructions` reads them again
with the limits of a package. What was read from a package passes them a second time; a
command made into a skill is longer than the file that was read.
-/

namespace Corvus.Skills

open Run (Along)
open Text (lower strip)

variable {D : Digests} {yaml : String → Option Metadata} {libraryRoot : String} {s s' : Library}
  {found : List SkillCandidate} {candidate : SkillCandidate} {preview : SkillImportPreview}
  {files files' : Files} {tenantId candidateId identifier text : String}
  {version row : PortableSkillVersion} {now : Instant} {package : String → Option Package}
  {call : Call} {root : Package} {raw : ByteArray} {parts : List String} {cs : List Char}
  {listing : List (List String × String)} {entries : List (List String × Node)}
  {total count : Nat} {assets : List String}

/-! ## Texts that are read back as they are -/

theorem not_mem_newlines : '\r' ∉ newlines cs := by
  fun_induction newlines cs with
  | case1 s ih => exact fun mem => ih ((List.mem_cons.mp mem).resolve_left (by decide))
  | case2 s _ ih => exact fun mem => ih ((List.mem_cons.mp mem).resolve_left (by decide))
  | case3 c s _ other ih =>
    intro mem
    obtain same | later := List.mem_cons.mp mem
    · exact other same.symm
    · exact ih later
  | case4 => exact List.not_mem_nil

theorem newlines_of_not_mem (plain : '\r' ∉ cs) : newlines cs = cs := by
  fun_induction newlines cs with
  | case1 s ih => exact absurd List.mem_cons_self plain
  | case2 s _ ih => exact absurd List.mem_cons_self plain
  | case3 c s _ other ih => rw [ih fun later => plain (List.mem_cons_of_mem c later)]
  | case4 => rfl

theorem utf8ByteSize_cons (c : Char) (cs : List Char) :
    (String.ofList (c :: cs)).utf8ByteSize = c.utf8Size + (String.ofList cs).utf8ByteSize := by
  rw [← List.singleton_append, String.ofList_append, String.utf8ByteSize_append,
    ← String.singleton_eq_ofList, String.utf8ByteSize_singleton]

theorem newlines_size_le :
    (String.ofList (newlines cs)).utf8ByteSize ≤ (String.ofList cs).utf8ByteSize := by
  have shrinks : Char.utf8Size '\n' ≤ Char.utf8Size '\r' := by decide
  fun_induction newlines cs with
  | case1 s ih =>
    rw [utf8ByteSize_cons, utf8ByteSize_cons, utf8ByteSize_cons]
    omega
  | case2 s _ ih =>
    rw [utf8ByteSize_cons, utf8ByteSize_cons]
    omega
  | case3 c s _ other ih =>
    rw [utf8ByteSize_cons, utf8ByteSize_cons]
    omega
  | case4 => exact Nat.le_refl _

/-- A text that was read has line feeds alone and is no longer than its file. -/
theorem readFile_ok (read : readFile raw = .ok text) :
    '\r' ∉ text.toList ∧ text.utf8ByteSize ≤ raw.size ∧ raw.size ≤ MAX_FILE_BYTES := by
  obtain ⟨_, small, rest⟩ := bind_eq_ok.mp read
  obtain ⟨decoded, valid, done⟩ := bind_eq_ok.mp rest
  cases done
  have bytes : decoded.toByteArray = raw := by
    have utf8 := present_eq_ok.mp valid
    by_cases encodes : raw.IsValidUTF8
    · rw [String.fromUTF8?, dif_pos encodes] at utf8
      obtain rfl := Option.some.inj utf8
      rfl
    · rw [String.fromUTF8?, dif_neg encodes] at utf8
      exact absurd utf8 (Option.some_ne_none _).symm
  refine ⟨?_, ?_, Nat.le_of_not_lt (refuse_eq_ok.mp small)⟩
  · rw [String.toList_ofList]
    exact not_mem_newlines
  · have shrinks := @newlines_size_le decoded.toList
    rwa [String.ofList_toList, ← @String.size_toByteArray decoded, bytes] at shrinks

/-! ## Paths -/

theorem partsOf_asPosix (some_ : parts ≠ []) (named : ∀ part ∈ parts, FileName part) :
    partsOf (asPosix parts) = parts := by
  rw [partsOf, asPosix, String.toList_ofList, List.splitOn_intercalate, List.map_map]
  · exact List.map_id'' (fun part => String.ofList_toList) parts
  · intro l mem
    obtain ⟨part, listed, rfl⟩ := List.mem_map.mp mem
    exact (named part listed).2.1
  · exact fun none => some_ (List.map_eq_nil_iff.mp none)

/-! ## What a reading has listed -/

def storedBytes : List (List String × String) → Nat
  | [] => 0
  | f :: listing => f.2.utf8ByteSize + storedBytes listing

/-- The kind of a file, by which `_read_package_snapshot` reads it, leaves it out or refuses it. -/
def kindOf (parts : List String) : String := String.ofList (lower (suffix parts).toList)

/-- Files as a reading lists them, by the parts of their paths. -/
structure Listed (files : Files) (listing : List (List String × String)) : Prop where
  files_eq : files = listing.map fun f => (asPosix f.1, f.2)
  sorted : listing.Pairwise fun a b => a.1 < b.1
  named : ∀ f ∈ listing, f.1 ≠ [] ∧ ∀ part ∈ f.1, FileName part
  kinds : ∀ f ∈ listing, kindOf f.1 ∉ IGNORED_ASSET_SUFFIXES ∧ kindOf f.1 ∈ ALLOWED_SUFFIXES
  plain : ∀ f ∈ listing, '\r' ∉ f.2.toList
  room : (∀ f ∈ listing, f.2.utf8ByteSize ≤ MAX_FILE_BYTES) →
    storedBytes listing ≤ MAX_PACKAGE_BYTES ∧ listing.length ≤ MAX_FILES

/-- What `_copy_reviewed` leaves in a new folder: the texts in UTF-8, and the folders above
them. -/
structure Copied (files : Files) (root : Package) : Prop where
  regular : ∀ e ∈ root.entries, e.2 ≠ .irregular
  stored : ∀ parts raw, (parts, Node.file raw) ∈ root.entries ↔
    ∃ f ∈ files, parts = partsOf f.1 ∧ raw = f.2.toByteArray
  above : ∀ parts, (parts, Node.directory) ∈ root.entries →
    ∃ f ∈ files, parts <+: partsOf f.1

/-! ## The first reading -/

/-- What `scan` says of the files that it has listed. -/
structure Scanned (total count : Nat) (entries : List (List String × Node)) (files : Files)
    (listing : List (List String × String)) : Prop where
  files_eq : files = listing.map fun f => (asPosix f.1, f.2)
  order : (listing.map Prod.fst).Sublist (entries.map Prod.fst)
  read : ∀ f ∈ listing, ∃ raw, (f.1, Node.file raw) ∈ entries ∧ readFile raw = .ok f.2
  kinds : ∀ f ∈ listing, kindOf f.1 ∉ IGNORED_ASSET_SUFFIXES ∧ kindOf f.1 ∈ ALLOWED_SUFFIXES
  bytes : total ≤ MAX_PACKAGE_BYTES → total + storedBytes listing ≤ MAX_PACKAGE_BYTES
  count : count ≤ MAX_FILES → count + listing.length ≤ MAX_FILES

theorem Scanned.skip {e : List String × Node} {total' count' : Nat}
    (scanned : Scanned total' count' entries files listing) (bytes : total ≤ total')
    (room : total' ≤ MAX_PACKAGE_BYTES ∧ count' ≤ MAX_FILES ∨ total' = total ∧ count' = count)
    (more : count ≤ count') : Scanned total count (e :: entries) files listing where
  files_eq := scanned.files_eq
  order := scanned.order.cons e.1
  read f mem := by
    obtain ⟨raw, listed, read⟩ := scanned.read f mem
    exact ⟨raw, List.mem_cons_of_mem e listed, read⟩
  kinds := scanned.kinds
  bytes fits := by
    have tail := scanned.bytes
    omega
  count fits := by
    have tail := scanned.count
    omega

/-- A file that is admitted is within the limits, and is of a kind that is left out or read. -/
theorem admitFile_ok {admitted : Option String}
    (done : admitFile total count parts raw = .ok admitted) :
    total + raw.size ≤ MAX_PACKAGE_BYTES ∧ count + 1 ≤ MAX_FILES ∧
      ∀ text, admitted = some text → readFile raw = .ok text ∧
        kindOf parts ∉ IGNORED_ASSET_SUFFIXES ∧ kindOf parts ∈ ALLOWED_SUFFIXES := by
  obtain ⟨_, _, rest⟩ := bind_eq_ok.mp done
  obtain ⟨_, _, rest⟩ := bind_eq_ok.mp rest
  obtain ⟨_, room, rest⟩ := bind_eq_ok.mp rest
  obtain ⟨bytes, more⟩ := not_or.mp (refuse_eq_ok.mp room)
  refine ⟨Nat.le_of_not_lt bytes, Nat.le_of_not_lt more, ?_⟩
  intro text shown
  dsimp only at rest
  split at rest
  · cases rest
    nomatch shown
  · next kept =>
    obtain ⟨_, allowed, rest⟩ := bind_eq_ok.mp rest
    obtain ⟨content, read, rfl⟩ := map_ok rest
    cases shown
    exact ⟨read, kept, Decidable.not_not.mp (refuse_eq_ok.mp allowed)⟩

theorem scan_listed (scanned : scan total count entries = .ok (files, assets)) :
    ∃ listing, Scanned total count entries files listing := by
  induction entries generalizing total count files assets with
  | nil =>
    obtain ⟨rfl, rfl⟩ := Prod.mk.inj (Except.ok.inj scanned)
    refine ⟨[], rfl, List.Sublist.refl _, ?_, ?_, fun fits => fits, fun fits => fits⟩
    · intro f mem
      exact absurd mem List.not_mem_nil
    · intro f mem
      exact absurd mem List.not_mem_nil
  | cons e entries ih =>
    obtain ⟨parts, node⟩ := e
    cases node with
    | directory =>
      obtain ⟨listing, tail⟩ := ih scanned
      exact ⟨listing, tail.skip (Nat.le_refl _) (.inr ⟨rfl, rfl⟩) (Nat.le_refl _)⟩
    | irregular => nomatch scanned
    | file raw =>
      obtain ⟨admitted, done, rest⟩ := bind_eq_ok.mp scanned
      obtain ⟨bytes, more, shown⟩ := admitFile_ok done
      obtain ⟨⟨values, ignored⟩, scanned, rest⟩ := bind_eq_ok.mp rest
      obtain ⟨listing, tail⟩ := ih scanned
      cases admitted with
      | none =>
        obtain ⟨rfl, rfl⟩ := Prod.mk.inj (Except.ok.inj rest)
        exact ⟨listing, tail.skip (Nat.le_add_right _ _) (.inl ⟨bytes, more⟩) (Nat.le_succ _)⟩
      | some text =>
        obtain ⟨rfl, rfl⟩ := Prod.mk.inj (Except.ok.inj rest)
        obtain ⟨read, kind⟩ := shown text rfl
        refine ⟨(parts, text) :: listing, ?_, ?_, ?_, ?_, ?_, ?_⟩
        · rw [tail.files_eq]
          rfl
        · exact tail.order.cons_cons parts
        · intro f mem
          obtain rfl | later := List.mem_cons.mp mem
          · exact ⟨raw, List.mem_cons_self, read⟩
          · obtain ⟨raw', listed, read⟩ := tail.read f later
            exact ⟨raw', List.mem_cons_of_mem _ listed, read⟩
        · exact List.forall_mem_cons.mpr ⟨kind, tail.kinds⟩
        · intro _
          have shrinks := (readFile_ok read).2.1
          have later := tail.bytes bytes
          show total + (text.utf8ByteSize + storedBytes listing) ≤ MAX_PACKAGE_BYTES
          omega
        · intro _
          have later := tail.count more
          rw [List.length_cons]
          omega

/-- The files of a package are listed, each within the limit of a file. -/
theorem listed_of_readable (read : readPackageSnapshot root = .ok (files, assets)) :
    ∃ listing, Listed files listing ∧ (∀ f ∈ listing, f.2.utf8ByteSize ≤ MAX_FILE_BYTES) ∧
      ∀ f ∈ listing, ∃ raw, (f.1, Node.file raw) ∈ root.entries ∧ readFile raw = .ok f.2 := by
  obtain ⟨listing, scanned⟩ := scan_listed read
  refine ⟨listing, ⟨scanned.files_eq, ?_, ?_, scanned.kinds, ?_, ?_⟩, ?_, scanned.read⟩
  · have sorted := (List.pairwise_map.mpr root.sorted).sublist scanned.order
    exact List.pairwise_map.mp sorted
  · intro f mem
    obtain ⟨raw, listed, _⟩ := scanned.read f mem
    exact ⟨(root.nested _ listed).1, root.named _ listed⟩
  · intro f mem
    obtain ⟨raw, _, text⟩ := scanned.read f mem
    exact (readFile_ok text).1
  · intro _
    have bytes := scanned.bytes (Nat.zero_le _)
    have more := scanned.count (Nat.zero_le _)
    omega
  · intro f mem
    obtain ⟨raw, _, text⟩ := scanned.read f mem
    obtain ⟨_, shrinks, small⟩ := readFile_ok text
    exact shrinks.trans small

/-! ## The copy -/

/-- What is copied of an entry of a package. -/
def copyEntry (listing : List (List String × String)) :
    List String × Node → Option (List String × Node)
  | (parts, .directory) =>
      if ∃ f ∈ listing, parts <+: f.1 then some (parts, .directory) else none
  | (parts, .file raw) =>
      match readFile raw with
      | .ok text => if (parts, text) ∈ listing then some (parts, .file text.toByteArray) else none
      | .error _ => none
  | (_, .irregular) => none

/-- A copied entry is a directory on the way to a listed file, or a listed file that is read. -/
theorem copyEntry_cases {e e' : List String × Node} (kept : copyEntry listing e = some e') :
    (e = e' ∧ e'.2 = .directory ∧ ∃ f ∈ listing, e'.1 <+: f.1) ∨
      ∃ source text, e = (e'.1, .file source) ∧ readFile source = .ok text ∧
        (e'.1, text) ∈ listing ∧ e'.2 = .file text.toByteArray := by
  obtain ⟨parts, node⟩ := e
  cases node with
  | directory =>
    obtain ⟨inside, same⟩ := Option.ite_none_right_eq_some.mp kept
    obtain rfl := Option.some.inj same
    exact .inl ⟨rfl, rfl, inside⟩
  | file source =>
    rw [copyEntry] at kept
    cases read : readFile source with
    | ok text =>
      rw [read] at kept
      obtain ⟨mem, same⟩ := Option.ite_none_right_eq_some.mp kept
      obtain rfl := Option.some.inj same
      exact .inr ⟨source, text, rfl, read, mem, rfl⟩
    | error e =>
      rw [read] at kept
      cases kept
  | irregular => cases kept

theorem copyEntry_directory {e : List String × Node} :
    copyEntry listing e = some (parts, .directory) ↔
      e = (parts, .directory) ∧ ∃ f ∈ listing, parts <+: f.1 := by
  constructor
  · intro kept
    obtain ⟨same, _, inside⟩ | ⟨_, _, _, _, _, other⟩ := copyEntry_cases kept
    · exact ⟨same, inside⟩
    · cases other
  · rintro ⟨rfl, inside⟩
    rw [copyEntry, if_pos inside]

theorem copyEntry_file {e : List String × Node} :
    copyEntry listing e = some (parts, .file raw) ↔
      ∃ source text, e = (parts, .file source) ∧ readFile source = .ok text ∧
        (parts, text) ∈ listing ∧ raw = text.toByteArray := by
  constructor
  · intro kept
    obtain ⟨_, other, _⟩ | ⟨source, text, same, read, mem, bytes⟩ := copyEntry_cases kept
    · cases other
    · exact ⟨source, text, same, read, mem, Node.file.inj bytes⟩
  · rintro ⟨source, text, rfl, read, mem, rfl⟩
    rw [copyEntry, read]
    exact if_pos mem

theorem copyEntry_irregular {e : List String × Node} :
    copyEntry listing e ≠ some (parts, .irregular) := by
  intro kept
  obtain ⟨_, other, _⟩ | ⟨_, _, _, _, _, other⟩ := copyEntry_cases kept
  · cases other
  · cases other

/-- A copied entry keeps its path, which leads to a listed file. -/
theorem copyEntry_path {e e' : List String × Node} (kept : copyEntry listing e = some e') :
    e'.1 = e.1 ∧ ∃ f ∈ listing, e.1 <+: f.1 := by
  obtain ⟨parts, node⟩ := e'
  cases node with
  | directory =>
    obtain ⟨rfl, inside⟩ := copyEntry_directory.mp kept
    exact ⟨rfl, inside⟩
  | file raw =>
    obtain ⟨source, text, rfl, _, mem, _⟩ := copyEntry_file.mp kept
    exact ⟨rfl, _, mem, List.prefix_refl _⟩
  | irregular => exact absurd kept copyEntry_irregular

/-- What has been listed from a package can be copied. -/
theorem exists_copied (listed : Listed files listing)
    (read : ∀ f ∈ listing, ∃ raw, (f.1, Node.file raw) ∈ root.entries ∧ readFile raw = .ok f.2) :
    ∃ copy, Copied files copy := by
  have back : ∀ f ∈ listing, partsOf (asPosix f.1) = f.1 := fun f mem =>
    partsOf_asPosix (listed.named f mem).1 (listed.named f mem).2
  refine ⟨⟨root.entries.filterMap (copyEntry listing), ?_, ?_, ?_⟩, ?_, ?_, ?_⟩
  · refine root.sorted.filterMap _ fun a b before a' keptA b' keptB => ?_
    rw [(copyEntry_path keptA).1, (copyEntry_path keptB).1]
    exact before
  · intro e' mem
    obtain ⟨e, listed, kept⟩ := List.mem_filterMap.mp mem
    rw [(copyEntry_path kept).1]
    exact root.named e listed
  · intro e' mem
    obtain ⟨e, inside, kept⟩ := List.mem_filterMap.mp mem
    obtain ⟨same, f, listed, leads⟩ := copyEntry_path kept
    obtain ⟨some_, above⟩ := root.nested e inside
    rw [same]
    refine ⟨some_, fun part inner => ?_⟩
    have shorter : part <+: e.1 :=
      (List.mem_inits _ _).mp (List.mem_of_mem_tail (List.mem_of_mem_dropLast inner))
    exact List.mem_filterMap.mpr ⟨_, above part inner,
      copyEntry_directory.mpr ⟨rfl, f, listed, shorter.trans leads⟩⟩
  · intro e' mem irregular
    obtain ⟨e, _, kept⟩ := List.mem_filterMap.mp mem
    obtain ⟨parts, node⟩ := e'
    cases irregular
    exact copyEntry_irregular kept
  · intro parts raw
    constructor
    · intro mem
      obtain ⟨e, _, kept⟩ := List.mem_filterMap.mp mem
      obtain ⟨source, text, _, _, shown, rfl⟩ := copyEntry_file.mp kept
      rw [listed.files_eq]
      exact ⟨_, List.mem_map_of_mem shown, (back _ shown).symm, rfl⟩
    · rintro ⟨f, mem, rfl, rfl⟩
      rw [listed.files_eq] at mem
      obtain ⟨g, shown, rfl⟩ := List.mem_map.mp mem
      obtain ⟨source, inside, text⟩ := read g shown
      rw [back g shown]
      exact List.mem_filterMap.mpr ⟨_, inside,
        copyEntry_file.mpr ⟨source, g.2, rfl, text, shown, rfl⟩⟩
  · intro parts mem
    obtain ⟨e, _, kept⟩ := List.mem_filterMap.mp mem
    obtain ⟨rfl, f, shown, leads⟩ := copyEntry_directory.mp kept
    rw [listed.files_eq]
    refine ⟨_, List.mem_map_of_mem shown, ?_⟩
    rw [back f shown]
    exact leads

/-! ## The second reading -/

/-- The files of a package, by the parts of their paths. -/
def fileOf : List String × Node → Option (List String × ByteArray)
  | (parts, .file raw) => some (parts, raw)
  | _ => none

theorem fileOf_eq_some {e : List String × Node} :
    fileOf e = some (parts, raw) ↔ e = (parts, .file raw) := by
  obtain ⟨parts', node⟩ := e
  cases node <;> simp [fileOf]

/-- The files of a copy are those that were listed, in their order. -/
theorem Copied.filterMap_fileOf (copied : Copied files root) (listed : Listed files listing) :
    root.entries.filterMap fileOf = listing.map fun f => (f.1, f.2.toByteArray) := by
  have back : ∀ f ∈ listing, partsOf (asPosix f.1) = f.1 := fun f mem =>
    partsOf_asPosix (listed.named f mem).1 (listed.named f mem).2
  let before : List String × ByteArray → List String × ByteArray → Prop := fun a b => a.1 < b.1
  have irreflexive : Std.Irrefl before := ⟨fun a => lt_irrefl a.1⟩
  have antisymmetric : Std.Antisymm before :=
    ⟨fun a b first second => absurd second (lt_asymm first)⟩
  refine @List.Pairwise.eq_of_mem_iff _ before _ _ _ _ ?_ ?_ ?_
  · refine root.sorted.filterMap _ fun a b first a' keptA b' keptB => ?_
    rw [fileOf_eq_some.mp keptA, fileOf_eq_some.mp keptB] at first
    exact first
  · exact List.pairwise_map.mpr listed.sorted
  · rintro ⟨parts, raw⟩
    rw [List.mem_filterMap]
    constructor
    · rintro ⟨e, mem, file⟩
      rw [fileOf_eq_some.mp file] at mem
      obtain ⟨f, shown, rfl, rfl⟩ := (copied.stored parts raw).mp mem
      rw [listed.files_eq] at shown
      obtain ⟨g, source, rfl⟩ := List.mem_map.mp shown
      rw [back g source]
      exact List.mem_map_of_mem source
    · intro mem
      obtain ⟨g, shown, same⟩ := List.mem_map.mp mem
      obtain ⟨rfl, rfl⟩ := Prod.mk.inj same
      refine ⟨_, (copied.stored g.1 g.2.toByteArray).mpr ?_, rfl⟩
      rw [listed.files_eq]
      exact ⟨_, List.mem_map_of_mem shown, (back g shown).symm, rfl⟩

/-- A text within the limits is admitted as it is. -/
theorem admitFile_text (named : ∀ part ∈ parts, FileName part)
    (kind : kindOf parts ∉ IGNORED_ASSET_SUFFIXES ∧ kindOf parts ∈ ALLOWED_SUFFIXES)
    (plain : '\r' ∉ text.toList) (small : text.utf8ByteSize ≤ MAX_FILE_BYTES)
    (bytes : total + text.utf8ByteSize ≤ MAX_PACKAGE_BYTES) (more : count + 1 ≤ MAX_FILES) :
    admitFile total count parts text.toByteArray = .ok (some text) := by
  have inside : ".." ∉ parts := fun mem => (named ".." mem).1 (by decide)
  rw [admitFile, refuse_of_not inside, ok_bind, String.size_toByteArray,
    refuse_of_not (Nat.not_lt_of_le small), ok_bind, refuse_of_not (by omega), ok_bind]
  rw [kindOf] at kind
  dsimp only
  rw [if_neg kind.1, refuse_of_not (not_not_intro kind.2), ok_bind,
    readFile_text small (newlines_of_not_mem plain)]
  rfl

theorem scan_stored (regular : ∀ e ∈ entries, e.2 ≠ .irregular)
    (stored : entries.filterMap fileOf = listing.map fun f => (f.1, f.2.toByteArray))
    (named : ∀ f ∈ listing, ∀ part ∈ f.1, FileName part)
    (kinds : ∀ f ∈ listing, kindOf f.1 ∉ IGNORED_ASSET_SUFFIXES ∧ kindOf f.1 ∈ ALLOWED_SUFFIXES)
    (plain : ∀ f ∈ listing, '\r' ∉ f.2.toList)
    (small : ∀ f ∈ listing, f.2.utf8ByteSize ≤ MAX_FILE_BYTES)
    (bytes : total + storedBytes listing ≤ MAX_PACKAGE_BYTES)
    (more : count + listing.length ≤ MAX_FILES) :
    scan total count entries = .ok (listing.map fun f => (asPosix f.1, f.2), []) := by
  induction entries generalizing total count listing with
  | nil =>
    cases listing with
    | nil => rfl
    | cons f listing => nomatch stored
  | cons e entries ih =>
    obtain ⟨parts, node⟩ := e
    have later : ∀ e ∈ entries, e.2 ≠ .irregular := fun e mem =>
      regular e (List.mem_cons_of_mem _ mem)
    cases node with
    | directory => exact ih later stored named kinds plain small bytes more
    | irregular => exact absurd rfl (regular _ List.mem_cons_self)
    | file raw =>
      cases listing with
      | nil => nomatch stored
      | cons f listing =>
        obtain ⟨first, rest⟩ := List.cons.inj stored
        obtain ⟨rfl, rfl⟩ := Prod.mk.inj first
        have sum : total + (f.2.utf8ByteSize + storedBytes listing) ≤ MAX_PACKAGE_BYTES := bytes
        rw [List.length_cons] at more
        have admitted := @admitFile_text f.2 f.1 total count (named f List.mem_cons_self)
          (kinds f List.mem_cons_self) (plain f List.mem_cons_self) (small f List.mem_cons_self)
          (by omega) (by omega)
        have tail := @ih listing (total + f.2.utf8ByteSize) (count + 1) later rest
          (fun g mem => named g (List.mem_cons_of_mem f mem))
          (fun g mem => kinds g (List.mem_cons_of_mem f mem))
          (fun g mem => plain g (List.mem_cons_of_mem f mem))
          (fun g mem => small g (List.mem_cons_of_mem f mem)) (by omega) (by omega)
        rw [scan, admitted, ok_bind, String.size_toByteArray, tail, ok_bind]
        rfl

/-- A package that is read has no file beyond the limit of a file. -/
theorem scan_small {result : Files × List String}
    (scanned : scan total count entries = .ok result) :
    ∀ parts raw, (parts, Node.file raw) ∈ entries → raw.size ≤ MAX_FILE_BYTES := by
  induction entries generalizing total count result with
  | nil =>
    intro parts raw mem
    exact absurd mem List.not_mem_nil
  | cons e entries ih =>
    obtain ⟨parts', node⟩ := e
    intro parts raw mem
    cases node with
    | directory =>
      obtain same | later := List.mem_cons.mp mem
      · nomatch same
      · exact ih scanned parts raw later
    | irregular => nomatch scanned
    | file raw' =>
      obtain ⟨admitted, done, rest⟩ := bind_eq_ok.mp scanned
      obtain ⟨tail, scanned, _⟩ := bind_eq_ok.mp rest
      obtain same | later := List.mem_cons.mp mem
      · cases same
        obtain ⟨_, _, done⟩ := bind_eq_ok.mp done
        obtain ⟨_, small, _⟩ := bind_eq_ok.mp done
        exact Nat.le_of_not_lt (refuse_eq_ok.mp small)
      · exact ih scanned parts raw later

/-- A copy is read as the files that were copied, and it is read exactly when each of them is
within the limit of a file. -/
theorem readPackageSnapshot_copied (listed : Listed files listing) (copied : Copied files root) :
    readPackageSnapshot root = .ok (files', assets) ↔
      (∀ f ∈ listing, f.2.utf8ByteSize ≤ MAX_FILE_BYTES) ∧ files' = files ∧ assets = [] := by
  have stored := copied.filterMap_fileOf listed
  have reads (small : ∀ f ∈ listing, f.2.utf8ByteSize ≤ MAX_FILE_BYTES) :
      readPackageSnapshot root = .ok (files, []) := by
    obtain ⟨bytes, more⟩ := listed.room small
    rw [readPackageSnapshot, scan_stored copied.regular stored
      (fun f mem => (listed.named f mem).2) listed.kinds listed.plain small (by omega) (by omega),
      ← listed.files_eq]
  constructor
  · intro read
    have small : ∀ f ∈ listing, f.2.utf8ByteSize ≤ MAX_FILE_BYTES := by
      intro f mem
      have inside : (f.1, f.2.toByteArray) ∈ root.entries.filterMap fileOf := by
        rw [stored]
        exact List.mem_map_of_mem mem
      obtain ⟨e, within, file⟩ := List.mem_filterMap.mp inside
      rw [fileOf_eq_some.mp file] at within
      have fits := scan_small read _ _ within
      rwa [String.size_toByteArray] at fits
    have same := (reads small).symm.trans read
    obtain ⟨rfl, rfl⟩ := Prod.mk.inj (Except.ok.inj same)
    exact ⟨small, rfl, rfl⟩
  · rintro ⟨small, rfl, rfl⟩
    exact reads small

/-! ## Commands made into skills -/

theorem ofNat_ne_return {n : Nat} (other : n ≠ 13) : Char.ofNat n ≠ '\r' := by
  intro same
  have value := congrArg Char.toNat same
  rw [Char.ofNat] at value
  split at value
  · exact other value
  · exact absurd value (by decide)

theorem hexDigit_ne_return (n : Nat) : Json.hexDigit n ≠ '\r' := by
  rw [Json.hexDigit]
  split
  · exact ofNat_ne_return (by omega)
  · exact ofNat_ne_return (by omega)

theorem not_mem_ite {p : Prop} [Decidable p] {l l' : List Char} {c : Char} (first : c ∉ l)
    (second : ¬ p → c ∉ l') : c ∉ if p then l else l' := by
  split
  · exact first
  · next other => exact second other

theorem not_mem_escapeChar (c : Char) : '\r' ∉ Json.escapeChar c := by
  rw [Json.escapeChar]
  refine not_mem_ite (by decide) fun _ => not_mem_ite (by decide) fun _ =>
    not_mem_ite (by decide) fun _ => not_mem_ite (by decide) fun other =>
    not_mem_ite (by decide) fun _ => not_mem_ite (by decide) fun _ =>
    not_mem_ite (by decide) fun _ => not_mem_ite ?_ fun _ mem => ?_
  · intro mem
    rw [List.mem_cons, List.mem_cons, List.mem_cons, List.mem_cons, List.mem_cons,
      List.mem_singleton] at mem
    obtain same | same | same | same | same | same := mem
    · exact absurd same (by decide)
    · exact absurd same (by decide)
    · exact absurd same (by decide)
    · exact absurd same (by decide)
    · exact hexDigit_ne_return _ same.symm
    · exact hexDigit_ne_return _ same.symm
  · exact other (List.mem_singleton.mp mem).symm

/-- A string literal has no carriage return in it. -/
theorem not_mem_quote (s : String) : '\r' ∉ Json.quote s := by
  intro mem
  rw [Json.quote, List.cons_append, List.mem_cons, List.mem_append, List.mem_singleton] at mem
  obtain same | inside | same := mem
  · exact absurd same (by decide)
  · obtain ⟨c, _, escaped⟩ := List.mem_flatMap.mp inside
    exact not_mem_escapeChar c escaped
  · exact absurd same (by decide)

theorem not_mem_asciiChar {c : Char} (other : c ≠ '\r') : '\r' ∉ Json.asciiChar c := by
  have unicode (n : Nat) : '\r' ∉ Json.unicodeEscape n := by
    intro mem
    rw [Json.unicodeEscape, List.mem_cons, List.mem_cons, List.mem_cons, List.mem_cons,
      List.mem_cons, List.mem_singleton] at mem
    obtain same | same | same | same | same | same := mem
    · exact absurd same (by decide)
    · exact absurd same (by decide)
    · exact hexDigit_ne_return _ same.symm
    · exact hexDigit_ne_return _ same.symm
    · exact hexDigit_ne_return _ same.symm
    · exact hexDigit_ne_return _ same.symm
  rw [Json.asciiChar]
  split
  · exact fun mem => other (List.mem_singleton.mp mem).symm
  · split
    · exact unicode _
    · intro mem
      obtain high | low := List.mem_append.mp mem
      · exact unicode _ high
      · exact unicode _ low

theorem not_mem_dumpsAscii (s : String) : '\r' ∉ (Json.dumpsAscii (.str s)).toList := by
  rw [Json.dumpsAscii, String.toList_ofList]
  intro mem
  obtain ⟨c, quoted, shown⟩ := List.mem_flatMap.mp mem
  refine not_mem_asciiChar ?_ shown
  rintro rfl
  exact not_mem_quote s quoted

theorem not_mem_strip (plain : '\r' ∉ text.toList) : '\r' ∉ (strip text).toList := by
  intro mem
  rw [strip, String.toList_ofList, List.mem_reverse] at mem
  have inner := (List.dropWhile_sublist _).subset mem
  rw [List.mem_reverse] at inner
  exact plain ((List.dropWhile_sublist _).subset inner)

theorem not_mem_append {first second : String} (plain : '\r' ∉ first.toList)
    (plain' : '\r' ∉ second.toList) : '\r' ∉ (first ++ second).toList := by
  rw [String.toList_append]
  intro mem
  obtain mem | mem := List.mem_append.mp mem
  · exact plain mem
  · exact plain' mem

/-- A skill that was made of a text with line feeds alone has line feeds alone. -/
theorem not_mem_renderSkill {name description body : String} (named : isName name)
    (plain : '\r' ∉ body.toList) : '\r' ∉ (renderSkill name description body).toList := by
  have letters : '\r' ∉ name.toList := by
    intro mem
    rw [isName, Bool.and_eq_true, Bool.and_eq_true] at named
    exact absurd (List.all_eq_true.mp named.1.2 '\r' mem) (by decide)
  show '\r' ∉ (_ ++ _ ++ _ ++ _ ++ _ ++ _ ++ _ : String).toList
  apply not_mem_append
  · apply not_mem_append
    · apply not_mem_append
      · apply not_mem_append
        · apply not_mem_append
          · exact not_mem_append (by decide) letters
          · decide
        · exact not_mem_dumpsAscii description
      · decide
    · exact not_mem_strip plain
  · decide

/-! ## Snapshots that can be stored -/

/-- Files that a review has listed. The limit of a file is met by all of them where it is met
by the text of the skill. -/
structure Storable (files : Files) : Prop where
  manifest : ∃ text, files.lookup "SKILL.md" = some text
  copied : ∃ root, Copied files root
  listed : ∃ listing, Listed files listing ∧
    ((∀ f ∈ listing, f.2.utf8ByteSize ≤ MAX_FILE_BYTES) ↔
      ∀ text, files.lookup "SKILL.md" = some text → text.utf8ByteSize ≤ MAX_FILE_BYTES)

theorem partsOf_skill : partsOf "SKILL.md" = ["SKILL.md"] := by decide

theorem skill_named : ∀ part ∈ ["SKILL.md"], FileName part := by decide

theorem skill_kind : kindOf ["SKILL.md"] ∉ IGNORED_ASSET_SUFFIXES ∧
    kindOf ["SKILL.md"] ∈ ALLOWED_SUFFIXES := by decide

/-- The one file of a command. -/
theorem storable_skill (plain : '\r' ∉ text.toList) : Storable [("SKILL.md", text)] where
  manifest := ⟨text, rfl⟩
  copied := by
    refine ⟨⟨[(["SKILL.md"], .file text.toByteArray)], List.pairwise_singleton _ _, ?_, ?_⟩,
      ?_, ?_, ?_⟩
    · intro e mem part listed
      rw [List.mem_singleton.mp mem] at listed
      rw [List.mem_singleton.mp listed]
      decide
    · intro e mem
      rw [List.mem_singleton.mp mem]
      exact ⟨List.cons_ne_nil _ _, fun _ inner => absurd inner List.not_mem_nil⟩
    · intro e mem
      rw [List.mem_singleton.mp mem]
      exact Node.noConfusion
    · intro parts raw
      rw [List.mem_singleton]
      constructor
      · intro same
        cases same
        exact ⟨_, List.mem_singleton_self _, partsOf_skill.symm, rfl⟩
      · rintro ⟨f, mem, rfl, rfl⟩
        rw [List.mem_singleton.mp mem, partsOf_skill]
    · intro parts mem
      cases List.mem_singleton.mp mem
  listed := by
    refine ⟨[(["SKILL.md"], text)], ⟨?_, List.pairwise_singleton _ _, ?_, ?_, ?_, ?_⟩, ?_⟩
    · have path : asPosix ["SKILL.md"] = "SKILL.md" := by decide
      rw [List.map_singleton, path]
    · intro f mem
      rw [List.mem_singleton.mp mem]
      exact ⟨List.cons_ne_nil _ _, skill_named⟩
    · intro f mem
      rw [List.mem_singleton.mp mem]
      exact skill_kind
    · intro f mem
      rw [List.mem_singleton.mp mem]
      exact plain
    · intro small
      have fits : text.utf8ByteSize ≤ MAX_FILE_BYTES := small _ (List.mem_singleton_self _)
      have limits : MAX_FILE_BYTES ≤ MAX_PACKAGE_BYTES ∧ 1 ≤ MAX_FILES := by decide
      exact ⟨fits.trans limits.1, limits.2⟩
    · constructor
      · intro small content found
        cases found
        exact small _ (List.mem_singleton_self _)
      · intro fits f mem
        rw [List.mem_singleton.mp mem]
        exact fits text rfl

theorem readSnapshot_storable (named : isName candidate.name)
    (read : readSnapshot D yaml candidate = .ok (preview, files)) : Storable files := by
  obtain ⟨⟨⟨name, description, shown⟩, first⟩, collected, done⟩ := bind_eq_ok.mp read
  obtain ⟨rfl, rfl⟩ := Prod.mk.inj (Except.ok.inj done)
  rw [collect] at collected
  split at collected
  · next raw _ =>
    obtain ⟨content, text, done⟩ := bind_eq_ok.mp collected
    cases done
    exact storable_skill (not_mem_renderSkill named (readFile_ok text).1)
  · next root _ =>
    obtain ⟨⟨values, ignored⟩, scanned, rest⟩ := bind_eq_ok.mp collected
    obtain ⟨skillContent, skill, rest⟩ := bind_eq_ok.mp rest
    obtain ⟨_, _, done⟩ := bind_eq_ok.mp rest
    cases done
    obtain ⟨listing, listed, small, source⟩ := listed_of_readable scanned
    refine ⟨⟨skillContent, present_eq_ok.mp skill⟩, exists_copied listed source, listing, listed,
      fun _ content found => ?_, fun _ => small⟩
    obtain ⟨before, after, split, _⟩ := List.lookup_eq_some_iff.mp found
    have mem : ("SKILL.md", content) ∈ before ++ ("SKILL.md", content) :: after :=
      List.mem_append_right before List.mem_cons_self
    rw [← split, listed.files_eq] at mem
    obtain ⟨f, inside, same⟩ := List.mem_map.mp mem
    obtain ⟨-, rfl⟩ := Prod.mk.inj same
    exact small f inside

/-! ## Calls -/

/-- The candidates that discovery has found for a call. -/
def Call.candidates : Call → List SkillCandidate
  | .importDraft found _ _ _ _ _ => found
  | .activate _ _ | .archive _ _ => []

/-- Every version has one copy, in the order of the versions. -/
structure Library.Kept (s : Library) : Prop where
  ids : s.copied.map Prod.fst = s.versions.rows.map (·.id)
  storable : ∀ e ∈ s.copied, Storable e.2

theorem Library.kept_empty : Library.empty.Kept where
  ids := rfl
  storable _ mem := absurd mem List.not_mem_nil

theorem Library.Kept.update {p : PortableSkillVersion → Bool} {status : VersionStatus}
    (kept : s.Kept) :
    ({ s with versions := s.versions.update p (withStatus status) } : Library).Kept where
  ids := kept.ids.trans Table.map_key_update.symm
  storable := kept.storable

theorem importDraft_kept {expectedDigest : String} (kept : s.Kept)
    (named : ∀ c ∈ found, isName c.name)
    (imported : s.importDraft D yaml libraryRoot found tenantId candidateId expectedDigest
      identifier now = .ok (version, s')) : s'.Kept := by
  obtain rfl | ⟨candidate, mem, preview, files, read, _, _, rows, copied⟩ := importDraft_ok imported
  · exact kept
  · refine ⟨?_, ?_⟩
    · rw [copied, rows, List.map_append, List.map_append, kept.ids]
      rfl
    · rw [copied]
      intro e listed
      obtain earlier | new := List.mem_append.mp listed
      · exact kept.storable e earlier
      · rw [List.mem_singleton.mp new]
        exact readSnapshot_storable (named candidate mem) read

theorem activate_kept {skillId : String} (kept : s.Kept)
    (activated : s.activate tenantId skillId = .ok s') : s'.Kept := by
  obtain ⟨row, _, done⟩ := bind_eq_ok.mp activated
  cases done
  exact (kept.update (p := fun v => v.tenantId = tenantId && v.name = row.name &&
    v.status = .active)).update

theorem Library.Kept.step (kept : s.Kept) (named : ∀ c ∈ call.candidates, isName c.name) :
    (s.step D yaml libraryRoot call).Kept := by
  rw [Library.step]
  split
  · next after result =>
    cases call with
    | importDraft found tenantId candidateId expectedDigest identifier now =>
      obtain ⟨⟨version, s'⟩, imported, rfl⟩ := map_ok result
      exact importDraft_kept kept named imported
    | activate tenantId skillId => exact activate_kept kept result
    | archive tenantId skillId =>
      obtain ⟨_, _, done⟩ := bind_eq_ok.mp result
      cases done
      exact kept.update
  · exact kept

theorem Library.kept_of_named {calls : List Call}
    (named : ∀ call ∈ calls, ∀ c ∈ call.candidates, isName c.name) :
    (Run.exec (Library.step D yaml libraryRoot) .empty calls).Kept :=
  (Run.along_of_forall fun call mem _ => named call mem).preserves Library.kept_empty
    fun _ _ kept named => kept.step named

/-- There is one copy for every version. -/
theorem Library.Kept.exists_copy (kept : s.Kept) (stored : row ∈ s.versions) :
    ∃ copied, (row.id, copied) ∈ s.copied := by
  have listed : row.id ∈ s.copied.map Prod.fst := by
    rw [kept.ids]
    exact List.mem_map_of_mem stored
  obtain ⟨⟨id, copied⟩, mem, rfl⟩ := List.mem_map.mp listed
  exact ⟨copied, mem⟩

theorem Library.Kept.copy_unique (kept : s.Kept) {id : String} (first : (id, files) ∈ s.copied)
    (second : (id, files') ∈ s.copied) : files' = files := by
  have nodup : (s.copied.map Prod.fst).Nodup := by
    rw [kept.ids]
    exact s.versions.nodup
  have same := List.inj_on_of_nodup_map nodup second first rfl
  exact congrArg Prod.snd same

theorem find?_version {t : Table PortableSkillVersion} {p : PortableSkillVersion → Bool}
    (stored : row ∈ t) (holds : p row = true) (keyed : ∀ w, p w = true → w.id = row.id) :
    t.rows.find? p = some row := by
  cases found : t.rows.find? p with
  | none => exact absurd holds (List.find?_eq_none.mp found row stored)
  | some w =>
    have same := keyed w (List.find?_some found)
    rw [Table.eq_of_key (List.mem_of_find?_eq_some found) stored same]

/-- An activation finds the version, and the instructions are then looked up under it. -/
theorem exists_activate (stored : version ∈ s.versions) (own : version.tenantId = tenantId) :
    ∃ activated, s.activate tenantId version.id = .ok activated ∧ activated.copied = s.copied ∧
      ∀ package, activated.instructions D package tenantId version.id = (do
        let root ← present (package version.packagePath) "skill_package_unsafe"
        let files ← readPackage root
        refuse (filesDigest D files ≠ version.digest) "skill_package_changed"
        present (files.lookup "SKILL.md") "skill_manifest_missing") := by
  have resolved : s.versions.rows.find? (fun v => v.tenantId = tenantId && v.id = version.id) =
      some version := by
    refine find?_version stored (by simp [own]) fun w holds => ?_
    rw [Bool.and_eq_true, decide_eq_true_eq, decide_eq_true_eq] at holds
    exact holds.2
  let others := s.versions.update (fun v => v.tenantId = tenantId && v.name = version.name &&
    v.status = .active) (withStatus .draft)
  refine ⟨{ s with versions := others.update (·.id = version.id) (withStatus .active) }, ?_, rfl,
    fun package => ?_⟩
  · rw [Library.activate, resolved]
    rfl
  · obtain ⟨other, mem, same⟩ : ∃ other ∈ others, other.id = version.id ∧
        other.tenantId = tenantId ∧ other.digest = version.digest ∧
        other.packagePath = version.packagePath := by
      refine ⟨_, Table.mem_update_of_mem stored, ?_⟩
      split
      · exact ⟨rfl, own, rfl, rfl⟩
      · exact ⟨rfl, own, rfl, rfl⟩
    obtain ⟨same, own, digest, path⟩ := same
    have active := Table.mem_update_of_mem (p := fun v => decide (v.id = version.id))
      (f := withStatus .active) mem
    rw [if_pos (decide_eq_true same)] at active
    have selected := find?_version (p := fun v => decide (v.tenantId = tenantId) &&
      decide (v.id = version.id) && decide (v.status = .active)) active
      (by simp [withStatus, own, same]) fun w holds => by
        rw [Bool.and_eq_true, Bool.and_eq_true, decide_eq_true_eq, decide_eq_true_eq] at holds
        exact holds.1.2.trans same.symm
    rw [Library.instructions, selected, ← digest, ← path]
    rfl

theorem lt_nextVersion {name : String} (stored : row ∈ s.versions) (own : row.tenantId = tenantId)
    (named : row.name = name) : row.version < s.nextVersion tenantId name := by
  have le_foldr (versions : List Nat) : ∀ n ∈ versions, n ≤ versions.foldr max 0 := by
    induction versions with
    | nil => exact fun n mem => absurd mem List.not_mem_nil
    | cons m versions ih =>
      intro n mem
      rw [List.foldr_cons]
      obtain rfl | later := List.mem_cons.mp mem
      · exact Nat.le_max_left _ _
      · exact (ih n later).trans (Nat.le_max_right _ _)
  refine Nat.lt_succ_of_le (le_foldr _ _ (List.mem_map_of_mem (List.mem_filter.mpr ⟨stored, ?_⟩)))
  simp [own, named]

section

variable (resolved : resolveCandidate found candidateId = .ok candidate)
  (read : readSnapshot D yaml candidate = .ok (preview, files))
  (passes : preview.compatibility ≠ .blocked)

include resolved read passes

theorem importDraft_found (stored : s.versions.rows.find?
      (fun v => v.tenantId = tenantId && v.digest = preview.digest) = some row) :
    s.importDraft D yaml libraryRoot found tenantId candidateId preview.digest identifier now =
      .ok (row, s) := by
  rw [Library.importDraft, resolved, ok_bind, read, ok_bind]
  dsimp only
  rw [refuse_of_not (not_not_intro rfl), ok_bind, refuse_of_not passes, ok_bind, stored]
  rfl

/-- A snapshot whose digest the tenant does not have is added, unless the identifier is taken. -/
theorem importDraft_new (absent : s.versions.rows.find?
      (fun v => v.tenantId = tenantId && v.digest = preview.digest) = none)
    (fresh : ∀ v ∈ s.versions, v.id ≠ identifier) :
    ∃ version imported, s.importDraft D yaml libraryRoot found tenantId candidateId
        preview.digest identifier now = .ok (version, imported) ∧
      version ∈ imported.versions ∧ version.tenantId = tenantId ∧ version.digest = preview.digest ∧
      (version.id, files) ∈ imported.copied := by
  rw [Library.importDraft, resolved, ok_bind, read, ok_bind]
  dsimp only
  rw [refuse_of_not (not_not_intro rfl), ok_bind, refuse_of_not passes, ok_bind, absent]
  dsimp only
  generalize made : (PortableSkillVersion.mk identifier tenantId preview.name preview.description
    (s.nextVersion tenantId preview.name) preview.digest candidate.source (asPosix candidate.path)
    _ VersionStatus.draft preview.findings now) = record
  have free : ∀ v ∈ s.versions, Keyed.key v ≠ Keyed.key record := by
    rw [← made]
    exact fresh
  obtain ⟨versions, added⟩ := Table.exists_insert? free
  have inserted : s.insert record files =
      some { versions, copied := s.copied ++ [(record.id, files)] } := by
    rw [Library.insert, if_neg, added]
    · rfl
    · intro conflict
      obtain ⟨v, stored, same⟩ := List.any_eq_true.mp conflict
      rw [← made, Bool.and_eq_true, Bool.or_eq_true, Bool.and_eq_true, decide_eq_true_eq,
        decide_eq_true_eq, decide_eq_true_eq, decide_eq_true_eq] at same
      obtain ⟨own, ⟨named, version⟩ | digest⟩ := same
      · have lower := lt_nextVersion stored own named
        exact absurd version (Nat.ne_of_lt lower)
      · exact List.find?_eq_none.mp absent v stored (by simp [own, digest])
  rw [inserted]
  refine ⟨record, _, rfl, Table.mem_of_append (Table.insert?_eq_some.mp added).2, ?_, ?_,
    List.mem_append_right _ (List.mem_singleton_self _)⟩
  · rw [← made]
  · rw [← made]

end

/-! ## Imports that round-trip -/

/-- The import under the digest of the preview and the activation of the version go through; and
the files of the version, wherever they lie as they were copied, are read as those of the
snapshot, with nothing left out, and give its text as the instructions. -/
def RoundTrips (D : Digests) (yaml : String → Option Metadata) (libraryRoot : String) (s : Library)
    (found : List SkillCandidate) (tenantId candidateId identifier : String) (now : Instant)
    (preview : SkillImportPreview) (files : Files) : Prop :=
  ∃ version imported activated copied text,
    s.importDraft D yaml libraryRoot found tenantId candidateId preview.digest identifier now =
      .ok (version, imported) ∧
    imported.activate tenantId version.id = .ok activated ∧
    (version.id, copied) ∈ activated.copied ∧ files.lookup "SKILL.md" = some text ∧
    ∀ package root, package version.packagePath = some root → Copied copied root →
      readPackageSnapshot root = .ok (files, []) ∧
      activated.instructions D package tenantId version.id = .ok text

/-- The text of the skill is within the limit of a file, and a version that the tenant has with
the digest of the snapshot is a copy of the same files. -/
structure Returns (s : Library) (tenantId : String) (preview : SkillImportPreview)
    (files : Files) : Prop where
  small : ∀ text, files.lookup "SKILL.md" = some text → text.utf8ByteSize ≤ MAX_FILE_BYTES
  same : ∀ row, s.versions.rows.find?
      (fun v => v.tenantId = tenantId && v.digest = preview.digest) = some row →
    ∀ copied, (row.id, copied) ∈ s.copied → copied = files

/-- The version that an import under the digest of the preview finds, or adds. -/
theorem exists_import (libraryRoot tenantId : String) (now : Instant) (kept : s.Kept)
    (resolved : resolveCandidate found candidateId = .ok candidate)
    (read : readSnapshot D yaml candidate = .ok (preview, files))
    (passes : preview.compatibility ≠ .blocked) (fresh : ∀ v ∈ s.versions, v.id ≠ identifier) :
    ∃ version imported copied, s.importDraft D yaml libraryRoot found tenantId candidateId
        preview.digest identifier now = .ok (version, imported) ∧
      version ∈ imported.versions ∧ version.tenantId = tenantId ∧ version.digest = preview.digest ∧
      (version.id, copied) ∈ imported.copied ∧
      (copied = files ↔ ∀ row, s.versions.rows.find?
          (fun v => v.tenantId = tenantId && v.digest = preview.digest) = some row →
        ∀ earlier, (row.id, earlier) ∈ s.copied → earlier = files) := by
  cases stored : s.versions.rows.find? fun v =>
      v.tenantId = tenantId && v.digest = preview.digest with
  | none =>
    obtain ⟨version, imported, done, mem, own, digest, copied⟩ :=
      importDraft_new resolved read passes stored fresh
    refine ⟨version, imported, files, done, mem, own, digest, copied, fun _ row absent => ?_,
      fun _ => rfl⟩
    nomatch absent
  | some row =>
    have mem : row ∈ s.versions := List.mem_of_find?_eq_some stored
    have matching := List.find?_some stored
    rw [Bool.and_eq_true, decide_eq_true_eq, decide_eq_true_eq] at matching
    obtain ⟨copied, listed⟩ := kept.exists_copy mem
    refine ⟨row, s, copied, importDraft_found resolved read passes stored, mem, matching.1,
      matching.2, listed, ?_, fun same => same row rfl copied listed⟩
    rintro rfl row' same earlier listed'
    cases same
    exact kept.copy_unique listed listed'

theorem Library.Kept.round_trips (kept : s.Kept) (named : ∀ c ∈ found, isName c.name)
    (resolved : resolveCandidate found candidateId = .ok candidate)
    (read : readSnapshot D yaml candidate = .ok (preview, files))
    (passes : preview.compatibility ≠ .blocked) (fresh : ∀ v ∈ s.versions, v.id ≠ identifier) :
    RoundTrips D yaml libraryRoot s found tenantId candidateId identifier now preview files ↔
      Returns s tenantId preview files := by
  have mem := List.mem_of_find?_eq_some (present_eq_ok.mp resolved)
  have storable := readSnapshot_storable (named candidate mem) read
  obtain ⟨version, imported, copied, done, stored, own, digest, listed, same⟩ :=
    exists_import libraryRoot tenantId now kept resolved read passes fresh
  have keptImported := importDraft_kept kept named done
  obtain ⟨activated, active, copies, instructs⟩ := exists_activate (D := D) stored own
  constructor
  · rintro ⟨version', imported', activated', copied', text, done', active', listed', skill, reads⟩
    obtain ⟨rfl, rfl⟩ := Prod.mk.inj (Except.ok.inj (done.symm.trans done'))
    obtain rfl := Except.ok.inj (active.symm.trans active')
    rw [copies] at listed'
    obtain rfl := keptImported.copy_unique listed listed'
    have stored := keptImported.storable _ listed
    obtain ⟨root, copy⟩ := stored.copied
    obtain ⟨listing, shown, fits⟩ := stored.listed
    have back := (reads (fun _ => some root) root rfl copy).1
    obtain ⟨small, rfl, -⟩ := (readPackageSnapshot_copied shown copy).mp back
    exact ⟨fits.mp small, same.mp rfl⟩
  · rintro ⟨small, earlier⟩
    obtain rfl := same.mpr earlier
    obtain ⟨text, skill⟩ := storable.manifest
    obtain ⟨listing, shown, fits⟩ := storable.listed
    refine ⟨version, imported, activated, copied, text, done, active, ?_, skill, ?_⟩
    · rw [copies]
      exact listed
    · intro package root lies copy
      have back := (readPackageSnapshot_copied shown copy).mpr ⟨fits.mpr small, rfl, rfl⟩
      have reads : readPackage root = .ok copied := by
        rw [readPackage, back]
        rfl
      have agrees : filesDigest D copied = version.digest :=
        (readSnapshot_ok read).1.symm.trans digest.symm
      refine ⟨back, ?_⟩
      rw [instructs, lies]
      show (readPackage root >>= fun files => _) = _
      rw [reads, ok_bind, refuse_of_not (not_not_intro agrees), ok_bind, skill]
      rfl

/-- **Imports round-trip.** In every library that calls have made, for every candidate that
previews as not blocked, the import and the activation give back the files and the text of the
preview exactly when the text fits into a file and no other files are stored under its digest. -/
theorem roundTrips_iff (calls : List Call)
    (discovered : ∀ call ∈ calls, ∀ c ∈ call.candidates, isName c.name)
    (named : ∀ c ∈ found, isName c.name)
    (resolved : resolveCandidate found candidateId = .ok candidate)
    (read : readSnapshot D yaml candidate = .ok (preview, files))
    (passes : preview.compatibility ≠ .blocked)
    (fresh : ∀ v ∈ (Run.exec (Library.step D yaml libraryRoot) .empty calls).versions,
      v.id ≠ identifier) :
    RoundTrips D yaml libraryRoot (Run.exec (Library.step D yaml libraryRoot) .empty calls) found
        tenantId candidateId identifier now preview files ↔
      Returns (Run.exec (Library.step D yaml libraryRoot) .empty calls) tenantId preview files :=
  (Library.kept_of_named discovered).round_trips named resolved read passes fresh

/-! ## A command of one line -/

/-- The command whose file has one letter a number of times. -/
def lettered (n : Nat) : SkillCandidate where
  id := "c"
  source := .claude
  name := "c"
  path := ["c.md"]
  content := .legacyCommand (String.ofList (List.replicate n 'x')).toByteArray

def letteredSkill (n : Nat) : String :=
  renderSkill "c" "Imported Claude command: c" (String.ofList (List.replicate n 'x'))

def header : String := "---\nname: c\ndescription: \"Imported Claude command: c\"\n---\n\n"

theorem letteredSkill_toList (n : Nat) :
    (letteredSkill n).toList = header.toList ++ (List.replicate n 'x' ++ ['\n']) := by
  have letter : Text.isSpace 'x' = false := by decide
  have stripped : strip (String.ofList (List.replicate n 'x')) =
      String.ofList (List.replicate n 'x') := by
    rw [strip, String.toList_ofList, List.dropWhile_replicate_eq_filter_not,
      List.filter_replicate_of_pos (by decide), List.reverse_replicate,
      List.dropWhile_replicate_eq_filter_not, List.filter_replicate_of_pos (by decide),
      List.reverse_replicate]
  have described : "---\nname: " ++ "c" ++ "\ndescription: " ++
      Json.dumpsAscii (.str "Imported Claude command: c") ++ "\n---\n\n" = header := by
    decide
  have rendered : letteredSkill n = "---\nname: " ++ "c" ++ "\ndescription: " ++
      Json.dumpsAscii (.str "Imported Claude command: c") ++ "\n---\n\n" ++
        strip (String.ofList (List.replicate n 'x')) ++ "\n" := rfl
  rw [rendered, described, stripped, String.toList_append, String.toList_append,
    String.toList_ofList, List.append_assoc]
  rfl

/-- The characters of the skill. -/
theorem mem_letteredSkill {n : Nat} {c : Char} (mem : c ∈ (letteredSkill n).toList) :
    c ∈ header.toList ++ ['x', '\n'] := by
  rw [letteredSkill_toList] at mem
  obtain above | below := List.mem_append.mp mem
  · exact List.mem_append_left _ above
  · obtain letter | last := List.mem_append.mp below
    · rw [List.eq_of_mem_replicate letter]
      exact List.mem_append_right _ List.mem_cons_self
    · rw [List.mem_singleton.mp last]
      exact List.mem_append_right _ (List.mem_cons_of_mem _ List.mem_cons_self)

theorem not_holds {needle : String} {s : List Char} {c : Char} (needed : c ∈ needle.toList)
    (absent : c ∉ s) : holds needle s = false :=
  decide_eq_false fun inside => absent (inside.subset needed)

theorem possibleSecret_needs :
    possibleSecret.Needs fun c => Text.foldCase c = 'k' ∨ Text.foldCase c = 'g' := by
  refine .inl ⟨?_, ?_, ?_⟩
  · exact .inr (.inl fun c same => .inl (of_decide_eq_true same))
  · exact .inl fun c same => .inr (of_decide_eq_true same)
  · exact .inl fun c same => .inr (of_decide_eq_true same)

/-- Nothing in the text of the command is blocked. -/
theorem textFindings_lettered (n : Nat) :
    ∀ f ∈ textFindings "SKILL.md" ["SKILL.md"] (letteredSkill n), f.severity ≠ .blocked := by
  have checked : (header.toList ++ ['x', '\n']).all (fun c => 'f' ∉ Text.lowerChar c ∧
      'v' ∉ Text.lowerChar c ∧ ¬ (Text.foldCase c = 'k' ∨ Text.foldCase c = 'g')) = true := by
    decide
  have plain : ∀ c ∈ header.toList ++ ['x', '\n'], 'f' ∉ Text.lowerChar c ∧
      'v' ∉ Text.lowerChar c ∧ ¬ (Text.foldCase c = 'k' ∨ Text.foldCase c = 'g') :=
    fun c mem => of_decide_eq_true (List.all_eq_true.mp checked c mem)
  have absent (d : Char) (other : ∀ c ∈ header.toList ++ ['x', '\n'], d ∉ Text.lowerChar c) :
      d ∉ lower (letteredSkill n).toList := by
    intro mem
    obtain ⟨c, inside, lowered⟩ := List.mem_flatMap.mp mem
    exact other c (mem_letteredSkill inside) lowered
  have removes : holds "rm -rf" (lower (letteredSkill n).toList) = false :=
    not_holds (c := 'f') (by decide) (absent 'f' fun c mem => (plain c mem).1)
  have recurses : holds "remove-item -recurse" (lower (letteredSkill n).toList) = false :=
    not_holds (c := 'v') (by decide) (absent 'v' fun c mem => (plain c mem).2.1)
  have secret : possibleSecret.search none (letteredSkill n).toList = false :=
    Regex.search_of_absent possibleSecret_needs fun c mem =>
      (plain c (mem_letteredSkill mem)).2.2
  intro f mem
  simp only [textFindings, removes, recurses, secret, Bool.or_self, Bool.false_eq_true, if_false,
    List.append_nil, List.mem_append] at mem
  obtain (mem | mem) | mem := mem
  all_goals
    split at mem
    · rw [List.mem_singleton.mp mem]
      exact Severity.noConfusion
    · exact absurd mem List.not_mem_nil

theorem utf8ByteSize_letters (n : Nat) :
    (String.ofList (List.replicate n 'x')).utf8ByteSize = n := by
  induction n with
  | zero => rfl
  | succ n ih =>
    rw [List.replicate_succ, utf8ByteSize_cons, ih]
    exact Nat.add_comm 1 n

theorem lettered_size (n : Nat) : (letteredSkill n).utf8ByteSize = 60 + n := by
  have above : header.utf8ByteSize = 59 := by decide
  have last : (String.ofList ['\n']).utf8ByteSize = 1 := by decide
  rw [← String.ofList_toList (s := letteredSkill n), letteredSkill_toList, String.ofList_append,
    String.ofList_append, String.utf8ByteSize_append, String.utf8ByteSize_append,
    String.ofList_toList, utf8ByteSize_letters, above, last]
  omega

theorem exists_lettered {n : Nat} (small : n ≤ MAX_FILE_BYTES) :
    ∃ preview, readSnapshot D yaml (lettered n) = .ok (preview, [("SKILL.md", letteredSkill n)]) ∧
      preview.compatibility ≠ .blocked := by
  have plain : '\r' ∉ (String.ofList (List.replicate n 'x')).toList := by
    rw [String.toList_ofList]
    intro mem
    exact absurd (List.eq_of_mem_replicate mem) (by decide)
  have collected : collect yaml (lettered n) = .ok (("c", "Imported Claude command: c",
      [("SKILL.md", letteredSkill n)]), [SkillFinding.mk "legacy_command" .review "SKILL.md"
        "Claude command was normalized into an Agent Skill."]) := by
    have text : readFile (String.ofList (List.replicate n 'x')).toByteArray =
        .ok (String.ofList (List.replicate n 'x')) :=
      readFile_text (by rwa [utf8ByteSize_letters]) (newlines_of_not_mem plain)
    have file (content : String) : normalized (lettered n) content =
        ("c", "Imported Claude command: c", [("SKILL.md", renderSkill "c"
          "Imported Claude command: c" content)]) := by
      have described : "Imported Claude command: " ++ String.ofList
          ((["c.md"].getLastD "").toList.take
            ((["c.md"].getLastD "").length - (suffix ["c.md"]).length)) =
              "Imported Claude command: c" := by
        decide
      rw [← described]
      rfl
    show (readFile (String.ofList (List.replicate n 'x')).toByteArray >>= fun content => _) = _
    rw [text, ok_bind, file]
    rfl
  rw [readSnapshot, collected, ok_bind]
  refine ⟨_, rfl, ?_⟩
  dsimp only
  rw [if_neg]
  · split
    · exact Compatibility.noConfusion
    · exact Compatibility.noConfusion
  · intro found
    obtain ⟨f, mem, blocked⟩ := List.any_eq_true.mp found
    obtain first | later := List.mem_append.mp mem
    · rw [List.mem_singleton.mp first] at blocked
      exact absurd blocked (by decide)
    · rw [List.flatMap_singleton, partsOf_skill] at later
      exact textFindings_lettered n f later (of_decide_eq_true blocked)

/-- A command of one letter is imported and gives back its text. -/
theorem lettered_returns : ∃ preview files,
    readSnapshot transparent (fun _ => none) (lettered 1) = .ok (preview, files) ∧
      RoundTrips transparent (fun _ => none) "/library" .empty [lettered 1] "tenant" "c" "first" 0
        preview files := by
  obtain ⟨preview, read, passes⟩ := @exists_lettered transparent (fun _ => none) 1 (by decide)
  have resolved : resolveCandidate [lettered 1] "c" = .ok (lettered 1) := rfl
  refine ⟨preview, _, read, (roundTrips_iff [] ?_ ?_ resolved read passes ?_).mpr ⟨?_, ?_⟩⟩
  · exact fun call mem => absurd mem List.not_mem_nil
  · intro c mem
    rw [List.mem_singleton.mp mem]
    decide
  · exact fun v mem => absurd mem Table.not_mem_empty
  · intro text skill
    cases skill
    rw [lettered_size]
    decide
  · intro row absent
    nomatch absent

/-- A command whose file is as long as a file may be: it previews as not blocked and is imported,
but the skill that it was made into is longer than a file may be. -/
theorem lettered_lost : ∃ preview files,
    readSnapshot transparent (fun _ => none) (lettered MAX_FILE_BYTES) = .ok (preview, files) ∧
      preview.compatibility ≠ .blocked ∧
      ¬ RoundTrips transparent (fun _ => none) "/library" .empty [lettered MAX_FILE_BYTES] "tenant"
        "c" "first" 0 preview files := by
  obtain ⟨preview, read, passes⟩ := @exists_lettered transparent (fun _ => none) _
    (Nat.le_refl MAX_FILE_BYTES)
  refine ⟨preview, _, read, passes, fun returns => ?_⟩
  have named : ∀ c ∈ [lettered MAX_FILE_BYTES], isName c.name := by
    intro c mem
    rw [List.mem_singleton.mp mem]
    decide
  have small := ((Library.kept_empty.round_trips named rfl read passes
    fun v mem => absurd mem Table.not_mem_empty).mp returns).small _ rfl
  rw [lettered_size] at small
  omega

end Corvus.Skills
