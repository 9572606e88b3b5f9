import Corvus.Skills.Imports

/-!
# What a reviewed digest binds

The digest of a package is that of one text in which NUL characters follow the paths and the
contents. A content may have such characters in it, so the digest binds the files exactly
when their pieces can be grouped in no other way into files that a review could show.
-/

namespace Corvus.Skills

open Run (Reachable)
open Text (lower)

variable {D : Digests} {yaml : String → Option Metadata} {libraryRoot : String} {s s' : Library}
  {found : List SkillCandidate} {candidate : SkillCandidate} {preview : SkillImportPreview}
  {files files' : Files} {tenantId candidateId skillId expectedDigest identifier : String}
  {version row : PortableSkillVersion} {now : Instant} {package : String → Option Package}
  {call : Call}

/-- The lists that a review can show: the files of a package, or a command made into a
skill. -/
def Reviewable (files : Files) : Prop :=
  Readable files ∨ ∃ candidate raw content, readFile raw = .ok content ∧
    files = (normalized candidate content).2.2

theorem Reviewable.clean (reviewable : Reviewable files) :
    ∀ f ∈ records files, Char.ofNat 0 ∉ f.1 := by
  obtain readable | ⟨candidate, raw, content, _, rfl⟩ := reviewable
  · exact readable.clean
  · intro f mem
    rw [records, normalized, List.map_singleton, List.mem_singleton] at mem
    rw [mem]
    dsimp only
    decide

/-- Two lists that can be reviewed have one digest exactly when one is a regrouping of the
other. -/
theorem filesDigest_eq_iff_mem (injective : Function.Injective D.sha256)
    (reviewable : Reviewable files) (reviewable' : Reviewable files') :
    filesDigest D files' = filesDigest D files ↔ files' ∈ regroupings files :=
  filesDigest_eq_iff_of_clean injective reviewable.clean reviewable'.clean

/-! ## One call -/

theorem collect_reviewable {name description : String} {first : List SkillFinding}
    (collected : collect yaml candidate = .ok ((name, description, files), first)) :
    Reviewable files := by
  rw [collect] at collected
  split at collected
  · next raw _ =>
    obtain ⟨content, text, done⟩ := bind_eq_ok.mp collected
    cases done
    exact .inr ⟨candidate, raw, content, text, rfl⟩
  · next root _ =>
    obtain ⟨⟨values, ignored⟩, scanned, rest⟩ := bind_eq_ok.mp collected
    obtain ⟨skillContent, _, rest⟩ := bind_eq_ok.mp rest
    obtain ⟨⟨name, description, metadata⟩, _, done⟩ := bind_eq_ok.mp rest
    cases done
    refine .inl ⟨root, ?_⟩
    rw [readPackage, scanned]
    rfl

/-- A snapshot has the digest of its files. -/
theorem readSnapshot_ok (read : readSnapshot D yaml candidate = .ok (preview, files)) :
    preview.digest = filesDigest D files ∧ Reviewable files := by
  obtain ⟨⟨⟨name, description, shown⟩, first⟩, collected, done⟩ := bind_eq_ok.mp read
  obtain ⟨rfl, rfl⟩ := Prod.mk.inj (Except.ok.inj done)
  exact ⟨rfl, collect_reviewable collected⟩

/-- An import copies nothing, or the files of a snapshot with the expected digest. -/
theorem importDraft_ok (imported : s.importDraft D yaml libraryRoot found tenantId candidateId
    expectedDigest identifier now = .ok (version, s')) :
    s' = s ∨ ∃ candidate ∈ found, ∃ preview files,
      readSnapshot D yaml candidate = .ok (preview, files) ∧
      filesDigest D files = expectedDigest ∧ version.digest = expectedDigest ∧
      s'.versions.rows = s.versions.rows ++ [version] ∧
      s'.copied = s.copied ++ [(version.id, files)] := by
  obtain ⟨candidate, resolved, rest⟩ := bind_eq_ok.mp imported
  have listed := List.mem_of_find?_eq_some (present_eq_ok.mp resolved)
  obtain ⟨⟨preview, files⟩, read, rest⟩ := bind_eq_ok.mp rest
  obtain ⟨_, expected, rest⟩ := bind_eq_ok.mp rest
  obtain ⟨_, _, rest⟩ := bind_eq_ok.mp rest
  obtain ⟨digest, _⟩ := readSnapshot_ok read
  have same : preview.digest = expectedDigest := Decidable.not_not.mp (refuse_eq_ok.mp expected)
  split at rest
  · cases rest
    exact .inl rfl
  · dsimp only at rest
    split at rest
    · next after inserted =>
      obtain ⟨rfl, rfl⟩ := Prod.mk.inj (Except.ok.inj rest)
      rw [Library.insert] at inserted
      split at inserted
      · nomatch inserted
      · obtain ⟨versions, added, rfl⟩ := Option.map_eq_some_iff.mp inserted
        exact .inr ⟨candidate, listed, preview, files, read, digest.symm.trans same, same,
          (Table.insert?_eq_some.mp added).2, rfl⟩
    · nomatch rest

/-- Instructions are those of the files that lie at the path of the version and have its
digest. -/
theorem instructions_ok {text : String}
    (read : s.instructions D package tenantId skillId = .ok text) :
    ∃ row ∈ s.versions, row.id = skillId ∧ ∃ root files, package row.packagePath = some root ∧
      readPackage root = .ok files ∧ filesDigest D files = row.digest ∧
      files.lookup "SKILL.md" = some text := by
  obtain ⟨row, active, rest⟩ := bind_eq_ok.mp read
  obtain ⟨root, lies, rest⟩ := bind_eq_ok.mp rest
  obtain ⟨files, files_read, rest⟩ := bind_eq_ok.mp rest
  obtain ⟨_, unchanged, manifest⟩ := bind_eq_ok.mp rest
  have selected := present_eq_ok.mp active
  have matching := List.find?_some selected
  rw [Bool.and_eq_true, Bool.and_eq_true, decide_eq_true_eq, decide_eq_true_eq] at matching
  exact ⟨row, List.mem_of_find?_eq_some selected, matching.1.2, root, files,
    present_eq_ok.mp lies, files_read, Decidable.not_not.mp (refuse_eq_ok.mp unchanged),
    present_eq_ok.mp manifest⟩

/-! ## Runs -/

/-- Every version has the digest of the files that were copied for it. -/
def Library.Bound (D : Digests) (s : Library) : Prop :=
  ∀ e ∈ s.copied, ∃ row ∈ s.versions, row.id = e.1 ∧ row.digest = filesDigest D e.2

theorem Library.Bound.update {p : PortableSkillVersion → Bool} {status : VersionStatus}
    (bound : s.Bound D) :
    ({ s with versions := s.versions.update p (withStatus status) } : Library).Bound D := by
  intro e mem
  obtain ⟨row, stored, same, digest⟩ := bound e mem
  refine ⟨_, Table.mem_update_of_mem stored, ?_⟩
  split
  · exact ⟨same, digest⟩
  · exact ⟨same, digest⟩

theorem Library.Bound.step (bound : s.Bound D) : (s.step D yaml libraryRoot call).Bound D := by
  rw [Library.step]
  split
  · next after result =>
    cases call with
    | importDraft found tenantId candidateId expectedDigest identifier now =>
      obtain ⟨⟨version, s'⟩, imported, rfl⟩ := map_ok result
      obtain rfl | ⟨_, _, _, files, _, digest, recorded, rows, copied⟩ := importDraft_ok imported
      · exact bound
      · intro e mem
        have kept : ∀ row ∈ s.versions, row ∈ s'.versions := fun row stored => by
          rw [Table.mem_iff, rows]
          exact List.mem_append_left _ stored
        rw [copied] at mem
        obtain earlier | new := List.mem_append.mp mem
        · obtain ⟨row, stored, fits⟩ := bound e earlier
          exact ⟨row, kept row stored, fits⟩
        · obtain rfl := List.mem_singleton.mp new
          refine ⟨version, ?_, rfl, recorded.trans digest.symm⟩
          rw [Table.mem_iff, rows]
          exact List.mem_append_right _ (List.mem_singleton_self version)
    | activate tenantId skillId =>
      obtain ⟨row, _, done⟩ := bind_eq_ok.mp result
      cases done
      exact (bound.update (p := fun v => v.tenantId = tenantId && v.name = row.name &&
        v.status = .active)).update
    | archive tenantId skillId =>
      obtain ⟨_, _, done⟩ := bind_eq_ok.mp result
      cases done
      exact bound.update
  · exact bound

theorem Library.bound_of_reachable
    (reachable : Reachable (Library.step D yaml libraryRoot) .empty s) : s.Bound D :=
  reachable.preserves (fun _ mem => nomatch mem) fun _ _ bound => bound.step

/-! ## What the digest binds -/

/-- The digest of a list of files stands for it: no other list that can be reviewed has it,
an import under the digest of its preview copies no other files, and the instructions of a
version that it was copied for are read from it. -/
structure DigestBinds (D : Digests) (yaml : String → Option Metadata) (libraryRoot : String)
    (files : Files) : Prop where
  unique : ∀ files', Reviewable files' → filesDigest D files' = filesDigest D files →
    files' = files
  imported : ∀ candidate preview, readSnapshot D yaml candidate = .ok (preview, files) →
    ∀ (s s' : Library) found tenantId candidateId identifier now version,
      s.importDraft D yaml libraryRoot found tenantId candidateId preview.digest identifier now =
        .ok (version, s') →
      s'.copied = s.copied ∨ s'.copied = s.copied ++ [(version.id, files)]
  instructed : ∀ s, Reachable (Library.step D yaml libraryRoot) .empty s →
    ∀ skillId, (skillId, files) ∈ s.copied → ∀ package tenantId text,
      s.instructions D package tenantId skillId = .ok text →
      ∃ row ∈ s.versions, row.id = skillId ∧ ∃ root, package row.packagePath = some root ∧
        readPackage root = .ok files ∧ files.lookup "SKILL.md" = some text

/-- The digest of files binds them exactly when the paths and the NUL-separated pieces of
their contents are those of no other list that a review could show. -/
theorem digest_binds_iff (injective : Function.Injective D.sha256)
    (reviewable : Reviewable files) : DigestBinds D yaml libraryRoot files ↔
      ∀ files' ∈ regroupings files, Reviewable files' → files' = files := by
  constructor
  · intro binds files' mem reviewable'
    exact binds.unique files' reviewable'
      ((filesDigest_eq_iff_mem injective reviewable reviewable').mpr mem)
  · intro rigid
    have unique : ∀ files', Reviewable files' → filesDigest D files' = filesDigest D files →
        files' = files := fun files' reviewable' same =>
      rigid files' ((filesDigest_eq_iff_mem injective reviewable reviewable').mp same) reviewable'
    refine ⟨unique, ?_, ?_⟩
    · intro candidate preview read s s' found tenantId candidateId identifier now version imported
      obtain rfl | ⟨_, _, _, files', read', digest, _, _, copied⟩ := importDraft_ok imported
      · exact .inl rfl
      · rw [unique files' (readSnapshot_ok read').2
          (digest.trans (readSnapshot_ok read).1)] at copied
        exact .inr copied
    · intro s reachable skillId mem package tenantId text read
      obtain ⟨row, stored, same, root, files', lies, read, digest, manifest⟩ := instructions_ok read
      obtain ⟨row', stored', same', digest'⟩ := Library.bound_of_reachable reachable _ mem
      obtain rfl := Table.eq_of_key stored stored' (same.trans same'.symm)
      obtain rfl := unique files' (.inl ⟨root, read⟩) (digest.trans digest')
      exact ⟨row, stored, same, root, lies, read, manifest⟩

/-! ## Small packages -/

section

variable {name text : String}

theorem readFile_text (small : text.utf8ByteSize ≤ MAX_FILE_BYTES)
    (plain : newlines text.toList = text.toList) : readFile text.toByteArray = .ok text := by
  have decoded : String.fromUTF8? text.toByteArray = some text := by
    rw [String.fromUTF8?, dif_pos text.isValidUTF8]
    rfl
  have read : readFile text.toByteArray = .ok (String.ofList (newlines text.toList)) := by
    rw [readFile, refuse, if_neg (by rw [String.size_toByteArray]; omega), decoded]
    rfl
  rw [read, plain, String.ofList_toList]

/-- A file of Markdown at the top of a package. -/
theorem scan_markdown {total count : Nat} {entries : List (List String × Node)} {values : Files}
    {assets : List String} (named : name ≠ "..")
    (markdown : String.ofList (lower (suffix [name]).toList) = ".md")
    (small : text.utf8ByteSize ≤ 1024) (room : total ≤ 1024 ∧ count ≤ 1)
    (plain : newlines text.toList = text.toList)
    (rest : scan (total + text.utf8ByteSize) (count + 1) entries = .ok (values, assets)) :
    scan total count (([name], .file text.toByteArray) :: entries) =
      .ok ((name, text) :: values, assets) := by
  have limits : MAX_FILE_BYTES = 2097152 ∧ MAX_PACKAGE_BYTES = 20971520 ∧ MAX_FILES = 500 :=
    ⟨rfl, rfl, rfl⟩
  have admitted : admitFile total count [name] text.toByteArray = .ok (some text) := by
    rw [admitFile, refuse, if_neg (by simpa using Ne.symm named), ok_bind, refuse,
      if_neg (by rw [String.size_toByteArray]; omega), ok_bind, refuse,
      if_neg (by rw [String.size_toByteArray]; omega), ok_bind, markdown,
      readFile_text (by omega) plain]
    rfl
  have path : asPosix [name] = name := by
    rw [asPosix, List.map_singleton, List.intercalate_singleton, String.ofList_toList]
  rw [scan, admitted, ok_bind, String.size_toByteArray, rest, ok_bind, path]
  rfl

theorem readable_markdown (valid : FileName name)
    (markdown : String.ofList (lower (suffix [name]).toList) = ".md")
    (small : text.utf8ByteSize ≤ 1024) (plain : newlines text.toList = text.toList) :
    Readable [(name, text)] := by
  refine ⟨⟨[([name], .file text.toByteArray)], List.pairwise_singleton _ _, ?_, ?_⟩, ?_⟩
  · intro e mem part listed
    rw [List.mem_singleton.mp mem] at listed
    rw [List.mem_singleton.mp listed]
    exact valid
  · intro e mem
    rw [List.mem_singleton.mp mem]
    exact ⟨List.cons_ne_nil _ _, fun _ inner => nomatch inner⟩
  · have named : name ≠ ".." := fun same => valid.1 (by simp [same])
    rw [readPackage, readPackageSnapshot, scan_markdown named markdown small ⟨by omega, by omega⟩ plain rfl]
    rfl

end

/-- SHA-256 as a function that is injective: the text itself. -/
def transparent : Digests := ⟨id, fun _ => ⟨0⟩⟩

theorem digest_binds_sample :
    DigestBinds transparent (fun _ => none) "/library" [("notes.md", "x")] := by
  have alone : regroupings [("notes.md", "x")] = [[("notes.md", "x")]] := by decide
  refine (digest_binds_iff (fun _ _ same => same) (.inl (readable_markdown (by decide) (by decide)
    (by decide) (by decide)))).mpr fun files mem _ => ?_
  rw [alone] at mem
  exact List.mem_singleton.mp mem

/-! ## One package for another -/

/-- A skill with a note beside it. -/
def noted : Files := [("SKILL.md", "---\nname: s\ndescription: d\n---\n"), ("b.md", "x")]

/-- The skill with the note in its own text. -/
def merged : Files := [("SKILL.md", "---\nname: s\ndescription: d\n---\n\x00b.md\x00x")]

theorem readable_noted : Readable noted := by
  refine ⟨⟨[(["SKILL.md"], .file "---\nname: s\ndescription: d\n---\n".toByteArray),
    (["b.md"], .file "x".toByteArray)], by decide, by decide, by decide⟩, ?_⟩
  have note : scan (0 + "---\nname: s\ndescription: d\n---\n".utf8ByteSize) (0 + 1)
      [(["b.md"], .file "x".toByteArray)] = .ok ([("b.md", "x")], []) :=
    scan_markdown (by decide) (by decide) (by decide) ⟨by decide, by decide⟩ (by decide) rfl
  rw [readPackage, readPackageSnapshot, scan_markdown (by decide) (by decide) (by decide)
    ⟨by decide, by decide⟩ (by decide) note]
  rfl

/-- The digest of the two packages is one, whatever the digest function. -/
theorem boundary_shifted : Readable noted ∧ Readable merged ∧ noted ≠ merged ∧
    ∀ D, filesDigest D merged = filesDigest D noted := by
  have same : digestText merged = digestText noted := by decide +kernel
  exact ⟨readable_noted, readable_markdown (by decide) (by decide) (by decide) (by decide),
    by decide, fun D => congrArg (fun text => D.sha256 (String.ofList text)) same⟩

end Corvus.Skills
