import Corvus.Library.Calendar
import Corvus.Library.Regex
import Corvus.Library.Run
import Corvus.Library.Table
import Corvus.Skills.Package
import Mathlib.Data.List.Infix

/-!
# Reviewed imports

`SkillImportService` of `mvp/skill_imports.py`: the preview of a candidate, its import under
the digest that was reviewed, and the instructions of an active version. What discovery finds
and what the library folder holds are arguments of the calls that look at them, so nothing is
assumed of the files between two calls.
-/

namespace Corvus.Skills

open Corvus.Text

inductive Severity where
  | info | review | blocked
deriving DecidableEq

structure SkillFinding where
  code : String
  severity : Severity
  location : String
  message : String

inductive Source where
  | codex | claude | hermes | agents | copilot | generic
deriving DecidableEq

/-- What lies at the path of a candidate, by its kind. -/
inductive Content where
  | package (root : Package)
  | legacyCommand (raw : ByteArray)

structure SkillCandidate where
  id : String
  source : Source
  name : String
  path : List String
  content : Content

inductive Compatibility where
  | ready | needsReview | blocked
deriving DecidableEq

inductive Duplicate where
  | none | exact | variant

structure SkillImportPreview where
  name : String
  description : String
  digest : String
  compatibility : Compatibility
  findings : List SkillFinding
  files : List String
  duplicate : Duplicate

inductive VersionStatus where
  | draft | active | archived
deriving DecidableEq

structure PortableSkillVersion where
  id : String
  tenantId : String
  name : String
  description : String
  version : Nat
  digest : String
  source : Source
  sourcePath : String
  packagePath : String
  status : VersionStatus
  findings : List SkillFinding
  createdAt : Instant

instance : Keyed PortableSkillVersion String := ⟨PortableSkillVersion.id⟩

/-! ## Frontmatter -/

/-- What the source looks at in the mapping of a frontmatter: the name and the description
where they are text, and the text of the allowed tools where there are any. -/
structure Metadata where
  name : Option String
  description : Option String
  allowedTools : Option String

/-- `_NAME`. -/
def isName (name : String) : Bool :=
  let letter := fun c => isLowerAscii c || isDigitAscii c
  name.toList.head?.any letter && name.toList.all (fun c => letter c || c = '-') &&
    name.length ≤ 64

/-- The text before the first occurrence of another. -/
def upTo (needle : List Char) : List Char → Option (List Char)
  | [] => if needle = [] then some [] else none
  | c :: s => if needle <+: c :: s then some [] else (upTo needle s).map (c :: ·)

/-- `_frontmatter`. `yaml` gives the mapping that a text stands for, if it stands for one. -/
def frontmatter (yaml : String → Option Metadata) (content : String) :
    Except String (String × String × Metadata) := do
  refuse (¬ "---\n".toList <+: content.toList) "skill_frontmatter_missing"
  let block ← present (upTo "\n---".toList (content.toList.drop 4)) "skill_frontmatter_invalid"
  let metadata ← present (yaml (String.ofList block)) "skill_frontmatter_invalid"
  let name ← present (metadata.name.filter isName) "skill_name_invalid"
  let description ← present (metadata.description.filter fun d =>
    1 ≤ (strip d).length && (strip d).length ≤ 1024) "skill_description_invalid"
  return (name, strip description, metadata)

/-- `_render_skill`. -/
def renderSkill (name description body : String) : String :=
  "---\nname: " ++ name ++ "\ndescription: " ++ Json.dumpsAscii (.str description) ++
    "\n---\n\n" ++ strip body ++ "\n"

/-! ## Findings -/

def holds (needle : String) (text : List Char) : Bool := decide (needle.toList <:+: text)

/-- The tokens that the search for embedded credentials finds. -/
def possibleSecret : Regex :=
  let same := fun c d : Char => decide (foldCase d = c)
  .seq (.alts (.word same "sk-".toList)
      [.word same "ghp_".toList, .word same "github_pat_".toList])
    (.several 16 none fun c =>
      isLowerAscii (foldCase c) || isDigitAscii c || c = '_' || c = '-')

/-- The findings on the text of one file. -/
def textFindings (relative : String) (parts : List String) (content : String) :
    List SkillFinding :=
  let lowered := lower content.toList
  let finding := fun (found : Bool) code severity message =>
    if found then [SkillFinding.mk code severity relative message] else []
  finding (String.ofList (lower (suffix parts).toList) ∈ EXECUTABLE_SUFFIXES)
      "executable_content" .review
      "Executable content is imported disabled and requires review." ++
    finding (holds "curl " lowered || holds "wget " lowered || holds "invoke-webrequest" lowered)
      "network_command" .review "Network command detected." ++
    finding (holds "rm -rf" lowered || holds "remove-item -recurse" lowered)
      "destructive_command" .blocked "Destructive recursive command detected." ++
    finding (possibleSecret.search none content.toList)
      "possible_secret" .blocked "Possible embedded credential detected." ++
    finding (holds "$\x7bclaude_skill_dir\x7d" lowered || holds "!\x60" content.toList)
      "vendor_dynamic_substitution" .review
      "Vendor-specific dynamic substitution requires review."

/-- The parts of a relative path. -/
def partsOf (relative : String) : List String :=
  (relative.toList.splitOn '/').map String.ofList

/-- The file of a command, made into a skill. -/
def normalized (candidate : SkillCandidate) (content : String) : String × String × Files :=
  let file := candidate.path.getLastD ""
  let stem := String.ofList (file.toList.take (file.length - (suffix candidate.path).length))
  let description := "Imported Claude command: " ++ stem
  (candidate.name, description, [("SKILL.md", renderSkill candidate.name description content)])

/-- The first part of `_read_snapshot`: the name, the description and the files, with the
findings that are not about the text of one file. -/
def collect (yaml : String → Option Metadata) (candidate : SkillCandidate) :
    Except String ((String × String × Files) × List SkillFinding) :=
  match candidate.content with
  | .legacyCommand raw => do
      let content ← readFile raw
      return (normalized candidate content, [SkillFinding.mk "legacy_command" .review "SKILL.md"
        "Claude command was normalized into an Agent Skill."])
  | .package root => do
      let (files, ignored) ← readPackageSnapshot root
      let skillContent ← present (files.lookup "SKILL.md") "skill_manifest_missing"
      let (name, description, metadata) ← frontmatter yaml skillContent
      return ((name, description, files),
        ignored.map (SkillFinding.mk "binary_asset_omitted" .info ·
          "Binary asset was omitted from the executable skill copy.") ++
        (if name ≠ candidate.name then [SkillFinding.mk "name_directory_mismatch" .blocked
          "SKILL.md" "Skill name must match its directory."] else []) ++
        metadata.allowedTools.toList.map fun tools => SkillFinding.mk "unapproved_tools" .review
          "SKILL.md" ("Requested tools require approval: " ++ tools))

/-- `_read_snapshot`. -/
def readSnapshot (D : Digests) (yaml : String → Option Metadata) (candidate : SkillCandidate) :
    Except String (SkillImportPreview × Files) := do
  let ((name, description, files), first) ← collect yaml candidate
  let findings := first ++ files.flatMap fun f => textFindings f.1 (partsOf f.1) f.2
  let compatibility := if findings.any (·.severity = .blocked) then .blocked
    else if findings ≠ [] then .needsReview else .ready
  return ({ name, description, digest := filesDigest D files, compatibility, findings
            files := files.map Prod.fst, duplicate := .none }, files)

/-! ## The service -/

/-- The stored versions. With each version stand the files that were copied for it. -/
structure Library where
  versions : Table PortableSkillVersion
  copied : List (String × Files)

/-- `_with_duplicate`. -/
def Library.duplicate (s : Library) (tenantId : String) (preview : SkillImportPreview) :
    Duplicate :=
  if s.versions.rows.any fun v => v.tenantId = tenantId && v.digest = preview.digest then .exact
  else if s.versions.rows.any fun v => v.tenantId = tenantId && v.name = preview.name then .variant
  else .none

/-- `_resolve_candidate`, among the candidates that discovery finds. -/
def resolveCandidate (found : List SkillCandidate) (candidateId : String) :
    Except String SkillCandidate :=
  present (found.find? (·.id = candidateId)) "skill_candidate_not_found"

/-- `preview`. -/
def Library.preview (D : Digests) (yaml : String → Option Metadata) (s : Library)
    (found : List SkillCandidate) (tenantId candidateId : String) :
    Except String SkillImportPreview := do
  let candidate ← resolveCandidate found candidateId
  let (preview, _) ← readSnapshot D yaml candidate
  return { preview with duplicate := s.duplicate tenantId preview }

/-- `COALESCE(MAX(version), 0) + 1`. -/
def Library.nextVersion (s : Library) (tenantId name : String) : Nat :=
  ((s.versions.rows.filter fun v => v.tenantId = tenantId && v.name = name).map
    (·.version)).foldr max 0 + 1

/-- The `INSERT`, which the constraints of the table may refuse. -/
def Library.insert (s : Library) (record : PortableSkillVersion) (files : Files) :
    Option Library :=
  if s.versions.rows.any fun v => v.tenantId = record.tenantId &&
      (v.name = record.name && v.version = record.version || v.digest = record.digest) then none
  else (s.versions.insert? record).map fun versions =>
    { versions, copied := s.copied ++ [(record.id, files)] }

/-- `import_draft`, with the new identifier of a version. -/
def Library.importDraft (D : Digests) (yaml : String → Option Metadata) (libraryRoot : String)
    (s : Library) (found : List SkillCandidate) (tenantId candidateId expectedDigest : String)
    (identifier : String) (now : Instant) : Except String (PortableSkillVersion × Library) := do
  let candidate ← resolveCandidate found candidateId
  let (preview, files) ← readSnapshot D yaml candidate
  refuse (preview.digest ≠ expectedDigest) "skill_candidate_changed"
  refuse (preview.compatibility = .blocked) "skill_import_blocked"
  match s.versions.rows.find? fun v => v.tenantId = tenantId && v.digest = preview.digest with
  | some row => return (row, s)
  | none =>
      let version := s.nextVersion tenantId preview.name
      let record : PortableSkillVersion :=
        { id := identifier
          tenantId
          name := preview.name
          description := preview.description
          version
          digest := preview.digest
          source := candidate.source
          sourcePath := asPosix candidate.path
          packagePath := libraryRoot ++ "/" ++ identifier ++ "/" ++ toString version
          status := .draft
          findings := preview.findings
          createdAt := now }
      match s.insert record files with
      | some s => return (record, s)
      | none => throw "skill_import_conflict"

def withStatus (status : VersionStatus) : Rewrite PortableSkillVersion where
  apply v := { v with status }
  keeps _ := rfl

/-- `activate`. -/
def Library.activate (s : Library) (tenantId skillId : String) : Except String Library := do
  let row ← present (s.versions.rows.find? fun v => v.tenantId = tenantId && v.id = skillId)
    "skill_not_found"
  let others := s.versions.update
    (fun v => v.tenantId = tenantId && v.name = row.name && v.status = .active) (withStatus .draft)
  return { s with versions := others.update (·.id = skillId) (withStatus .active) }

/-- `archive`. -/
def Library.archive (s : Library) (tenantId skillId : String) : Except String Library := do
  refuse (s.versions.rows.all fun v => ¬ (v.tenantId = tenantId && v.id = skillId))
    "skill_not_found"
  let versions := s.versions.update (fun v => v.tenantId = tenantId && v.id = skillId)
    (withStatus .archived)
  return { s with versions }

/-- `instructions`. `package` is what lies at a path of the library folder, unless it is
unsafe or missing. -/
def Library.instructions (D : Digests) (s : Library) (package : String → Option Package)
    (tenantId skillId : String) : Except String String := do
  let row ← present (s.versions.rows.find? fun v =>
    v.tenantId = tenantId && v.id = skillId && v.status = .active) "skill_not_found"
  let root ← present (package row.packagePath) "skill_package_unsafe"
  let files ← readPackage root
  refuse (filesDigest D files ≠ row.digest) "skill_package_changed"
  present (files.lookup "SKILL.md") "skill_manifest_missing"

/-! ## Runs -/

/-- A call that writes. -/
inductive Call where
  | importDraft (found : List SkillCandidate) (tenantId candidateId expectedDigest : String)
      (identifier : String) (now : Instant)
  | activate (tenantId skillId : String)
  | archive (tenantId skillId : String)

def Library.empty : Library := ⟨∅, []⟩

/-- The library that a call leaves. -/
def Library.perform (D : Digests) (yaml : String → Option Metadata) (libraryRoot : String)
    (s : Library) : Call → Except String Library
  | .importDraft found tenantId candidateId expectedDigest identifier now =>
      Prod.snd <$> s.importDraft D yaml libraryRoot found tenantId candidateId expectedDigest
        identifier now
  | .activate tenantId skillId => s.activate tenantId skillId
  | .archive tenantId skillId => s.archive tenantId skillId

/-- A call that raises leaves the library as it was. -/
def Library.step (D : Digests) (yaml : String → Option Metadata) (libraryRoot : String)
    (s : Library) (call : Call) : Library :=
  match s.perform D yaml libraryRoot call with
  | .ok s => s
  | .error _ => s

end Corvus.Skills
