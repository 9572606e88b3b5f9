import Corvus.Conversations.Repository

/-!
# Attachments

The references to attachments, and the method of the repository that registers them. What other
methods know of their table is whether it has an attachment.
-/

namespace Corvus.Conversations

/-- What is taken from elsewhere besides: whether metadata pass as free of secrets and of the names
of places. -/
structure ServiceModels extends Models where
  admitsMetadata : List (String × Json) → Bool

structure AttachmentRef where
  id : Uuid
  workspaceId : Uuid
  ownerPrincipalId : Uuid
  ownerMembershipVersion : Nat
  displayName : String
  mediaType : String
  byteSize : Nat
  contentDigest : String
  metadata : List (String × Json)
  createdAt : Aware
deriving DecidableEq

def MAX_METADATA_BYTES : Nat := 64 * 1024

def MAX_ATTACHMENT_BYTES : Nat := 10 * 1024 * 1024 * 1024

def AttachmentRef.validate (S : ServiceModels) (a : AttachmentRef) :
    Except Raised AttachmentRef := do
  positive a.ownerMembershipVersion
  require (safeLeafName a.displayName = true) (.validation "attachment_name_must_be_safe_leaf")
  require (a.mediaType.length ≤ MAX_MEDIA_TYPE_CHARACTERS ∧ mediaTypeMatches a.mediaType = true)
    (.validation "attachment_media_type_invalid")
  require (a.byteSize ≤ MAX_ATTACHMENT_BYTES) (.validation "less_than_equal")
  digestField a.contentDigest
  require (S.admitsMetadata a.metadata = true)
    (.validation "attachment_metadata_sensitive_payload_rejected")
  require ((Json.dumps (.obj a.metadata)).utf8ByteSize ≤ MAX_METADATA_BYTES)
    (.validation "attachment_metadata_too_large")
  return { a with mediaType := casefold a.mediaType }

/-- Two references are equal if they differ in the offset of their time only. -/
def AttachmentRef.same (a b : AttachmentRef) : Prop :=
  { a with createdAt.offset := 0 } = { b with createdAt.offset := 0 }

instance (a b : AttachmentRef) : Decidable (a.same b) := inferInstanceAs (Decidable (_ = _))

structure AttachmentRow where
  workspaceId : Uuid
  id : Uuid
  ownerPrincipalId : Uuid
  ownerMembershipVersion : Nat
  displayName : String
  mediaType : String
  byteSize : Nat
  contentDigest : String
  metadataJson : String
  createdAt : String

instance : Keyed AttachmentRow (Uuid × Uuid) := ⟨fun r => (r.workspaceId, r.id)⟩

def AttachmentRef.row (a : AttachmentRef) : AttachmentRow where
  workspaceId := a.workspaceId
  id := a.id
  ownerPrincipalId := a.ownerPrincipalId
  ownerMembershipVersion := a.ownerMembershipVersion
  displayName := a.displayName
  mediaType := a.mediaType
  byteSize := a.byteSize
  contentDigest := a.contentDigest
  metadataJson := Json.dumps (.obj a.metadata)
  createdAt := a.createdAt.isoformat

/-- `_attachment_from_row`. -/
def attachmentFromRow (S : ServiceModels) (row : AttachmentRow) : Except Raised AttachmentRef := do
  let metadata ← payloadFrom row.metadataJson
  let createdAt ← S.time row.createdAt
  AttachmentRef.validate S {
    id := row.id
    workspaceId := row.workspaceId
    ownerPrincipalId := row.ownerPrincipalId
    ownerMembershipVersion := row.ownerMembershipVersion
    displayName := row.displayName
    mediaType := row.mediaType
    byteSize := row.byteSize
    contentDigest := row.contentDigest
    metadata := metadata
    createdAt := createdAt }

/-- `register_attachment`. -/
def registerAttachment (S : ServiceModels) (d : Directory) (attachments : Table AttachmentRow)
    (attachment : AttachmentRef) : Except Raised (Table AttachmentRow × AttachmentRef) := do
  d.requireMembership attachment.workspaceId attachment.ownerPrincipalId
    attachment.ownerMembershipVersion
  match attachments.get? (attachment.workspaceId, attachment.id) with
  | some existing =>
      let value ← attachmentFromRow S existing
      require (value.same attachment) (.repository "attachment_identity_conflict")
      return (attachments, value)
  | none =>
      require (d.memberships attachment.workspaceId attachment.ownerPrincipalId
        attachment.ownerMembershipVersion = true) (.repository "attachment_binding_invalid")
      let attachments ← present (attachments.insert? attachment.row)
        (.repository "attachment_binding_invalid")
      return (attachments, attachment)

/-- A directory that knows the attachments of a table. -/
def Directory.attaching (d : Directory) (attachments : Table AttachmentRow) : Directory :=
  { d with attachments := fun workspaceId id => (attachments.get? (workspaceId, id)).isSome }

end Corvus.Conversations
