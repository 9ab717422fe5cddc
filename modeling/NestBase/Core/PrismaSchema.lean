import NestBase.Lib.PrismaClient

/-!
# The models of the schema

The models of `schema.prisma` that the client has: their columns, the relations
with the foreign keys they are made of, and their unique keys.  A column is
needed when it is neither optional nor a list and has no default.
-/

namespace NestBase
namespace PrismaSchema

open Lib.Prisma

def needed (name : String) : Column where
  name := name
  needed := true

/-- An optional column, or one with a default. -/
def free (name : String) : Column where
  name := name
  needed := false

def HealthPing : Model where
  name := "HealthPing"
  columns :=
    [free "id", free "createdAt"]
  relations := []
  uniques := [["id"]]

def User : Model where
  name := "User"
  columns :=
    [free "id", needed "email", free "emailHash", free "name", free "emailVerified",
      free "image", free "twoFactorEnabled", free "role", free "banned", free "banReason",
      free "banExpires", free "createdAt", free "updatedAt"]
  relations :=
    [{ name := "apiKeys", fields := [] }, { name := "sessions", fields := [] },
      { name := "accounts", fields := [] }, { name := "twoFactors", fields := [] },
      { name := "passkeys", fields := [] }, { name := "pendingErasures", fields := [] },
      { name := "orgMemberships", fields := [] }, { name := "sentInvitations", fields := [] }]
  uniques := [["id"], ["email"], ["emailHash"]]

def Organization : Model where
  name := "Organization"
  columns :=
    [needed "id", needed "name", free "slug", free "logo", needed "createdAt",
      free "metadata"]
  relations :=
    [{ name := "members", fields := [] }, { name := "invitations", fields := [] },
      { name := "settings", fields := [] }]
  uniques := [["id"], ["slug"]]

def TenantSettings : Model where
  name := "TenantSettings"
  columns :=
    [free "id", needed "organizationId", free "logoUrl", free "primaryColor",
      free "storageLimitMb", free "contactEmail", free "deletedAt", free "createdAt",
      free "updatedAt"]
  relations :=
    [{ name := "organization", fields := ["organizationId"] }]
  uniques := [["id"], ["organizationId"]]

def Member : Model where
  name := "Member"
  columns :=
    [needed "id", needed "organizationId", needed "userId", needed "role",
      needed "createdAt"]
  relations :=
    [{ name := "organization", fields := ["organizationId"] },
      { name := "user", fields := ["userId"] }]
  uniques := [["id"]]

def Invitation : Model where
  name := "Invitation"
  columns :=
    [needed "id", needed "organizationId", needed "email", free "role",
      needed "status", needed "expiresAt", needed "inviterId"]
  relations :=
    [{ name := "organization", fields := ["organizationId"] },
      { name := "inviter", fields := ["inviterId"] }]
  uniques := [["id"]]

def Session : Model where
  name := "Session"
  columns :=
    [free "id", needed "userId", needed "token", needed "expiresAt",
      free "ipAddress", free "userAgent", free "fingerprint", free "activeOrganizationId",
      free "impersonatedBy", free "createdAt", free "updatedAt"]
  relations :=
    [{ name := "user", fields := ["userId"] }]
  uniques := [["id"], ["token"]]

def Account : Model where
  name := "Account"
  columns :=
    [free "id", needed "userId", needed "accountId", needed "providerId",
      free "accessToken", free "refreshToken", free "idToken", free "accessTokenExpiresAt",
      free "refreshTokenExpiresAt", free "scope", free "password", free "createdAt",
      free "updatedAt"]
  relations :=
    [{ name := "user", fields := ["userId"] }]
  uniques := [["id"]]

def Verification : Model where
  name := "Verification"
  columns :=
    [free "id", needed "identifier", needed "value", needed "expiresAt",
      free "createdAt", free "updatedAt"]
  relations := []
  uniques := [["id"]]

def Jwks : Model where
  name := "Jwks"
  columns :=
    [free "id", needed "publicKey", needed "privateKey", free "createdAt",
      free "expiresAt"]
  relations := []
  uniques := [["id"]]

def TwoFactor : Model where
  name := "TwoFactor"
  columns :=
    [free "id", needed "userId", needed "secret", needed "backupCodes",
      free "verified"]
  relations :=
    [{ name := "user", fields := ["userId"] }]
  uniques := [["id"]]

def Passkey : Model where
  name := "Passkey"
  columns :=
    [free "id", needed "userId", free "name", needed "publicKey",
      needed "credentialID", needed "counter", needed "deviceType", needed "backedUp",
      free "transports", free "createdAt", free "aaguid"]
  relations :=
    [{ name := "user", fields := ["userId"] }]
  uniques := [["id"]]

def ApiKey : Model where
  name := "ApiKey"
  columns :=
    [free "id", needed "lookupId", needed "hash", needed "name", free "scopes",
      needed "userId", free "expiresAt", free "lastUsedAt", free "lastNotifiedAt",
      free "createdAt", free "updatedAt"]
  relations :=
    [{ name := "user", fields := ["userId"] }]
  uniques := [["id"], ["lookupId"]]

def FileBlob : Model where
  name := "FileBlob"
  columns :=
    [free "id", needed "tenantId", needed "key", needed "mimeType",
      needed "sizeBytes", needed "body", free "createdAt", free "updatedAt"]
  relations := []
  uniques := [["id"], ["tenantId", "key"]]

def Folder : Model where
  name := "Folder"
  columns :=
    [free "id", needed "tenantId", free "parentId", needed "name", free "createdAt",
      free "updatedAt", free "deletedAt"]
  relations :=
    [{ name := "parent", fields := ["parentId"] },
      { name := "children", fields := [] }, { name := "files", fields := [] }]
  uniques := [["id"]]

def File : Model where
  name := "File"
  columns :=
    [free "id", needed "tenantId", free "folderId", needed "filename",
      needed "mimeType", needed "sizeBytes", needed "sha256", needed "storageDriver",
      needed "storageKey", needed "uploaderId", free "visibility", free "createdAt",
      free "updatedAt", free "deletedAt"]
  relations :=
    [{ name := "folder", fields := ["folderId"] }]
  uniques := [["id"]]

def WebhookEndpoint : Model where
  name := "WebhookEndpoint"
  columns :=
    [free "id", needed "tenantId", needed "url", needed "secret", free "events",
      free "status", free "consecutiveFailures", free "createdAt", free "updatedAt"]
  relations :=
    [{ name := "deliveries", fields := [] }]
  uniques := [["id"]]

def WebhookDelivery : Model where
  name := "WebhookDelivery"
  columns :=
    [free "id", needed "endpointId", needed "eventId", free "status",
      free "statusCode", free "attemptCount", free "nextRetryAt", free "lastError", free "isTest",
      free "createdAt", free "updatedAt"]
  relations :=
    [{ name := "endpoint", fields := ["endpointId"] }]
  uniques := [["id"]]

def EmailOutbox : Model where
  name := "EmailOutbox"
  columns :=
    [free "id", needed "kind", needed "payload", free "idempotencyKey",
      free "status", free "attemptCount", free "nextAttemptAt", free "claimedAt",
      free "lastError", free "succeededAt", free "failedAt", free "createdAt", free "updatedAt"]
  relations := []
  uniques := [["id"], ["idempotencyKey"]]

def Role : Model where
  name := "Role"
  columns :=
    [free "id", needed "name", free "description", free "isSystem", free "isPublic",
      free "parentId", needed "tenantId", free "createdAt", free "updatedAt"]
  relations :=
    [{ name := "parent", fields := ["parentId"] },
      { name := "children", fields := [] }, { name := "policies", fields := [] }]
  uniques := [["id"], ["tenantId", "name"]]

def Policy : Model where
  name := "Policy"
  columns :=
    [free "id", needed "name", free "description", free "createdAt",
      free "updatedAt"]
  relations :=
    [{ name := "permissions", fields := [] }, { name := "roles", fields := [] }]
  uniques := [["id"], ["name"]]

def RolePolicy : Model where
  name := "RolePolicy"
  columns :=
    [needed "roleId", needed "policyId"]
  relations :=
    [{ name := "role", fields := ["roleId"] },
      { name := "policy", fields := ["policyId"] }]
  uniques := [["roleId", "policyId"]]

def Permission : Model where
  name := "Permission"
  columns :=
    [free "id", needed "policyId", needed "resource", needed "action",
      free "itemFilter", free "fields", free "validation", free "presets", free "createdAt",
      free "updatedAt"]
  relations :=
    [{ name := "policy", fields := ["policyId"] }]
  uniques := [["id"], ["policyId", "resource", "action"]]

def Example : Model where
  name := "Example"
  columns :=
    [free "id", needed "tenantId", needed "name", free "description", free "status",
      free "createdAt", free "updatedAt"]
  relations := []
  uniques := [["id"]]

def UserProfile : Model where
  name := "UserProfile"
  columns :=
    [free "id", needed "userId", needed "tenantId", free "displayName",
      free "avatarUrl", free "bio", free "phoneNumber", free "preferences", free "createdAt",
      free "updatedAt"]
  relations := []
  uniques := [["id"], ["userId"]]

def OutboxEntry : Model where
  name := "OutboxEntry"
  columns :=
    [free "id", free "seq", needed "tenantId", needed "type", needed "payload",
      free "occurredAt", free "processedAt", free "claimedAt", free "dispatchAttemptCount"]
  relations := []
  uniques := [["id"]]

def GdprExportJob : Model where
  name := "GdprExportJob"
  columns :=
    [free "id", needed "userId", free "tenantId", needed "status",
      free "requestedAt", free "completedAt", free "payload", free "error"]
  relations := []
  uniques := [["id"]]

def PendingErasure : Model where
  name := "PendingErasure"
  columns :=
    [free "id", needed "userId", free "requestedAt", free "cancelledAt",
      free "completedAt", free "createdAt"]
  relations :=
    [{ name := "user", fields := ["userId"] }]
  uniques := [["id"]]

def AuditLog : Model where
  name := "AuditLog"
  columns :=
    [free "id", free "tenantId", free "actorUserId", needed "targetModel",
      needed "targetId", needed "action", needed "diff", free "metadata", free "createdAt"]
  relations := []
  uniques := [["id"]]

def IdempotencyRecord : Model where
  name := "IdempotencyRecord"
  columns :=
    [needed "key", free "userId", needed "requestHash", needed "status",
      needed "body", needed "expiresAt", free "createdAt"]
  relations := []
  uniques := [["key"]]

def SystemSecret : Model where
  name := "SystemSecret"
  columns :=
    [needed "key", needed "value", free "updatedAt"]
  relations := []
  uniques := [["key"]]

def RateLimitConfig : Model where
  name := "RateLimitConfig"
  columns :=
    [free "id", needed "scope", needed "maxRequests", needed "windowSeconds",
      free "updatedById", free "updatedAt", free "createdAt"]
  relations := []
  uniques := [["id"], ["scope"]]

def RateLimitDecision : Model where
  name := "RateLimitDecision"
  columns :=
    [free "id", needed "bucketKey", needed "endpoint", needed "decision",
      needed "count", needed "limit", needed "windowSecs", free "ip", free "userId", free "ts"]
  relations := []
  uniques := [["id"]]

def RateLimitAllowlist : Model where
  name := "RateLimitAllowlist"
  columns :=
    [free "id", needed "userId", needed "reason", free "createdById",
      free "createdAt"]
  relations := []
  uniques := [["id"], ["userId"]]

def AssetVariantIndex : Model where
  name := "AssetVariantIndex"
  columns :=
    [needed "cacheKey", needed "sourceKey", needed "optionsHash", needed "mimeType",
      needed "sizeBytes", free "createdAt"]
  relations := []
  uniques := [["cacheKey"]]

/-- Every model of the client; `ThrottlerRecord` is ignored by it. -/
def schema : List Model :=
  [HealthPing, User, Organization, TenantSettings, Member, Invitation, Session, Account,
    Verification, Jwks, TwoFactor, Passkey, ApiKey, FileBlob, Folder, File, WebhookEndpoint,
    WebhookDelivery, EmailOutbox, Role, Policy, RolePolicy, Permission, Example, UserProfile,
    OutboxEntry, GdprExportJob, PendingErasure, AuditLog, IdempotencyRecord, SystemSecret,
    RateLimitConfig, RateLimitDecision, RateLimitAllowlist, AssetVariantIndex]

/-! ## What the models have in common -/

theorem not_hasColumn_createdBy : ∀ model ∈ schema, model.hasColumn "createdBy" = false := by
  decide

theorem not_hasColumn_updatedBy : ∀ model ∈ schema, model.hasColumn "updatedBy" = false := by
  decide

/-- An `id` is never a foreign key. -/
theorem not_fields_id :
    ∀ model ∈ schema, ∀ relation ∈ model.relations, "id" ∉ relation.fields := by
  decide

/-- No relation is called like a stamped column. -/
theorem knows_eq_hasColumn :
    ∀ model ∈ schema, ∀ name ∈ ["id", "tenantId", "createdBy", "updatedBy", "deletedAt"],
      model.knows name = model.hasColumn name := by
  decide

end PrismaSchema
end NestBase
