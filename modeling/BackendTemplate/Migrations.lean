import BackendTemplate.SchemaChanges
import BackendTemplate.Values

/-!
# Migrations

The revisions of `migrations/versions`, each with the statements of its `upgrade` and its
`downgrade`, and the schema that `infrastructure.db.sqlalchemy.models` declares.

The database is Postgres. Its only part in this that is not about rows and columns is the cast of a
`json` text to `jsonb`, which is a parameter: a value of type `jsonb` is represented by the text
Postgres writes for it, and the cast fails on a text that `jsonb` cannot hold.
-/

namespace BackendTemplate.Migrations

open Relational

/-! ### Names, types and values -/

/-- The tables there are or have been. -/
inductive TableName
  | users | sessions | refreshTokens | outboxEvents
  | permissions | roles | rolePermissions | userRoles
  | auditLogs
  | oauthClients | authorizationCodes | signingKeys
deriving DecidableEq

/-- Their columns. -/
inductive ColumnName
  | id | username | email | hashedPassword | deletedAt
  | isLocked | lockedAt | lockReason | failedAttempts | lockUntil | version
  | isEmailVerified | emailVerificationToken | emailVerificationTokenHash
  | emailVerifiedAt | emailVerificationExpiresAt
  | passwordResetToken | passwordResetTokenHash
  | passwordResetCreatedAt | passwordResetExpiresAt | passwordResetUsed
  | twoFactorSecret | twoFactorEnabledAt | twoFactorBackupCodes
  | sessionId | userId | userAgent | ipAddress | deviceName | browser | os | isMobile
  | createdAt | expiresAt | isRevoked | tokenHash
  | aggregateType | aggregateId | eventType | payload | processedAt
  | sensitiveKeys | attempts | lastError | nextAttemptAt | failedAt
  | name | description | roleId | permissionId | assignedAt | assignedBy
  | action | entityType | entityId | details | timestamp | success
  | clientId | clientSecretHash | clientSecretSalt | clientName | clientUri | logoUri
  | redirectUris | grantTypes | responseTypes | scopes
  | isConfidential | requireAuthTime | isActive
  | code | redirectUri | nonce | authTime | codeChallenge | codeChallengeMethod | isUsed
  | kid | algorithm | privateKeyPem | publicKeyPem
deriving DecidableEq

/-- The names of constraints and indexes: those of the naming convention of `models.base`, for the
first column they are about, and two that are written out. -/
inductive ConstraintName
  | pk (t : TableName)
  | uq (t : TableName) (k : ColumnName)
  | fk (t : TableName) (k : ColumnName) (ref : TableName)
  | ix (t : TableName) (k : ColumnName)
  /-- `ix_audit_logs_entity`. -/
  | ixAuditLogsEntity
  /-- `ix_outbox_events_unprocessed`. -/
  | ixOutboxEventsUnprocessed
deriving DecidableEq

/-- The column types. -/
inductive SqlType
  | uuid
  | string (length : Option ℕ)
  | text
  | largeBinary
  | datetime
  | boolean
  | integer
  | json
  | jsonb
deriving DecidableEq

/-- The SQL expressions the revisions use: server defaults, casts, and the condition of an index. -/
inductive SqlText
  | false
  | true
  | zero
  | payloadJsonb
  | payloadJson
  | unprocessed
deriving DecidableEq

/-- A value in a row. A `jsonb` value is the text of it. -/
inductive Cell
  | uuid (u : Uuid)
  | text (s : String)
  | bytes (b : Bytes)
  | datetime (t : Instant)
  | boolean (b : Bool)
  | integer (n : ℤ)
  | json (text : String)
  | jsonb (text : String)
deriving DecidableEq

/-- The values of a type. -/
def SqlType.Holds : SqlType → Cell → Prop
  | .uuid, .uuid _ => True
  | .string none, .text _ => True
  | .string (some n), .text s => s.length ≤ n
  | .text, .text _ => True
  | .largeBinary, .bytes _ => True
  | .datetime, .datetime _ => True
  | .boolean, .boolean _ => True
  | .integer, .integer _ => True
  | .json, .json _ => True
  | .jsonb, .jsonb _ => True
  | _, _ => False

instance (type : SqlType) (v : Cell) : Decidable (type.Holds v) := by
  unfold SqlType.Holds
  split <;> infer_instance

/-- What an expression is worth as a server default. The others are no defaults. -/
def SqlText.literal : SqlText → Cell
  | .false => .boolean Bool.false
  | .true => .boolean Bool.true
  | .zero => .integer 0
  | .payloadJsonb | .payloadJson | .unprocessed => .text ""

/-- What `USING` makes of a value. -/
def SqlText.convert (jsonb : String → Option String) : SqlText → Cell → Option Cell
  | .payloadJsonb, .json s => (jsonb s).map Cell.jsonb
  | .payloadJsonb, .jsonb s => some (.jsonb s)
  | .payloadJson, .json s => some (.json s)
  | .payloadJson, .jsonb s => some (.json s)
  | _, _ => none

/-- Postgres, as far as a cast to `jsonb` is concerned the given one. -/
def postgres (jsonb : String → Option String) : Values SqlType SqlText Cell where
  literal := SqlText.literal
  convert := SqlText.convert jsonb
  HasType := SqlType.Holds

/-- A column of a table here. -/
abbrev SqlColumn := Column TableName ColumnName SqlType SqlText

/-- A key of a table here. -/
abbrev SqlKey := Key TableName ColumnName ConstraintName

/-- A foreign key here. -/
abbrev SqlForeignKey := ForeignKey TableName ColumnName ConstraintName

/-- An index here. -/
abbrev SqlIndex := Index TableName ColumnName ConstraintName SqlText

/-- A schema here. -/
abbrev SqlSchema := Schema TableName ColumnName ConstraintName SqlType SqlText

/-- A statement here. -/
abbrev SqlStatement := Ddl TableName ColumnName ConstraintName SqlType SqlText

/-- The rows of the tables here. -/
abbrev SqlData := Data TableName ColumnName Cell

/-- A database here. -/
abbrev SqlDatabase := Database TableName ColumnName ConstraintName SqlType SqlText Cell

/-! ### Columns, keys and indexes in the words of the revisions -/

/-- `sa.Column(k, type, nullable=False)`. -/
def required (t : TableName) (k : ColumnName) (type : SqlType) : SqlColumn :=
  ⟨t, k, type, false, none⟩

/-- `sa.Column(k, type, nullable=True)`. -/
def optional (t : TableName) (k : ColumnName) (type : SqlType) : SqlColumn :=
  ⟨t, k, type, true, none⟩

/-- `sa.Column(k, type, nullable=False, server_default=d)`. -/
def defaulted (t : TableName) (k : ColumnName) (type : SqlType) (d : SqlText) : SqlColumn :=
  ⟨t, k, type, false, some d⟩

/-- `sa.PrimaryKeyConstraint(*ks)`. -/
def primaryKey (t : TableName) (ks : List ColumnName) : SqlKey := ⟨t, .pk t, ks, true⟩

/-- `sa.UniqueConstraint(k)`. -/
def uniqueKey (t : TableName) (k : ColumnName) : SqlKey := ⟨t, .uq t k, [k], false⟩

/-- `op.create_foreign_key(fk, t, ref, [k], [refK], ondelete)`. -/
def foreignKey (t : TableName) (k : ColumnName) (ref : TableName) (refK : ColumnName)
    (onDelete : OnDelete) : SqlForeignKey :=
  ⟨t, .fk t k ref, [k], ref, [refK], onDelete⟩

/-- `op.create_index(ix, t, [k])`. -/
def index (t : TableName) (k : ColumnName) : SqlIndex := { table := t, name := .ix t k, columns := [k] }

/-- `ix_audit_logs_entity`. -/
def auditLogsEntity : SqlIndex :=
  { table := .auditLogs, name := .ixAuditLogsEntity, columns := [.entityType, .entityId] }

/-- `ix_outbox_events_unprocessed`. -/
def outboxEventsUnprocessed : SqlIndex :=
  { table := .outboxEvents, name := .ixOutboxEventsUnprocessed, columns := [.nextAttemptAt, .createdAt],
    condition := some .unprocessed }

/-- `ix_refresh_tokens_token_hash`, once it is unique. -/
def refreshTokensTokenHash : SqlIndex :=
  { table := .refreshTokens, name := .ix .refreshTokens .tokenHash, columns := [.tokenHash],
    unique := true }

/-! ### The revisions -/

/-- The revisions. -/
inductive Revision
  /-- `65180c3d97a5`. -/
  | initial
  | addSecurityTables
  | addAuditLogs
  | addOauthTables
  | addForeignKeys
  | dropOauthAndKeysTables
  | addTwoFactorBackupCodes
  | addOutboxRetry
  | hashAndEncryptUserSecrets
  | addUserVersionAndIndexes
deriving DecidableEq

/-- The files of `migrations/versions`. -/
def Revision.all : List Revision :=
  [.initial, .addAuditLogs, .addForeignKeys, .addOauthTables, .addOutboxRetry, .addSecurityTables,
    .addTwoFactorBackupCodes, .addUserVersionAndIndexes, .dropOauthAndKeysTables,
    .hashAndEncryptUserSecrets]

/-- `down_revision`. -/
def Revision.downRevision : Revision → Option Revision
  | .initial => none
  | .addSecurityTables => some .initial
  | .addAuditLogs => some .addSecurityTables
  | .addOauthTables => some .addAuditLogs
  | .addForeignKeys => some .addOauthTables
  | .dropOauthAndKeysTables => some .addForeignKeys
  | .addTwoFactorBackupCodes => some .dropOauthAndKeysTables
  | .addOutboxRetry => some .addTwoFactorBackupCodes
  | .hashAndEncryptUserSecrets => some .addOutboxRetry
  | .addUserVersionAndIndexes => some .hashAndEncryptUserSecrets

/-- `op.create_table('oauth_clients', …)`. -/
def createOauthClients : SqlStatement :=
  .createTable .oauthClients
    [required .oauthClients .clientId (.string (some 64)),
      optional .oauthClients .clientSecretHash .largeBinary,
      optional .oauthClients .clientSecretSalt .largeBinary,
      required .oauthClients .clientName (.string (some 128)),
      optional .oauthClients .clientUri (.string (some 256)),
      optional .oauthClients .logoUri (.string (some 256)),
      required .oauthClients .redirectUris .json,
      required .oauthClients .grantTypes .json,
      required .oauthClients .responseTypes .json,
      required .oauthClients .scopes .json,
      defaulted .oauthClients .isConfidential .boolean .false,
      defaulted .oauthClients .requireAuthTime .boolean .false,
      defaulted .oauthClients .isActive .boolean .true,
      required .oauthClients .createdAt .datetime]
    [primaryKey .oauthClients [.clientId]]

/-- The columns of `authorization_codes` in `add_oauth_tables`. -/
def authorizationCodesColumns : List SqlColumn :=
  [required .authorizationCodes .code (.string (some 128)),
    required .authorizationCodes .clientId (.string (some 64)),
    required .authorizationCodes .userId .uuid,
    required .authorizationCodes .redirectUri (.string (some 256)),
    required .authorizationCodes .scopes .json,
    optional .authorizationCodes .nonce (.string (some 256)),
    required .authorizationCodes .authTime .datetime,
    optional .authorizationCodes .codeChallenge (.string (some 256)),
    optional .authorizationCodes .codeChallengeMethod (.string (some 8)),
    required .authorizationCodes .expiresAt .datetime,
    defaulted .authorizationCodes .isUsed .boolean .false]

/-- `authorization_codes.session_id`. -/
def authorizationCodesSessionId : SqlColumn := optional .authorizationCodes .sessionId .uuid

/-- `op.create_table('signing_keys', …)`. -/
def createSigningKeys : SqlStatement :=
  .createTable .signingKeys
    [required .signingKeys .kid (.string (some 64)),
      required .signingKeys .algorithm (.string (some 8)),
      required .signingKeys .privateKeyPem .text,
      required .signingKeys .publicKeyPem .text,
      required .signingKeys .createdAt .datetime,
      optional .signingKeys .expiresAt .datetime,
      defaulted .signingKeys .isActive .boolean .true]
    [primaryKey .signingKeys [.kid]]

/-- `authorization_codes.client_id` refers to a client. -/
def authorizationCodesClient : SqlForeignKey :=
  foreignKey .authorizationCodes .clientId .oauthClients .clientId .cascade

/-- `authorization_codes.user_id` refers to a user. -/
def authorizationCodesUser : SqlForeignKey :=
  foreignKey .authorizationCodes .userId .users .id .cascade

/-- The foreign keys of `add_foreign_keys`. -/
def addedForeignKeys : List SqlForeignKey :=
  [foreignKey .sessions .userId .users .id .cascade,
    foreignKey .refreshTokens .sessionId .sessions .sessionId .cascade,
    foreignKey .rolePermissions .roleId .roles .id .cascade,
    foreignKey .rolePermissions .permissionId .permissions .id .cascade,
    foreignKey .userRoles .userId .users .id .cascade,
    foreignKey .userRoles .roleId .roles .id .cascade,
    foreignKey .userRoles .assignedBy .users .id .setNull,
    authorizationCodesClient,
    authorizationCodesUser,
    foreignKey .auditLogs .userId .users .id .setNull]

/-- The columns `add_security_tables` adds to `users`. -/
def securityColumns : List SqlColumn :=
  [defaulted .users .isLocked .boolean .false,
    optional .users .lockedAt .datetime,
    optional .users .lockReason (.string none),
    defaulted .users .failedAttempts .integer .zero,
    optional .users .lockUntil .datetime,
    defaulted .users .isEmailVerified .boolean .false,
    optional .users .emailVerificationToken (.string none),
    optional .users .emailVerifiedAt .datetime,
    optional .users .emailVerificationExpiresAt .datetime,
    optional .users .passwordResetToken (.string none),
    optional .users .passwordResetCreatedAt .datetime,
    optional .users .passwordResetExpiresAt .datetime,
    defaulted .users .passwordResetUsed .boolean .false,
    optional .users .twoFactorSecret (.string none),
    optional .users .twoFactorEnabledAt .datetime]

/-- `upgrade`. -/
def Revision.upgrade : Revision → List SqlStatement
  | .initial =>
      [.createTable .users
        [required .users .id .uuid,
          required .users .username (.string none),
          optional .users .email (.string none),
          required .users .hashedPassword .largeBinary,
          optional .users .deletedAt .datetime]
        [primaryKey .users [.id], uniqueKey .users .email, uniqueKey .users .username]]
  | .addSecurityTables =>
      securityColumns.map Ddl.addColumn ++
        [.createTable .sessions
          [required .sessions .sessionId .uuid,
            required .sessions .userId .uuid,
            optional .sessions .userAgent (.string none),
            optional .sessions .ipAddress (.string none),
            optional .sessions .deviceName (.string none),
            optional .sessions .browser (.string none),
            optional .sessions .os (.string none),
            defaulted .sessions .isMobile .boolean .false,
            required .sessions .createdAt .datetime,
            required .sessions .expiresAt .datetime,
            defaulted .sessions .isRevoked .boolean .false]
          [primaryKey .sessions [.sessionId]],
        .createIndex (index .sessions .userId),
        .createTable .refreshTokens
          [required .refreshTokens .id .uuid,
            required .refreshTokens .sessionId .uuid,
            required .refreshTokens .tokenHash .largeBinary,
            required .refreshTokens .expiresAt .datetime,
            defaulted .refreshTokens .isRevoked .boolean .false,
            required .refreshTokens .createdAt .datetime]
          [primaryKey .refreshTokens [.id]],
        .createIndex (index .refreshTokens .sessionId),
        .createIndex (index .refreshTokens .tokenHash),
        .createTable .outboxEvents
          [required .outboxEvents .id .uuid,
            required .outboxEvents .aggregateType (.string none),
            optional .outboxEvents .aggregateId .uuid,
            required .outboxEvents .eventType (.string none),
            required .outboxEvents .payload .json,
            required .outboxEvents .createdAt .datetime,
            optional .outboxEvents .processedAt .datetime]
          [primaryKey .outboxEvents [.id]],
        .createTable .permissions
          [required .permissions .id .uuid,
            required .permissions .name (.string none),
            optional .permissions .description (.string none)]
          [primaryKey .permissions [.id], uniqueKey .permissions .name],
        .createTable .roles
          [required .roles .id .uuid,
            required .roles .name (.string none),
            optional .roles .description (.string none)]
          [primaryKey .roles [.id], uniqueKey .roles .name],
        .createTable .rolePermissions
          [required .rolePermissions .roleId .uuid,
            required .rolePermissions .permissionId .uuid]
          [primaryKey .rolePermissions [.roleId, .permissionId]],
        .createTable .userRoles
          [required .userRoles .userId .uuid,
            required .userRoles .roleId .uuid,
            required .userRoles .assignedAt .datetime,
            optional .userRoles .assignedBy .uuid]
          [primaryKey .userRoles [.userId, .roleId]]]
  | .addAuditLogs =>
      [.createTable .auditLogs
        [required .auditLogs .id .uuid,
          optional .auditLogs .userId .uuid,
          required .auditLogs .action (.string none),
          required .auditLogs .entityType (.string none),
          optional .auditLogs .entityId .uuid,
          required .auditLogs .details .json,
          optional .auditLogs .ipAddress (.string none),
          optional .auditLogs .userAgent (.string none),
          required .auditLogs .timestamp .datetime,
          defaulted .auditLogs .success .boolean .true]
        [primaryKey .auditLogs [.id]],
      .createIndex (index .auditLogs .userId),
      .createIndex (index .auditLogs .action),
      .createIndex (index .auditLogs .timestamp)]
  | .addOauthTables =>
      [createOauthClients,
        .createTable .authorizationCodes authorizationCodesColumns
          [primaryKey .authorizationCodes [.code]],
        .createIndex (index .authorizationCodes .clientId),
        createSigningKeys,
        .createIndex (index .signingKeys .isActive)]
  | .addForeignKeys =>
      .addColumn authorizationCodesSessionId :: addedForeignKeys.map Ddl.createForeignKey
  | .dropOauthAndKeysTables =>
      [.dropTable .signingKeys, .dropTable .authorizationCodes, .dropTable .oauthClients]
  | .addTwoFactorBackupCodes => [.addColumn (optional .users .twoFactorBackupCodes .json)]
  | .addOutboxRetry =>
      [.addColumn (optional .outboxEvents .sensitiveKeys .jsonb),
        .addColumn (defaulted .outboxEvents .attempts .integer .zero),
        .addColumn (optional .outboxEvents .lastError .text),
        .addColumn (optional .outboxEvents .nextAttemptAt .datetime),
        .addColumn (optional .outboxEvents .failedAt .datetime),
        .alterType .outboxEvents .payload .jsonb .payloadJsonb,
        .createIndex outboxEventsUnprocessed,
        .createIndex (index .outboxEvents .processedAt)]
  | .hashAndEncryptUserSecrets =>
      [.dropColumn .users .emailVerificationToken,
        .addColumn (optional .users .emailVerificationTokenHash .largeBinary),
        .createIndex (index .users .emailVerificationTokenHash),
        .dropColumn .users .passwordResetToken,
        .addColumn (optional .users .passwordResetTokenHash .largeBinary),
        .createIndex (index .users .passwordResetTokenHash),
        .dropColumn .users .twoFactorSecret,
        .addColumn (optional .users .twoFactorSecret .largeBinary),
        .dropColumn .users .twoFactorBackupCodes,
        .addColumn (optional .users .twoFactorBackupCodes .jsonb),
        .setNull .users .twoFactorEnabledAt]
  | .addUserVersionAndIndexes =>
      [.addColumn (defaulted .users .version .integer .zero),
        .createIndex (index .userRoles .roleId),
        .createIndex (index .userRoles .assignedBy),
        .createIndex (index .rolePermissions .permissionId),
        .createIndex auditLogsEntity,
        .createIndex (index .sessions .expiresAt),
        .dropIndex (.ix .refreshTokens .tokenHash),
        .createIndex refreshTokensTokenHash]

/-- `downgrade`. -/
def Revision.downgrade : Revision → List SqlStatement
  | .initial => [.dropTable .users]
  | .addSecurityTables =>
      [.dropTable .userRoles,
        .dropTable .rolePermissions,
        .dropTable .roles,
        .dropTable .permissions,
        .dropTable .outboxEvents,
        .dropTable .refreshTokens,
        .dropIndex (.ix .sessions .userId),
        .dropTable .sessions] ++
      [.twoFactorEnabledAt, .twoFactorSecret, .passwordResetUsed, .passwordResetExpiresAt,
        .passwordResetCreatedAt, .passwordResetToken, .emailVerificationExpiresAt,
        .emailVerifiedAt, .emailVerificationToken, .isEmailVerified, .lockUntil, .failedAttempts,
        .lockReason, .lockedAt, .isLocked].map (Ddl.dropColumn .users)
  | .addAuditLogs =>
      [.dropIndex (.ix .auditLogs .timestamp),
        .dropIndex (.ix .auditLogs .action),
        .dropIndex (.ix .auditLogs .userId),
        .dropTable .auditLogs]
  | .addOauthTables =>
      [.dropTable .signingKeys, .dropTable .authorizationCodes, .dropTable .oauthClients]
  | .addForeignKeys =>
      [.dropForeignKey .auditLogs (.fk .auditLogs .userId .users),
        .dropForeignKey .authorizationCodes (.fk .authorizationCodes .userId .users),
        .dropForeignKey .authorizationCodes (.fk .authorizationCodes .clientId .oauthClients),
        .dropForeignKey .userRoles (.fk .userRoles .assignedBy .users),
        .dropForeignKey .userRoles (.fk .userRoles .roleId .roles),
        .dropForeignKey .userRoles (.fk .userRoles .userId .users),
        .dropForeignKey .rolePermissions (.fk .rolePermissions .permissionId .permissions),
        .dropForeignKey .rolePermissions (.fk .rolePermissions .roleId .roles),
        .dropForeignKey .refreshTokens (.fk .refreshTokens .sessionId .sessions),
        .dropForeignKey .sessions (.fk .sessions .userId .users),
        .dropColumn .authorizationCodes .sessionId]
  | .dropOauthAndKeysTables =>
      [createOauthClients,
        .createTable .authorizationCodes (authorizationCodesColumns ++ [authorizationCodesSessionId])
          [primaryKey .authorizationCodes [.code]],
        .createIndex (index .authorizationCodes .clientId),
        .createForeignKey authorizationCodesClient,
        .createForeignKey authorizationCodesUser,
        createSigningKeys,
        .createIndex (index .signingKeys .isActive)]
  | .addTwoFactorBackupCodes => [.dropColumn .users .twoFactorBackupCodes]
  | .addOutboxRetry =>
      [.dropIndex (.ix .outboxEvents .processedAt),
        .dropIndex .ixOutboxEventsUnprocessed,
        .alterType .outboxEvents .payload .json .payloadJson,
        .dropColumn .outboxEvents .failedAt,
        .dropColumn .outboxEvents .nextAttemptAt,
        .dropColumn .outboxEvents .lastError,
        .dropColumn .outboxEvents .attempts,
        .dropColumn .outboxEvents .sensitiveKeys]
  | .hashAndEncryptUserSecrets =>
      [.dropColumn .users .twoFactorBackupCodes,
        .addColumn (optional .users .twoFactorBackupCodes .json),
        .dropColumn .users .twoFactorSecret,
        .addColumn (optional .users .twoFactorSecret (.string none)),
        .dropIndex (.ix .users .passwordResetTokenHash),
        .dropColumn .users .passwordResetTokenHash,
        .addColumn (optional .users .passwordResetToken (.string none)),
        .dropIndex (.ix .users .emailVerificationTokenHash),
        .dropColumn .users .emailVerificationTokenHash,
        .addColumn (optional .users .emailVerificationToken (.string none))]
  | .addUserVersionAndIndexes =>
      [.dropIndex (.ix .refreshTokens .tokenHash),
        .createIndex (index .refreshTokens .tokenHash),
        .dropIndex (.ix .sessions .expiresAt),
        .dropIndex .ixAuditLogsEntity,
        .dropIndex (.ix .rolePermissions .permissionId),
        .dropIndex (.ix .userRoles .assignedBy),
        .dropIndex (.ix .userRoles .roleId),
        .dropColumn .users .version]

/-! ### What the models declare -/

/-- `USERS_TABLE`. -/
def usersColumns : List SqlColumn :=
  [required .users .id .uuid,
    required .users .username (.string none),
    optional .users .email (.string none),
    required .users .hashedPassword .largeBinary,
    optional .users .deletedAt .datetime,
    required .users .isLocked .boolean,
    optional .users .lockedAt .datetime,
    optional .users .lockReason (.string none),
    required .users .failedAttempts .integer,
    optional .users .lockUntil .datetime,
    defaulted .users .version .integer .zero,
    required .users .isEmailVerified .boolean,
    optional .users .emailVerificationTokenHash .largeBinary,
    optional .users .emailVerifiedAt .datetime,
    optional .users .emailVerificationExpiresAt .datetime,
    optional .users .passwordResetTokenHash .largeBinary,
    optional .users .passwordResetCreatedAt .datetime,
    optional .users .passwordResetExpiresAt .datetime,
    required .users .passwordResetUsed .boolean,
    optional .users .twoFactorSecret .largeBinary,
    optional .users .twoFactorEnabledAt .datetime,
    optional .users .twoFactorBackupCodes .jsonb]

/-- `SESSIONS_TABLE`. -/
def sessionsColumns : List SqlColumn :=
  [required .sessions .sessionId .uuid,
    required .sessions .userId .uuid,
    optional .sessions .userAgent (.string none),
    optional .sessions .ipAddress (.string none),
    optional .sessions .deviceName (.string none),
    optional .sessions .browser (.string none),
    optional .sessions .os (.string none),
    required .sessions .isMobile .boolean,
    required .sessions .createdAt .datetime,
    required .sessions .expiresAt .datetime,
    required .sessions .isRevoked .boolean]

/-- `REFRESH_TOKENS_TABLE`. -/
def refreshTokensColumns : List SqlColumn :=
  [required .refreshTokens .id .uuid,
    required .refreshTokens .sessionId .uuid,
    required .refreshTokens .tokenHash .largeBinary,
    required .refreshTokens .expiresAt .datetime,
    required .refreshTokens .isRevoked .boolean,
    required .refreshTokens .createdAt .datetime]

/-- `OutboxEvent.__table__`. -/
def outboxEventsColumns : List SqlColumn :=
  [required .outboxEvents .id .uuid,
    required .outboxEvents .aggregateType (.string none),
    optional .outboxEvents .aggregateId .uuid,
    required .outboxEvents .eventType (.string none),
    required .outboxEvents .payload .jsonb,
    optional .outboxEvents .sensitiveKeys .jsonb,
    required .outboxEvents .createdAt .datetime,
    optional .outboxEvents .processedAt .datetime,
    defaulted .outboxEvents .attempts .integer .zero,
    optional .outboxEvents .lastError .text,
    optional .outboxEvents .nextAttemptAt .datetime,
    optional .outboxEvents .failedAt .datetime]

/-- `PERMISSIONS_TABLE`. -/
def permissionsColumns : List SqlColumn :=
  [required .permissions .id .uuid,
    required .permissions .name (.string none),
    optional .permissions .description (.string none)]

/-- `ROLES_TABLE`. -/
def rolesColumns : List SqlColumn :=
  [required .roles .id .uuid,
    required .roles .name (.string none),
    optional .roles .description (.string none)]

/-- `ROLE_PERMISSIONS_TABLE`. -/
def rolePermissionsColumns : List SqlColumn :=
  [required .rolePermissions .roleId .uuid,
    required .rolePermissions .permissionId .uuid]

/-- `USER_ROLES_TABLE`. -/
def userRolesColumns : List SqlColumn :=
  [required .userRoles .userId .uuid,
    required .userRoles .roleId .uuid,
    required .userRoles .assignedAt .datetime,
    optional .userRoles .assignedBy .uuid]

/-- `AUDIT_LOGS_TABLE`. -/
def auditLogsColumns : List SqlColumn :=
  [required .auditLogs .id .uuid,
    optional .auditLogs .userId .uuid,
    required .auditLogs .action (.string none),
    required .auditLogs .entityType (.string none),
    optional .auditLogs .entityId .uuid,
    required .auditLogs .details .json,
    optional .auditLogs .ipAddress (.string none),
    optional .auditLogs .userAgent (.string none),
    required .auditLogs .timestamp .datetime,
    defaulted .auditLogs .success .boolean .true]

/-- The columns of all tables. -/
def metadataColumns : List SqlColumn :=
  usersColumns ++ sessionsColumns ++ refreshTokensColumns ++ permissionsColumns ++ rolesColumns ++
    rolePermissionsColumns ++ userRolesColumns ++ outboxEventsColumns ++ auditLogsColumns

/-- `BaseModel.metadata`. -/
def metadata : SqlSchema where
  tables := {.users, .sessions, .refreshTokens, .outboxEvents, .permissions, .roles,
    .rolePermissions, .userRoles, .auditLogs}
  columns := metadataColumns.toFinset
  keys := {primaryKey .users [.id], uniqueKey .users .username, uniqueKey .users .email,
    primaryKey .sessions [.sessionId], primaryKey .refreshTokens [.id],
    primaryKey .outboxEvents [.id], primaryKey .permissions [.id], uniqueKey .permissions .name,
    primaryKey .roles [.id], uniqueKey .roles .name,
    primaryKey .rolePermissions [.roleId, .permissionId],
    primaryKey .userRoles [.userId, .roleId], primaryKey .auditLogs [.id]}
  foreignKeys := {foreignKey .sessions .userId .users .id .cascade,
    foreignKey .refreshTokens .sessionId .sessions .sessionId .cascade,
    foreignKey .rolePermissions .roleId .roles .id .cascade,
    foreignKey .rolePermissions .permissionId .permissions .id .cascade,
    foreignKey .userRoles .userId .users .id .cascade,
    foreignKey .userRoles .roleId .roles .id .cascade,
    foreignKey .userRoles .assignedBy .users .id .setNull,
    foreignKey .auditLogs .userId .users .id .setNull}
  indexes := {index .users .emailVerificationTokenHash, index .users .passwordResetTokenHash,
    index .sessions .userId, index .sessions .expiresAt,
    index .refreshTokens .sessionId, refreshTokensTokenHash,
    outboxEventsUnprocessed, index .outboxEvents .processedAt,
    index .rolePermissions .permissionId, index .userRoles .roleId, index .userRoles .assignedBy,
    index .auditLogs .userId, index .auditLogs .action, auditLogsEntity, index .auditLogs .timestamp}

end BackendTemplate.Migrations
