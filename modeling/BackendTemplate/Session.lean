import BackendTemplate.Account

/-!
# The Session Aggregate

A session and its refresh tokens, as the domain layer computes them. Rotation is
`revokeToken` of the presented token, `addRefreshToken` of the new one and `refresh`;
revocation is `revoke`, which marks the session and every token the aggregate holds.
-/

namespace BackendTemplate

/-- `DeviceInfo`. -/
structure DeviceInfo where
  userAgent : Option String := none
  ipAddress : Option String := none
  deviceName : Option String := none
  browser : Option String := none
  os : Option String := none
  isMobile : Bool := false
deriving DecidableEq

/-- `RefreshToken`. -/
structure RefreshToken where
  tokenHash : TokenHash
  id : Uuid
  expiresAt : Instant
  isRevoked : Bool := false
  createdAt : Instant
deriving DecidableEq

namespace RefreshToken

/-- `RefreshToken.is_expired`. -/
def isExpired (t : RefreshToken) (now : Instant) : Bool := decide (t.expiresAt ≤ now)

/-- `RefreshToken.is_valid`. -/
def isValid (t : RefreshToken) (now : Instant) : Bool := !t.isRevoked && !t.isExpired now

/-- `RefreshToken.revoked`. -/
def revoked (t : RefreshToken) : RefreshToken := { t with isRevoked := true }

@[simp] theorem revoked_isRevoked (t : RefreshToken) : t.revoked.isRevoked = true := rfl

@[simp] theorem revoked_id (t : RefreshToken) : t.revoked.id = t.id := rfl

@[simp] theorem revoked_tokenHash (t : RefreshToken) :
    t.revoked.tokenHash = t.tokenHash := rfl

end RefreshToken

/-- `SessionAggregate`. The events are those recorded and not yet pulled. -/
structure SessionAggregate where
  sessionId : Uuid
  userId : UserID
  deviceInfo : DeviceInfo
  createdAt : Instant
  expiresAt : Instant
  isRevoked : Bool := false
  refreshTokens : List RefreshToken := []
  events : List Event := []
deriving DecidableEq

namespace SessionAggregate

/-- `_record_event`. -/
def recordEvent (s : SessionAggregate) (e : Event) : SessionAggregate :=
  { s with events := s.events ++ [e] }

/-- `SessionAggregate.create`, given the id that was drawn. -/
def create (now : Instant) (sessionId : Uuid) (userId : UserID) (deviceInfo : DeviceInfo)
    (sessionExpireSeconds : ℤ) : SessionAggregate :=
  let session : SessionAggregate :=
    { sessionId := sessionId
      userId := userId
      deviceInfo := deviceInfo
      createdAt := now
      expiresAt := now + seconds sessionExpireSeconds }
  session.recordEvent (.sessionCreated sessionId userId.value deviceInfo.userAgent
    deviceInfo.ipAddress deviceInfo.deviceName)

/-- `SessionAggregate.is_expired`. -/
def isExpired (s : SessionAggregate) (now : Instant) : Bool := decide (s.expiresAt ≤ now)

/-- `SessionAggregate.add_refresh_token`. -/
def addRefreshToken (s : SessionAggregate) (t : RefreshToken) : SessionAggregate :=
  { s with refreshTokens := s.refreshTokens ++ [t] }

/-- `SessionAggregate.find_refresh_token`: any token with this hash, valid or not. -/
def findRefreshToken (s : SessionAggregate) (h : TokenHash) : Option RefreshToken :=
  s.refreshTokens.find? fun t => t.tokenHash = h

/-- `SessionAggregate.revoke_token`. -/
def revokeToken (s : SessionAggregate) (tokenId : Uuid) : SessionAggregate :=
  { s with refreshTokens :=
      s.refreshTokens.map fun t => if t.id = tokenId then t.revoked else t }

/-- `SessionAggregate.revoke`. -/
def revoke (s : SessionAggregate) : SessionAggregate :=
  { s with
    isRevoked := true
    refreshTokens := s.refreshTokens.map RefreshToken.revoked }.recordEvent
      (.sessionRevoked s.sessionId s.userId.value)

/-- `SessionAggregate.refresh`. -/
def refresh (s : SessionAggregate) (now : Instant) (newExpireSeconds : ℤ) :
    SessionAggregate :=
  { s with expiresAt := now + seconds newExpireSeconds }.recordEvent
    (.tokenRefreshed s.sessionId s.userId.value)

/-- The rotation of the service: the presented token is revoked, the new one added, the
expiry moved. -/
def rotate (s : SessionAggregate) (now : Instant) (presented : Uuid) (new : RefreshToken)
    (newExpireSeconds : ℤ) : SessionAggregate :=
  ((s.revokeToken presented).addRefreshToken new).refresh now newExpireSeconds

@[simp] theorem revoke_sessionId (s : SessionAggregate) :
    s.revoke.sessionId = s.sessionId := rfl

@[simp] theorem revoke_isRevoked (s : SessionAggregate) : s.revoke.isRevoked = true := rfl

@[simp] theorem revoke_refreshTokens (s : SessionAggregate) :
    s.revoke.refreshTokens = s.refreshTokens.map RefreshToken.revoked := rfl

@[simp] theorem rotate_sessionId (s : SessionAggregate) (now : Instant) (p : Uuid)
    (new : RefreshToken) (n : ℤ) : (s.rotate now p new n).sessionId = s.sessionId := rfl

@[simp] theorem rotate_isRevoked (s : SessionAggregate) (now : Instant) (p : Uuid)
    (new : RefreshToken) (n : ℤ) : (s.rotate now p new n).isRevoked = s.isRevoked := rfl

@[simp] theorem rotate_refreshTokens (s : SessionAggregate) (now : Instant) (p : Uuid)
    (new : RefreshToken) (n : ℤ) :
    (s.rotate now p new n).refreshTokens =
      (s.refreshTokens.map fun t => if t.id = p then t.revoked else t) ++ [new] := rfl

end SessionAggregate

end BackendTemplate
