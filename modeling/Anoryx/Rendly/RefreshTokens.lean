import Anoryx.PgColumn
import Anoryx.ReadCommitted.Session

/-!
# Anoryx.Rendly.RefreshTokens

Rendly's refresh tokens, in both stores: `InMemoryRefreshTokenStore` of `auth/refresh.py`
and `DbRefreshTokenStore` of `persistence/refresh_store.py`.

A token belongs to a family and is used once: it is exchanged for its successor, of the
next generation.  One that is presented again revokes its family.

The random tokens and family ids, and what the clock tells a call each time it is asked,
come with the call.  A moment is a number of microseconds.  The columns `created_at` are
left out: no call reads them.
-/

namespace Anoryx.Rendly

open ReadCommitted

/-! ## moments -/

/-- `datetime.min` and `datetime.max`, from the epoch -/
def datetimeMin : Int := -62135596800000000

def datetimeMax : Int := 253402300799999999

/-- `_expiry`: `clock() + timedelta(seconds=ttl_seconds)`, if there is such a `datetime`. -/
def expiry (now ttlSeconds : Int) : Option Int :=
  let moment := now + ttlSeconds * 1000000
  if datetimeMin ≤ moment ∧ moment ≤ datetimeMax then some moment else none

/-! ## scopes in order -/

instance string_le_trans : IsTrans String (· ≤ ·) := ⟨fun _ _ _ => le_trans⟩

instance string_le_antisymm : Std.Antisymm fun s s' : String => s ≤ s' := ⟨fun _ _ => le_antisymm⟩

/-! ## calls -/

/-- `issue` -/
structure IssueCall where
  userId : String
  tenantId : String
  scopes : Finset String
  roles : List String
  ttlSeconds : Int
  mintedAt : Int
  token : String
  familyId : String

/-- `rotate`; `successor` is the token that is drawn if one is minted. -/
structure RotateCall where
  rawToken : String
  ttlSeconds : Int
  checkedAt : Int
  mintedAt : Int
  successor : String

inductive RefreshCall
  | issue (call : IssueCall)
  | rotate (call : RotateCall)
  | revoke (rawToken : String)

structure RotationResult where
  newToken : String
  userId : String
  tenantId : String
  scopes : Finset String
  roles : List String
deriving DecidableEq

/-- How a call ends. -/
inductive RefreshAnswer
  | issued (token : String)
  | rotated (result : RotationResult)
  | revoked
  /-- `RefreshInvalid` -/
  | invalid (message : String)
  /-- `RefreshReuse` -/
  | reuse (message : String)
deriving DecidableEq

/-- What else may be raised. -/
inductive StoreError
  /-- `OverflowError` -/
  | overflow
  /-- `TenantContextRequiredError` -/
  | tenantContextRequired
  /-- a value that its column cannot hold -/
  | data
  /-- `IntegrityError` -/
  | integrity
deriving DecidableEq

/-! ## the store in memory -/

/-- `_Record` -/
structure TokenRecord where
  familyId : String
  generation : Nat
  userId : String
  tenantId : String
  scopes : Finset String
  roles : List String
  expiresAt : Int
  used : Bool

/-- `InMemoryRefreshTokenStore` -/
structure InMemoryStore where
  byHash : String → Option TokenRecord
  revokedFamilies : Finset String

namespace InMemoryStore

variable (hashToken : String → String)

def empty : InMemoryStore := ⟨fun _ => none, ∅⟩

def put (store : InMemoryStore) (tokenHash : String) (record : TokenRecord) : InMemoryStore :=
  { store with byHash := Function.update store.byHash tokenHash (some record) }

def revokeFamily (store : InMemoryStore) (familyId : String) : InMemoryStore :=
  { store with revokedFamilies := insert familyId store.revokedFamilies }

def issue (store : InMemoryStore) (call : IssueCall) : Except StoreError RefreshAnswer × InMemoryStore :=
  match expiry call.mintedAt call.ttlSeconds with
  | none => (.error .overflow, store)
  | some expiresAt =>
      (.ok (.issued call.token), store.put (hashToken call.token)
        ⟨call.familyId, 0, call.userId, call.tenantId, call.scopes, call.roles, expiresAt, false⟩)

/-- A record is used up, and its successor is put next to it: the record is marked before
the successor's expiry is known. -/
def mint (store : InMemoryStore) (call : RotateCall) (record : TokenRecord) :
    Except StoreError RefreshAnswer × InMemoryStore :=
  let marked := store.put (hashToken call.rawToken) { record with used := true }
  match expiry call.mintedAt call.ttlSeconds with
  | none => (.error .overflow, marked)
  | some expiresAt =>
      (.ok (.rotated ⟨call.successor, record.userId, record.tenantId, record.scopes, record.roles⟩),
        marked.put (hashToken call.successor)
          { record with generation := record.generation + 1, expiresAt := expiresAt, used := false })

def rotate (store : InMemoryStore) (call : RotateCall) : Except StoreError RefreshAnswer × InMemoryStore :=
  match store.byHash (hashToken call.rawToken) with
  | none => (.ok (.invalid "unknown or revoked refresh token"), store)
  | some record =>
      if record.familyId ∈ store.revokedFamilies then (.ok (.invalid "unknown or revoked refresh token"), store)
      else if record.expiresAt ≤ call.checkedAt then (.ok (.invalid "refresh token expired"), store)
      else if record.used then
        (.ok (.reuse "refresh token reuse detected; family revoked"), store.revokeFamily record.familyId)
      else store.mint hashToken call record

def revoke (store : InMemoryStore) (rawToken : String) : Except StoreError RefreshAnswer × InMemoryStore :=
  match store.byHash (hashToken rawToken) with
  | none => (.ok .revoked, store)
  | some record => (.ok .revoked, store.revokeFamily record.familyId)

def serve (store : InMemoryStore) : RefreshCall → Except StoreError RefreshAnswer × InMemoryStore
  | .issue call => store.issue hashToken call
  | .rotate call => store.rotate hashToken call
  | .revoke rawToken => store.revoke hashToken rawToken

end InMemoryStore

/-! ## the store in the database -/

/-- A row of `refresh_token_families`, under its `family_id`. -/
structure RefreshTokenFamilyRow where
  tenantId : String
  userId : String
  revoked : Bool

/-- A row of `refresh_tokens`, under its `token_hash`. -/
structure RefreshTokenRow where
  familyId : String
  tenantId : String
  userId : String
  generation : Nat
  used : Bool
  expiresAt : Int
  scopes : List String
  roles : List String

/-- The database. -/
structure RefreshDb where
  families : Table String RefreshTokenFamilyRow
  tokens : Table String RefreshTokenRow
  /-- The successors that were committed of a token, with their calls.  No statement reads it. -/
  successors : String → List (Txn × String)

def RefreshDb.empty : RefreshDb := ⟨Table.empty, Table.empty, fun _ => []⟩

instance : Database RefreshDb where
  commit t d := ⟨d.families.commit t, d.tokens.commit t, d.successors⟩
  rollback t d := ⟨d.families.rollback t, d.tokens.rollback t, d.successors⟩

/-! ## statements -/

/-- `_discover_tenant`, privileged -/
def discoverTenant (tokenHash : String) (t : Txn) (d : RefreshDb) : Option String :=
  (d.tokens.visible t tokenHash).map RefreshTokenRow.tenantId

/-- `SELECT … FOR UPDATE` of a token of the tenant: its row is locked as it is. -/
def selectTokenForUpdate (tenantId tokenHash : String) (t : Txn) (d : RefreshDb) :
    Option (Option RefreshTokenRow × RefreshDb) :=
  (d.tokens.updateWhere t tokenHash (fun token => token.tenantId = tenantId) id).map fun p =>
    (p.1, { d with tokens := p.2 })

def selectFamilyId (tenantId tokenHash : String) (t : Txn) (d : RefreshDb) : Option String :=
  ((d.tokens.visible t tokenHash).filter fun token => token.tenantId = tenantId).map RefreshTokenRow.familyId

def selectFamily (tenantId familyId : String) (t : Txn) (d : RefreshDb) : Option RefreshTokenFamilyRow :=
  (d.families.visible t familyId).filter fun family => family.tenantId = tenantId

/-- `UPDATE refresh_token_families SET revoked = TRUE …` -/
def updateRevoked (tenantId familyId : String) (t : Txn) (d : RefreshDb) :
    Option (Option RefreshTokenFamilyRow × RefreshDb) :=
  (d.families.updateWhere t familyId (fun family => family.tenantId = tenantId) fun family =>
    { family with revoked := true }).map fun p => (p.1, { d with families := p.2 })

/-- `UPDATE refresh_tokens SET used = TRUE …` -/
def updateUsed (tenantId tokenHash : String) (t : Txn) (d : RefreshDb) :
    Option (Option RefreshTokenRow × RefreshDb) :=
  (d.tokens.updateWhere t tokenHash (fun token => token.tenantId = tenantId) fun token =>
    { token with used := true }).map fun p => (p.1, { d with tokens := p.2 })

def insertFamily (familyId : String) (row : RefreshTokenFamilyRow) (t : Txn) (d : RefreshDb) :
    Option (Bool × RefreshDb) :=
  (d.families.insertOrIgnore t familyId row).map fun p => (p.1, { d with families := p.2 })

def insertToken (tokenHash : String) (row : RefreshTokenRow) (t : Txn) (d : RefreshDb) : Option (Bool × RefreshDb) :=
  (d.tokens.insertOrIgnore t tokenHash row).map fun p => (p.1, { d with tokens := p.2 })

/-- The commit of a rotation. -/
def commitSuccessor (tokenHash successorHash : String) (t : Txn) (d : RefreshDb) : Option (Unit × RefreshDb) :=
  some ((), { Database.commit t d with
    successors := Function.update d.successors tokenHash (d.successors tokenHash ++ [(t, successorHash)]) })

/-! ## columns -/

/-- The white space of `str.strip`. -/
def isWhitespace (c : Char) : Bool :=
  let n := c.toNat
  (0x09 ≤ n && n ≤ 0x0d) || (0x1c ≤ n && n ≤ 0x20) || n = 0x85 || n = 0xa0 || n = 0x1680 ||
    (0x2000 ≤ n && n ≤ 0x200a) || n = 0x2028 || n = 0x2029 || n = 0x202f || n = 0x205f || n = 0x3000

/-- The tenant that `get_tenant_session` refuses. -/
def blank (tenantId : String) : Bool := tenantId.toList.all isWhitespace

/-- What `VARCHAR(length)` stores of a text. -/
def textColumn (length : Nat) (s : String) : Option String :=
  if '\x00' ∈ s.toList then none else PgColumn.varchar length s

/-- What `TEXT[]` stores. -/
def textArray (texts : List String) : Option (List String) :=
  if texts.any fun s => '\x00' ∈ s.toList then none else some texts

/-- The largest INTEGER. -/
def maxInteger : Nat := 2147483647

/-- A value that is missing is an error. -/
def orRaise {α : Type} (e : StoreError) : Option α → Except StoreError α
  | none => .error e
  | some x => .ok x

/-! ## the calls -/

section Calls

variable (hashToken : String → String) (users : String → String → Bool)

/-- `issue`: the family is flushed first, and its user is looked for at the commit. -/
def issue (call : IssueCall) : Prog RefreshDb StoreError RefreshAnswer :=
  if blank call.tenantId then Prog.raise .tenantContextRequired
  else do
    let familyId ← Prog.ofExcept (orRaise .data (textColumn 32 call.familyId))
    let tenantId ← Prog.ofExcept (orRaise .data (textColumn 64 call.tenantId))
    let userId ← Prog.ofExcept (orRaise .data (textColumn 64 call.userId))
    Prog.inserting .integrity (insertFamily familyId ⟨tenantId, userId, false⟩)
    let expiresAt ← Prog.ofExcept (orRaise .overflow (expiry call.mintedAt call.ttlSeconds))
    let tokenHash ← Prog.ofExcept (orRaise .data (textColumn 64 (hashToken call.token)))
    let scopes ← Prog.ofExcept (orRaise .data (textArray (call.scopes.sort (· ≤ ·))))
    let roles ← Prog.ofExcept (orRaise .data (textArray call.roles))
    Prog.inserting .integrity (insertToken tokenHash ⟨familyId, tenantId, userId, 0, false, expiresAt, scopes, roles⟩)
    if users tenantId userId then do
      Prog.commitWork
      pure (.issued call.token)
    else Prog.raise .integrity

/-- The token is locked and good: it is used up, and its successor goes in. -/
def mint (call : RotateCall) (token : RefreshTokenRow) : Prog RefreshDb StoreError RefreshAnswer := do
  let _ ← Prog.exec (updateUsed token.tenantId (hashToken call.rawToken))
  let expiresAt ← Prog.ofExcept (orRaise .overflow (expiry call.mintedAt call.ttlSeconds))
  let successorHash ← Prog.ofExcept (orRaise .data (textColumn 64 (hashToken call.successor)))
  if maxInteger < token.generation + 1 then Prog.raise .data
  else do
    Prog.inserting .integrity (insertToken successorHash
      ⟨token.familyId, token.tenantId, token.userId, token.generation + 1, false, expiresAt,
        token.scopes.toFinset.sort (· ≤ ·), token.roles⟩)
    Prog.exec (commitSuccessor (hashToken call.rawToken) successorHash)
    pure (.rotated ⟨call.successor, token.userId, token.tenantId, token.scopes.toFinset, token.roles⟩)

/-- The end of a session that was not committed, and the error. -/
def refuse (answer : RefreshAnswer) : Prog RefreshDb StoreError RefreshAnswer := do
  Prog.rollbackWork
  pure answer

/-- What becomes of a token that is locked. -/
def rotateLocked (call : RotateCall) (token : RefreshTokenRow) :
    Option RefreshTokenFamilyRow → Prog RefreshDb StoreError RefreshAnswer
  | none => refuse (.invalid "refresh token family revoked")
  | some family =>
      if family.revoked then refuse (.invalid "refresh token family revoked")
      else if token.expiresAt ≤ call.checkedAt then refuse (.invalid "refresh token expired")
      else if token.used then do
        let _ ← Prog.exec (updateRevoked token.tenantId token.familyId)
        Prog.commitWork
        pure (.reuse "refresh token reuse detected; family revoked")
      else mint hashToken call token

/-- `rotate`: a session finds the tenant, and another one does the rest. -/
def rotate (call : RotateCall) : Prog RefreshDb StoreError RefreshAnswer := do
  let tenant ← Prog.query (discoverTenant (hashToken call.rawToken))
  Prog.rollbackWork
  match tenant with
  | none => pure (.invalid "unknown refresh token")
  | some tenantId =>
      if blank tenantId then Prog.raise .tenantContextRequired
      else do
        let token ← Prog.exec (selectTokenForUpdate tenantId (hashToken call.rawToken))
        match token with
        | none => refuse (.invalid "unknown refresh token")
        | some token => do
            let family ← Prog.query (selectFamily tenantId token.familyId)
            rotateLocked hashToken call token family

def revoke (rawToken : String) : Prog RefreshDb StoreError RefreshAnswer := do
  let tenant ← Prog.query (discoverTenant (hashToken rawToken))
  Prog.rollbackWork
  match tenant with
  | none => pure .revoked
  | some tenantId =>
      if blank tenantId then Prog.raise .tenantContextRequired
      else do
        let familyId ← Prog.query (selectFamilyId tenantId (hashToken rawToken))
        match familyId with
        | none => refuse .revoked
        | some familyId => do
            let _ ← Prog.exec (updateRevoked tenantId familyId)
            Prog.commitWork
            pure .revoked

def serve : RefreshCall → Prog RefreshDb StoreError RefreshAnswer
  | .issue call => issue hashToken users call
  | .rotate call => rotate hashToken call
  | .revoke rawToken => revoke hashToken rawToken

end Calls

end Anoryx.Rendly
