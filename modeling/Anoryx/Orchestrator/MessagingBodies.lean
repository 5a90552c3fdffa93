import Anoryx.Orchestrator.Mailbox
import Anoryx.Orchestrator.SharedState
import Anoryx.Raising

/-!
# Anoryx.Orchestrator.MessagingBodies

The bodies of `POST /v1/messaging/messages` and `PUT /v1/state/{state_key}`: `_parse_body`,
`_validate_send_body` and `_validate_state_body` of `messaging/router.py`, and what the columns
make of the values that they let through.

The checks keep out NULs, texts that are too long and values of another type.  A surrogate, a
number that is none, a version beyond BIGINT and a NUL in the key of the path get through them,
and the database refuses these (`validated_fits_iff`).

`json.loads` is a parameter here, with the values that it returns, and so is where a recursion
over such a value goes too deep.  The bounds of the sizes are taken to be below those of `jsonb`.
-/

namespace Anoryx.Orchestrator

open PyJson PgColumn Raising

variable {F : Type}

/-! ## NULs -/

mutual

def containsNul : PyValue F → Bool
  | .str s => s.points.contains 0
  | .arr items => containsNulItems items
  | .obj members => containsNulMembers members
  | _ => false

def containsNulItems : List (PyValue F) → Bool
  | [] => false
  | v :: vs => containsNul v || containsNulItems vs

def containsNulMembers : List (PyStr × PyValue F) → Bool
  | [] => false
  | (k, v) :: ms => k.points.contains 0 || containsNul v || containsNulMembers ms

end

variable {members body : List (PyStr × PyValue F)} {k s stateKey : PyStr} {loaded item : Option (PyValue F)}
  {maxLength maxBytes maxMessageBodyBytes maxStateValueBytes : Nat} {message field tooLarge tenantId : String}
  {now : DateTime} {request : SendMessage F}

theorem containsNul_of_mem (h : containsNulMembers members = false) {p : PyStr × PyValue F} (hp : p ∈ members) :
    containsNul p.2 = false := by
  induction members with
  | nil => cases hp
  | cons m ms ih =>
      simp only [containsNulMembers, Bool.or_eq_false_iff] at h
      rcases List.mem_cons.mp hp with rfl | hp
      · exact h.1.2
      · exact ih h.2 hp

theorem containsNul_pyItem {v : PyValue F} (h : containsNulMembers body = false) (hitem : pyItem k body = some v) :
    containsNul v = false := by
  obtain ⟨p, hp, rfl⟩ := Option.map_eq_some_iff.mp hitem
  exact containsNul_of_mem h (List.mem_of_find?_eq_some hp)

/-! ## parsing -/

/-- The code and the message of a 422. -/
abbrev Rejection := String × String

def schemaInvalid (message : String) : Rejection := ("schema_invalid", message)

/-- Where `contains_nul` and `json.dumps` raise `RecursionError`. -/
structure Recursion (F : Type) where
  containsNul : PyValue F → Bool
  dumps : PyValue F → Bool

/-- `_parse_body`, of what `json.loads` returns; `none` is an error that is caught. -/
def parseBody (recursion : Recursion F) : Option (PyValue F) → Except Rejection (List (PyStr × PyValue F))
  | some (.obj members) =>
      if recursion.containsNul (.obj members) then .error (schemaInvalid "request body is not valid JSON")
      else if containsNul (PyValue.obj members) then
        .error (schemaInvalid "request contains a forbidden NUL character")
      else .ok members
  | some _ => .error (schemaInvalid "request body must be a JSON object")
  | none => .error (schemaInvalid "request body is not valid JSON")

theorem parseBody_eq_ok {recursion : Recursion F} (h : parseBody recursion loaded = .ok body) :
    loaded = some (.obj body) ∧ containsNulMembers body = false := by
  unfold parseBody at h
  split at h
  · split at h
    · cases h
    · split at h
      · cases h
      · next hnul =>
          cases h
          exact ⟨rfl, by simpa [containsNul] using hnul⟩
  · cases h
  · cases h

/-! ## checks -/

section Checks

variable (body : List (PyStr × PyValue F))

/-- `set(body) - allowed` -/
def onlyFields (allowed : List String) : Except Rejection Unit :=
  if body.all fun p => p.1 ∈ allowed.map PyStr.ofString then .ok ()
  else .error (schemaInvalid "request contains unknown fields")

/-- `required - set(body)` -/
def allFields (required : List String) : Except Rejection Unit :=
  if required.all fun field => (pyItem (.ofString field) body).isSome then .ok ()
  else .error (schemaInvalid "request is missing required fields")

/-- A text that is not empty and not too long. -/
def boundedText (maxLength : Nat) (message : String) : Option (PyValue F) → Except Rejection PyStr
  | some (.str s) => if s.points ≠ [] ∧ s.length ≤ maxLength then .ok s else .error (schemaInvalid message)
  | _ => .error (schemaInvalid message)

def requiredText (field : String) (maxLength : Nat) : Except Rejection PyStr :=
  boundedText maxLength (field ++ " is required") (pyItem (.ofString field) body)

/-- A text that a check has let through. -/
structure Checked (maxLength : Nat) (s : PyStr) : Prop where
  noNul : 0 ∉ s.points
  length : s.length ≤ maxLength

theorem boundedText_eq_ok (h : boundedText maxLength message item = .ok s) :
    item = some (.str s) ∧ s.length ≤ maxLength := by
  unfold boundedText at h
  split at h
  · split at h
    · next hs =>
        cases h
        exact ⟨rfl, hs.2⟩
    · cases h
  · cases h

variable {body}

theorem requiredText_eq_ok (hnul : containsNulMembers body = false) (h : requiredText body field maxLength = .ok s) :
    Checked maxLength s := by
  obtain ⟨hitem, hlength⟩ := boundedText_eq_ok h
  have hs := containsNul_pyItem hnul hitem
  exact ⟨by simpa [containsNul] using hs, hlength⟩

end Checks

/-! ## sizes -/

section Dumps

variable [FloatFormat F]

/-- A text with its escapes; a surrogate has one of its own. -/
def pyStrText (s : PyStr) : List Char :=
  '"' :: s.points.flatMap (fun p => ((scalar p).map (escapeChar true)).getD (unicodeEscape p.val)) ++ ['"']

mutual

/-- `json.dumps` -/
def pyDumps : PyValue F → List Char
  | .null => ['n', 'u', 'l', 'l']
  | .bool true => ['t', 'r', 'u', 'e']
  | .bool false => ['f', 'a', 'l', 's', 'e']
  | .int n => intText n
  | .float x => FloatFormat.repr x
  | .str s => pyStrText s
  | .arr items => '[' :: [',', ' '].intercalate (pyDumpsItems items) ++ [']']
  | .obj members => '{' :: [',', ' '].intercalate (pyDumpsMembers members) ++ ['}']

def pyDumpsItems : List (PyValue F) → List (List Char)
  | [] => []
  | v :: vs => pyDumps v :: pyDumpsItems vs

def pyDumpsMembers : List (PyStr × PyValue F) → List (List Char)
  | [] => []
  | (k, v) :: ms => (pyStrText k ++ [':', ' '] ++ pyDumps v) :: pyDumpsMembers ms

end

/-! ## objects -/

variable (recursion : Recursion F) (body : List (PyStr × PyValue F))

/-- An object that has to be there, of a bounded size. -/
def boundedObject (field tooLarge : String) (maxBytes : Nat) : Except Rejection (List (PyStr × PyValue F)) :=
  match pyItem (.ofString field) body with
  | some (.obj members) =>
      if recursion.dumps (.obj members) then .error (schemaInvalid (field ++ " is not serializable"))
      else if maxBytes < (pyDumps (PyValue.obj members)).length then
        .error (tooLarge, field ++ " may be at most " ++ toString maxBytes ++ " bytes serialized")
      else .ok members
  | _ => .error (schemaInvalid (field ++ " must be a JSON object"))

/-! ## sends -/

def maxStableIdLen : Nat := 64

def maxMessageTypeLen : Nat := 64

def maxIdempotencyKeyLen : Nat := 128

def allowedSendKeys : List String :=
  ["sender_team_id", "sender_project_id", "sender_agent_id", "recipient_team_id", "recipient_project_id",
    "recipient_agent_id", "message_type", "body", "idempotency_key"]

/-- `_validate_send_body`, with the row of the call. -/
def validateSendBody (maxMessageBodyBytes : Nat) (tenantId : String) (now : DateTime) :
    Except Rejection (SendMessage F) := do
  onlyFields body allowedSendKeys
  allFields body allowedSendKeys
  let senderTeamId ← requiredText body "sender_team_id" maxStableIdLen
  let senderProjectId ← requiredText body "sender_project_id" maxStableIdLen
  let senderAgentId ← requiredText body "sender_agent_id" maxStableIdLen
  let recipientTeamId ← requiredText body "recipient_team_id" maxStableIdLen
  let recipientProjectId ← requiredText body "recipient_project_id" maxStableIdLen
  let recipientAgentId ← requiredText body "recipient_agent_id" maxStableIdLen
  let messageType ← requiredText body "message_type" maxMessageTypeLen
  let idempotencyKey ← requiredText body "idempotency_key" maxIdempotencyKeyLen
  let message ← boundedObject recursion body "body" "body_too_large" maxMessageBodyBytes
  pure {
    tenantId := tenantId
    sender := ⟨senderTeamId, senderProjectId, senderAgentId⟩
    recipient := ⟨recipientTeamId, recipientProjectId, recipientAgentId⟩
    messageType := messageType
    body := message
    idempotencyKey := idempotencyKey
    now := now }

/-- `send_message`, up to the database. -/
def acceptSend (maxMessageBodyBytes : Nat) (tenantId : String) (now : DateTime) (loaded : Option (PyValue F)) :
    Except Rejection (SendMessage F) := do
  let body ← parseBody recursion loaded
  validateSendBody recursion body maxMessageBodyBytes tenantId now

/-! ## writes -/

def maxUpdatedByAgentIdLen : Nat := 64

def allowedStateKeys : List String := ["expected_version", "value", "updated_by_agent_id"]

/-- `null` or a positive integer. -/
def validateExpectedVersion : Option (PyValue F) → Except Rejection (Option { n : Int // 1 ≤ n })
  | some .null | none => .ok none
  | some (.int n) =>
      if h : 1 ≤ n then .ok (some ⟨n, h⟩)
      else .error (schemaInvalid "expected_version must be null or a positive integer")
  | some _ => .error (schemaInvalid "expected_version must be null or a positive integer")

/-- `null` or an agent. -/
def validateUpdatedBy : Option (PyValue F) → Except Rejection (Option PyStr)
  | some .null | none => .ok none
  | item => (boundedText maxUpdatedByAgentIdLen "updated_by_agent_id must be a non-empty string" item).map some

/-- `_validate_state_body`, with the values of the call. -/
def validateStateBody (maxStateValueBytes : Nat) (tenantId : String) (now : DateTime) (stateKey : PyStr)
    (hkey : stateKey.length ≤ 256) : Except Rejection (WriteState F) := do
  onlyFields body allowedStateKeys
  allFields body ["expected_version", "value"]
  let expectedVersion ← validateExpectedVersion (pyItem (.ofString "expected_version") body)
  let value ← boundedObject recursion body "value" "state_value_too_large" maxStateValueBytes
  let updatedByAgentId ← validateUpdatedBy (pyItem (.ofString "updated_by_agent_id") body)
  pure {
    tenantId := tenantId
    stateKey := stateKey
    expectedVersion := expectedVersion.map Subtype.val
    value := value
    updatedByAgentId := updatedByAgentId
    now := now
    keyLength := hkey
    positive := by
      intro n hn
      obtain ⟨m, -, rfl⟩ := Option.map_eq_some_iff.mp hn
      exact m.2 }

/-- `write_state`, up to the database. -/
def acceptState (maxStateValueBytes : Nat) (tenantId : String) (now : DateTime) (stateKey : PyStr)
    (loaded : Option (PyValue F)) : Except Rejection (WriteState F) :=
  if hkey : stateKey.length ≤ 256 then do
    let body ← parseBody recursion loaded
    validateStateBody recursion body maxStateValueBytes tenantId now stateKey hkey
  else .error (schemaInvalid "state_key is too long")

/-! ## what the checks let through -/

variable {recursion body}

theorem boundedObject_eq_ok (hnul : containsNulMembers body = false)
    (h : boundedObject recursion body field tooLarge maxBytes = .ok members) :
    containsNulMembers members = false := by
  unfold boundedObject at h
  split at h
  · next ms hitem =>
      have hms := containsNul_pyItem hnul hitem
      split_ifs at h
      cases h
      simpa [containsNul] using hms
  · cases h

/-- A send that the checks have let through. -/
structure CheckedSend (request : SendMessage F) : Prop where
  senderTeamId : Checked 64 request.sender.teamId
  senderProjectId : Checked 64 request.sender.projectId
  senderAgentId : Checked 64 request.sender.agentId
  recipientTeamId : Checked 64 request.recipient.teamId
  recipientProjectId : Checked 64 request.recipient.projectId
  recipientAgentId : Checked 64 request.recipient.agentId
  messageType : Checked 64 request.messageType
  idempotencyKey : Checked 128 request.idempotencyKey
  body : containsNulMembers request.body = false

theorem acceptSend_eq_ok (h : acceptSend recursion maxMessageBodyBytes tenantId now loaded = .ok request) :
    CheckedSend request := by
  obtain ⟨body, hparse, h⟩ := bind_eq_ok.mp h
  obtain ⟨-, hnul⟩ := parseBody_eq_ok hparse
  obtain ⟨-, -, h⟩ := bind_eq_ok.mp h
  obtain ⟨-, -, h⟩ := bind_eq_ok.mp h
  obtain ⟨senderTeamId, h₁, h⟩ := bind_eq_ok.mp h
  obtain ⟨senderProjectId, h₂, h⟩ := bind_eq_ok.mp h
  obtain ⟨senderAgentId, h₃, h⟩ := bind_eq_ok.mp h
  obtain ⟨recipientTeamId, h₄, h⟩ := bind_eq_ok.mp h
  obtain ⟨recipientProjectId, h₅, h⟩ := bind_eq_ok.mp h
  obtain ⟨recipientAgentId, h₆, h⟩ := bind_eq_ok.mp h
  obtain ⟨messageType, h₇, h⟩ := bind_eq_ok.mp h
  obtain ⟨idempotencyKey, h₈, h⟩ := bind_eq_ok.mp h
  obtain ⟨message, h₉, h⟩ := bind_eq_ok.mp h
  cases h
  exact ⟨requiredText_eq_ok hnul h₁, requiredText_eq_ok hnul h₂, requiredText_eq_ok hnul h₃,
    requiredText_eq_ok hnul h₄, requiredText_eq_ok hnul h₅, requiredText_eq_ok hnul h₆,
    requiredText_eq_ok hnul h₇, requiredText_eq_ok hnul h₈, boundedObject_eq_ok hnul h₉⟩

/-- A write that the checks have let through. -/
structure CheckedState (request : WriteState F) : Prop where
  updatedByAgentId : ∀ s, request.updatedByAgentId = some s → Checked 64 s
  value : containsNulMembers request.value = false

omit [FloatFormat F] in
theorem validateUpdatedBy_eq_ok {o : Option PyStr} (hnul : ∀ v, item = some v → containsNul v = false)
    (h : validateUpdatedBy item = .ok o) : ∀ s, o = some s → Checked 64 s := by
  rintro s rfl
  unfold validateUpdatedBy at h
  split at h
  · cases h
  · cases h
  · cases htext : boundedText maxUpdatedByAgentIdLen "updated_by_agent_id must be a non-empty string" item with
    | error e =>
        rw [htext] at h
        cases h
    | ok s' =>
        rw [htext] at h
        cases h
        obtain ⟨rfl, hlength⟩ := boundedText_eq_ok htext
        exact ⟨by simpa [containsNul] using hnul (.str s) rfl, hlength⟩

theorem acceptState_eq_ok {request : WriteState F}
    (h : acceptState recursion maxStateValueBytes tenantId now stateKey loaded = .ok request) :
    CheckedState request := by
  unfold acceptState at h
  split at h
  · obtain ⟨body, hparse, h⟩ := bind_eq_ok.mp h
    obtain ⟨-, hnul⟩ := parseBody_eq_ok hparse
    obtain ⟨-, -, h⟩ := bind_eq_ok.mp h
    obtain ⟨-, -, h⟩ := bind_eq_ok.mp h
    obtain ⟨expectedVersion, -, h⟩ := bind_eq_ok.mp h
    obtain ⟨value, hvalue, h⟩ := bind_eq_ok.mp h
    obtain ⟨updatedByAgentId, hupdatedBy, h⟩ := bind_eq_ok.mp h
    cases h
    exact ⟨validateUpdatedBy_eq_ok (fun v => containsNul_pyItem hnul) hupdatedBy, boundedObject_eq_ok hnul hvalue⟩
  · cases h

/-! ## what the columns take -/

def Encodable (s : PyStr) : Prop := ∀ p ∈ s.points, isHighSurrogate p = false ∧ isLowSurrogate p = false

mutual

/-- No surrogate that stands alone, and no number that is none. -/
def jsonbSafe : PyValue F → Bool
  | .float x => storable (.float x : Value F)
  | .str s => pairedPoints s.points
  | .arr items => jsonbSafeItems items
  | .obj members => jsonbSafeMembers members
  | _ => true

def jsonbSafeItems : List (PyValue F) → Bool
  | [] => true
  | v :: vs => jsonbSafe v && jsonbSafeItems vs

def jsonbSafeMembers : List (PyStr × PyValue F) → Bool
  | [] => true
  | (k, v) :: ms => pairedPoints k.points && jsonbSafe v && jsonbSafeMembers ms

end

omit [FloatFormat F] in
theorem isSome_encode_iff (s : PyStr) : s.encode.isSome ↔ Encodable s := by
  rw [PyStr.isSome_encode, List.all_eq_true]
  simp [Encodable, scalar_isSome]

theorem textColumn_isSome (h : s.length ≤ maxLength) :
    (textColumn maxLength s).isSome ↔ 0 ∉ s.points ∧ Encodable s := by
  rw [← isSome_encode_iff, textColumn]
  cases hencode : s.encode with
  | none => simp
  | some text =>
      have hlength : text.length ≤ maxLength := by
        rwa [PyStr.encode_eq_some.mp hencode, PyStr.length_ofString] at h
      have hnul := nul_mem_iff hencode
      by_cases hmem : '\x00' ∈ text.toList
      · simp [hmem, hnul.mp hmem]
      · simpa [hmem, varchar_of_le hlength] using fun hz => hmem (hnul.mpr hz)

theorem Checked.isSome (h : Checked maxLength s) : (textColumn maxLength s).isSome ↔ Encodable s := by
  rw [textColumn_isSome h.length, and_iff_right h.noNul]

theorem any_encode_joined (h : 0 ∉ s.points) :
    s.joined.encode.any (fun text => '\x00' ∉ text.toList) = pairedPoints s.points := by
  rw [← PyStr.isSome_encode_joined]
  cases hencode : s.joined.encode with
  | none => rfl
  | some text =>
      have hnul : '\x00' ∉ text.toList := fun hmem =>
        h ((zero_mem_joinPoints s.points).mp ((nul_mem_iff hencode).mp hmem))
      simp [hnul]

mutual

theorem any_storable : (v : PyValue F) → containsNul v = false → v.joined.encode.any storable = jsonbSafe v
  | .null, _ | .bool _, _ | .int _, _ => rfl
  | .float x, _ => by simp [PyValue.joined, PyValue.encode, storable, jsonbSafe]
  | .str s, h => by
      have hs : 0 ∉ s.points := by simpa [containsNul] using h
      rw [jsonbSafe, ← any_encode_joined hs, PyValue.joined, PyValue.encode]
      cases s.joined.encode <;> simp [storable]
  | .arr items, h => by
      rw [jsonbSafe, ← any_storableItems items h, PyValue.joined, PyValue.encode]
      cases encodeItems (joinItems items) <;> simp [storable]
  | .obj members, h => by
      rw [jsonbSafe, ← any_storableMembers members h, PyValue.joined, PyValue.encode]
      cases encodeMembers (joinMembers members) <;> simp [storable]

theorem any_storableItems : (vs : List (PyValue F)) → containsNulItems vs = false →
    (encodeItems (joinItems vs)).any storableItems = jsonbSafeItems vs
  | [], _ => rfl
  | v :: vs, h => by
      obtain ⟨hv, hvs⟩ := Bool.or_eq_false_iff.mp h
      rw [jsonbSafeItems, ← any_storable v hv, ← any_storableItems vs hvs, joinItems, encodeItems]
      cases v.joined.encode <;> cases encodeItems (joinItems vs) <;> simp [storableItems]

theorem any_storableMembers : (ms : List (PyStr × PyValue F)) → containsNulMembers ms = false →
    (encodeMembers (joinMembers ms)).any storableMembers = jsonbSafeMembers ms
  | [], _ => rfl
  | (k, v) :: ms, h => by
      simp only [containsNulMembers, Bool.or_eq_false_iff, List.contains_eq_mem, decide_eq_false_iff_not] at h
      rw [jsonbSafeMembers, ← any_encode_joined h.1.1, ← any_storable v h.1.2, ← any_storableMembers ms h.2, joinMembers,
        encodeMembers]
      cases k.joined.encode <;> cases v.joined.encode <;> cases encodeMembers (joinMembers ms) <;>
        simp [storableMembers]

end

theorem jsonbColumn_isSome (h : containsNulMembers members = false) :
    (jsonbColumn (.obj members)).isSome ↔ jsonbSafeMembers members = true := by
  have hstorable := any_storable (.obj members) h
  rw [jsonbSafe] at hstorable
  rw [← hstorable, jsonbColumn]
  cases (PyValue.obj members).joined.encode with
  | none => simp
  | some v => by_cases hv : storable v = true <;> simp [hv]

/-! ## what is written -/

/-- Every column that a send writes takes its value. -/
def SendMessage.Fits (request : SendMessage F) : Prop :=
  ∃ key row, textColumn 128 request.idempotencyKey = some key ∧ request.row key = some row ∧
    ∀ disposition, (request.link key disposition).isSome

/-- Every column that a write of the state writes or compares takes its value. -/
def WriteState.Fits (request : WriteState F) : Prop :=
  (textColumn 256 request.stateKey).isSome ∧ (∀ n, request.expectedVersion = some n → (signed 64 n).isSome) ∧
    ∀ version, (request.row version).isSome

def SendMessage.texts (request : SendMessage F) : List PyStr :=
  [request.sender.teamId, request.sender.projectId, request.sender.agentId, request.recipient.teamId,
    request.recipient.projectId, request.recipient.agentId, request.messageType, request.idempotencyKey]

/-- No text has a surrogate, and the message can be stored. -/
structure SendMessage.Clean (request : SendMessage F) : Prop where
  texts : ∀ s ∈ request.texts, Encodable s
  body : jsonbSafeMembers request.body = true

/-- The key has neither a NUL nor a surrogate, the version is a BIGINT, the agent has no surrogate,
and the value can be stored. -/
structure WriteState.Clean (request : WriteState F) : Prop where
  stateKey : 0 ∉ request.stateKey.points ∧ Encodable request.stateKey
  expectedVersion : ∀ n, request.expectedVersion = some n → n ≤ bigintMax
  updatedByAgentId : ∀ s, request.updatedByAgentId = some s → Encodable s
  value : jsonbSafeMembers request.value = true

omit [FloatFormat F] in
theorem AgentId.isSome_mapM {α β : Type} (f : α → Option β) (id : AgentId α) :
    (id.mapM f).isSome ↔ (f id.teamId).isSome ∧ (f id.projectId).isSome ∧ (f id.agentId).isSome := by
  unfold AgentId.mapM
  cases f id.teamId <;> cases f id.projectId <;> cases f id.agentId <;> simp

theorem SendMessage.isSome_row (request : SendMessage F) (key : String) :
    (request.row key).isSome ↔ (request.sender.mapM (textColumn 64)).isSome ∧
      (request.recipient.mapM (textColumn 64)).isSome ∧ (textColumn 64 request.messageType).isSome ∧
      (jsonbColumn (.obj request.body)).isSome := by
  unfold SendMessage.row
  cases request.sender.mapM (textColumn 64) <;> cases request.recipient.mapM (textColumn 64) <;>
    cases textColumn 64 request.messageType <;> cases jsonbColumn (.obj request.body) <;> simp

omit [FloatFormat F] in
theorem SendMessage.isSome_link (request : SendMessage F) (key : String) (disposition : SendDisposition) :
    (request.link key disposition).isSome ↔ (textColumn 64 request.sender.agentId).isSome ∧
      (textColumn 64 request.recipient.agentId).isSome ∧ (textColumn 64 request.messageType).isSome := by
  unfold SendMessage.link
  cases textColumn 64 request.sender.agentId <;> cases textColumn 64 request.recipient.agentId <;>
    cases textColumn 64 request.messageType <;> simp

/-- An accepted message fits its columns just when its texts are clean. -/
theorem CheckedSend.fits_iff (h : CheckedSend request) : request.Fits ↔ request.Clean := by
  have htexts : (∀ s ∈ request.texts, Encodable s) ↔ (textColumn 128 request.idempotencyKey).isSome ∧
      (request.sender.mapM (textColumn 64)).isSome ∧ (request.recipient.mapM (textColumn 64)).isSome ∧
      (textColumn 64 request.messageType).isSome := by
    rw [AgentId.isSome_mapM, AgentId.isSome_mapM, h.idempotencyKey.isSome, h.senderTeamId.isSome, h.senderProjectId.isSome,
      h.senderAgentId.isSome, h.recipientTeamId.isSome, h.recipientProjectId.isSome, h.recipientAgentId.isSome,
      h.messageType.isSome]
    simp [SendMessage.texts]
    tauto
  have hbody := jsonbColumn_isSome h.body
  constructor
  · rintro ⟨key, row, hkey, hrow, -⟩
    obtain ⟨hsender, hrecipient, htype, hmessage⟩ := (request.isSome_row key).mp (by rw [hrow]; rfl)
    exact ⟨htexts.mpr ⟨by rw [hkey]; rfl, hsender, hrecipient, htype⟩, hbody.mp hmessage⟩
  · rintro ⟨hall, hsafe⟩
    obtain ⟨hkey, hsender, hrecipient, htype⟩ := htexts.mp hall
    obtain ⟨key, hkey⟩ := Option.isSome_iff_exists.mp hkey
    obtain ⟨row, hrow⟩ := Option.isSome_iff_exists.mp
      ((request.isSome_row key).mpr ⟨hsender, hrecipient, htype, hbody.mpr hsafe⟩)
    refine ⟨key, row, hkey, hrow, fun disposition => (request.isSome_link key disposition).mpr ?_⟩
    exact ⟨((AgentId.isSome_mapM _ _).mp hsender).2.2, ((AgentId.isSome_mapM _ _).mp hrecipient).2.2, htype⟩

theorem WriteState.isSome_row (request : WriteState F) (version : Int) :
    (request.row version).isSome ↔ (jsonbColumn (.obj request.value)).isSome ∧
      (nullableColumn 64 request.updatedByAgentId).isSome := by
  unfold WriteState.row
  cases jsonbColumn (.obj request.value) <;> cases nullableColumn 64 request.updatedByAgentId <;> simp

theorem isSome_signed {n : Int} (h : 1 ≤ n) : (signed 64 n).isSome ↔ n ≤ bigintMax := by
  unfold signed bigintMax
  split
  · next hn =>
      simp at hn ⊢
      omega
  · next hn =>
      simp at hn ⊢
      omega

theorem CheckedState.fits_iff {request : WriteState F} (h : CheckedState request) : request.Fits ↔ request.Clean := by
  have hkey := textColumn_isSome request.keyLength
  have hvalue := jsonbColumn_isSome h.value
  have hversion : (∀ n, request.expectedVersion = some n → (signed 64 n).isSome) ↔
      ∀ n, request.expectedVersion = some n → n ≤ bigintMax :=
    forall₂_congr fun n hn => isSome_signed (request.positive n hn)
  have hupdatedBy : (nullableColumn 64 request.updatedByAgentId).isSome ↔
      ∀ s, request.updatedByAgentId = some s → Encodable s := by
    cases hagent : request.updatedByAgentId with
    | none => simp [nullableColumn]
    | some s => simpa [nullableColumn] using (h.updatedByAgentId s hagent).isSome
  constructor
  · rintro ⟨hk, hv, hrow⟩
    obtain ⟨hjsonb, hagent⟩ := (request.isSome_row 1).mp (hrow 1)
    exact ⟨hkey.mp hk, hversion.mp hv, hupdatedBy.mp hagent, hvalue.mp hjsonb⟩
  · rintro ⟨hk, hv, hagent, hjsonb⟩
    refine ⟨hkey.mpr hk, hversion.mpr hv, fun version => (request.isSome_row version).mpr ?_⟩
    exact ⟨hvalue.mpr hjsonb, hupdatedBy.mpr hagent⟩

/-- **Which validated requests can be stored.**  A send fits its columns exactly where none of its
texts has a surrogate, and its message neither a surrogate that stands alone nor a number that is
none; a write of the state, exactly where that holds of its agent and its value, its version is a
BIGINT, and the key of its path has neither a NUL nor a surrogate. -/
theorem validated_fits_iff (recursion : Recursion F) (maxBytes : Nat) (tenantId : String) (now : DateTime)
    (loaded : Option (PyValue F)) :
    (∀ request, acceptSend recursion maxBytes tenantId now loaded = .ok request →
      (request.Fits ↔ request.Clean)) ∧
    ∀ stateKey request, acceptState recursion maxBytes tenantId now stateKey loaded = .ok request →
      (request.Fits ↔ request.Clean) :=
  ⟨fun _ h => (acceptSend_eq_ok h).fits_iff, fun _ _ h => (acceptState_eq_ok h).fits_iff⟩

end Dumps

/-! ## a version beyond BIGINT -/

/-- Nothing goes too deep. -/
def shallow (F : Type) : Recursion F := ⟨fun _ => false, fun _ => false⟩

/-- `{"expected_version": 9223372036854775808, "value": {}}` -/
def sampleStateBody : PyValue Empty :=
  .obj [(.ofString "expected_version", .int 9223372036854775808), (.ofString "value", .obj [])]

def sampleStateNow : DateTime := .ofFields 2026 7 1 9 0 0 0 (Eq.refl true)

theorem sampleState_accepted : ∃ request, acceptState (shallow Empty) 16384 "tenant" sampleStateNow (.ofString "key")
    (some sampleStateBody) = .ok request ∧ request.expectedVersion = some 9223372036854775808 := by
  have heval : (acceptState (shallow Empty) 16384 "tenant" sampleStateNow (.ofString "key")
      (some sampleStateBody)).toOption.map WriteState.expectedVersion = some (some 9223372036854775808) := by
    decide +kernel
  obtain ⟨request, hrequest, hversion⟩ := Option.map_eq_some_iff.mp heval
  cases hresult : acceptState (shallow Empty) 16384 "tenant" sampleStateNow (.ofString "key") (some sampleStateBody) with
  | error rejection =>
      rw [hresult] at hrequest
      cases hrequest
  | ok accepted =>
      rw [hresult] at hrequest
      cases hrequest
      exact ⟨request, rfl, hversion⟩

theorem validated_fits_sample : ∃ request, acceptState (shallow Empty) 16384 "tenant" sampleStateNow (.ofString "key")
    (some sampleStateBody) = .ok request ∧ (request.Fits ↔ request.Clean) := by
  obtain ⟨request, hrequest, -⟩ := sampleState_accepted
  exact ⟨request, hrequest, (validated_fits_iff (shallow Empty) 16384 "tenant" sampleStateNow
    (some sampleStateBody)).2 (.ofString "key") request hrequest⟩

/-- The version is one more than the column holds. -/
theorem validated_does_not_fit : ¬ ∀ (stateKey : PyStr) (loaded : Option (PyValue Empty)) (request : WriteState Empty),
    acceptState (shallow Empty) 16384 "tenant" sampleStateNow stateKey loaded = .ok request → request.Fits := by
  intro h
  obtain ⟨request, hrequest, hversion⟩ := sampleState_accepted
  have hfits := (h (.ofString "key") (some sampleStateBody) request hrequest).2.1 9223372036854775808 hversion
  exact absurd hfits (by decide)

end Anoryx.Orchestrator
