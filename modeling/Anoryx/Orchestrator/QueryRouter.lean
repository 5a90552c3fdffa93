import Anoryx.Keyset
import Anoryx.Base64
import Anoryx.PyText
import Anoryx.PyJson.Transport
import Anoryx.Orchestrator.EventWindows

/-!
# Anoryx.Orchestrator.QueryRouter

The paginated reads of events and of dead letters (`query/router.py`, `persistence/repositories.py`).

A cursor of dead letters is JSON that names a time and an id.  Only the time is looked at before the
query, and not as PostgreSQL reads it (`cursor_queries`).

The filters are such as PostgreSQL takes; under its collation two ids are two.
-/

namespace Anoryx.Orchestrator.QueryRouter

open PyJson PyText Base64 Keyset EventWindows DateTime

variable {F O : Type} [FloatFormat F]

/-! ## answers -/

inductive Response (B : Type)
  /-- FastAPI's own 422 -/
  | invalid
  | error (status : Nat) (code message : String)
  | page (data : List B) (nextCursor : Option PyStr)
  /-- a `DBAPIError` in the query -/
  | databaseError

variable {B D : Type}

def Response.page? : Response B → Option (List B × Option PyStr)
  | .page data next => some (data, next)
  | _ => none

/-- Answered 422 or with a page. -/
def Response.Answered : Response B → Prop
  | .invalid | .page .. => True
  | .error status .. => status = 422
  | .databaseError => False

def maxCursorLength : Nat := 512

def clampLimit : Option Int → Nat
  | none => 50
  | some raw => if raw < 1 then 1 else if 200 < raw then 200 else raw.toNat

/-- What both endpoints do with their cursor; `read` runs the query. -/
def answerWith (decode : PyStr → Option D) (read : Option D → Option (List B × Option PyStr)) (cursor : Option PyStr) :
    Response B :=
  let respond decoded := match read decoded with
    | none => .databaseError
    | some (data, next) => .page data next
  match cursor with
  | none => respond none
  | some cursor =>
      if maxCursorLength < cursor.length then .invalid
      else match decode cursor with
        | none => .error 422 "schema_invalid" "cursor is malformed"
        | some decoded => respond (some decoded)

/-! ## cursors -/

/-- `urlsafe_b64encode(text.encode("utf-8")).decode("ascii")` -/
def encodeText (text : String) : PyStr := ⟨asciiDecode (urlsafeEncode (utf8 text))⟩

/-- `urlsafe_b64decode(cursor.encode("ascii")).decode("utf-8")` -/
def decodeText (cursor : PyStr) : Option String := do
  let bs ← asciiEncode cursor.points
  let raw ← urlsafeDecode bs
  String.fromUTF8? ⟨raw.toArray⟩

def encodeSeqCursor (sequenceNumber : Int) : PyStr := encodeText (String.ofList (intText sequenceNumber))

def IsBigint (n : Int) : Prop := -9223372036854775808 ≤ n ∧ n ≤ 9223372036854775807

instance (n : Int) : Decidable (IsBigint n) := inferInstanceAs (Decidable (_ ∧ _))

def decodeSeqCursor (cursor : PyStr) : Option Int := do
  let text ← decodeText cursor
  (PyInt.parse (.ofString text)).filter fun value => IsBigint value

variable (F O) in
/-- `json.loads` and `datetime.fromisoformat`, how PostgreSQL reads a `timestamptz` (`none`, where it raises)
and how it orders texts. -/
structure Libraries where
  loads : String → Option (PyValue F)
  loads_dumps (style : Style) (v : Value F) : v.Distinct → v.readable = true → loads (dumps style v) = some (.ofValue v)
  fromisoformat : PyStr → Bool
  fromisoformat_isoformat (d : DateTime) : fromisoformat (.ofString d.isoformat) = true
  timestamptz : PyStr → Option DateTime
  timestamptz_isoformat (d : DateTime) : timestamptz (.ofString d.isoformat) = some d
  collate : String → O

def encodeDlqCursor (createdAt : DateTime) (dlqId : String) : PyStr :=
  encodeText (dumps (⟨true, false⟩ : Style) (.obj [("c", .str createdAt.isoformat), ("d", .str dlqId)] : Value Empty))

variable (libs : Libraries F O)

def decodeDlqCursor (cursor : PyStr) : Option (PyStr × PyValue F) := do
  let text ← decodeText cursor
  match ← libs.loads text with
  | .obj members => do
      let createdAt ← pyItem (.ofString "c") members
      let dlqId ← pyItem (.ofString "d") members
      match createdAt with
      | .str createdAt => if libs.fromisoformat createdAt then some (createdAt, dlqId) else none
      | _ => none
  | _ => none

/-! ## events -/

structure EventEntry where
  sequenceNumber : Int
  row : EventRow
  bigint : IsBigint sequenceNumber

def listEvents (C : Collation) (filters : Filters) (limit : Nat) (cursor : Option Int) (rows : List EventEntry) :
    List EventRow × Option Int :=
  let (found, next) := page EventEntry.sequenceNumber
    (fun e => decide (∀ n ∈ cursor, n < e.sequenceNumber) && filters.hold C e.row) limit rows
  (found.map EventEntry.row, next.map EventEntry.sequenceNumber)

/-- `query_events`; `lower` is `str.lower`. -/
def queryEvents (C : Collation) (lower : List Char → List Char) (principal : List Char) (filters : Filters)
    (cursor : Option PyStr) (limit : Option Int) (rows : List EventEntry) : Response EventRow :=
  if filters.tenantId.any fun tenantId => lower tenantId ≠ lower principal then
    .error 403 "forbidden" "tenant_id filter does not match the authenticated principal"
  else answerWith decodeSeqCursor (fun decoded =>
    let (data, next) := listEvents C filters (clampLimit limit) decoded rows
    some (data, next.map encodeSeqCursor)) cursor

/-! ## dead letters -/

/-- A row of `dead_letter_queue`; its id is a `str(uuid4())`. -/
structure DeadLetter where
  dlqId : String
  reason : String
  attemptCount : Int
  firstFailedAt : String
  eventType : String
  sourceProduct : String
  sourceSequence : Option Int
  createdAt : DateTime
  length_dlqId : dlqId.length = 36
  dlqId_chars : ∀ c ∈ dlqId.toList, c.isAlphanum ∨ c = '-'

structure DeadLetterMetadata where
  dlqId : String
  reason : String
  attemptCount : Int
  firstFailedAt : String
  eventType : String
  sourceProduct : String
  sequence : Int

/-- `_dead_letter_metadata_body` -/
def DeadLetter.metadata (row : DeadLetter) : DeadLetterMetadata :=
  ⟨row.dlqId, row.reason, row.attemptCount, row.firstFailedAt, row.eventType, row.sourceProduct,
    row.sourceSequence.getD 0⟩

/-- The bounds are as PostgreSQL reads them. -/
structure DlqFilters where
  reason : Option String
  sourceProduct : Option String
  since : Option DateTime
  until' : Option DateTime

def DlqFilters.hold (f : DlqFilters) (row : DeadLetter) : Bool :=
  f.reason.all (· = row.reason) && f.sourceProduct.all (· = row.sourceProduct) && f.since.all (· ≤ row.createdAt) &&
    f.until'.all (row.createdAt < ·)

def dlqKey (row : DeadLetter) : DateTime ×ₗ O := toLex (row.createdAt, libs.collate row.dlqId)

/-- A parameter of type text: a text without NUL that is UTF-8, or NULL. -/
def bindText : PyValue F → Option (Option String)
  | .null => some none
  | .str s => (s.encode.filter fun text => '\x00' ∉ text.toList).map some
  | _ => none

variable [LinearOrder O]

/-- `(created_at, dlq_id) > (c, d)`; where `d` is NULL and has to decide, it is not true. -/
def afterKey (c : DateTime) (d : Option String) (row : DeadLetter) : Bool :=
  c < row.createdAt || c = row.createdAt && d.any fun d => libs.collate d < libs.collate row.dlqId

/-- `list_dead_letters`; `none`, where the database raises -/
def listDeadLetters (filters : DlqFilters) (limit : Nat) (cursor : Option (PyStr × PyValue F))
    (rows : List DeadLetter) : Option (List DeadLetterMetadata × Option (DateTime × String)) := do
  let after : DeadLetter → Bool ← match cursor with
    | none => some fun _ => true
    | some (c, d) => (libs.timestamptz c).bind fun c => (bindText d).map (afterKey libs c)
  let (found, next) := page (dlqKey libs) (fun row => after row && filters.hold row) limit rows
  return (found.map DeadLetter.metadata, next.map fun row => (row.createdAt, row.dlqId))

def queryDeadLetters (filters : DlqFilters) (cursor : Option PyStr) (limit : Option Int) (rows : List DeadLetter) :
    Response DeadLetterMetadata :=
  answerWith (decodeDlqCursor libs) (fun decoded => do
    let (data, next) ← listDeadLetters libs filters (clampLimit limit) decoded rows
    return (data, next.map fun key => encodeDlqCursor key.1 key.2)) cursor

/-- What PostgreSQL makes of a cursor that has been decoded. -/
def Readable (cursor : PyStr) : Prop :=
  ∀ createdAt dlqId, decodeDlqCursor libs cursor = some (createdAt, dlqId) →
    (libs.timestamptz createdAt).isSome ∧ (bindText dlqId).isSome

/-! ## the length of a cursor -/

theorem length_utf8_le (s : String) : (utf8 s).length ≤ 4 * s.length := by
  have hsize (cs : List Char) : (utf8 (String.ofList cs)).length ≤ 4 * cs.length := by
    induction cs with
    | nil => decide
    | cons c cs ih =>
        have hc : (utf8 (String.ofList [c])).length ≤ 4 := by
          have h := c.utf8Size_le_four
          simpa [utf8, List.utf8Encode_singleton] using h
        rw [← List.singleton_append, String.ofList_append, utf8_append, List.length_append, List.length_append]
        simp only [List.length_singleton]
        omega
  have h := hsize s.toList
  rwa [String.ofList_toList, String.length_toList] at h

theorem length_encode_le (bs : List UInt8) : (encode bs).length ≤ 4 * ((bs.length + 2) / 3) := by
  fun_induction encode bs with
  | case1 => simp
  | case2 a => simp
  | case3 a b => simp
  | case4 a b c rest ih =>
      simp only [List.length_cons] at ih ⊢
      omega

theorem length_encodeText_le {text : String} (h : text.length ≤ 95) : (encodeText text).length ≤ maxCursorLength := by
  have hbytes := length_utf8_le text
  have hlength := length_encode_le (utf8 text)
  simp only [encodeText, PyStr.length, asciiDecode, urlsafeEncode, List.length_map, maxCursorLength]
  omega

theorem length_intText_le {n : Int} (h : IsBigint n) : (intText n).length ≤ 20 := by
  have hdigits {m : Nat} (hm : m < 10 ^ 19) : (Nat.toDigits 10 m).length ≤ 19 :=
    (Nat.length_toDigits_le_iff (by decide) (by decide)).mpr hm
  unfold IsBigint at h
  cases n with
  | ofNat n =>
      rw [Int.ofNat_eq_natCast] at h
      exact (hdigits (by omega)).trans (by decide)
  | negSucc n =>
      rw [intText, List.length_cons]
      exact Nat.succ_le_succ (hdigits (by omega))

/-- What a JSON text holds as it is -/
def isPlain (c : Char) : Bool := c.isAlphanum || c ∈ ['-', ':', '.', '+']

theorem escapeChar_of_isPlain {c : Char} (h : isPlain c = true) : escapeChar true c = [c] := by
  have hrange : 0x20 < c.toNat ∧ c.toNat < 0x7f ∧ c.toNat ≠ '"'.toNat ∧ c.toNat ≠ '\\'.toNat := by
    rw [isPlain, Bool.or_eq_true, decide_eq_true_eq] at h
    rcases h with h | h
    · have hval : c.val.toNat = c.toNat := rfl
      simp only [Char.isAlphanum, Char.isAlpha, Char.isUpper, Char.isLower, Char.isDigit, Bool.or_eq_true,
        Bool.and_eq_true, decide_eq_true_eq, ge_iff_le, UInt32.le_iff_toNat_le, hval] at h
      simp at h ⊢
      omega
    · simp only [List.mem_cons, List.not_mem_nil, or_false] at h
      rcases h with rfl | rfl | rfl | rfl <;> decide
  obtain ⟨hlow, hhigh, hquote, hslash⟩ := hrange
  have hne {d : Char} (hd : c.toNat ≠ d.toNat) : c ≠ d := fun heq => hd (congrArg Char.toNat heq)
  have hcontrol {d : Char} (hd : d.toNat < 0x20) : c ≠ d := hne (by omega)
  simp [escapeChar, hne hquote, hne hslash, @hcontrol '\n' (by decide), @hcontrol '\r' (by decide),
    @hcontrol '\t' (by decide), @hcontrol '\x0c' (by decide), @hcontrol '\x08' (by decide), hhigh, hlow.le]

theorem flatMap_escapeChar {cs : List Char} (h : cs.all isPlain = true) : cs.flatMap (escapeChar true) = cs := by
  rw [List.all_eq_true] at h
  rw [List.flatMap_congr fun c hc => escapeChar_of_isPlain (h c hc)]
  simp

theorem isDigit_padded (width n : Nat) : ∀ c ∈ padded width n, c.isDigit = true := by
  induction width generalizing n with
  | zero => simp [padded]
  | succ width ih =>
      have hdigit : ∀ d < 10, (Nat.digitChar d).isDigit = true := by decide
      intro c hc
      rw [padded, List.mem_append, List.mem_singleton] at hc
      rcases hc with hc | rfl
      · exact ih _ c hc
      · exact hdigit _ (Nat.mod_lt n (by decide))

theorem isoformat_facts (d : DateTime) : d.isoformat.toList.all isPlain = true ∧ d.isoformat.length ≤ 32 := by
  have hpadded (width n : Nat) : (padded width n).all isPlain = true :=
    List.all_eq_true.mpr fun c hc => by simp [isPlain, Char.isAlphanum, isDigit_padded _ _ c hc]
  unfold isoformat isoTail
  split <;> simp only [String.toList_ofList, String.length_ofList, List.all_append, List.all_cons, List.all_nil,
    hpadded, List.length_append, List.length_cons, List.length_nil, length_padded] <;> decide

/-! ## the cursors of the pages -/

theorem decodeText_encodeText (text : String) : decodeText (encodeText text) = some text := by
  have hascii : ∀ b ∈ urlsafeEncode (utf8 text), b < 0x80 := by
    intro b hb
    rw [← (unpad_urlsafeEncode _).2.2, repad, List.mem_append, List.mem_replicate] at hb
    rcases hb with hb | ⟨-, rfl⟩
    · exact ((unpad_urlsafeEncode _).1 b hb).2.2
    · decide
  rw [decodeText, encodeText, asciiEncode_asciiDecode hascii, Option.bind_eq_bind, Option.bind_some,
    urlsafeDecode_urlsafeEncode]
  exact fromUTF8?_utf8 text

theorem seqCursor_facts (e : EventEntry) : (encodeSeqCursor e.sequenceNumber).length ≤ maxCursorLength ∧
    decodeSeqCursor (encodeSeqCursor e.sequenceNumber) = some e.sequenceNumber := by
  have hbigint := e.bigint
  have hsmall : e.sequenceNumber.natAbs < 10 ^ PyInt.maxStrDigits := by
    unfold IsBigint at hbigint
    calc e.sequenceNumber.natAbs < 10 ^ 19 := by omega
      _ ≤ 10 ^ PyInt.maxStrDigits := Nat.pow_le_pow_right (by decide) (by decide)
  have hparse : PyInt.parse (.ofString (String.ofList (intText e.sequenceNumber))) = some e.sequenceNumber :=
    PyInt.parse_str hsmall
  constructor
  · refine length_encodeText_le ?_
    rw [String.length_ofList]
    exact (length_intText_le hbigint).trans (by decide)
  · rw [decodeSeqCursor, encodeSeqCursor, decodeText_encodeText, Option.bind_eq_bind, Option.bind_some, hparse,
      Option.filter_some, if_pos (decide_eq_true hbigint)]

variable {libs}

omit [LinearOrder O] in
theorem decodeDlqCursor_encodeDlqCursor (createdAt : DateTime) (dlqId : String) :
    decodeDlqCursor libs (encodeDlqCursor createdAt dlqId) =
      some (.ofString createdAt.isoformat, .str (.ofString dlqId)) := by
  have hloads := libs.loads_dumps ⟨true, false⟩ (.obj [("c", .str createdAt.isoformat), ("d", .str dlqId)])
    ⟨by simp, trivial, trivial, trivial⟩ rfl
  have htext : dumps ⟨true, false⟩ (.obj [("c", .str createdAt.isoformat), ("d", .str dlqId)] : Value F) =
      dumps ⟨true, false⟩ (.obj [("c", .str createdAt.isoformat), ("d", .str dlqId)] : Value Empty) := rfl
  rw [htext] at hloads
  rw [decodeDlqCursor, encodeDlqCursor, decodeText_encodeText, Option.bind_eq_bind, Option.bind_some, hloads]
  have hd : pyItem (.ofString "d") (pyMembersOf [("c", .str createdAt.isoformat), ("d", .str dlqId)]) =
      some (.str (.ofString dlqId) : PyValue F) := rfl
  have hc : pyItem (.ofString "c") (pyMembersOf [("c", .str createdAt.isoformat), ("d", .str dlqId)]) =
      some (.str (.ofString createdAt.isoformat) : PyValue F) := rfl
  simp [PyValue.ofValue, hc, hd, libs.fromisoformat_isoformat]

omit [FloatFormat F] in
theorem bindText_dlqId (row : DeadLetter) :
    bindText (.str (.ofString row.dlqId) : PyValue F) = some (some row.dlqId) := by
  have hnul : '\x00' ∉ row.dlqId.toList := fun h => absurd (row.dlqId_chars _ h) (by decide)
  rw [bindText, PyStr.encode_eq_some.mpr rfl, Option.filter_some, if_pos (decide_eq_true hnul), Option.map_some]

theorem length_encodeDlqCursor_le (row : DeadLetter) :
    (encodeDlqCursor row.createdAt row.dlqId).length ≤ maxCursorLength := by
  refine length_encodeText_le ?_
  obtain ⟨hplain, hlength⟩ := isoformat_facts row.createdAt
  have hid : row.dlqId.toList.all isPlain = true := by
    refine List.all_eq_true.mpr fun c hc => ?_
    rcases row.dlqId_chars c hc with h | rfl
    · simp [isPlain, h]
    · decide
  have hidLength := row.length_dlqId
  have hkeys : ("c".toList.flatMap (escapeChar true)).length = 1 ∧
      ("d".toList.flatMap (escapeChar true)).length = 1 := by decide
  rw [dumps, String.length_ofList]
  simp only [Value.tokens, memberTokens, moreMemberTokens, List.cons_append, List.nil_append, List.flatMap_cons,
    List.flatMap_nil, Token.text, flatMap_escapeChar hplain, flatMap_escapeChar hid, Bool.false_eq_true, if_false,
    List.length_append, List.length_cons, List.length_nil, String.length_toList, hkeys.1, hkeys.2]
  omega

/-! ## what is answered -/

section AnswerWith

variable {decode : PyStr → Option D} {read : Option D → Option (List B × Option PyStr)}

theorem page?_answerWith {R : Type} {encode : R → PyStr} {decoded : R → D}
    (h : ∀ r, (encode r).length ≤ maxCursorLength ∧ decode (encode r) = some (decoded r)) (position : Option R) :
    (answerWith decode read (position.map encode)).page? = read (position.map decoded) := by
  have hrespond (d : Option D) : (match read d with
      | none => (Response.databaseError : Response B)
      | some (data, next) => .page data next).page? = read d := by
    split <;> simp [Response.page?, *]
  cases position with
  | none => exact hrespond none
  | some r =>
      rw [Option.map_some, answerWith]
      simp only [Nat.not_lt.mpr (h r).1, if_false, (h r).2]
      exact hrespond _

theorem answered_answerWith {cursor : PyStr} : (answerWith decode read (some cursor)).Answered ↔
    (cursor.length ≤ maxCursorLength → ∀ d, decode cursor = some d → (read (some d)).isSome) := by
  unfold answerWith
  by_cases hlength : maxCursorLength < cursor.length
  · simp [hlength, Response.Answered]
  · cases hdecode : decode cursor with
    | none => simp [hlength, hdecode, Response.Answered]
    | some d => cases hread : read (some d) <;> simp [hlength, hdecode, hread, Response.Answered, Nat.not_lt.mp hlength]

end AnswerWith

theorem one_le_clampLimit (limit : Option Int) : 1 ≤ clampLimit limit := by
  unfold clampLimit
  split
  · decide
  · split_ifs <;> omega

section Events

variable {C : Collation} {lower : List Char → List Char} {principal : List Char} {filters : Filters}

theorem serves_queryEvents (h : (filters.tenantId.any fun tenantId => lower tenantId ≠ lower principal) = false) :
    Serves EventEntry.sequenceNumber (fun e => filters.hold C e.row) EventEntry.row
      (fun e => encodeSeqCursor e.sequenceNumber) clampLimit
      fun cursor limit rows => (queryEvents C lower principal filters cursor limit rows).page? := by
  intro position limit rows
  have hselect : (fun e => decide (∀ n ∈ position.map EventEntry.sequenceNumber, n < e.sequenceNumber) &&
      filters.hold C e.row) = fun e => decide (After EventEntry.sequenceNumber position e) && filters.hold C e.row := by
    funext e
    simp [After]
  simp only [queryEvents, h, Bool.false_eq_true, if_false]
  rw [page?_answerWith seqCursor_facts]
  simp only [listEvents, hselect, Option.map_map]
  rfl

theorem answered_queryEvents (h : (filters.tenantId.any fun tenantId => lower tenantId ≠ lower principal) = false)
    (cursor : PyStr) (limit : Option Int) (rows : List EventEntry) :
    (queryEvents C lower principal filters (some cursor) limit rows).Answered := by
  rw [queryEvents, if_neg (by rw [h]; exact Bool.false_ne_true), answered_answerWith]
  exact fun _ _ _ => rfl

end Events

variable {filters : DlqFilters}

theorem serves_queryDeadLetters : Serves (dlqKey libs) filters.hold DeadLetter.metadata
    (fun row => encodeDlqCursor row.createdAt row.dlqId) clampLimit
    fun cursor limit rows => (queryDeadLetters libs filters cursor limit rows).page? := by
  intro position limit rows
  simp only [queryDeadLetters]
  rw [page?_answerWith fun row : DeadLetter => (⟨length_encodeDlqCursor_le row, decodeDlqCursor_encodeDlqCursor _ _⟩ :
    (encodeDlqCursor row.createdAt row.dlqId).length ≤ maxCursorLength ∧ decodeDlqCursor libs _ = some _)]
  have hselect (last : DeadLetter) :
      (fun row => afterKey libs last.createdAt (some last.dlqId) row && filters.hold row) =
        fun row => decide (After (dlqKey libs) (some last) row) && filters.hold row := by
    funext row
    simp [After, afterKey, dlqKey, Prod.Lex.toLex_lt_toLex, Bool.decide_or, Bool.decide_and]
  have hnone : (fun row : DeadLetter => true && filters.hold row) =
      fun row => decide (After (dlqKey libs) none row) && filters.hold row := by
    funext row
    simp [After]
  cases position with
  | none =>
      simp only [listDeadLetters, Option.map_none, Option.bind_eq_bind, Option.bind_some, Option.pure_def, hnone,
        Option.map_map]
      rfl
  | some last =>
      simp only [listDeadLetters, Option.map_some, libs.timestamptz_isoformat, bindText_dlqId, Option.bind_eq_bind,
        Option.bind_some, Option.pure_def, hselect, Option.map_map]
      rfl

/-- A cursor is answered just when it can be read. -/
theorem answered_queryDeadLetters {cursor : PyStr} (hlength : cursor.length ≤ maxCursorLength) (limit : Option Int)
    (rows : List DeadLetter) :
    (queryDeadLetters libs filters (some cursor) limit rows).Answered ↔ Readable libs cursor := by
  rw [queryDeadLetters, answered_answerWith, Readable]
  have hread (createdAt : PyStr) (dlqId : PyValue F) : (do
      let (data, next) ← listDeadLetters libs filters (clampLimit limit) (some (createdAt, dlqId)) rows
      return (data, next.map fun key => encodeDlqCursor key.1 key.2) :
        Option (List DeadLetterMetadata × Option PyStr)).isSome ↔
      (libs.timestamptz createdAt).isSome ∧ (bindText dlqId).isSome := by
    rw [listDeadLetters]
    cases libs.timestamptz createdAt <;> cases bindText dlqId <;> simp
  exact ⟨fun h createdAt dlqId hdecode => (hread _ _).mp (h hlength _ hdecode),
    fun h _ d hdecode => (hread _ _).mpr (h d.1 d.2 hdecode)⟩

theorem unreadable_raises {cursor : PyStr} (hlength : cursor.length ≤ maxCursorLength) (h : ¬ Readable libs cursor) :
    ¬ ∀ cursor : PyStr, cursor.length ≤ maxCursorLength → ∀ limit rows,
      (queryDeadLetters libs filters (some cursor) limit rows).Answered := fun hall =>
  h ((answered_queryDeadLetters hlength none []).mp (hall cursor hlength none []))

/-- **The cursors of the two endpoints.**  Page by page, both read all that was there; a cursor of events is
answered in any case, one of dead letters just when PostgreSQL reads what it decodes to. -/
theorem cursor_queries (libs : Libraries F O) :
    (∀ C lower principal filters, (filters.tenantId.any fun tenantId => lower tenantId ≠ lower principal) = false →
      ReadsAll EventEntry.sequenceNumber (fun e => filters.hold C e.row) EventEntry.row
        (fun cursor limit rows => (queryEvents C lower principal filters cursor limit rows).page?) ∧
      ∀ cursor limit rows, (queryEvents C lower principal filters (some cursor) limit rows).Answered) ∧
    ∀ filters : DlqFilters, ReadsAll (dlqKey libs) filters.hold DeadLetter.metadata
        (fun cursor limit rows => (queryDeadLetters libs filters cursor limit rows).page?) ∧
      ∀ cursor : PyStr, cursor.length ≤ maxCursorLength → ∀ limit rows,
        (queryDeadLetters libs filters (some cursor) limit rows).Answered ↔ Readable libs cursor := by
  refine ⟨fun C lower principal filters h => ⟨?_, fun cursor => answered_queryEvents h cursor⟩, fun filters => ⟨?_, ?_⟩⟩
  · exact (serves_queryEvents h).readsAll one_le_clampLimit
  · exact serves_queryDeadLetters.readsAll one_le_clampLimit
  · exact fun cursor hlength => answered_queryDeadLetters hlength

/-! ## a number for an id -/

open Classical in
/-- Reads what `isoformat` writes. -/
noncomputable def readIso (s : PyStr) : Option DateTime :=
  if h : ∃ d : DateTime, PyStr.ofString d.isoformat = s then some h.choose else none

theorem readIso_isoformat (d : DateTime) : readIso (.ofString d.isoformat) = some d := by
  have hex : ∃ d' : DateTime, PyStr.ofString d'.isoformat = PyStr.ofString d.isoformat := ⟨d, rfl⟩
  have htext := (PyStr.encode_eq_some.mpr hex.choose_spec.symm).symm.trans (PyStr.encode_eq_some.mpr rfl)
  rw [readIso, dif_pos hex, isoformat_injective (Option.some.inj htext)]

noncomputable def sampleLibraries : Libraries Empty String where
  loads text := (jsonLoads text).map .ofValue
  loads_dumps style v hdistinct hreadable := by
    rw [jsonLoads, loads_dumps style hdistinct, Option.filter_some, if_pos hreadable, Option.map_some]
  fromisoformat s := (readIso s).isSome
  fromisoformat_isoformat d := by rw [readIso_isoformat, Option.isSome_some]
  timestamptz := readIso
  timestamptz_isoformat := readIso_isoformat
  collate := id

theorem valid_sampleTime : valid 2026 7 8 12 0 0 0 = true := by decide

def sampleTime : DateTime := .ofFields 2026 7 8 12 0 0 0 valid_sampleTime

/-- `{"c":"2026-07-08T12:00:00+00:00","d":5}` -/
def numberKey : Value Empty := .obj [("c", .str sampleTime.isoformat), ("d", .int 5)]

theorem length_numberKey : (dumps ⟨true, false⟩ numberKey).length ≤ 95 := by
  rw [dumps, String.length_ofList]
  decide +kernel

theorem readable_numberKey : numberKey.readable = true := by
  simp [numberKey, Value.readable, readableMembers, PyInt.Readable, PyInt.digits]
  decide

theorem decode_number : decodeDlqCursor sampleLibraries (encodeText (dumps ⟨true, false⟩ numberKey)) =
    some (.ofString sampleTime.isoformat, .int 5) := by
  have hloads := sampleLibraries.loads_dumps ⟨true, false⟩ numberKey ⟨by simp, trivial, trivial, trivial⟩
    readable_numberKey
  rw [decodeDlqCursor, decodeText_encodeText, Option.bind_eq_bind, Option.bind_some, hloads]
  simp [numberKey, PyValue.ofValue, pyMembersOf, pyItem, PyStr.ofString_inj, sampleLibraries.fromisoformat_isoformat]

theorem not_readable_number : ¬ Readable sampleLibraries (encodeText (dumps ⟨true, false⟩ numberKey)) := by
  intro h
  have hbind : (bindText (.int 5 : PyValue Empty)).isSome := (h _ _ decode_number).2
  cases hbind

/-- **A number is no text**: the query raises. -/
theorem number_raises : ¬ ∀ cursor : PyStr, cursor.length ≤ maxCursorLength → ∀ limit rows,
    (queryDeadLetters sampleLibraries ⟨none, none, none, none⟩ (some cursor) limit rows).Answered :=
  unreadable_raises (length_encodeText_le length_numberKey) not_readable_number

/-! ## two rows of each -/

theorem isBigint_one : IsBigint 1 := by decide

theorem isBigint_two : IsBigint 2 := by decide

def sampleRow (eventId : String) : EventRow :=
  ⟨eventId.toList, "usage".toList, "2026-07-08T12:00:00Z".toList, "acme".toList, [], [], [], none⟩

def sampleEntries : List EventEntry := [⟨2, sampleRow "e2", isBigint_two⟩, ⟨1, sampleRow "e1", isBigint_one⟩]

def letterOne : String := "00000000-0000-4000-8000-000000000001"

def letterTwo : String := "00000000-0000-4000-8000-000000000002"

theorem letterOne_facts : letterOne.length = 36 ∧ ∀ c ∈ letterOne.toList, c.isAlphanum ∨ c = '-' :=
  ⟨by decide +kernel, by simp [letterOne]⟩

theorem letterTwo_facts : letterTwo.length = 36 ∧ ∀ c ∈ letterTwo.toList, c.isAlphanum ∨ c = '-' :=
  ⟨by decide +kernel, by simp [letterTwo]⟩

def sampleLetters : List DeadLetter :=
  [⟨letterTwo, "bad_hmac", 1, sampleTime.isoformat, "usage", "sentinel", some 7, sampleTime, letterTwo_facts.1,
      letterTwo_facts.2⟩,
    ⟨letterOne, "schema_invalid", 2, sampleTime.isoformat, "usage", "sentinel", none, sampleTime, letterOne_facts.1,
      letterOne_facts.2⟩]

theorem nodup_sampleLetters : (sampleLetters.map (dlqKey sampleLibraries)).Nodup := by
  rw [sampleLetters, List.map_cons, List.map_singleton, List.nodup_cons, List.mem_singleton]
  refine ⟨fun h => ?_, List.nodup_singleton _⟩
  have hid : letterTwo = letterOne := (Prod.mk.inj h).2
  exact absurd hid (by decide)

/-- Two events in pages of one, two dead letters in one page, and a cursor with a number for an id. -/
theorem cursor_queries_sample :
    let answerEvents := fun cursor limit rows =>
      (queryEvents .bytewise id [] ⟨none, none, none, none, none, none⟩ cursor limit rows).page?
    let answerLetters := fun cursor limit rows =>
      (queryDeadLetters sampleLibraries ⟨none, none, none, none⟩ cursor limit rows).page?
    (∃ seen : List EventEntry, follow answerEvents none [(some 1, sampleEntries), (some 1, sampleEntries)] =
      some (seen.map EventEntry.row, true) ∧ ∀ e ∈ sampleEntries, e ∈ seen) ∧
    (∃ seen : List DeadLetter, follow answerLetters none [(none, sampleLetters)] =
      some (seen.map DeadLetter.metadata, true) ∧ ∀ row ∈ sampleLetters, row ∈ seen) ∧
    ¬ (queryDeadLetters sampleLibraries ⟨none, none, none, none⟩
      (some (encodeText (dumps ⟨true, false⟩ numberKey))) none sampleLetters).Answered := by
  intro answerEvents answerLetters
  obtain ⟨hevents, hletters⟩ := cursor_queries sampleLibraries
  obtain ⟨hreads, hanswered⟩ := hletters ⟨none, none, none, none⟩
  obtain ⟨entries, ended, hentries, -, -, hall⟩ :=
    (hevents .bytewise id [] ⟨none, none, none, none, none, none⟩ rfl).1
      [(some 1, sampleEntries), (some 1, sampleEntries)]
      ⟨.cons_cons (List.Subset.refl _) (.singleton _), by simp [sampleEntries]⟩
  obtain ⟨letters, last, hfound, -, -, hrows⟩ :=
    hreads [(none, sampleLetters)] ⟨.singleton _, by simpa using nodup_sampleLetters⟩
  have hended : (follow answerEvents none [(some 1, sampleEntries), (some 1, sampleEntries)]).map Prod.snd =
      some true := by decide +kernel
  have hlast : (follow answerLetters none [(none, sampleLetters)]).map Prod.snd = some true := by decide +kernel
  obtain rfl : ended = true := Option.some.inj ((congrArg _ hentries).symm.trans hended)
  obtain rfl : last = true := Option.some.inj ((congrArg _ hfound).symm.trans hlast)
  refine ⟨⟨entries, hentries, fun e he => hall rfl _ rfl e he rfl⟩,
    ⟨letters, hfound, fun row hrow => hrows rfl _ rfl row hrow rfl⟩, ?_⟩
  rw [hanswered _ (length_encodeText_le length_numberKey)]
  exact not_readable_number

end Anoryx.Orchestrator.QueryRouter
