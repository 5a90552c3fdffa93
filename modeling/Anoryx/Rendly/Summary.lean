import Anoryx.StableSelection
import Anoryx.Rendly.RefreshTokens

/-!
# Anoryx.Rendly.Summary

The digest of a channel's messages (`summary.py`): the keywords that the most messages contain, and the
messages that contain the most keywords.

The messages come sorted by their scores and `seq`s, so those that tie keep the order of the list
(`digested_iff`).  An aware datetime is the instant that it is compared by; `str.lower` is a
parameter.
-/

namespace Anoryx.Rendly.Summary

open StableSelection

/-! ## messages -/

structure DigestMessage where
  messageId : String
  tenantId : String
  channelId : String
  senderUserId : String
  content : String
  seq : Nat
  createdAt : Int
deriving DecidableEq

structure CommsDigest where
  tenantId : String
  channelId : String
  messageCount : Nat
  participantIds : List String
  periodStart : Int
  periodEnd : Int
  topKeywords : List String
  highlightMessageIds : List String
deriving DecidableEq

def maxMessages : Nat := 1000
def maxKeywords : Nat := 10
def maxHighlights : Nat := 5
def minKeywordLength : Nat := 3

def stopwords : List String :=
  ["the", "and", "for", "are", "but", "not", "you", "all", "can", "her", "was", "one", "our", "out", "day", "get",
    "has", "him", "his", "how", "man", "new", "now", "old", "see", "two", "way", "who", "boy", "did", "its", "let",
    "put", "say", "she", "too", "use", "with", "that", "this", "have", "from", "they", "will", "would", "there",
    "their", "what", "about", "which", "when", "make", "like", "time", "just", "know", "take", "into", "your", "some",
    "could", "them", "than", "then", "look", "only", "come", "over", "think", "also", "back", "after", "work", "first",
    "well", "even", "want", "because", "these", "give", "most", "yeah", "okay", "thanks", "please", "hey", "hi",
    "hello"]

/-! ## the keywords -/

/-- The class of `_TOKEN_RE` -/
def isTokenChar (c : Char) : Bool := ('a' ≤ c ∧ c ≤ 'z') ∨ ('0' ≤ c ∧ c ≤ '9')

/-- The matches of `_TOKEN_RE`, of which some are empty here -/
def runs (cs : List Char) : List (List Char) := cs.splitOnP fun c => !isTokenChar c

variable (lower : String → String) (messages : List DigestMessage)

def tokenize (content : String) : Finset String :=
  (((runs (lower content).toList).map String.ofList).filter fun token =>
    minKeywordLength ≤ token.length ∧ token ∉ stopwords).toFinset

/-- The keys of `token_counts` -/
def vocabulary : Finset String := messages.toFinset.biUnion fun m => tokenize lower m.content

/-- `token_counts[token]` -/
def tokenCount (token : String) : Nat := messages.countP fun m => token ∈ tokenize lower m.content

/-- The sort key of an item of `token_counts` -/
def itemKey (token : String) : ℤ ×ₗ String := toLex (-(tokenCount lower messages token : ℤ), token)

def sortedItems : List (ℤ ×ₗ String) := ((vocabulary lower messages).image (itemKey lower messages)).sort (· ≤ ·)

def topKeywords (limit : Nat) : List String := ((sortedItems lower messages).take limit).map fun item => (ofLex item).2

/-! ## the digest -/

/-- An entry of `scored` -/
structure Scored where
  score : Nat
  seq : Nat
  messageId : String
deriving DecidableEq

def Scored.key (entry : Scored) : ℤ ×ₗ Nat := toLex (-(entry.score : ℤ), entry.seq)

/-- How many of the keywords a content has -/
def score (keywords : List String) (content : String) : Nat :=
  ((tokenize lower content).filter fun token => token ∈ keywords).card

def highlights (scored : List Scored) (limit : Nat) : List String :=
  let selected := (scored.insertionSort fun e e' => e.key ≤ e'.key).take limit
  (selected.insertionSort fun e e' => e.seq ≤ e'.seq).map Scored.messageId

def bounded (limit : Int) (cap : Nat) : Nat := (max 0 (min limit cap)).toNat

/-- `summarize_messages`, and the text of its `ValueError` -/
def summarizeMessages (keywordLimit highlightLimit : Int) : Except String CommsDigest :=
  match messages with
  | [] => .error "messages must not be empty"
  | first :: rest =>
      if maxMessages < (first :: rest).length then .error s!"messages must not exceed {maxMessages} entries"
      else if ∃ m ∈ first :: rest, m.tenantId ≠ first.tenantId ∨ m.channelId ≠ first.channelId then
        .error "messages must all share the same tenant_id and channel_id"
      else
        let keywords := topKeywords lower (first :: rest) (bounded keywordLimit maxKeywords)
        let scored := (first :: rest).map fun m => ⟨score lower keywords m.content, m.seq, m.messageId⟩
        .ok {
          tenantId := first.tenantId
          channelId := first.channelId
          messageCount := (first :: rest).length
          participantIds := ((first :: rest).map DigestMessage.senderUserId).toFinset.sort (· ≤ ·)
          periodStart := (rest.map DigestMessage.createdAt).foldl min first.createdAt
          periodEnd := (rest.map DigestMessage.createdAt).foldl max first.createdAt
          topKeywords := keywords
          highlightMessageIds := highlights scored (bounded highlightLimit maxHighlights) }

/-! ## the law of a digest -/

/-- More messages contain `token` than `token'`, or as many, and it comes first in the alphabet. -/
def Precedes (token token' : String) : Prop :=
  tokenCount lower messages token' < tokenCount lower messages token ∨
    tokenCount lower messages token = tokenCount lower messages token' ∧ token < token'

instance : DecidableRel (Precedes lower messages) := fun _ _ => inferInstanceAs (Decidable (_ ∨ _))

/-- Fewer than `limit` tokens precede it. -/
def IsTop (limit : Nat) (token : String) : Prop :=
  ((vocabulary lower messages).filter fun other => Precedes lower messages other token).card < limit

instance (limit : Nat) : DecidablePred (IsTop lower messages limit) := fun _ => inferInstanceAs (Decidable (_ < _))

/-- What a message is ranked by: how many of the first tokens it has, and its `seq`. -/
def ranked (limit : Nat) (m : DigestMessage) : Scored :=
  ⟨((tokenize lower m.content).filter fun token => IsTop lower messages limit token).card, m.seq, m.messageId⟩

def OneChannel : Prop := ∀ m ∈ messages, ∀ m' ∈ messages, m.tenantId = m'.tenantId ∧ m.channelId = m'.channelId

/-- The messages are of one channel, and not too many. -/
structure Accepted : Prop where
  nonempty : messages ≠ []
  length_le : messages.length ≤ maxMessages
  same : OneChannel messages

/-- What a digest says of the messages. -/
structure DigestLaw (keywordLimit highlightLimit : Int) (digest : CommsDigest) : Prop where
  keywords : ∃ order : List String, order.Pairwise (Precedes lower messages) ∧
    (∀ token, token ∈ order ↔ ∃ m ∈ messages, token ∈ tokenize lower m.content) ∧
    digest.topKeywords = order.take (bounded keywordLimit maxKeywords)
  highlights : ∃ selected rest : List DigestMessage, (selected ++ rest).Perm messages ∧
    selected.length = min (bounded highlightLimit maxHighlights) messages.length ∧
    digest.highlightMessageIds = selected.map DigestMessage.messageId ∧
    (selected.Pairwise fun m m' => m.seq ≤ m'.seq) ∧
    ∀ m ∈ selected, ∀ m' ∈ rest, score lower digest.topKeywords m'.content ≤ score lower digest.topKeywords m.content
  nodup : digest.highlightMessageIds.Nodup

/-- The digest depends on no order, and it keeps its law. -/
structure Digested (keywordLimit highlightLimit : Int) : Prop where
  perm : ∀ messages' : List DigestMessage, messages'.Perm messages →
    summarizeMessages lower messages' keywordLimit highlightLimit =
      summarizeMessages lower messages keywordLimit highlightLimit
  law : ∀ digest, summarizeMessages lower messages keywordLimit highlightLimit = .ok digest →
    DigestLaw lower messages keywordLimit highlightLimit digest

variable {lower messages} {messages' : List DigestMessage}

/-! ## no order matters for the keywords -/

variable {token token' : String} {limit : Nat} {m first : DigestMessage} {keywordLimit highlightLimit : Int}
  {digest : CommsDigest}

theorem mem_vocabulary : token ∈ vocabulary lower messages ↔ ∃ m ∈ messages, token ∈ tokenize lower m.content := by
  simp [vocabulary]

theorem vocabulary_of_perm (h : messages'.Perm messages) : vocabulary lower messages' = vocabulary lower messages := by
  rw [vocabulary, vocabulary, List.toFinset_eq_of_perm _ _ h]

theorem itemKey_of_perm (h : messages'.Perm messages) : itemKey lower messages' = itemKey lower messages := by
  funext token
  rw [itemKey, itemKey, tokenCount, tokenCount, h.countP_eq]

theorem topKeywords_of_perm (h : messages'.Perm messages) (limit : Nat) :
    topKeywords lower messages' limit = topKeywords lower messages limit := by
  rw [topKeywords, topKeywords, sortedItems, sortedItems, vocabulary_of_perm h, itemKey_of_perm h]

theorem itemKey_lt :
    itemKey lower messages token < itemKey lower messages token' ↔ Precedes lower messages token token' := by
  rw [itemKey, itemKey, Prod.Lex.toLex_lt_toLex, Precedes]
  simp

theorem itemKey_injective : Function.Injective (itemKey lower messages) := fun _ _ h =>
  congrArg (fun item => (ofLex item).2) h

theorem mem_sortedItems {item : ℤ ×ₗ String} :
    item ∈ sortedItems lower messages ↔ ∃ token ∈ vocabulary lower messages, itemKey lower messages token = item := by
  simp [sortedItems]

/-- The tokens, each in its place -/
def order (lower : String → String) (messages : List DigestMessage) : List String :=
  (sortedItems lower messages).map fun item => (ofLex item).2

theorem sortedItems_eq : sortedItems lower messages = (order lower messages).map (itemKey lower messages) := by
  rw [order, List.map_map]
  refine (List.map_id _).symm.trans (List.map_congr_left fun item hitem => ?_)
  obtain ⟨token, -, rfl⟩ := mem_sortedItems.mp hitem
  rfl

theorem pairwise_sortedItems : (sortedItems lower messages).Pairwise (· < ·) := (Finset.sortedLT_sort _).pairwise

theorem mem_order : token ∈ order lower messages ↔ ∃ m ∈ messages, token ∈ tokenize lower m.content := by
  rw [← mem_vocabulary, ← List.mem_map_of_injective itemKey_injective, ← sortedItems_eq, mem_sortedItems]
  exact ⟨fun ⟨_, h, heq⟩ => itemKey_injective heq ▸ h, fun h => ⟨_, h, rfl⟩⟩

theorem pairwise_order : (order lower messages).Pairwise (Precedes lower messages) := by
  have h : (sortedItems lower messages).Pairwise (· < ·) := pairwise_sortedItems
  rw [sortedItems_eq, List.pairwise_map] at h
  exact h.imp itemKey_lt.mp

theorem topKeywords_eq (limit : Nat) : topKeywords lower messages limit = (order lower messages).take limit := by
  rw [topKeywords, List.map_take, order]

theorem mem_topKeywords (h : token ∈ vocabulary lower messages) :
    token ∈ topKeywords lower messages limit ↔ IsTop lower messages limit token := by
  have hcount : (sortedItems lower messages).countP (· < itemKey lower messages token) =
      ((vocabulary lower messages).filter fun other => Precedes lower messages other token).card := by
    rw [← Multiset.coe_countP, sortedItems, Finset.sort_eq, Multiset.countP_eq_card_filter, ← Finset.filter_val,
      Finset.card_val, Finset.filter_image, Finset.card_image_of_injective _ itemKey_injective]
    simp only [itemKey_lt]
  have hmem : itemKey lower messages token ∈ sortedItems lower messages := mem_sortedItems.mpr ⟨token, h, rfl⟩
  rw [IsTop, ← hcount, ← mem_take_iff pairwise_sortedItems hmem, sortedItems_eq, ← List.map_take,
    List.mem_map_of_injective itemKey_injective, topKeywords_eq]

theorem score_topKeywords (hm : m ∈ messages) :
    score lower (topKeywords lower messages limit) m.content = (ranked lower messages limit m).score :=
  congrArg Finset.card (Finset.filter_congr fun _ htoken => mem_topKeywords (mem_vocabulary.mpr ⟨m, hm, htoken⟩))

theorem scored_eq (limit : Nat) :
    (messages.map fun m => (⟨score lower (topKeywords lower messages limit) m.content, m.seq, m.messageId⟩ : Scored)) =
      messages.map (ranked lower messages limit) :=
  List.map_congr_left fun m hm => by rw [score_topKeywords hm, ranked]

theorem ranked_of_perm (h : messages'.Perm messages) (limit : Nat) :
    ranked lower messages' limit = ranked lower messages limit := by
  have hprecedes (token token' : String) :
      Precedes lower messages' token token' ↔ Precedes lower messages token token' := by
    simp [Precedes, tokenCount, h.countP_eq]
  have htop (token : String) : IsTop lower messages' limit token ↔ IsTop lower messages limit token := by
    rw [IsTop, IsTop, vocabulary_of_perm h, Finset.filter_congr fun other _ => hprecedes other token]
  funext m
  rw [ranked, ranked, Finset.filter_congr fun token _ => htop token]

/-! ## the digest of another order -/

theorem foldl_of_perm {α : Type} {op : α → α → α} [Std.Associative op] [Std.Commutative op] [Std.IdempotentOp op]
    {x y : α} {xs ys : List α} (h : (x :: xs).Perm (y :: ys)) : xs.foldl op x = ys.foldl op y := by
  have hidem (x : α) : op x x = x := Std.IdempotentOp.idempotent x
  have hstep {x y : α} {xs ys : List α} (h : (x :: xs).Perm (y :: ys)) : xs.foldl op x = op x (ys.foldl op y) := calc
    xs.foldl op x = (x :: xs).foldl op x := by rw [List.foldl_cons, hidem]
    _ = (y :: ys).foldl op x := h.foldl_op_eq
    _ = op x (ys.foldl op y) := List.foldl_assoc
  have hx : xs.foldl op x = op x (op y (xs.foldl op x)) := (hstep h).trans (congrArg (op x) (hstep h.symm))
  calc xs.foldl op x = op x (op y (xs.foldl op x)) := hx
    _ = op y (op x (op y (xs.foldl op x))) := by ac_rfl
    _ = op y (xs.foldl op x) := by rw [← hx]
    _ = ys.foldl op y := (hstep h.symm).symm

theorem mixed_iff {rest : List DigestMessage} :
    (∃ m ∈ first :: rest, m.tenantId ≠ first.tenantId ∨ m.channelId ≠ first.channelId) ↔
      ¬ OneChannel (first :: rest) := by
  constructor
  · rintro ⟨m, hm, hne⟩ hsame
    have h := hsame m hm first List.mem_cons_self
    simp [h.1, h.2] at hne
  · intro hnot
    by_contra hall
    have hfirst (m : DigestMessage) (hm : m ∈ first :: rest) :
        m.tenantId = first.tenantId ∧ m.channelId = first.channelId := by
      by_contra hne
      exact hall ⟨m, hm, not_and_or.mp hne⟩
    refine hnot fun m hm m' hm' => ?_
    rw [(hfirst m hm).1, (hfirst m hm).2, (hfirst m' hm').1, (hfirst m' hm').2]
    exact ⟨rfl, rfl⟩

theorem oneChannel_of_perm (h : messages'.Perm messages) : OneChannel messages' ↔ OneChannel messages := by
  simp only [OneChannel, h.mem_iff]

/-- The digest does not depend on the order, if its lists do not. -/
theorem summarizeMessages_of_perm (hperm : messages'.Perm messages)
    (hlisted : Accepted messages → listed Scored.key Scored.seq Scored.messageId (bounded highlightLimit maxHighlights)
        (messages'.map (ranked lower messages (bounded keywordLimit maxKeywords))) =
      listed Scored.key Scored.seq Scored.messageId (bounded highlightLimit maxHighlights)
        (messages.map (ranked lower messages (bounded keywordLimit maxKeywords)))) :
    summarizeMessages lower messages' keywordLimit highlightLimit =
      summarizeMessages lower messages keywordLimit highlightLimit := by
  cases messages with
  | nil => rw [List.perm_nil.mp hperm]
  | cons first rest =>
      cases messages' with
      | nil => exact absurd hperm.symm (List.not_perm_nil_cons _ _ ∘ List.Perm.symm)
      | cons first' rest' =>
          have hlength : (first' :: rest').length = (first :: rest).length := hperm.length_eq
          rw [summarizeMessages, summarizeMessages, hlength, topKeywords_of_perm hperm]
          by_cases hmany : maxMessages < (first :: rest).length
          · rw [if_pos hmany, if_pos hmany]
          · rw [if_neg hmany, if_neg hmany]
            by_cases hsame : OneChannel (first :: rest)
            · have hsame' : OneChannel (first' :: rest') := (oneChannel_of_perm hperm).mpr hsame
              have hfirst := hsame first' (hperm.subset List.mem_cons_self) first List.mem_cons_self
              rw [if_neg fun h => mixed_iff.mp h hsame, if_neg fun h => mixed_iff.mp h hsame']
              simp only [hfirst.1, hfirst.2, List.toFinset_eq_of_perm _ _ (hperm.map DigestMessage.senderUserId),
                foldl_of_perm (hperm.map DigestMessage.createdAt)]
              rw [← topKeywords_of_perm hperm, scored_eq, topKeywords_of_perm hperm, scored_eq, ranked_of_perm hperm]
              have hhighlights : highlights _ _ = highlights _ _ :=
                hlisted ⟨List.cons_ne_nil _ _, Nat.not_lt.mp hmany, hsame⟩
              rw [hhighlights]
            · have hsame' : ¬ OneChannel (first' :: rest') := mt (oneChannel_of_perm hperm).mp hsame
              rw [if_pos (mixed_iff.mpr hsame), if_pos (mixed_iff.mpr hsame')]

theorem summarizeMessages_of_accepted (lower : String → String) (keywordLimit highlightLimit : Int)
    (h : Accepted messages) :
    ∃ digest, summarizeMessages lower messages keywordLimit highlightLimit = .ok digest ∧
      digest.topKeywords = topKeywords lower messages (bounded keywordLimit maxKeywords) ∧
      digest.highlightMessageIds = listed Scored.key Scored.seq Scored.messageId (bounded highlightLimit maxHighlights)
        (messages.map (ranked lower messages (bounded keywordLimit maxKeywords))) := by
  cases messages with
  | nil => exact absurd rfl h.nonempty
  | cons first rest =>
      have hok : ¬ ∃ m ∈ first :: rest, m.tenantId ≠ first.tenantId ∨ m.channelId ≠ first.channelId :=
        fun hmixed => mixed_iff.mp hmixed h.same
      refine ⟨_, by rw [summarizeMessages, if_neg (Nat.not_lt.mpr h.length_le), if_neg hok], rfl, ?_⟩
      rw [← scored_eq]
      rfl

theorem accepted_of_ok (h : summarizeMessages lower messages keywordLimit highlightLimit = .ok digest) :
    Accepted messages := by
  cases messages with
  | nil => cases h
  | cons first rest =>
      rw [summarizeMessages] at h
      split at h
      · cases h
      · next hlength =>
          split at h
          · cases h
          · next hsame =>
              rw [mixed_iff, not_not] at hsame
              exact ⟨List.cons_ne_nil _ _, Nat.not_lt.mp hlength, hsame⟩

/-! ## when the law is kept -/

theorem key_eq_iff {e e' : Scored} : e.key = e'.key ↔ e.score = e'.score ∧ e.seq = e'.seq := by
  simp [Scored.key, Prod.ext_iff]

theorem settled_scored {scored : List Scored} : Settled Scored.key Scored.messageId limit scored ↔
    (∀ scored', scored'.Perm scored → listed Scored.key Scored.seq Scored.messageId limit scored' =
      listed Scored.key Scored.seq Scored.messageId limit scored) ∧
    (listed Scored.key Scored.seq Scored.messageId limit scored).Nodup := by
  refine settled_iff (fun e e' hkey hid => ?_) fun e e' hkey => (key_eq_iff.mp hkey).2
  cases e
  cases e'
  obtain ⟨rfl, rfl⟩ := key_eq_iff.mp hkey
  exact congrArg _ hid

theorem digestLaw_iff (hkeywords : digest.topKeywords = topKeywords lower messages (bounded keywordLimit maxKeywords))
    (hhighlights : digest.highlightMessageIds =
      listed Scored.key Scored.seq Scored.messageId (bounded highlightLimit maxHighlights)
        (messages.map (ranked lower messages (bounded keywordLimit maxKeywords)))) :
    DigestLaw lower messages keywordLimit highlightLimit digest ↔ digest.highlightMessageIds.Nodup := by
  refine ⟨DigestLaw.nodup, fun hnodup => ⟨⟨order lower messages, pairwise_order, fun _ => mem_order, ?_⟩, ?_, hnodup⟩⟩
  · rw [hkeywords, topKeywords_eq]
  · rw [listed_map] at hhighlights
    obtain ⟨selected, rest, hperm, hlength, hlisted, hseq, hkey⟩ :=
      listed_eq_map (fun m => (ranked lower messages (bounded keywordLimit maxKeywords) m).key) DigestMessage.seq
        DigestMessage.messageId (bounded highlightLimit maxHighlights) messages
    refine ⟨selected, rest, hperm, hlength, hhighlights.trans hlisted, hseq, fun m hm m' hm' => ?_⟩
    rw [hkeywords, score_topKeywords (hperm.subset (List.mem_append_left _ hm)),
      score_topKeywords (hperm.subset (List.mem_append_right _ hm'))]
    have hle := hkey m hm m' hm'
    rw [Scored.key, Scored.key, Prod.Lex.toLex_le_toLex] at hle
    omega

/-- **A digest depends on no order and keeps its law** just when, of the messages that fewer than the
limit are ahead of, no two have an id in common, and no two tie, but for two of one id in the last place. -/
theorem digested_iff (lower : String → String) (messages : List DigestMessage) (keywordLimit highlightLimit : Int) :
    Digested lower messages keywordLimit highlightLimit ↔
      (Accepted messages → Settled Scored.key Scored.messageId (bounded highlightLimit maxHighlights)
        (messages.map (ranked lower messages (bounded keywordLimit maxKeywords)))) := by
  constructor
  · intro h hacc
    obtain ⟨digest, hok, -, hhighlights⟩ := summarizeMessages_of_accepted lower keywordLimit highlightLimit hacc
    refine settled_scored.mpr ⟨fun scored' hscored => ?_, hhighlights ▸ (h.law digest hok).nodup⟩
    -- Whatever the order of the entries, it is that of some list of the messages.
    have hcomp := List.eq_map_comp_perm (ranked lower messages (bounded keywordLimit maxKeywords))
    obtain ⟨messages', rfl, hperm⟩ := (congrFun₂ hcomp scored' messages).mpr hscored
    have hok' := (h.perm messages' hperm).trans hok
    obtain ⟨digest', heq, -, hhighlights'⟩ :=
      summarizeMessages_of_accepted lower keywordLimit highlightLimit (accepted_of_ok hok')
    obtain rfl : digest = digest' := Except.ok.inj (hok'.symm.trans heq)
    rw [← hhighlights, hhighlights', ranked_of_perm hperm]
  · intro h
    refine ⟨fun messages' hperm => summarizeMessages_of_perm hperm fun hacc => ?_, fun digest hok => ?_⟩
    · exact (settled_scored.mp (h hacc)).1 _ (hperm.map _)
    · have hacc := accepted_of_ok hok
      obtain ⟨digest', hok', hkeywords, hhighlights⟩ :=
        summarizeMessages_of_accepted lower keywordLimit highlightLimit hacc
      obtain rfl : digest = digest' := Except.ok.inj (hok.symm.trans hok')
      exact (digestLaw_iff hkeywords hhighlights).mpr (hhighlights ▸ (settled_scored.mp (h hacc)).2)

/-! ## two messages of one `seq` -/

def sampleMessage (messageId : String) : DigestMessage := ⟨messageId, "t", "c", "u", "", 0, 0⟩

/-- **The order shows.** -/
theorem order_shows : ¬ Digested String.toLower [sampleMessage "m", sampleMessage "n"] 10 1 := by
  intro h
  have hsame := h.perm [sampleMessage "n", sampleMessage "m"] (List.Perm.swap _ _ _)
  exact absurd hsame (by decide +kernel)

end Anoryx.Rendly.Summary
